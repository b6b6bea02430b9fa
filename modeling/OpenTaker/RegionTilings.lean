import Mathlib.Logic.Function.Basic
import Mathlib.Tactic.Common

/-!
# Regions that tile an interval

A family of regions of the integers, each with a start and a size, tiles the interval from
zero to a total when no two of them meet and together they are the interval. A region of no
size is nowhere. The laws are those of an allocator that never frees: the next region is
put at the total, and the total is what the regions say it is.
-/

namespace OpenTaker.RegionTilings

universe u
variable {ι : Type u}

/-- The position lies in the region of this index. -/
def InRegion (start size : ι → Int) (index : ι) (position : Int) : Prop :=
  start index ≤ position ∧ position < start index + size index

/-- The regions are disjoint and fill the interval: each position of it is in one of them, and no
other position is. -/
structure Tiles (start size : ι → Int) (total : Int) : Prop where
  disjoint : ∀ index other position, InRegion start size index position →
    InRegion start size other position → index = other
  fills : ∀ position, (0 ≤ position ∧ position < total) ↔ ∃ index, InRegion start size index position

variable {start size : ι → Int} {total : Int}

/-- Regions of no size tile an interval of none. -/
theorem tiles_of_empty (empty : ∀ index, size index = 0) : Tiles start size 0 := by
  have nowhere : ∀ index position, ¬ InRegion start size index position := by
    rintro index position ⟨lower, upper⟩
    rw [empty index] at upper
    omega
  constructor
  · exact fun index other position inside => absurd inside (nowhere index position)
  · intro position
    constructor
    · omega
    · rintro ⟨index, inside⟩
      exact absurd inside (nowhere index position)

namespace Tiles

/-- A region at zero is no longer than the interval. -/
theorem size_le (tiles : Tiles start size total) {index : ι} (first : start index = 0) :
    size index ≤ max total 0 := by
  by_contra longer
  have inside : InRegion start size index (max total 0) := by
    rw [InRegion, first]
    omega
  have within := (tiles.fills (max total 0)).mpr ⟨index, inside⟩
  omega

/-- The regions determine the total, if there is anything to fill. -/
theorem total_eq {other : Int} (tiles : Tiles start size total) (again : Tiles start size other)
    (positive : 0 < total) : other = total := by
  have same : ∀ position, (0 ≤ position ∧ position < total) ↔ (0 ≤ position ∧ position < other) :=
    fun position => (tiles.fills position).trans (again.fills position).symm
  have last := (same (total - 1)).mp (by omega)
  have otherLast := (same (other - 1)).mpr (by omega)
  omega

variable [DecidableEq ι]

/-- A region that was nowhere is put at the total. -/
theorem append (tiles : Tiles start size total) {index : ι} {extra : Int} (empty : size index = 0)
    (nonnegative : 0 ≤ total) (grows : 0 ≤ extra) :
    Tiles (Function.update start index total) (Function.update size index extra) (total + extra) := by
  have inNew : ∀ position, InRegion (Function.update start index total) (Function.update size index extra)
      index position ↔ total ≤ position ∧ position < total + extra := by
    intro position
    rw [InRegion, Function.update_self, Function.update_self]
  have inOld : ∀ other position, other ≠ index →
      (InRegion (Function.update start index total) (Function.update size index extra) other position ↔
        InRegion start size other position) := by
    intro other position distinct
    rw [InRegion, Function.update_of_ne distinct, Function.update_of_ne distinct, InRegion]
  have below : ∀ other position, InRegion start size other position → position < total :=
    fun other position inside => ((tiles.fills position).mpr ⟨other, inside⟩).2
  constructor
  · intro first second position inFirst inSecond
    by_cases isFirst : first = index
    · by_cases isSecond : second = index
      · rw [isFirst, isSecond]
      · rw [isFirst, inNew] at inFirst
        have before := below second position ((inOld second position isSecond).mp inSecond)
        omega
    · by_cases isSecond : second = index
      · rw [isSecond, inNew] at inSecond
        have before := below first position ((inOld first position isFirst).mp inFirst)
        omega
      · exact tiles.disjoint first second position ((inOld first position isFirst).mp inFirst)
          ((inOld second position isSecond).mp inSecond)
  · intro position
    constructor
    · rintro ⟨lower, upper⟩
      by_cases before : position < total
      · obtain ⟨other, inside⟩ := (tiles.fills position).mp ⟨lower, before⟩
        have distinct : other ≠ index := by
          rintro rfl
          rw [InRegion, empty] at inside
          omega
        exact ⟨other, (inOld other position distinct).mpr inside⟩
      · exact ⟨index, (inNew position).mpr ⟨by omega, upper⟩⟩
    · rintro ⟨other, inside⟩
      by_cases isNew : other = index
      · rw [isNew, inNew] at inside
        omega
      · have old := (tiles.fills position).mpr ⟨other, (inOld other position isNew).mp inside⟩
        omega

end Tiles

end OpenTaker.RegionTilings
