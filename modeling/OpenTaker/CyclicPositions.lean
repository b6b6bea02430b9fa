import Mathlib.Tactic.Common
import Mathlib.Data.Nat.ModEq

/-!
# Positions of a log stored modulo the length of a buffer

A cyclic buffer of `size` cells stores an unbounded position as its remainder.
Two positions less than one lap apart are told apart by their remainders, and
their distance is recovered by adding one lap when the later one has wrapped.
The laws below are the exactness conditions of the usual tests of such buffers:
equality for emptiness, equality at a safety distance for fullness, and
comparison after a one-lap correction for advancing.
-/

namespace OpenTaker.CyclicPositions

/-- Add one lap to a stored position that is numerically behind another. -/
def lifted (size current ahead : Nat) : Nat :=
  if ahead < current then ahead + size else ahead

/-- Positions less than one lap apart have equal remainders only if equal. -/
theorem mod_eq_iff {size first second : Nat} (ahead : first ≤ second)
    (within : second < first + size) : first % size = second % size ↔ first = second := by
  constructor
  · intro same
    have multiple : size ∣ second - first := (Nat.modEq_iff_dvd' ahead).mp same
    have vanishes : second - first = 0 := Nat.eq_zero_of_dvd_of_lt multiple (by omega)
    omega
  · rintro rfl
    rfl

/-- The one-lap correction recovers the distance to a position ahead. -/
theorem lifted_mod {size first second : Nat} (ahead : first ≤ second)
    (within : second < first + size) :
    lifted size (first % size) (second % size) = first % size + (second - first) := by
  have positive : 0 < size := by omega
  have firstBound : first % size < size := Nat.mod_lt first positive
  obtain ⟨gap, rfl⟩ := Nat.exists_eq_add_of_le ahead
  have sum : (first + gap) % size = (first % size + gap) % size := (Nat.mod_add_mod ..).symm
  rw [sum, Nat.add_sub_cancel_left, lifted]
  -- Less than one lap ahead, the sum passes the end of the buffer at most once.
  by_cases stays : first % size + gap < size
  · rw [Nat.mod_eq_of_lt stays, if_neg (by omega)]
  · have wrapped : (first % size + gap) % size = first % size + gap - size := by
      rw [Nat.mod_eq_sub_mod (by omega), Nat.mod_eq_of_lt (by omega)]
    rw [wrapped, if_pos (by omega)]
    omega

/-- Advancing a stored position is advancing the position it stands for. -/
theorem advance_mod (size position count : Nat) :
    (position % size + count) % size = (position + count) % size :=
  Nat.mod_add_mod position size count

/-- In a buffer of at least two cells whose writer keeps a distance of two
cells, the stored positions meet at that distance exactly when it is used up. -/
theorem full_mod_iff {size reader writer : Nat} (several : 2 ≤ size) (ahead : reader ≤ writer)
    (within : writer ≤ reader + (size - 2)) :
    (writer % size + 2) % size = reader % size ↔ writer = reader + (size - 2) := by
  rw [advance_mod]
  have shifted : reader % size = (reader + size) % size := (Nat.add_mod_right reader size).symm
  rw [shifted, mod_eq_iff (by omega) (by omega)]
  omega

/-- One lap covers every cell: the cells of fewer than `size` consecutive
positions are distinct. -/
theorem cells_distinct {size start first second : Nat} (firstIn : start ≤ first)
    (firstBound : first < start + size) (secondIn : start ≤ second)
    (secondBound : second < start + size) (same : first % size = second % size) :
    first = second := by
  rcases Nat.le_total first second with ordered | ordered
  · exact (mod_eq_iff ordered (by omega)).mp same
  · exact ((mod_eq_iff ordered (by omega)).mp same.symm).symm

/-- Between two positions less than one lap apart the buffer starts over exactly
when the earlier one is stored at cell 0 or the later one is stored behind it. -/
theorem starts_over_iff {size first last : Nat} (ahead : first ≤ last)
    (within : last < first + size) :
    (∃ middle, first ≤ middle ∧ middle ≤ last ∧ middle % size = 0) ↔
      first % size = 0 ∨ last % size < first % size := by
  have positive : 0 < size := by omega
  have firstBound : first % size < size := Nat.mod_lt first positive
  have distance := lifted_mod ahead within
  simp only [lifted] at distance
  constructor
  · rintro ⟨middle, after, before, zero⟩
    by_contra neither
    rw [if_neg (by omega)] at distance
    obtain ⟨gap, rfl⟩ := Nat.exists_eq_add_of_le after
    -- The whole stretch lies inside one lap, behind the first position's cell.
    have lastBound : last % size < size := Nat.mod_lt last positive
    rw [← Nat.mod_add_mod, Nat.mod_eq_of_lt (by omega)] at zero
    omega
  · rintro (zero | behind)
    · exact ⟨first, Nat.le_refl _, ahead, zero⟩
    · rw [if_pos behind] at distance
      refine ⟨first + (size - first % size), by omega, by omega, ?_⟩
      rw [← Nat.mod_add_mod, Nat.add_sub_cancel' (by omega), Nat.mod_self]

end OpenTaker.CyclicPositions
