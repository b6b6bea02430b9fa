import Mathlib.Data.Set.Card

/-!
# Counting the parties at a place

Any number of parties stand at places, finitely many of them at places of some kind. When a
party moves, their number changes by one at most.
-/

namespace OpenTaker.Census

variable {ι α : Type*} {stands : α → Prop} {places : ι → α}

/-- The parties that stand at a place of the kind, as the set whose size the counts of the code are
to agree with. -/
def standing (stands : α → Prop) (places : ι → α) : Set ι := {party | stands (places party)}

/-- The number of these parties. It is taken in the natural numbers, so that an infinite set would
count as none; hence the finiteness in the lemmas. -/
noncomputable def count (stands : α → Prop) (places : ι → α) : Nat := (standing stands places).ncard

/-- Where nobody stands, the count is zero. A protocol starts like this, with all its parties
elsewhere. -/
theorem count_eq_zero (nobody : ∀ party, ¬ stands (places party)) : count stands places = 0 := by
  have none : standing stands places = ∅ := Set.eq_empty_of_forall_notMem nobody
  rw [count, none, Set.ncard_empty]

variable [DecidableEq ι] {party : ι} {place : α}

/-- A party that moves between two places of the same kind changes nothing in the census. -/
theorem standing_same (same : stands place ↔ stands (places party)) :
    standing stands (Function.update places party place) = standing stands places := by
  ext other
  by_cases moved : other = party
  · simp [standing, moved, same]
  · simp [standing, moved]

/-- A party that comes to the place is added to those who stand there, if it was not there already. -/
theorem standing_enter (enters : stands place) :
    standing stands (Function.update places party place) = insert party (standing stands places) := by
  ext other
  by_cases moved : other = party
  · simp [standing, moved, enters]
  · simp [standing, moved]

/-- A party that leaves is taken out of them, and nobody else is. -/
theorem standing_leave (leaves : ¬ stands place) :
    standing stands (Function.update places party place) = standing stands places \ {party} := by
  ext other
  by_cases moved : other = party
  · simp [standing, moved, leaves]
  · simp [standing, moved]

/-- Only one party moves at a time, so that finitely many stay finitely many. -/
theorem finite_update (finite : (standing stands places).Finite) (party : ι) (place : α) :
    (standing stands (Function.update places party place)).Finite := by
  by_cases stood : stands place
  · rw [standing_enter stood]
    exact finite.insert party
  · rw [standing_leave stood]
    exact finite.sdiff

/-- The count in the first of the three cases: no change. -/
theorem count_same (same : stands place ↔ stands (places party)) :
    count stands (Function.update places party place) = count stands places := by
  rw [count, count, standing_same same]

/-- The count in the second case: one more, by a party that did not stand there before. -/
theorem count_enter (finite : (standing stands places).Finite) (was : ¬ stands (places party))
    (enters : stands place) :
    count stands (Function.update places party place) = count stands places + 1 := by
  have outside : party ∉ standing stands places := was
  rw [count, count, standing_enter enters, Set.ncard_insert_of_notMem outside finite]

/-- The count in the third case: one less, stated without subtraction for the use by `omega`. -/
theorem count_leave (finite : (standing stands places).Finite) (was : stands (places party))
    (leaves : ¬ stands place) :
    count stands (Function.update places party place) + 1 = count stands places := by
  have inside : party ∈ standing stands places := was
  rw [count, count, standing_leave leaves]
  exact Set.ncard_sdiff_singleton_add_one inside finite

end OpenTaker.Census
