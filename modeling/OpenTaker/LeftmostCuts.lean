import Mathlib.Tactic.Common

/-!
# Cuts at the leftmost occurrences of a delimiter

A text is cut in front of the leftmost occurrence of the delimiter and behind it, and what is
left is cut in the same way. Occurrences that overlap compete, and the leftmost wins. An empty
delimiter cuts nothing.
-/

namespace OpenTaker.LeftmostCuts

universe u
variable {α : Type u}

/-- The delimiter stands at this position and at none before. -/
def IsLeftmost (delim text : List α) (pos : Nat) : Prop :=
  delim <+: text.drop pos ∧ ∀ earlier < pos, ¬ delim <+: text.drop earlier

/-- The parts of a text, cut at each leftmost occurrence of the delimiter that is left. -/
inductive Cuts (delim : List α) : List α → List (List α) → Prop where
  | whole (text : List α) (uncut : delim = [] ∨ ¬ delim <:+: text) : Cuts delim text [text]
  | cut (text : List α) (pos : Nat) (parts : List (List α)) (nonempty : delim ≠ [])
      (leftmost : IsLeftmost delim text pos) (rest : Cuts delim (text.drop (pos + delim.length)) parts) :
      Cuts delim text (text.take pos :: parts)

variable {delim text : List α} {pos other : Nat} {parts : List (List α)}

/-- A text stands somewhere in another one just if it stands at some position. -/
theorem isInfix_iff : delim <:+: text ↔ ∃ pos, delim <+: text.drop pos := by
  rw [List.infix_iff_prefix_suffix]
  constructor
  · rintro ⟨rest, occurs, suffix⟩
    rw [List.suffix_iff_eq_drop] at suffix
    exact ⟨_, suffix ▸ occurs⟩
  · rintro ⟨pos, occurs⟩
    exact ⟨_, occurs, List.drop_suffix pos text⟩

namespace IsLeftmost

/-- There is one leftmost position at most, by which the cuts are determined. -/
theorem unique (first : IsLeftmost delim text pos) (second : IsLeftmost delim text other) : pos = other := by
  rcases Nat.lt_trichotomy pos other with earlier | same | later
  · exact absurd first.1 (second.2 pos earlier)
  · exact same
  · exact absurd second.1 (first.2 other later)

/-- The delimiter ends within the text, so that what stands behind it is shorter. -/
theorem bound (leftmost : IsLeftmost delim text pos) (nonempty : delim ≠ []) :
    pos + delim.length ≤ text.length := by
  have long := leftmost.1.length_le
  have positive := List.length_pos_iff.mpr nonempty
  rw [List.length_drop] at long
  omega

/-- No occurrence fits in front of the leftmost one. -/
theorem not_isInfix_take (leftmost : IsLeftmost delim text pos) (nonempty : delim ≠ []) :
    ¬ delim <:+: text.take pos := by
  rw [isInfix_iff]
  rintro ⟨earlier, occurs⟩
  have long := occurs.length_le
  have positive := List.length_pos_iff.mpr nonempty
  rw [List.length_drop, List.length_take] at long
  apply leftmost.2 earlier (by omega)
  rw [List.drop_take] at occurs
  exact occurs.trans (List.take_prefix _ _)

end IsLeftmost

namespace Cuts

/-- A delimiter cuts a text in one way only. -/
theorem unique {otherParts : List (List α)} (cuts : Cuts delim text parts)
    (again : Cuts delim text otherParts) :
    parts = otherParts := by
  induction cuts generalizing otherParts with
  | whole text uncut =>
    cases again with
    | whole _ _ => rfl
    | cut _ pos rest nonempty leftmost _ =>
      exact absurd (isInfix_iff.mpr ⟨pos, leftmost.1⟩) (uncut.resolve_left nonempty)
  | cut text pos parts nonempty leftmost rest inductionHypothesis =>
    cases again with
    | whole _ uncut => exact absurd (isInfix_iff.mpr ⟨pos, leftmost.1⟩) (uncut.resolve_left nonempty)
    | cut _ other _ _ otherLeftmost otherRest =>
      obtain rfl := leftmost.unique otherLeftmost
      rw [inductionHypothesis otherRest]

/-- No part contains the delimiter, since each cut is made at the first place it stands. -/
theorem not_isInfix (cuts : Cuts delim text parts) (nonempty : delim ≠ []) :
    ∀ part ∈ parts, ¬ delim <:+: part := by
  induction cuts with
  | whole text uncut =>
    intro part member
    rw [List.mem_singleton] at member
    exact member ▸ uncut.resolve_left nonempty
  | cut text pos parts nonempty leftmost rest inductionHypothesis =>
    intro part member
    rcases List.mem_cons.mp member with rfl | later
    · exact leftmost.not_isInfix_take nonempty
    · exact inductionHypothesis part later

end Cuts

end OpenTaker.LeftmostCuts
