import Mathlib.Data.List.Chain
import Mathlib.Data.List.Nodup

/-!
# Linked segments

A segment is a list of cells, each of which stores the address of the next one. The word of
the last cell belongs to the segment but says nothing: whatever is written there, the
segment is the same. Two segments become one when the last cell of the first is linked to
the first cell of the second.

Nothing here says what a cell is or who writes the words.
-/

namespace OpenTaker.LinkedSegments

universe u
variable {α : Type u} {link other : α → Option α} {cell second : α} {cells following : List α}

/-- Each cell is linked to the next one, whatever the last one is linked to. -/
def Linked (link : α → Option α) (cells : List α) : Prop :=
  cells.IsChain (fun cell next => link cell = some next)

/-- Whether cells are linked in their order can be decided by following the links. -/
instance [DecidableEq α] (link : α → Option α) (cells : List α) : Decidable (Linked link cells) :=
  inferInstanceAs (Decidable (cells.IsChain fun cell next => link cell = some next))

/-- No cells are linked, trivially: there is no next one to be linked to. -/
theorem linked_nil : Linked link [] := .nil

/-- A single cell needs no link, as it has no next one. -/
theorem linked_singleton (cell : α) : Linked link [cell] := .singleton cell

/-- The second cell stands in the word of the first. -/
theorem Linked.next (linked : Linked link (cell :: second :: cells)) : link cell = some second :=
  (List.isChain_cons_cons.mp linked).1

/-- Without its first cell a segment is linked as before. -/
theorem Linked.rest (linked : Linked link (cell :: cells)) : Linked link cells :=
  List.IsChain.tail linked

/-- Only the words of cells that another one follows matter. -/
theorem Linked.congr (linked : Linked link cells) (same : ∀ cell ∈ cells.dropLast, other cell = link cell) :
    Linked other cells := by
  induction cells with
  | nil => exact linked_nil
  | cons first rest inductionHypothesis =>
    cases rest with
    | nil => exact linked_singleton first
    | cons next rest =>
      rw [List.dropLast_cons_of_ne_nil (List.cons_ne_nil next rest)] at same
      obtain ⟨here, later⟩ := List.forall_mem_cons.mp same
      exact List.IsChain.cons_cons (here.trans linked.next) (inductionHypothesis linked.rest later)

/-- The last cell of one segment is linked to the first one of the other. -/
theorem Linked.append (linked : Linked link cells) (behind : Linked link following)
    (joined : ∀ last ∈ cells.getLast?, ∀ head ∈ following.head?, link last = some head) :
    Linked link (cells ++ following) :=
  List.IsChain.append linked behind joined

variable [DecidableEq α]

/-- A write to a cell that is not in the segment. -/
theorem Linked.elsewhere (linked : Linked link cells) (value : Option α) (absent : cell ∉ cells) :
    Linked (Function.update link cell value) cells := by
  apply linked.congr
  intro found member
  have distinct : found ≠ cell := by
    rintro rfl
    exact absent (List.dropLast_subset cells member)
  exact Function.update_of_ne distinct value link

/-- A write to the last cell breaks no link, because the last cell's own link is not asked for. -/
theorem Linked.lastWritten (linked : Linked link cells) (distinct : cells.Nodup)
    (isLast : cells.getLast? = some cell) (value : Option α) :
    Linked (Function.update link cell value) cells := by
  apply linked.congr
  intro found member
  have other : found ≠ cell := by
    rintro rfl
    rw [List.getLast?_eq_some_iff] at isLast
    obtain ⟨before, rfl⟩ := isLast
    rw [List.dropLast_concat] at member
    have apart := (List.nodup_append.mp distinct).2.2 found member found (List.mem_singleton_self found)
    exact apart rfl
  exact Function.update_of_ne other value link

end OpenTaker.LinkedSegments
