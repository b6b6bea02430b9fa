import Mathlib.Logic.Function.Basic

/-!
# Free lists kept in the free cells

A free list is threaded through the cells it holds: each free cell stores the address of
the next one. The memory is a function from addresses to the links stored there. A list
stays as it is under every write that leaves the words of its cells alone, which is what
the holders of other cells owe to it.

Nothing here says what a cell is or how large it is.
-/

namespace OpenTaker.FreeLists

universe u
variable {α : Type u} {link other : α → Option α} {head : Option α} {cell : α} {cells : List α}

/-- The links lead from the head through these cells to the end of the list. -/
def Chain (link : α → Option α) : Option α → List α → Prop
  | head, [] => head = none
  | head, cell :: rest => head = some cell ∧ Chain link (link cell) rest

/-- The head is the first cell, and the rest of the list hangs on its link. -/
theorem chain_some :
    Chain link (some cell) cells ↔ ∃ rest, cells = cell :: rest ∧ Chain link (link cell) rest := by
  cases cells with
  | nil => simp [Chain]
  | cons first rest =>
    simp only [Chain, Option.some.injEq, List.cons.injEq]
    constructor
    · rintro ⟨rfl, following⟩
      exact ⟨rest, ⟨rfl, rfl⟩, following⟩
    · rintro ⟨_, ⟨rfl, rfl⟩, following⟩
      exact ⟨rfl, following⟩

/-- A list depends on the words of its own cells only. -/
theorem Chain.congr (chain : Chain link head cells) (same : ∀ cell ∈ cells, other cell = link cell) :
    Chain other head cells := by
  induction cells generalizing head with
  | nil => exact chain
  | cons first rest inductionHypothesis =>
    obtain ⟨isHead, following⟩ := chain
    obtain ⟨here, later⟩ := List.forall_mem_cons.mp same
    exact ⟨isHead, inductionHypothesis (here ▸ following) later⟩

/-- The links and the head leave no choice: a list from a head is determined, its end included. -/
theorem Chain.unique {otherCells : List α} (chain : Chain link head cells)
    (otherChain : Chain link head otherCells) : otherCells = cells := by
  induction cells generalizing head otherCells with
  | nil =>
    cases otherCells with
    | nil => rfl
    | cons otherFirst otherRest => exact absurd (chain.symm.trans otherChain.1) (by simp)
  | cons first rest inductionHypothesis =>
    obtain ⟨isHead, following⟩ := chain
    rw [isHead] at otherChain
    obtain ⟨otherRest, rfl, otherFollowing⟩ := chain_some.mp otherChain
    rw [inductionHypothesis following otherFollowing]

/-- From each of its cells on, a list is the list that starts at this cell. -/
theorem Chain.behind {before after : List α} (chain : Chain link head (before ++ cell :: after)) :
    Chain link (some cell) (cell :: after) := by
  induction before generalizing head with
  | nil => exact ⟨rfl, chain.2⟩
  | cons first rest inductionHypothesis => exact inductionHypothesis chain.2

/-- When the links of one cell of a list are changed, no list from the same head holds the same
cells, each of them once: what the cell led to is reached no more, or what it leads to now is
reached twice. -/
theorem Chain.broken {otherCells : List α} (chain : Chain link head cells)
    (otherChain : Chain other head otherCells) (member : cell ∈ cells)
    (same : ∀ found ∈ cells, found ≠ cell → other found = link found) (differ : other cell ≠ link cell)
    (nodup : cells.Nodup) (length : otherCells.length = cells.length)
    (all : ∀ found ∈ cells, found ∈ otherCells) : False := by
  induction cells generalizing head otherCells with
  | nil => exact List.not_mem_nil member
  | cons first rest inductionHypothesis =>
    obtain ⟨isHead, following⟩ := chain
    rw [isHead] at otherChain
    obtain ⟨otherRest, rfl, otherFollowing⟩ := chain_some.mp otherChain
    obtain ⟨absent, restNodup⟩ := List.nodup_cons.mp nodup
    have restLength : otherRest.length = rest.length := Nat.succ.inj length
    have restAll : ∀ found ∈ rest, found ∈ otherRest := by
      intro found inRest
      refine (List.mem_cons.mp (all found (List.mem_cons_of_mem first inRest))).resolve_left ?_
      rintro rfl
      exact absent inRest
    by_cases here : first = cell
    · subst here
      cases rest with
      | nil =>
        obtain rfl := List.length_eq_zero_iff.mp restLength
        exact differ (otherFollowing.trans following.symm)
      | cons next later =>
        have isNext := following.1
        -- The old successor is reached later, and from there the list is as long as it was.
        obtain ⟨before, after, split⟩ := List.append_of_mem (restAll next List.mem_cons_self)
        have old : Chain other (some next) (next :: later) := by
          refine (isNext ▸ following).congr fun found inLater => ?_
          exact same found (List.mem_cons_of_mem first inLater) fun equal => absent (equal ▸ inLater)
        have reached := (split ▸ otherFollowing).behind.unique old
        rw [split, List.length_append, ← reached, Nat.add_eq_right, List.length_eq_zero_iff] at restLength
        rw [restLength, List.nil_append] at split
        rw [split] at otherFollowing
        exact differ (otherFollowing.1.trans isNext.symm)
    · have inRest : cell ∈ rest := (List.mem_cons.mp member).resolve_left (Ne.symm here)
      rw [same first List.mem_cons_self here] at otherFollowing
      exact inductionHypothesis following otherFollowing inRest
        (fun found inside => same found (List.mem_cons_of_mem first inside)) restNodup restLength restAll

variable [DecidableEq α]

/-- A write to a cell that is not in the list. -/
theorem Chain.elsewhere (chain : Chain link head cells) (value : Option α) (absent : cell ∉ cells) :
    Chain (Function.update link cell value) head cells := by
  apply chain.congr
  intro found member
  have distinct : found ≠ cell := by
    rintro rfl
    exact absent member
  exact Function.update_of_ne distinct value link

/-- A cell that is linked to the head becomes the first one. -/
theorem Chain.push (chain : Chain link head cells) (absent : cell ∉ cells) :
    Chain (Function.update link cell head) (some cell) (cell :: cells) := by
  refine ⟨rfl, ?_⟩
  rw [Function.update_self]
  exact chain.elsewhere head absent

/-- The first cell is taken out, whatever its word becomes. -/
theorem Chain.pop {rest : List α} (chain : Chain link (some cell) (cell :: rest))
    (value : Option α) (absent : cell ∉ rest) :
    Chain (Function.update link cell value) (link cell) rest :=
  chain.2.elsewhere value absent

end OpenTaker.FreeLists
