import Mathlib.Data.List.Induction

/-!
# Walks through trees of paths

A tree is a set of paths that holds the root and the parent of each path in it, with one of its
paths as the place where walks start. A walk enters a child, goes up or stays. Where it leads is
a matter of its moves alone; that it can be taken needs every place on it to be in the tree.

A walk whose last move enters a child that is missing makes that child. The walks of a row, each
no shorter than those before it and each going along one route up to its last move, reach just
the places that are in the tree or that a walk of the row, no longer than the way there, makes.
-/

namespace OpenTaker.PrefixTrees

universe u

/-- A move of a walk. Only a move that enters a child can make something, so that the two others
are kept apart from it and from each other. -/
inductive Move (α : Type u) where
  | enter (step : α)
  | up
  | stay

namespace Move

variable {α : Type u}

/-- Where a move leads. Above the root there is nothing, and a walk stays there. -/
def next (place : List α) : Move α → List α
  | enter step => place ++ [step]
  | up => place.dropLast
  | stay => place

/-- A move that enters a child, the only kind that has something to make. -/
def enters : Move α → Bool
  | enter _ => true
  | _ => false

end Move

/-- A set of paths that holds the parent of each path in it, and the one of them where walks start.
Both are fields, so that no walk starts outside of its tree. -/
@[ext] structure PathTree (α : Type u) where
  holds : List α → Bool
  root : holds []
  parent : ∀ (path : List α) (step : α), holds (path ++ [step]) → holds path
  start : List α
  start_held : holds start

namespace PathTree

variable {α : Type u} {tree : PathTree α} {moves other route : List (Move α)}

/-- Where a walk leads, whether or not it can be taken. The tree only gives the start, so that growing
it leaves the answer as it is. -/
def reach (tree : PathTree α) (moves : List (Move α)) : List α := moves.foldl Move.next tree.start

/-- Whether a walk from a place can be taken: that place and each one after it is in the tree. -/
def followsFrom (tree : PathTree α) (place : List α) : List (Move α) → Bool
  | [] => tree.holds place
  | move :: rest => tree.holds place && tree.followsFrom (move.next place) rest

/-- Whether a walk can be taken from where walks start. -/
def follows (tree : PathTree α) (moves : List (Move α)) : Bool := tree.followsFrom tree.start moves

/-- The root alone. Walks start there, as there is no other place. -/
def bare (α : Type u) : PathTree α where
  holds := List.isEmpty
  root := rfl
  parent path step held := by simp at held
  start := []
  start_held := rfl

/-- A walk leads where its last move leads from the place before it. -/
theorem reach_concat (last : Move α) : tree.reach (moves ++ [last]) = last.next (tree.reach moves) := by
  rw [reach, List.foldl_append]
  rfl

/-- A move that enters nothing stays within the tree, since the parent of a path in it is in it. -/
theorem holds_next {move : Move α} {place : List α} (enters : move.enters = false)
    (held : tree.holds place) : tree.holds (move.next place) := by
  cases move with
  | enter step => cases enters
  | up =>
    cases place using List.reverseRecOn with
    | nil => exact held
    | append_singleton above step =>
      rw [Move.next, List.dropLast_concat]
      exact tree.parent above step held
  | stay => exact held

/-- A walk whose last move enters a child ends one step below the place before that move. -/
theorem reach_dropLast (enters : moves.getLast?.any Move.enters) :
    (tree.reach moves).dropLast = tree.reach moves.dropLast := by
  cases moves using List.reverseRecOn with
  | nil => cases enters
  | append_singleton before last =>
    rw [List.getLast?_concat, Option.any_some] at enters
    cases last with
    | enter step =>
      rw [List.dropLast_concat, reach_concat]
      exact List.dropLast_concat
    | up => cases enters
    | stay => cases enters

/-- A walk can be followed from a place just if each of its beginnings leads to a place of the tree. -/
theorem followsFrom_iff {place : List α} : tree.followsFrom place moves ↔
    ∀ other, other <+: moves → tree.holds (other.foldl Move.next place) := by
  induction moves generalizing place with
  | nil =>
    rw [followsFrom]
    constructor
    · rintro held other nothing
      rw [List.prefix_nil.mp nothing]
      exact held
    · exact fun all => all [] (List.prefix_refl [])
  | cons move rest inductionHypothesis =>
    rw [followsFrom, Bool.and_eq_true, inductionHypothesis]
    constructor
    · rintro ⟨held, all⟩ other beginning
      rcases List.prefix_cons_iff.mp beginning with rfl | ⟨inner, rfl, inside⟩
      · exact held
      · exact all inner inside
    · intro all
      exact ⟨all [] List.nil_prefix, fun inner inside =>
        all (move :: inner) ((List.prefix_cons_inj move).mpr inside)⟩

/-- A walk can be taken just if each of its beginnings leads into the tree. This is how all proofs speak
of walks, while the recursion is what is computed. -/
theorem follows_iff : tree.follows moves ↔ ∀ other, other <+: moves → tree.holds (tree.reach other) :=
  followsFrom_iff

/-- A walk that can be taken ends in the tree. -/
theorem holds_of_follows (follows : tree.follows moves) : tree.holds (tree.reach moves) :=
  follows_iff.mp follows moves (List.prefix_refl moves)

/-- What can be walked to the end can be walked up to any place before it. -/
theorem follows_of_start (beginning : other <+: moves) (follows : tree.follows moves) :
    tree.follows other :=
  follows_iff.mpr fun inner inside => follows_iff.mp follows inner (inside.trans beginning)

/-- The way up to the last move and the place behind it are all that a walk asks of a tree. -/
theorem follows_iff_dropLast :
    tree.follows moves ↔ tree.follows moves.dropLast ∧ tree.holds (tree.reach moves) := by
  constructor
  · exact fun follows => ⟨follows_of_start (List.dropLast_prefix moves) follows, holds_of_follows follows⟩
  · rintro ⟨before, held⟩
    refine follows_iff.mpr fun other beginning => ?_
    cases moves using List.reverseRecOn with
    | nil => rwa [List.prefix_nil.mp beginning]
    | append_singleton rest last =>
      rw [List.dropLast_concat] at before
      rcases List.prefix_concat_iff.mp beginning with rfl | inside
      · exact held
      · exact follows_iff.mp before other inside

/-- A beginning of the route that is shorter than a walk along it is passed by the walk. -/
theorem passed_of_shorter {row : List (Move α)} (along : row.dropLast <+: route) (beginning : other <+: route)
    (shorter : other.length < row.length) : other <+: row.dropLast :=
  List.prefix_of_prefix_length_le beginning along (by
    rw [List.length_dropLast]
    omega)

/-- What a walk passes is shorter than the walk, and begins every longer beginning of the route. -/
theorem shorter_of_passed {row : List (Move α)} (along : row.dropLast <+: route)
    (beginning : other <+: route) (nonempty : row ≠ []) (longer : row.length ≤ other.length)
    (passed : moves <+: row.dropLast) :
    moves.length < row.length ∧ moves <+: other := by
  have positive := List.length_pos_iff.mpr nonempty
  have bound := passed.length_le
  rw [List.length_dropLast] at bound
  exact ⟨by omega, List.prefix_of_prefix_length_le (passed.trans along) beginning (by omega)⟩

variable [DecidableEq α]

/-- The tree with a path, if it holds the parent. The condition is part of the value, and keeps what
grows a tree. -/
def grow (tree : PathTree α) (path : List α) : PathTree α where
  holds other := tree.holds other || (decide (other = path) && tree.holds path.dropLast)
  root := by rw [tree.root, Bool.true_or]
  parent other step held := by
    rw [Bool.or_eq_true, Bool.and_eq_true, decide_eq_true_eq] at held ⊢
    rcases held with held | ⟨rfl, held⟩
    · exact Or.inl (tree.parent other step held)
    · rw [List.dropLast_concat] at held
      exact Or.inl held
  start := tree.start
  start_held := by rw [tree.start_held, Bool.true_or]

/-- Whether a walk makes something: its last move enters a child that is missing, and the way up to
that move can be taken. -/
def Makes (tree : PathTree α) (moves : List (Move α)) : Prop :=
  moves.getLast?.any Move.enters ∧ tree.follows moves.dropLast ∧ ¬ tree.holds (tree.reach moves)

/-- Whether a walk makes a new place is a question about the tree before it. -/
instance : Decidable (tree.Makes moves) := inferInstanceAs (Decidable (_ ∧ _))

/-- The tree with the child a walk makes, or as it was. -/
def make (tree : PathTree α) (moves : List (Move α)) : PathTree α :=
  if tree.Makes moves then tree.grow (tree.reach moves) else tree

/-- The tree after a row of walks, taken one after the other. -/
def makeAll (tree : PathTree α) (rows : List (List (Move α))) : PathTree α := rows.foldl make tree

/-- Growing a tree does not change where walks lead. -/
@[simp] theorem reach_make (row : List (Move α)) : (tree.make row).reach moves = tree.reach moves := by
  rw [make]
  split <;> rfl

/-- Nor does a whole row, so that all of its walks may be spoken of in the first tree. -/
@[simp] theorem reach_makeAll (rows : List (List (Move α))) :
    (tree.makeAll rows).reach moves = tree.reach moves := by
  induction rows generalizing tree with
  | nil => rfl
  | cons first rest inductionHypothesis =>
    rw [makeAll, List.foldl_cons, ← makeAll, inductionHypothesis, reach_make]

/-- A walk adds the place it leads to, and no other, if its last move enters a child and the way there
can be taken. That the place is missing need not be said: otherwise nothing changes. -/
theorem holds_make {row : List (Move α)} {place : List α} : (tree.make row).holds place ↔
    tree.holds place ∨ place = tree.reach row ∧ row.getLast?.any Move.enters ∧ tree.follows row.dropLast := by
  rw [make]
  split
  · rename_i makes
    have held : tree.holds (tree.reach row).dropLast := by
      rw [reach_dropLast makes.1]
      exact holds_of_follows makes.2.1
    rw [grow, Bool.or_eq_true, Bool.and_eq_true, decide_eq_true_eq]
    exact or_congr_right (and_congr_right fun _ => iff_of_true held ⟨makes.1, makes.2.1⟩)
  · rename_i idle
    refine (or_iff_left_of_imp ?_).symm
    rintro ⟨rfl, enters, follows⟩
    exact not_not.mp fun missing => idle ⟨enters, follows, missing⟩

/-- A walk of a row leads to the end of another walk, is no longer than it, and enters a child at last.
A longer one would have to be able to take the way there before. -/
def Leads (tree : PathTree α) (rows : List (List (Move α))) (moves : List (Move α)) : Prop :=
  ∃ row ∈ rows, row.getLast?.any Move.enters ∧ row.length ≤ moves.length ∧ tree.reach row = tree.reach moves

/-- Along a route, walks that do not shorten and follow it up to their last moves open just the ways
whose every place was there or is made by one of them. The induction is on the row: what its first
walk adds is either passed by no later one or is there for all of them. -/
theorem follows_makeAll (tree : PathTree α) {rows : List (List (Move α))}
    (ascending : rows.Pairwise (fun earlier later => earlier.length ≤ later.length))
    (along : ∀ row ∈ rows, row.dropLast <+: route) (inside : moves <+: route) :
    (tree.makeAll rows).follows moves ↔
      ∀ other, other <+: moves → tree.holds (tree.reach other) ∨ tree.Leads rows other := by
  induction rows generalizing tree moves with
  | nil =>
    rw [makeAll, List.foldl_nil, follows_iff]
    refine forall₂_congr fun other _ => (or_iff_left ?_).symm
    rintro ⟨row, mem, -⟩
    exact absurd mem List.not_mem_nil
  | cons first rest inductionHypothesis =>
    rw [List.pairwise_cons] at ascending
    have alongRest := fun row mem => along row (List.mem_cons_of_mem first mem)
    have alongFirst := along first List.mem_cons_self
    rw [makeAll, List.foldl_cons, ← makeAll, inductionHypothesis _ ascending.2 alongRest inside]
    simp only [reach_make, Leads]
    constructor
    · intro all other beginning
      rcases all other beginning with held | ⟨row, mem, leads⟩
      · rcases holds_make.mp held with held | ⟨same, enters, follows⟩
        · exact Or.inl held
        · by_cases short : first.length ≤ other.length
          · exact Or.inr ⟨first, List.mem_cons_self, enters, short, same.symm⟩
          · -- The place is passed on the way of the first walk, and was there before it.
            have passed := passed_of_shorter alongFirst (beginning.trans inside) (Nat.lt_of_not_le short)
            exact Or.inl (follows_iff.mp follows other passed)
      · exact Or.inr ⟨row, List.mem_cons_of_mem first mem, leads⟩
    · intro all other beginning
      rcases all other beginning with held | ⟨row, mem, enters, short, same⟩
      · exact Or.inl (holds_make.mpr (Or.inl held))
      · rcases List.mem_cons.mp mem with rfl | later
        · refine Or.inl (holds_make.mpr (Or.inr ⟨same.symm, enters, follows_iff.mpr fun inner within => ?_⟩))
          have nonempty : row ≠ [] := by
            rintro rfl
            cases enters
          obtain ⟨proper, onWay⟩ := shorter_of_passed alongFirst (beginning.trans inside) nonempty short within
          refine (all inner (onWay.trans beginning)).resolve_right ?_
          -- All walks of the row are longer than a proper beginning of its first one.
          rintro ⟨shorter, mem, -, length_le, -⟩
          have longer : row.length ≤ shorter.length := by
            rcases List.mem_cons.mp mem with rfl | later
            · exact Nat.le_refl _
            · exact ascending.1 shorter later
          omega
        · exact Or.inr ⟨row, later, enters, short, same⟩

end PathTree

end OpenTaker.PrefixTrees
