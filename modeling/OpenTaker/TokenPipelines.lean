import Mathlib.Data.List.Basic
import Mathlib.Data.List.Perm.Basic
import Mathlib.Logic.Function.Basic
import Mathlib.Tactic.Common

/-!
# Pipelines of serial and parallel filters

Items enter a pipeline one after the other and pass its filters in their order. A serial
filter takes the items in the order in which they entered, a parallel one takes any item
that has passed the filters before it. The items leave in the order in which they entered,
after the last filter.

Each filter keeps a log of the items it has taken. What the logs say of the items follows
from where the live items stand: a filter has taken the items that left and the live ones
beyond it, each of them once, and a serial filter has taken them in their order.
-/

namespace OpenTaker.TokenPipelines

variable {α : Type*}

/-- A pipeline between two steps: the items that have left, those inside with their stages, and what
each filter has taken. -/
structure Line (α : Type*) where
  /-- The items inside, in the order in which they entered, with the number of filters each
  has passed. -/
  live : List (α × Nat)
  /-- The items a filter has taken. -/
  logs : Nat → List α
  /-- The items that have left. -/
  gone : List α

namespace Line

/-- A pipeline that nothing has entered, with empty logs. -/
def empty : Line α := ⟨[], fun _ => [], []⟩

/-- Everything that has entered, in its order: what has left, and behind it what is live. -/
def entered (line : Line α) : List α := line.gone ++ line.live.map Prod.fst

/-- An item enters at the end of the line, in front of the first filter. -/
def enter (line : Line α) (item : α) : Line α := { line with live := line.live ++ [(item, 0)] }

/-- The live item at an index passes the filter it stands before. -/
def pass (line : Line α) (index : Nat) (token : α × Nat) : Line α :=
  { line with
    live := line.live.set index (token.1, token.2 + 1)
    logs := Function.update line.logs token.2 (line.logs token.2 ++ [token.1]) }

/-- The oldest live item leaves, which it may only when it has passed all filters. -/
def leave (line : Line α) : Line α :=
  { line with live := line.live.tail, gone := line.gone ++ (line.live.head?.map Prod.fst).toList }

/-- Entering is at the end of the line, so that nothing leaves by it. -/
@[simp] theorem enter_gone (line : Line α) (item : α) : (line.enter item).gone = line.gone := rfl

/-- What enters is the youngest item, in front of the first filter. -/
@[simp] theorem enter_live (line : Line α) (item : α) :
    (line.enter item).live = line.live ++ [(item, 0)] := rfl

/-- Passing a filter is not leaving, even when it is the last one. -/
@[simp] theorem pass_gone (line : Line α) (index : Nat) (token : α × Nat) :
    (line.pass index token).gone = line.gone := rfl

/-- The live item at the index may pass: there is a filter before it, and if that is serial,
every item that entered earlier has passed it. -/
def MayPass (serial : Nat → Bool) (filters : Nat) (line : Line α) (index : Nat)
    (token : α × Nat) : Prop :=
  line.live[index]? = some token ∧ token.2 < filters ∧
    (serial token.2 = true → ∀ earlier ∈ line.live.take index, token.2 < earlier.2)

/-- Whether an item may pass can be decided on the line, so that example runs can be evaluated. -/
instance [DecidableEq α] (serial : Nat → Bool) (filters : Nat) (line : Line α) (index : Nat)
    (token : α × Nat) : Decidable (MayPass serial filters line index token) :=
  inferInstanceAs (Decidable (_ ∧ _))

/-- The oldest live item may leave: it has passed all filters. -/
def MayLeave (filters : Nat) (line : Line α) (item : α) : Prop :=
  line.live.head? = some (item, filters)

end Line

/-- The live items beyond a filter, which have been taken by it. -/
def beyond (filter : Nat) (live : List (α × Nat)) : List α :=
  (live.filter fun token => filter < token.2).map Prod.fst

/-- Nothing is beyond a filter in an empty line. -/
@[simp] theorem beyond_nil (filter : Nat) : beyond filter ([] : List (α × Nat)) = [] := rfl

/-- An item is beyond a filter when its stage is larger. The order of the line stays. -/
theorem beyond_cons (filter : Nat) (token : α × Nat) (rest : List (α × Nat)) :
    beyond filter (token :: rest) =
      if filter < token.2 then token.1 :: beyond filter rest else beyond filter rest := by
  simp only [beyond, List.filter_cons, decide_eq_true_eq]
  split <;> rfl

/-- The items beyond a filter are taken from both parts of a line in turn, which the proof for a
pass splits it into. -/
theorem beyond_append (filter : Nat) (first second : List (α × Nat)) :
    beyond filter (first ++ second) = beyond filter first ++ beyond filter second := by
  simp only [beyond, List.filter_append, List.map_append]

/-- Nothing is beyond a filter that no item has passed. -/
theorem beyond_eq_nil {filter : Nat} {live : List (α × Nat)}
    (before : ∀ token ∈ live, ¬ filter < token.2) : beyond filter live = [] := by
  have none : live.filter (fun token => filter < token.2) = [] :=
    List.filter_eq_nil_iff.mpr fun token member => by simpa using before token member
  rw [beyond, none, List.map_nil]

/-- Where the live items stand, and what the logs say of them. -/
structure Logged (serial : Nat → Bool) (filters : Nat) (line : Line α) : Prop where
  staged : ∀ token ∈ line.live, token.2 ≤ filters
  /-- No item overtakes another one at a serial filter. -/
  ordered : ∀ filter < filters, serial filter = true →
    line.live.Pairwise fun earlier later => filter < later.2 → filter < earlier.2
  inOrder : ∀ filter < filters, serial filter = true →
    line.logs filter = line.gone ++ beyond filter line.live
  once : ∀ filter < filters, (line.logs filter).Perm (line.gone ++ beyond filter line.live)

/-- A line that nothing has entered has empty logs. -/
theorem logged_empty (serial : Nat → Bool) (filters : Nat) :
    Logged serial filters (.empty : Line α) where
  staged _ member := absurd member List.not_mem_nil
  ordered _ _ _ := List.Pairwise.nil
  inOrder _ _ _ := rfl
  once _ _ := List.Perm.refl _

namespace Logged

variable {serial : Nat → Bool} {filters index : Nat} {line : Line α} {token : α × Nat} {item : α}

/-- An item that enters has passed no filter, so that the records of all filters stay as they are. -/
theorem enter (logged : Logged serial filters line) (item : α) :
    Logged serial filters (line.enter item) := by
  have same : ∀ filter, beyond filter (line.enter item).live = beyond filter line.live := by
    intro filter
    simp [beyond_append, beyond_cons]
  constructor
  case staged =>
    intro token member
    rcases List.mem_append.mp member with old | new
    · exact logged.staged token old
    · rw [List.mem_singleton.mp new]
      exact Nat.zero_le _
  case ordered =>
    intro filter inside isSerial
    refine List.pairwise_append.mpr
      ⟨logged.ordered filter inside isSerial, List.pairwise_singleton _ _, ?_⟩
    intro earlier _ later new passed
    rw [List.mem_singleton.mp new] at passed
    exact absurd passed (Nat.not_lt_zero _)
  case inOrder =>
    intro filter inside isSerial
    rw [same]
    exact logged.inOrder filter inside isSerial
  case once =>
    intro filter inside
    rw [same]
    exact logged.once filter inside

/-- The live items around one of them, of which only that one changes when it passes a filter. -/
theorem around (here : line.live[index]? = some token) :
    line.live = line.live.take index ++ token :: line.live.drop (index + 1) ∧
      (line.pass index token).live =
        line.live.take index ++ (token.1, token.2 + 1) :: line.live.drop (index + 1) := by
  obtain ⟨inside, isToken⟩ := List.getElem?_eq_some_iff.mp here
  constructor
  · rw [← isToken, ← List.drop_eq_getElem_cons inside, List.take_append_drop]
  · simp only [Line.pass]
    rw [List.set_eq_take_append_cons_drop, if_pos inside]

/-- An item that passes a filter is beyond it now, and beyond the same other ones. -/
theorem pass (logged : Logged serial filters line)
    (may : Line.MayPass serial filters line index token) :
    Logged serial filters (line.pass index token) := by
  obtain ⟨here, inside, first⟩ := may
  obtain ⟨before, after⟩ := around here
  generalize line.live.take index = front at before after first
  generalize line.live.drop (index + 1) = back at before after
  have others : ∀ filter, filter ≠ token.2 →
      beyond filter (line.pass index token).live = beyond filter line.live := by
    intro filter different
    rw [before, after, beyond_append, beyond_append, beyond_cons, beyond_cons]
    have same : filter < token.2 + 1 ↔ filter < token.2 := by omega
    simp only [same]
  have own : beyond token.2 line.live = beyond token.2 front ++ beyond token.2 back ∧
      beyond token.2 (line.pass index token).live =
        beyond token.2 front ++ token.1 :: beyond token.2 back := by
    rw [before, after, beyond_append, beyond_append, beyond_cons, beyond_cons]
    simp
  constructor
  case staged =>
    intro other member
    rw [after] at member
    have known : other ∈ front ∨ other ∈ back → other.2 ≤ filters := by
      intro old
      apply logged.staged
      rw [before]
      simp only [List.mem_append, List.mem_cons]
      tauto
    simp only [List.mem_append, List.mem_cons] at member
    rcases member with old | rfl | old
    · exact known (.inl old)
    · exact inside
    · exact known (.inr old)
  case ordered =>
    intro filter bound isSerial
    have ordered := logged.ordered filter bound isSerial
    rw [before] at ordered
    rw [after]
    simp only [List.pairwise_append, List.pairwise_cons, List.mem_cons] at ordered ⊢
    obtain ⟨frontOrdered, ⟨tokenOrdered, backOrdered⟩, crossing⟩ := ordered
    refine ⟨frontOrdered, ⟨fun later member passed => ?_, backOrdered⟩, fun earlier member later either => ?_⟩
    · have known := tokenOrdered later member passed
      show filter < token.2 + 1
      omega
    · rcases either with rfl | old
      · intro passed
        have limit : filter < token.2 + 1 := passed
        by_cases same : filter = token.2
        · rw [same]
          exact first (same ▸ isSerial) earlier member
        · exact crossing earlier member token (.inl rfl) (by omega)
      · exact crossing earlier member later (.inr old)
  case inOrder =>
    intro filter bound isSerial
    have inOrder := logged.inOrder filter bound isSerial
    by_cases same : filter = token.2
    · subst same
      -- The filter is serial, so nothing that entered later is beyond it.
      have ordered := logged.ordered token.2 bound isSerial
      rw [before] at ordered
      have later : beyond token.2 back = [] := by
        apply beyond_eq_nil
        intro other member passed
        have overtaken := (List.pairwise_cons.mp (List.pairwise_append.mp ordered).2.1).1 other member passed
        exact Nat.lt_irrefl _ overtaken
      simp only [Line.pass, Function.update_self]
      rw [inOrder, own.1, later]
      have afterOwn := own.2
      simp only [Line.pass, later] at afterOwn
      rw [afterOwn]
      simp
    · rw [others filter same]
      simpa [Line.pass, same] using inOrder
  case once =>
    intro filter bound
    have once := logged.once filter bound
    by_cases same : filter = token.2
    · subst same
      rw [own.1] at once
      rw [own.2]
      simp only [Line.pass, Function.update_self]
      refine (once.append_right [token.1]).trans ?_
      simp only [List.append_assoc]
      refine List.Perm.append_left _ (List.Perm.append_left _ ?_)
      exact List.perm_append_singleton token.1 (beyond token.2 back)
    · rw [others filter same]
      simpa [Line.pass, same] using once

/-- An item that leaves was beyond every filter, and what has left has passed them all. -/
theorem leave (logged : Logged serial filters line) (may : Line.MayLeave filters line item) :
    Logged serial filters line.leave := by
  obtain ⟨rest, live⟩ := List.head?_eq_some_iff.mp may
  have kept : ∀ filter < filters,
      line.leave.gone ++ beyond filter line.leave.live = line.gone ++ beyond filter line.live := by
    intro filter inside
    simp [Line.leave, live, beyond_cons, inside]
  have remaining : line.leave.live = rest := by simp [Line.leave, live]
  constructor
  case staged =>
    intro token member
    rw [remaining] at member
    apply logged.staged
    rw [live]
    exact List.mem_cons_of_mem _ member
  case ordered =>
    intro filter inside isSerial
    have ordered := logged.ordered filter inside isSerial
    rw [live] at ordered
    rw [remaining]
    exact (List.pairwise_cons.mp ordered).2
  case inOrder =>
    intro filter inside isSerial
    rw [kept filter inside]
    exact logged.inOrder filter inside isSerial
  case once =>
    intro filter inside
    rw [kept filter inside]
    exact logged.once filter inside

end Logged

/-! ## What has entered -/

namespace Line

variable {serial : Nat → Bool} {filters index : Nat} {line : Line α} {token : α × Nat} {item : α}

/-- All that has entered: what has left and what is live, with the new item at the end. -/
@[simp] theorem entered_enter (line : Line α) (item : α) :
    (line.enter item).entered = line.entered ++ [item] := by
  simp [entered]

/-- Passing a filter changes neither the items nor their order. -/
theorem live_pass (here : line.live[index]? = some token) :
    (line.pass index token).live.map Prod.fst = line.live.map Prod.fst := by
  obtain ⟨before, after⟩ := Logged.around here
  rw [after, List.map_append, List.map_cons]
  conv_rhs => rw [before]
  rw [List.map_append, List.map_cons]

/-- A pass changes a stage and no item, so that what has entered is the same. -/
theorem entered_pass (here : line.live[index]? = some token) :
    (line.pass index token).entered = line.entered := by
  rw [entered, entered, live_pass here, pass_gone]

/-- An item that leaves has entered all the same. -/
theorem entered_leave (may : MayLeave filters line item) :
    line.leave.entered = line.entered ∧ line.leave.gone = line.gone ++ [item] ∧
      line.live = (item, filters) :: line.leave.live := by
  obtain ⟨rest, live⟩ := List.head?_eq_some_iff.mp may
  simp [entered, leave, live]

end Line

/-- When no item overtakes another one, those beyond the filter come first. -/
theorem beyond_first {filter : Nat} {live : List (α × Nat)}
    (ordered : live.Pairwise fun earlier later => filter < later.2 → filter < earlier.2) :
    beyond filter live <+: live.map Prod.fst := by
  induction live with
  | nil => exact List.prefix_rfl
  | cons token rest inductionHypothesis =>
    obtain ⟨first, following⟩ := List.pairwise_cons.mp ordered
    rw [beyond_cons, List.map_cons]
    by_cases passed : filter < token.2
    · rw [if_pos passed]
      exact (List.prefix_cons_inj token.1).mpr (inductionHypothesis following)
    · rw [if_neg passed, beyond_eq_nil fun other member beyondIt => passed (first other member beyondIt)]
      exact List.nil_prefix

namespace Logged

variable {serial : Nat → Bool} {filters : Nat} {line : Line α}

/-- A serial filter has taken the first items that entered, each once and in their order. -/
theorem log_first (logged : Logged serial filters line) (filter : Nat) (inside : filter < filters)
    (isSerial : serial filter = true) : line.logs filter <+: line.entered := by
  rw [logged.inOrder filter inside isSerial, Line.entered]
  exact (List.prefix_append_right_inj _).mpr (beyond_first (logged.ordered filter inside isSerial))

/-- No filter takes an item twice, or one that has not entered. -/
theorem log_subperm (logged : Logged serial filters line) (filter : Nat) (inside : filter < filters) :
    (line.logs filter).Subperm line.entered := by
  refine (logged.once filter inside).subperm.trans ?_
  exact ((List.filter_sublist.map Prod.fst).append_left line.gone).subperm

/-- What has left has passed every filter, and each filter has it in its record. -/
theorem log_of_gone (logged : Logged serial filters line) (filter : Nat) (inside : filter < filters) :
    ∀ item ∈ line.gone, item ∈ line.logs filter := by
  intro item left
  rw [(logged.once filter inside).mem_iff]
  exact List.mem_append_left _ left

end Logged

end OpenTaker.TokenPipelines
