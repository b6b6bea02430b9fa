import Mathlib.Order.Basic
import Mathlib.Data.Nat.Basic
import Mathlib.Tactic.Common

/-!
# A pipeline of cursors over an unbounded log

One party appends items to a log and `stages` readers pass over it in a fixed
order. Stage 1 follows the tail, each later stage follows the one before it, and
stage 0 is the last of the chain: it follows the highest stage, or the tail when
it is alone. The appender may lead stage 0 by at most `lead` items.

Positions are unbounded counters, so the order of the cursors is the order of
natural numbers. A bounded buffer is an implementation of this pipeline; how it
stores positions is not described here.
-/

namespace OpenTaker.CursorPipeline

/-- The number of items appended and the number of items each stage has passed. -/
structure Cursors where
  tail : Nat
  passed : Nat → Nat

/-- The stage in front of stage `stage`, whose cursor bounds it; in front of stage 0 stands the last
one, as the items come round to it. -/
def follows (stages stage : Nat) : Nat := if stage = 0 then stages - 1 else stage - 1

/-- The position a stage may advance to: the tail for the first of the chain,
the cursor of the followed stage for the others. -/
def limit (stages : Nat) (cursors : Cursors) (stage : Nat) : Nat :=
  if stage = 1 ∨ stage = follows stages stage then cursors.tail
  else cursors.passed (follows stages stage)

/-- Every stage is behind what it follows and the tail leads stage 0 by at most
`lead`. -/
structure Ordered (stages lead : Nat) (cursors : Cursors) : Prop where
  behind : ∀ stage < stages, cursors.passed stage ≤ limit stages cursors stage
  bounded : cursors.tail ≤ cursors.passed 0 + lead

/-- Append one item at the tail, where all stages have still to pass it. -/
def Cursors.append (cursors : Cursors) : Cursors := { cursors with tail := cursors.tail + 1 }

/-- Move one stage forward by so many items, which it has passed then. -/
def Cursors.advance (cursors : Cursors) (stage count : Nat) : Cursors :=
  { cursors with
    passed := Function.update cursors.passed stage (cursors.passed stage + count) }

/-- The tail counts on by one. The lemmas say for each of the two updates what it does to the tail
and to the stages. -/
@[simp] theorem append_tail (cursors : Cursors) : cursors.append.tail = cursors.tail + 1 := rfl

/-- Appending a block passes nothing: the cursors of all stages stay where they are. -/
@[simp] theorem append_passed (cursors : Cursors) : cursors.append.passed = cursors.passed := rfl

/-- Advancing a stage appends nothing: the tail is moved by a claim alone. -/
@[simp] theorem advance_tail (cursors : Cursors) (stage count : Nat) :
    (cursors.advance stage count).tail = cursors.tail := rfl

/-- The stage that advances has passed so many more. -/
@[simp] theorem advance_passed_self (cursors : Cursors) (stage count : Nat) :
    (cursors.advance stage count).passed stage = cursors.passed stage + count := by
  simp [Cursors.advance]

/-- The other stages stay, which gives the order of the pipeline its two neighbours. -/
theorem advance_passed_other (cursors : Cursors) (stage other count : Nat)
    (distinct : other ≠ stage) :
    (cursors.advance stage count).passed other = cursors.passed other := by
  simp [Cursors.advance, distinct]

/-- No cursor ever moves back, so that what a stage has passed stays passed. -/
theorem passed_le_advance (cursors : Cursors) (stage other count : Nat) :
    cursors.passed other ≤ (cursors.advance stage count).passed other := by
  by_cases same : other = stage
  · subst same
    simp
  · rw [advance_passed_other cursors stage other count same]

/-- A stage after the first of a chain of several follows its predecessor. -/
theorem limit_of_later (stages : Nat) (cursors : Cursors) (stage : Nat) (later : 2 ≤ stage) :
    limit stages cursors stage = cursors.passed (stage - 1) := by
  have notFirst : ¬ (stage = 1 ∨ stage = follows stages stage) := by
    simp only [follows]
    split <;> omega
  have predecessor : follows stages stage = stage - 1 := by
    simp only [follows]
    split <;> omega
  rw [limit, if_neg notFirst, predecessor]

/-- The first stage behind the tail is limited by the tail alone. -/
theorem limit_of_first (stages : Nat) (cursors : Cursors) : limit stages cursors 1 = cursors.tail := by
  simp [limit]

/-- The last stage of a chain of several follows the highest one. -/
theorem limit_of_last (stages : Nat) (cursors : Cursors) (several : 2 ≤ stages) :
    limit stages cursors 0 = cursors.passed (stages - 1) := by
  have notAlone : ¬ ((0 : Nat) = 1 ∨ 0 = follows stages 0) := by
    simp only [follows, ↓reduceIte]
    omega
  rw [limit, if_neg notAlone]
  simp [follows]

/-- A single stage is limited by the tail as well, since there is nobody it has to wait for. -/
theorem limit_of_alone (cursors : Cursors) : limit 1 cursors 0 = cursors.tail := by
  simp [limit, follows]

/-- Appending or advancing elsewhere never takes back what a stage may reach. -/
theorem limit_le_append (stages : Nat) (cursors : Cursors) (stage : Nat) :
    limit stages cursors stage ≤ limit stages cursors.append stage := by
  simp only [limit, append_tail, append_passed]
  split <;> omega

/-- No limit falls when a stage advances, so that what a reader may see it may go on seeing. -/
theorem limit_le_advance (stages : Nat) (cursors : Cursors) (stage moved count : Nat) :
    limit stages cursors stage ≤ limit stages (cursors.advance moved count) stage := by
  simp only [limit, advance_tail]
  split
  · exact Nat.le_refl _
  · exact passed_le_advance cursors moved _ count

/-- No stage other than the last is ahead of the tail, by induction along the
chain from stage 1. -/
theorem Ordered.later_le_tail {stages lead : Nat} {cursors : Cursors}
    (ordered : Ordered stages lead cursors) (stage : Nat) (inside : stage + 1 < stages) :
    cursors.passed (stage + 1) ≤ cursors.tail := by
  induction stage with
  | zero =>
    have behind := ordered.behind 1 inside
    rwa [limit_of_first] at behind
  | succ stage inductionHypothesis =>
    have behind := ordered.behind (stage + 2) inside
    rw [limit_of_later stages cursors (stage + 2) (by omega)] at behind
    exact behind.trans (inductionHypothesis (by omega))

/-- No stage is ahead of the tail: each is behind the one it follows, and the first behind the tail. -/
theorem Ordered.le_tail {stages lead : Nat} {cursors : Cursors}
    (ordered : Ordered stages lead cursors) (stage : Nat) (inside : stage < stages) :
    cursors.passed stage ≤ cursors.tail := by
  cases stage with
  | succ stage => exact ordered.later_le_tail stage inside
  | zero =>
    have behind := ordered.behind 0 inside
    by_cases several : 2 ≤ stages
    · rw [limit_of_last stages cursors several] at behind
      have highest := ordered.later_le_tail (stages - 2) (by omega)
      have last : stages - 2 + 1 = stages - 1 := by omega
      rw [last] at highest
      exact behind.trans highest
    · have alone : stages = 1 := by omega
      subst alone
      rwa [limit_of_alone] at behind

/-- What stage 0 may reach is behind every other stage, by induction down the
chain from the highest. -/
theorem Ordered.limit_last_le {stages lead : Nat} {cursors : Cursors}
    (ordered : Ordered stages lead cursors) (stage : Nat) (inside : stage < stages)
    (notLast : stage ≠ 0) : limit stages cursors 0 ≤ cursors.passed stage := by
  rw [limit_of_last stages cursors (by omega)]
  have fromTop : ∀ gap, gap + 1 < stages →
      cursors.passed (stages - 1) ≤ cursors.passed (stages - 1 - gap) := by
    intro gap
    induction gap with
    | zero =>
      intro _
      exact Nat.le_refl _
    | succ gap inductionHypothesis =>
      intro several
      have above := inductionHypothesis (by omega)
      have behind := ordered.behind (stages - 1 - gap) (by omega)
      rw [limit_of_later stages cursors _ (by omega)] at behind
      rw [Nat.sub_add_eq]
      exact above.trans behind
  have reached := fromTop (stages - 1 - stage) (by omega)
  rwa [Nat.sub_sub_self (by omega)] at reached

/-- Stage 0 is behind every stage: what it has passed, all have passed, so that it may be freed. -/
theorem Ordered.last_le {stages lead : Nat} {cursors : Cursors}
    (ordered : Ordered stages lead cursors) (stage : Nat) (inside : stage < stages) :
    cursors.passed 0 ≤ cursors.passed stage := by
  by_cases isLast : stage = 0
  · rw [isLast]
  · exact (ordered.behind 0 (by omega)).trans (ordered.limit_last_le stage inside isLast)

/-- What a stage may reach lies between the last stage and the tail. -/
theorem Ordered.limit_le_tail {stages lead : Nat} {cursors : Cursors}
    (ordered : Ordered stages lead cursors) (stage : Nat) (inside : stage < stages) :
    limit stages cursors stage ≤ cursors.tail := by
  simp only [limit]
  split
  · exact Nat.le_refl _
  · apply ordered.le_tail
    simp only [follows]
    split <;> omega

/-- Appending below the lead keeps the order, as the tail is then at most the lead in front of stage
0. -/
theorem Ordered.append {stages lead : Nat} {cursors : Cursors}
    (ordered : Ordered stages lead cursors) (room : cursors.tail < cursors.passed 0 + lead) :
    Ordered stages lead cursors.append where
  behind stage inside := (ordered.behind stage inside).trans (limit_le_append stages cursors stage)
  bounded := room

/-- A stage that stops at or before its limit keeps the order. -/
theorem Ordered.advance {stages lead : Nat} {cursors : Cursors}
    (ordered : Ordered stages lead cursors) (stage count : Nat)
    (within : cursors.passed stage + count ≤ limit stages cursors stage) :
    Ordered stages lead (cursors.advance stage count) where
  behind other inside := by
    have grows := limit_le_advance stages cursors other stage count
    by_cases same : other = stage
    · subst same
      rw [advance_passed_self]
      exact within.trans grows
    · rw [advance_passed_other cursors stage other count same]
      exact (ordered.behind other inside).trans grows
  bounded := by
    have grows := passed_le_advance cursors stage 0 count
    have bounded := ordered.bounded
    rw [advance_tail]
    omega

/-- Cursors that all stand at one position are in order. -/
theorem ordered_of_aligned (stages lead : Nat) (cursors : Cursors)
    (aligned : ∀ stage, cursors.passed stage = cursors.tail) : Ordered stages lead cursors where
  behind stage _ := by
    simp only [limit]
    split <;> simp [aligned]
  bounded := by simp [aligned]

end OpenTaker.CursorPipeline
