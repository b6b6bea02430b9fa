import Mathlib.Logic.Function.Basic

/-!
# Finite runs of a partial step function

A system is a step function that may refuse a label. A run executes a list of
labels from left to right, and a refused label refuses the whole run. An
invariant is proved one step at a time and carried along every run by one
induction. The same holds when the steps of a run are known to meet a condition
in the states they are taken from, which is how a result about the schedules
that avoid a defect is stated.

Nothing here assumes that the state space is finite or that labels are fair.
-/

namespace OpenTaker.Runs

universe u v
variable {σ : Type u} {α : Type v}

/-- Execute the labels in order; a refused label refuses the run. -/
def run (step : σ → α → Option σ) : σ → List α → Option σ
  | state, [] => some state
  | state, label :: rest => (step state label).bind (fun next => run step next rest)

/-- Each step of the run meets the condition in the state it is taken from. -/
def Meets (step : σ → α → Option σ) (condition : σ → α → Prop) : σ → List α → Prop
  | _, [] => True
  | state, label :: rest =>
      condition state label ∧
        ∀ next, step state label = some next → Meets step condition next rest

/-- Whether the steps of a run meet a decidable condition is decided by running it. -/
instance decideMeets (step : σ → α → Option σ) (condition : σ → α → Prop)
    [decides : ∀ state label, Decidable (condition state label)] :
    ∀ state labels, Decidable (Meets step condition state labels)
  | _, [] => isTrue trivial
  | state, label :: rest =>
      match stepped : step state label with
      | none =>
          decidable_of_iff (condition state label)
            ⟨fun met => ⟨met, fun next reached => by simp [stepped] at reached⟩, fun meets => meets.1⟩
      | some next =>
          have := decideMeets step condition next rest
          decidable_of_iff (condition state label ∧ Meets step condition next rest)
            ⟨fun both => ⟨both.1, fun other reached => by
                rw [stepped] at reached
                exact Option.some.inj reached ▸ both.2⟩,
              fun meets => ⟨meets.1, meets.2 next stepped⟩⟩

/-- A run of a nonempty list takes its first step and continues from there. -/
theorem run_cons (step : σ → α → Option σ) (state final : σ) (label : α) (rest : List α) :
    run step state (label :: rest) = some final ↔
      ∃ next, step state label = some next ∧ run step next rest = some final := by
  simp only [run, Option.bind_eq_some_iff]

/-- A run of two lists passes through the state reached by the first. -/
theorem run_append (step : σ → α → Option σ) (state final : σ) (first second : List α) :
    run step state (first ++ second) = some final ↔
      ∃ middle, run step state first = some middle ∧ run step middle second = some final := by
  induction first generalizing state with
  | nil => simp [run]
  | cons label rest inductionHypothesis =>
    simp only [List.cons_append, run_cons, inductionHypothesis]
    constructor
    · rintro ⟨next, stepped, middle, reached, finished⟩
      exact ⟨middle, ⟨next, stepped, reached⟩, finished⟩
    · rintro ⟨middle, ⟨next, stepped, reached⟩, finished⟩
      exact ⟨next, stepped, middle, reached, finished⟩

/-- What every step preserves holds at the end of every run. Every prefix of a
run is a run, so this covers each state passed on the way. -/
theorem run_invariant (step : σ → α → Option σ) (invariant : σ → Prop)
    (preserved : ∀ state label next, invariant state → step state label = some next →
      invariant next)
    (state final : σ) (labels : List α) (initial : invariant state)
    (ran : run step state labels = some final) : invariant final := by
  induction labels generalizing state with
  | nil =>
    have same : state = final := Option.some.inj ran
    exact same ▸ initial
  | cons label rest inductionHypothesis =>
    obtain ⟨next, stepped, finished⟩ := (run_cons step state final label rest).mp ran
    exact inductionHypothesis next (preserved state label next initial stepped) finished

/-- The same for the runs whose steps meet a condition: only those steps have to
preserve the invariant. -/
theorem run_invariant_meets (step : σ → α → Option σ) (condition : σ → α → Prop)
    (invariant : σ → Prop)
    (preserved : ∀ state label next, invariant state → condition state label →
      step state label = some next → invariant next)
    (state final : σ) (labels : List α) (initial : invariant state)
    (meets : Meets step condition state labels)
    (ran : run step state labels = some final) : invariant final := by
  induction labels generalizing state with
  | nil =>
    have same : state = final := Option.some.inj ran
    exact same ▸ initial
  | cons label rest inductionHypothesis =>
    obtain ⟨next, stepped, finished⟩ := (run_cons step state final label rest).mp ran
    exact inductionHypothesis next (preserved state label next initial meets.1 stepped)
      (meets.2 next stepped) finished

/-- A run that meets two conditions meets both of them at each step. -/
theorem Meets.and {step : σ → α → Option σ} {first second : σ → α → Prop} {state : σ} {labels : List α}
    (one : Meets step first state labels) (two : Meets step second state labels) :
    Meets step (fun state label => first state label ∧ second state label) state labels := by
  induction labels generalizing state with
  | nil => trivial
  | cons label rest inductionHypothesis =>
    exact ⟨⟨one.1, two.1⟩, fun next stepped => inductionHypothesis (one.2 next stepped) (two.2 next stepped)⟩

/-- A condition on the labels alone is met by the runs of the labels that fulfil it. -/
theorem meets_of_forall (step : σ → α → Option σ) (condition : α → Prop) (state : σ)
    (labels : List α) (fulfilled : ∀ label ∈ labels, condition label) :
    Meets step (fun _ label => condition label) state labels := by
  induction labels generalizing state with
  | nil => trivial
  | cons label rest inductionHypothesis =>
    obtain ⟨now, later⟩ := List.forall_mem_cons.mp fulfilled
    exact ⟨now, fun next _ => inductionHypothesis next later⟩

/-- Two conditions are met by the same runs inside of a domain, when they say the same as long
as an invariant holds, and the steps that meet the second one keep it. -/
theorem meets_iff_meets (step : σ → α → Option σ) (domain property condition : σ → α → Prop)
    (invariant : σ → Prop)
    (same : ∀ state label, invariant state → domain state label →
      (property state label ↔ condition state label))
    (preserved : ∀ state label next, invariant state → domain state label → condition state label →
      step state label = some next → invariant next)
    (state : σ) (labels : List α) (initial : invariant state)
    (within : Meets step domain state labels) :
    Meets step property state labels ↔ Meets step condition state labels := by
  induction labels generalizing state with
  | nil => exact Iff.rfl
  | cons label rest inductionHypothesis =>
    have now := same state label initial within.1
    have later : condition state label → ∀ next, step state label = some next →
        (Meets step property next rest ↔ Meets step condition next rest) :=
      fun met next stepped => inductionHypothesis next
        (preserved state label next initial within.1 met stepped) (within.2 next stepped)
    constructor
    · rintro ⟨holds, following⟩
      have met := now.mp holds
      exact ⟨met, fun next stepped => (later met next stepped).mp (following next stepped)⟩
    · rintro ⟨met, following⟩
      exact ⟨now.mpr met, fun next stepped => (later met next stepped).mpr (following next stepped)⟩

/-- The property holds in each state of the run, the first and the last included. -/
def Throughout (step : σ → α → Option σ) (property : σ → Prop) : σ → List α → Prop
  | state, [] => property state
  | state, label :: rest =>
      property state ∧ ∀ next, step state label = some next → Throughout step property next rest

/-- In particular it holds in the last state of the run. -/
theorem throughout_final (step : σ → α → Option σ) (property : σ → Prop) (state final : σ) (labels : List α)
    (throughout : Throughout step property state labels) (ran : run step state labels = some final) :
    property final := by
  induction labels generalizing state with
  | nil =>
    have same : state = final := Option.some.inj ran
    exact same ▸ throughout
  | cons label rest inductionHypothesis =>
    obtain ⟨next, stepped, finished⟩ := (run_cons step state final label rest).mp ran
    exact inductionHypothesis next (throughout.2 next stepped) finished

/-- When the steps that meet a condition keep an invariant, what it implies holds in each
state of the runs whose steps meet the condition. -/
theorem throughout_of_meets (step : σ → α → Option σ) (condition : σ → α → Prop)
    (invariant property : σ → Prop) (implied : ∀ state, invariant state → property state)
    (preserved : ∀ state label next, invariant state → condition state label →
      step state label = some next → invariant next)
    (state : σ) (labels : List α) (initial : invariant state)
    (meets : Meets step condition state labels) : Throughout step property state labels := by
  induction labels generalizing state with
  | nil => exact implied state initial
  | cons label rest inductionHypothesis =>
    refine ⟨implied state initial, fun next stepped => ?_⟩
    exact inductionHypothesis next (preserved state label next initial meets.1 stepped)
      (meets.2 next stepped)

/-- When the steps that meet a condition keep an invariant, and every other step leads
out of a property that the invariant implies, the property holds throughout exactly the
runs whose steps meet the condition. -/
theorem throughout_iff_meets (step : σ → α → Option σ) (condition : σ → α → Prop)
    (invariant property : σ → Prop) (implied : ∀ state, invariant state → property state)
    (preserved : ∀ state label next, invariant state → condition state label →
      step state label = some next → invariant next)
    (taken : ∀ state label, ¬ condition state label → ∃ next, step state label = some next)
    (broken : ∀ state label next, invariant state → ¬ condition state label →
      step state label = some next → ¬ property next)
    (state : σ) (labels : List α) (initial : invariant state) :
    Throughout step property state labels ↔ Meets step condition state labels := by
  constructor
  · intro throughout
    induction labels generalizing state with
    | nil => trivial
    | cons label rest inductionHypothesis =>
      have met : condition state label := by
        by_contra missed
        obtain ⟨next, stepped⟩ := taken state label missed
        apply broken state label next initial missed stepped
        have after := throughout.2 next stepped
        cases rest with
        | nil => exact after
        | cons _ _ => exact after.1
      refine ⟨met, fun next stepped => ?_⟩
      exact inductionHypothesis next (preserved state label next initial met stepped)
        (throughout.2 next stepped)
  · exact throughout_of_meets step condition invariant property implied preserved state labels initial

/-- Forward simulation: when each step of one system is matched by a run of another from
every related state, so is each run. -/
theorem simulates {τ : Type*} {β : Type*} (step : σ → α → Option σ) (simulating : τ → β → Option τ)
    (relates : σ → τ → Prop)
    (matched : ∀ state shown label next, relates state shown → step state label = some next →
      ∃ labels after, run simulating shown labels = some after ∧ relates next after)
    (state final : σ) (labels : List α) (shown : τ) (related : relates state shown)
    (ran : run step state labels = some final) :
    ∃ matching after, run simulating shown matching = some after ∧ relates final after := by
  induction labels generalizing state shown with
  | nil =>
    have same : state = final := Option.some.inj ran
    exact ⟨[], shown, rfl, same ▸ related⟩
  | cons label rest inductionHypothesis =>
    obtain ⟨next, stepped, finished⟩ := (run_cons step state final label rest).mp ran
    obtain ⟨first, middle, reached, nextRelated⟩ := matched state shown label next related stepped
    obtain ⟨second, after, following, finalRelated⟩ :=
      inductionHypothesis next middle nextRelated finished
    refine ⟨first ++ second, after, ?_, finalRelated⟩
    exact (run_append simulating shown after first second).mpr ⟨middle, reached, following⟩

/-- A state reached by a given run is examined by executing the run. -/
theorem run_reaches (step : σ → α → Option σ) (state : σ) (labels : List α) (condition : σ → Prop)
    [DecidablePred condition]
    (checked : (run step state labels).any (fun final => decide (condition final)) = true) :
    ∃ final, run step state labels = some final ∧ condition final := by
  obtain ⟨final, ran, holds⟩ := (Option.any_eq_true _ _).mp checked
  exact ⟨final, ran, of_decide_eq_true holds⟩

end OpenTaker.Runs
