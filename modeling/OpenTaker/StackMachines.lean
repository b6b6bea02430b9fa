import Mathlib.Tactic.Common

/-!
# Actions on a value stack

An action pushes, pops and reads values of a stack and may fail: it reads or pops what is
not there. The machine keeps the lowest height that the stack has had, so that an action
which takes values of its caller and puts others in their place can be told from one that
leaves them alone.

What an action does to the height is added up along its steps, whatever the values are.
-/

namespace OpenTaker.StackMachines

/-- A stack, its top first, the lowest height that it has had, and what else there is. -/
structure Machine (Value World : Type) where
  stack : List Value
  lowest : Nat
  world : World

/-- A step on a machine, which may fail and then leaves no machine behind. -/
abbrev Action (Value World : Type) := StateT (Machine Value World) Option

variable {Value World α β γ : Type}

/-- Put a value on the stack, on top of those that are there. -/
def push (value : Value) : Action Value World Unit := fun machine =>
  some ((), { machine with stack := value :: machine.stack })

/-- Take the first values from the stack, or fail where it has fewer. -/
def pop (count : Nat) : Action Value World Unit := fun machine =>
  if count ≤ machine.stack.length then
    some ((), { machine with
      stack := machine.stack.drop count, lowest := min machine.lowest (machine.stack.length - count) })
  else none

/-- Read the value at a position from the top, which is the first. -/
def peek (position : Nat) : Action Value World Value := fun machine =>
  (machine.stack[position - 1]?).map (·, machine)

/-- Replace the value at a position from the top. -/
def replace (position : Nat) (value : Value) : Action Value World Unit := fun machine =>
  if position ≤ machine.stack.length then
    some ((), { machine with stack := machine.stack.set (position - 1) value })
  else none

/-- The height of the stack, which `lua_gettop` gives to the code that checks its balance. -/
def height : Action Value World Nat := fun machine => some (machine.stack.length, machine)

/-- An assertion of the source: the run has no state where it fails. -/
def require (condition : Bool) : Action Value World Unit := fun machine =>
  if condition then some ((), machine) else none

/-- Repeat an action while another one says so, at most so many times. -/
def repeatWhile (next : Action Value World Bool) (body : β → Action Value World β) :
    Nat → β → Action Value World β
  | 0, _ => failure
  | rounds + 1, value => do
      if ← next then
        let value ← body value
        repeatWhile next body rounds value
      else pure value

/-- An action returns with the height that it was called with, and never pops below it. -/
def Balanced (action : Action Value World α) (machine : Machine Value World) : Prop :=
  ∃ value final, action { machine with lowest := machine.stack.length } = some (value, final) ∧
    final.stack.length = machine.stack.length ∧ machine.stack.length ≤ final.lowest

/-! ## Running actions -/

variable {action : Action Value World α} {machine final : Machine Value World}
  {stack : List Value} {lowest : Nat} {world : World} {value : α}

/-- An action after one that has run goes on with its value and with the machine it left. -/
theorem bind_of_run {continuation : α → Action Value World β} (ran : action machine = some (value, final)) :
    (action >>= continuation) machine = continuation value final := by
  change (action machine).bind (fun result => continuation result.1 result.2) = _
  rw [ran]
  rfl

/-- What ran as a sequence ran in two parts. -/
theorem run_of_bind {continuation : α → Action Value World β} {result : β}
    (ran : (action >>= continuation) machine = some (result, final)) :
    ∃ value between, action machine = some (value, between) ∧
      continuation value between = some (result, final) := by
  change (action machine).bind (fun result => continuation result.1 result.2) = _ at ran
  obtain ⟨⟨value, between⟩, first, second⟩ := Option.bind_eq_some_iff.mp ran
  exact ⟨value, between, first, second⟩

/-- An action that returns at once leaves the machine as it is. -/
@[simp] theorem pure_run (value : α) (machine : Machine Value World) :
    (pure value : Action Value World α) machine = some (value, machine) := rfl

/-- A push adds its value at the top, and cannot fail. -/
@[simp] theorem push_run (value : Value) (machine : Machine Value World) :
    push value machine = some ((), { machine with stack := value :: machine.stack }) := rfl

/-- The height is the number of values on the whole stack, also of those below the frame. -/
@[simp] theorem height_run (machine : Machine Value World) :
    height machine = some (machine.stack.length, machine) := rfl

/-- A condition that holds lets the run go on with the same machine. -/
@[simp] theorem require_run (machine : Machine Value World) :
    require true machine = some ((), machine) := rfl

/-- The values above a height that the stack has had are popped. -/
theorem pop_append (values : List Value) (above : lowest ≤ stack.length) :
    pop values.length ⟨values ++ stack, lowest, world⟩ = some ((), ⟨stack, lowest, world⟩) := by
  simp [pop, Nat.min_eq_left above]

/-- Popping one value takes the top, when the frame of the caller has one. -/
theorem pop_one (value : Value) (above : lowest ≤ stack.length) :
    pop 1 ⟨value :: stack, lowest, world⟩ = some ((), ⟨stack, lowest, world⟩) :=
  pop_append [value] above

/-- Popping two takes the top and the one below it. -/
theorem pop_two (first second : Value) (above : lowest ≤ stack.length) :
    pop 2 ⟨first :: second :: stack, lowest, world⟩ = some ((), ⟨stack, lowest, world⟩) :=
  pop_append [first, second] above

/-- A repetition goes through a list: each round leads from the entries that have been seen
to those with one more, and keeps what is known of the value. -/
theorem repeatWhile_run {Entry : Type} {next : Action Value World Bool}
    {body : β → Action Value World β} {done : Machine Value World} (entries : List Entry)
    (state : List Entry → Machine Value World) (known : List Entry → β → Prop)
    (ends : next (state entries) = some (false, done))
    (continues : ∀ seen entry rest, entries = seen ++ entry :: rest → ∃ inside,
      next (state seen) = some (true, inside) ∧
        ∀ value, known seen value → ∃ result,
          body value inside = some (result, state (seen ++ [entry])) ∧ known (seen ++ [entry]) result)
    (rounds : Nat) (seen rest : List Entry) (value : β) (split : entries = seen ++ rest)
    (holds : known seen value) (enough : rest.length < rounds) :
    ∃ result, repeatWhile next body rounds value (state seen) = some (result, done) ∧
      known entries result := by
  -- induction on what is left, the entries that were seen moving to the other side
  induction rest generalizing rounds seen value with
  | nil =>
    obtain ⟨rounds, rfl⟩ := Nat.exists_eq_add_one_of_ne_zero (Nat.ne_zero_of_lt enough)
    rw [List.append_nil] at split
    subst split
    refine ⟨value, ?_, holds⟩
    rw [repeatWhile, bind_of_run ends]
    rfl
  | cons entry rest inductionHypothesis =>
    obtain ⟨rounds, rfl⟩ := Nat.exists_eq_add_one_of_ne_zero (Nat.ne_zero_of_lt enough)
    obtain ⟨inside, taken, ran⟩ := continues seen entry rest split
    obtain ⟨next, bodyRan, kept⟩ := ran value holds
    rw [repeatWhile, bind_of_run taken, if_pos rfl, bind_of_run bodyRan]
    refine inductionHypothesis rounds (seen ++ [entry]) next ?_ kept ?_
    · rw [split, List.append_assoc, List.singleton_append]
    · exact Nat.lt_of_succ_lt_succ enough

/-! ## Heights -/

/-- Whenever the action returns, the height has grown by so much. -/
def Climbs (action : Action Value World α) (difference : Int) : Prop :=
  ∀ ⦃machine value final⦄, action machine = some (value, final) →
    (final.stack.length : Int) = machine.stack.length + difference

/-- Returning at once climbs by nothing. The lemmas below give each primitive its difference, and
`Climbs.bind` adds them up. -/
theorem Climbs.pure (value : α) : Climbs (Pure.pure value : Action Value World α) 0 := by
  intro machine _ final ran
  cases ran
  exact (Int.add_zero _).symm

/-- A push climbs by one value and goes no deeper than it began. -/
theorem Climbs.push (value : Value) : Climbs (push value : Action Value World Unit) 1 := by
  intro machine _ final ran
  cases ran
  exact Int.natCast_succ _

/-- Popping climbs down by what is popped, in a run in which there was so much to pop. -/
theorem Climbs.pop (count : Nat) : Climbs (pop count : Action Value World Unit) (-count) := by
  intro machine _ final ran
  unfold StackMachines.pop at ran
  split at ran
  · rename_i present
    cases ran
    simp only [List.length_drop]
    omega
  · cases ran

/-- A look at a value stays at its height. -/
theorem Climbs.peek (position : Nat) : Climbs (peek position : Action Value World Value) 0 := by
  intro machine value final ran
  obtain ⟨_, _, same⟩ := Option.map_eq_some_iff.mp ran
  cases same
  exact (Int.add_zero _).symm

/-- Replacing a value stays at its height, although the stack is another one then. -/
theorem Climbs.replace (position : Nat) (value : Value) :
    Climbs (replace position value : Action Value World Unit) 0 := by
  intro machine _ final ran
  unfold StackMachines.replace at ran
  split at ran
  · cases ran
    simp only [List.length_set, Int.add_zero]
  · cases ran

/-- Asking for the height changes nothing, neither the stack nor its depth. -/
theorem Climbs.height : Climbs (height : Action Value World Nat) 0 := by
  intro machine _ final ran
  cases ran
  exact (Int.add_zero _).symm

/-- A condition changes nothing; where it fails there is no run to speak of. -/
theorem Climbs.require (condition : Bool) :
    Climbs (require condition : Action Value World Unit) 0 := by
  intro machine _ final ran
  unfold StackMachines.require at ran
  split at ran
  · cases ran
    exact (Int.add_zero _).symm
  · cases ran

/-- The differences add up, along a sequence of two actions. -/
theorem Climbs.bind {continuation : α → Action Value World β} {first second total : Int}
    (climbs : Climbs action first) (continues : ∀ value, Climbs (continuation value) second)
    (sum : first + second = total) : Climbs (action >>= continuation) total := by
  intro machine result final ran
  obtain ⟨value, between, firstRan, secondRan⟩ := run_of_bind ran
  have firstHeight := climbs firstRan
  have secondHeight := continues value secondRan
  omega

/-- A branch climbs by a difference that both of its sides have, which the loaders meet where an
error path pops as well. -/
theorem Climbs.ite {condition : Prop} [Decidable condition] {other : Action Value World α}
    {difference : Int} (climbs : Climbs action difference) (otherClimbs : Climbs other difference) :
    Climbs (if condition then action else other) difference := by
  split
  · exact climbs
  · exact otherClimbs

/-- A repetition keeps the height of a round that is taken, and takes what the last look
takes. -/
theorem Climbs.repeatWhile {next : Action Value World Bool} {body : β → Action Value World β}
    (ends : ∀ ⦃machine final⦄, next machine = some (false, final) →
      (final.stack.length : Int) = machine.stack.length - 1)
    (continues : ∀ ⦃machine final⦄, next machine = some (true, final) →
      (final.stack.length : Int) = machine.stack.length + 1)
    (bodyClimbs : ∀ value, Climbs (body value) (-1)) (rounds : Nat) (value : β) :
    Climbs (repeatWhile next body rounds value) (-1) := by
  induction rounds generalizing value with
  | zero =>
    intro machine _ final ran
    cases ran
  | succ rounds inductionHypothesis =>
    intro machine result final ran
    obtain ⟨more, between, looked, rest⟩ := run_of_bind ran
    cases more with
    | false =>
      cases rest
      exact ends looked
    | true =>
      have inside := continues looked
      have remaining := (bodyClimbs value).bind (fun value => inductionHypothesis value) rfl rest
      omega

/-- An action that changes the height is not balanced. -/
theorem Climbs.not_balanced {difference : Int} (climbs : Climbs action difference)
    (uneven : difference ≠ 0) (machine : Machine Value World) : ¬ Balanced action machine := by
  rintro ⟨value, final, ran, same, -⟩
  have reached := climbs ran
  simp only at reached
  omega

end OpenTaker.StackMachines
