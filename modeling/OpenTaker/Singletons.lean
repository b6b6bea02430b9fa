import OpenTaker.Runs
import OpenTaker.Census
import OpenTaker.SharedPtr

/-!
# Singletons

`ISingleton::GetInstance` creates the instance in a double-checked lock, and counts its
callers there: the reference is added in the branch of the first test, so that a call that
finds the instance there already returns it without a reference. `Free` counts one down and
destroys the instance with the last one.

So the count is the number of the calls whose first test came before the instance, which is
any number from one to that of all calls.
-/

namespace OpenTaker

/-- Where a caller stands in `GetInstance`, between two of its accesses to shared memory. -/
inductive GetInstancePc where
  | idle
  | testing
  | locking
  | testingAgain
  | creating
  | addingRef
  | unlocking
  | returning
deriving DecidableEq

/-- Inside of the scope of the lock, which begins behind the first test and ends with the return. -/
def GetInstancePc.inScope : GetInstancePc → Bool
  | .testingAgain | .creating | .addingRef | .unlocking => true
  | _ => false

/-- Behind the second test, where the instance is there. -/
def GetInstancePc.holds : GetInstancePc → Bool
  | .addingRef | .unlocking | .returning => true
  | _ => false

/-- The pointer and the mutex of a class of singletons, the objects that were created, and
the callers of `GetInstance`. -/
structure ISingleton where
  instancePtr : Option Nat
  instMutex : Option Nat
  objects : Nat → CountRef
  created : Nat
  callers : Nat → GetInstancePc
  /-- What the calls have returned and which objects were destroyed, for the history only. -/
  returned : List (Option Nat)
  destroyed : List Nat

/-- One step: a call of `GetInstance`, an access inside of one, or a call of `Free`. -/
inductive InstanceStep where
  | call (caller : Nat)
  | getInstance (caller : Nat)
  | free (object : Nat)
deriving DecidableEq

namespace ISingleton

/-- No instance has been asked for: the pointer is NULL, and the lock is free. -/
def new : ISingleton where
  instancePtr := none
  instMutex := none
  objects := fun _ => .new
  created := 0
  callers := fun _ => .idle
  returned := []
  destroyed := []

/-- Leave a caller at another place, with nothing else changed. -/
def goto (singleton : ISingleton) (caller : Nat) (pc : GetInstancePc) : ISingleton :=
  { singleton with callers := Function.update singleton.callers caller pc }

/-- `m_instance = new T`: the next object, whose count is that of a new one. -/
def create (singleton : ISingleton) : ISingleton :=
  { singleton with
    instancePtr := some singleton.created
    objects := Function.update singleton.objects singleton.created .new
    created := singleton.created + 1 }

/-- `addRef` of an object, by the caller that created it. -/
def addRef (singleton : ISingleton) (object : Nat) : ISingleton :=
  { singleton with
    objects := Function.update singleton.objects object (singleton.objects object).addRef }

/-- The next access of a caller inside of `GetInstance`. -/
def getInstance (singleton : ISingleton) (caller : Nat) : Option ISingleton :=
  match singleton.callers caller with
  | .idle => none
  | .testing =>
      some (singleton.goto caller (if singleton.instancePtr = none then .locking else .returning))
  | .locking =>
      if singleton.instMutex = none then
        some ({ singleton with instMutex := some caller }.goto caller .testingAgain)
      else none
  | .testingAgain =>
      some (singleton.goto caller (if singleton.instancePtr = none then .creating else .addingRef))
  | .creating => some (singleton.create.goto caller .addingRef)
  | .addingRef =>
      match singleton.instancePtr with
      | some object => some ((singleton.addRef object).goto caller .unlocking)
      | none => none -- `addRef` of NULL
  | .unlocking => some ({ singleton with instMutex := none }.goto caller .returning)
  | .returning =>
      some ({ singleton with returned := singleton.returned ++ [singleton.instancePtr] }.goto caller .idle)

/-- `Free`: `releaseRef`, and `onDestroy` with the last reference, behind which a new instance can
be created. -/
def free (singleton : ISingleton) (object : Nat) : ISingleton :=
  let (last, count) := (singleton.objects object).releaseRef
  let released := { singleton with objects := Function.update singleton.objects object count }
  if last then
    { released with destroyed := singleton.destroyed ++ [object], instancePtr := none }
  else released

/-- Perform one step. An object that was destroyed cannot be freed. -/
def step (singleton : ISingleton) : InstanceStep → Option ISingleton
  | .call caller =>
      if singleton.callers caller = .idle then some (singleton.goto caller .testing) else none
  | .getInstance caller => singleton.getInstance caller
  | .free object =>
      if object < singleton.created ∧ object ∉ singleton.destroyed then some (singleton.free object)
      else none

/-- Nobody is inside of `GetInstance`, so that what is there is what the calls have left. -/
def Quiet (singleton : ISingleton) : Prop := ∀ caller, singleton.callers caller = .idle

/-- All calls have returned one object, which is not destroyed by fewer calls of `Free` than
there were calls of `GetInstance`, and is destroyed once by as many. -/
def RefCounted (singleton : ISingleton) : Prop :=
  ∃ object, (∀ result ∈ singleton.returned, result = some object) ∧
    ∀ frees ≤ singleton.returned.length, ∃ after,
      Runs.run step singleton (List.replicate frees (.free object)) = some after ∧
        after.destroyed = if frees < singleton.returned.length then [] else [object]

end ISingleton

/-- A call of `GetInstance` or an access inside of one. -/
def InstanceStep.acquires : InstanceStep → Bool
  | .call _ | .getInstance _ => true
  | .free _ => false

namespace ISingleton

/-- A first test comes before there is an instance, so that the caller goes the way that takes a
reference. -/
def FindsNull (singleton : ISingleton) : InstanceStep → Prop
  | .getInstance caller => singleton.callers caller = .testing → singleton.instancePtr = none
  | _ => True

/-- Whether a step finds no instance at its first test can be decided, so that example runs can be
evaluated. -/
instance (singleton : ISingleton) (label : InstanceStep) : Decidable (FindsNull singleton label) := by
  cases label <;> unfold FindsNull <;> infer_instance

variable {singleton next : ISingleton} {caller : Nat}

/-- A caller that goes to a place is there afterwards. With the next lemma, callers move one at a
time. -/
theorem callers_goto (singleton : ISingleton) (caller : Nat) (pc : GetInstancePc) :
    (singleton.goto caller pc).callers caller = pc := Function.update_self ..

/-- All other callers stay where they are when one of them goes on. -/
theorem callers_goto_of_ne (singleton : ISingleton) (pc : GetInstancePc) {other : Nat} (different : other ≠ caller) :
    (singleton.goto caller pc).callers other = singleton.callers other := Function.update_of_ne different ..

/-! ## What an access can do -/

/-- The accesses of a caller inside of `GetInstance`, each of which is one step of a run. -/
inductive InstanceMove (singleton : ISingleton) (caller : Nat) : ISingleton → Prop where
  /-- The first test finds no instance. -/
  | missed (place : singleton.callers caller = .testing) (missing : singleton.instancePtr = none) :
      InstanceMove singleton caller (singleton.goto caller .locking)
  /-- The first test finds the instance. -/
  | found (object : Nat) (place : singleton.callers caller = .testing)
      (present : singleton.instancePtr = some object) :
      InstanceMove singleton caller (singleton.goto caller .returning)
  | acquired (place : singleton.callers caller = .locking) (isFree : singleton.instMutex = none) :
      InstanceMove singleton caller ({ singleton with instMutex := some caller }.goto caller .testingAgain)
  | missedAgain (place : singleton.callers caller = .testingAgain) (missing : singleton.instancePtr = none) :
      InstanceMove singleton caller (singleton.goto caller .creating)
  | foundAgain (object : Nat) (place : singleton.callers caller = .testingAgain)
      (present : singleton.instancePtr = some object) :
      InstanceMove singleton caller (singleton.goto caller .addingRef)
  | created (place : singleton.callers caller = .creating) :
      InstanceMove singleton caller (singleton.create.goto caller .addingRef)
  | counted (object : Nat) (place : singleton.callers caller = .addingRef)
      (present : singleton.instancePtr = some object) :
      InstanceMove singleton caller ((singleton.addRef object).goto caller .unlocking)
  | released (place : singleton.callers caller = .unlocking) :
      InstanceMove singleton caller ({ singleton with instMutex := none }.goto caller .returning)
  | gaveBack (place : singleton.callers caller = .returning) :
      InstanceMove singleton caller
        ({ singleton with returned := singleton.returned ++ [singleton.instancePtr] }.goto caller .idle)

/-- There are no other accesses than those, which the invariants go through by cases. -/
theorem getInstance_move (stepped : singleton.getInstance caller = some next) :
    InstanceMove singleton caller next := by
  unfold getInstance at stepped
  cases place : singleton.callers caller with
  | idle =>
    rw [place] at stepped
    cases stepped
  | testing =>
    rw [place] at stepped
    cases stepped
    cases present : singleton.instancePtr with
    | none => exact .missed place present
    | some object => exact .found object place present
  | locking =>
    rw [place] at stepped
    obtain ⟨isFree, same⟩ := Option.ite_none_right_eq_some.mp stepped
    cases same
    exact .acquired place isFree
  | testingAgain =>
    rw [place] at stepped
    cases stepped
    cases present : singleton.instancePtr with
    | none => exact .missedAgain place present
    | some object => exact .foundAgain object place present
  | creating =>
    rw [place] at stepped
    cases stepped
    exact .created place
  | addingRef =>
    rw [place] at stepped
    cases present : singleton.instancePtr with
    | none =>
      rw [present] at stepped
      cases stepped
    | some object =>
      rw [present] at stepped
      cases stepped
      exact .counted object place present
  | unlocking =>
    rw [place] at stepped
    cases stepped
    exact .released place
  | returning =>
    rw [place] at stepped
    cases stepped
    exact .gaveBack place

/-! ## One object -/

/-- Whoever is in the scope of the lock holds it. -/
def Locked (singleton : ISingleton) : Prop :=
  ∀ caller, (singleton.callers caller).inScope = true → singleton.instMutex = some caller

/-- A caller may go anywhere it likes outside of the scope of the lock; into the scope it goes only
from inside. -/
theorem Locked.goto (locked : Locked singleton) (caller : Nat) {pc : GetInstancePc}
    (stays : pc.inScope = true → (singleton.callers caller).inScope = true) :
    Locked (singleton.goto caller pc) := by
  intro other inside
  by_cases same : other = caller
  · subst same
    rw [callers_goto] at inside
    exact locked other (stays inside)
  · rw [callers_goto_of_ne _ _ same] at inside
    exact locked other inside

/-- Every access keeps the scope of the lock to the caller that holds it. -/
theorem Locked.moved (locked : Locked singleton) (move : InstanceMove singleton caller next) : Locked next := by
  cases move with
  | missed place | found object place => exact locked.goto caller (fun inside => by cases inside)
  | missedAgain place | foundAgain object place => exact locked.goto caller (fun _ => by rw [place]; rfl)
  | created place =>
    have same : Locked singleton.create := locked
    exact same.goto caller (fun _ => by simp [create, place, GetInstancePc.inScope])
  | counted object place =>
    have same : Locked (singleton.addRef object) := locked
    exact same.goto caller (fun _ => by simp [addRef, place, GetInstancePc.inScope])
  | gaveBack place =>
    have same : Locked { singleton with returned := singleton.returned ++ [singleton.instancePtr] } := locked
    exact same.goto caller (fun inside => by cases inside)
  | acquired place isFree =>
    intro other inside
    by_cases same : other = caller
    · rw [same]
      rfl
    · rw [callers_goto_of_ne _ _ same] at inside
      have held := locked other inside
      rw [isFree] at held
      cases held
  | released place =>
    intro other inside
    by_cases same : other = caller
    · rw [same, callers_goto] at inside
      cases inside
    · rw [callers_goto_of_ne _ _ same] at inside
      have held := locked caller (by rw [place]; rfl)
      rw [locked other inside] at held
      exact absurd (Option.some.inj held) same

/-- There is no object before the instance is created and one afterwards, which is not
destroyed. It has a reference, or the caller that created it is about to add one. -/
structure Sole (singleton : ISingleton) : Prop where
  single : singleton.created = 0 ∧ singleton.instancePtr = none ∨
    singleton.created = 1 ∧ singleton.instancePtr = some 0
  fresh : singleton.instancePtr = none → singleton.objects 0 = .new
  kept : singleton.destroyed = []
  creating : ∀ caller, singleton.callers caller = .creating → singleton.instancePtr = none
  holding : ∀ caller, (singleton.callers caller).holds = true → singleton.instancePtr = some 0
  results : ∀ result ∈ singleton.returned, result = some 0
  answered : singleton.returned ≠ [] → singleton.instancePtr = some 0
  counting : 0 ≤ (singleton.objects 0).nRef
  referenced : singleton.instancePtr = some 0 →
    (∃ caller, singleton.callers caller = .addingRef) ∨ 1 ≤ (singleton.objects 0).nRef

/-- At the start there is no instance, nobody is inside the function, and nothing has been returned. -/
theorem sole_new : Sole new := by
  constructor <;> simp [new, CountRef.new, GetInstancePc.holds]

/-- The only object there can be is the first one, so that a pointer that is not NULL points to it. -/
theorem Sole.first (sole : Sole singleton) {object : Nat} (present : singleton.instancePtr = some object) :
    singleton.instancePtr = some 0 := by
  rcases sole.single with ⟨-, none⟩ | ⟨-, first⟩
  · rw [present] at none
    cases none
  · exact first

/-- Without an instance none has been created, since none is ever destroyed in these runs. -/
theorem Sole.unmade (sole : Sole singleton) (missing : singleton.instancePtr = none) : singleton.created = 0 := by
  rcases sole.single with ⟨none, -⟩ | ⟨-, first⟩
  · exact none
  · rw [missing] at first
    cases first

/-- An instance that is there has been created, and so the first object has been. -/
theorem Sole.one (sole : Sole singleton) (present : singleton.instancePtr = some 0) : 0 < singleton.created := by
  rcases sole.single with ⟨-, none⟩ | ⟨one, -⟩
  · rw [present] at none
    cases none
  · omega

/-- A caller that goes to another place leaves the one object alone. -/
theorem Sole.goto (sole : Sole singleton) (caller : Nat) {pc : GetInstancePc}
    (creating : pc = .creating → singleton.instancePtr = none)
    (holding : pc.holds = true → singleton.instancePtr = some 0)
    (referenced : singleton.callers caller = .addingRef → 1 ≤ (singleton.objects 0).nRef) :
    Sole (singleton.goto caller pc) where
  single := sole.single
  fresh := sole.fresh
  kept := sole.kept
  creating := by
    intro other place
    by_cases same : other = caller
    · rw [same, callers_goto] at place
      exact creating place
    · rw [callers_goto_of_ne _ _ same] at place
      exact sole.creating other place
  holding := by
    intro other holds
    by_cases same : other = caller
    · rw [same, callers_goto] at holds
      exact holding holds
    · rw [callers_goto_of_ne _ _ same] at holds
      exact sole.holding other holds
  results := sole.results
  answered := sole.answered
  counting := sole.counting
  referenced := by
    intro present
    rcases sole.referenced present with ⟨other, place⟩ | counted
    · by_cases same : other = caller
      · exact .inr (referenced (same ▸ place))
      · exact .inl ⟨other, by rwa [callers_goto_of_ne _ _ same]⟩
    · exact .inr counted

/-- Every access keeps the one object, and the results that point to it. -/
theorem Sole.moved (sole : Sole singleton) (locked : Locked singleton)
    (move : InstanceMove singleton caller next) : Sole next := by
  have addsNothing : ∀ {pc : GetInstancePc}, singleton.callers caller = pc → pc ≠ .addingRef →
      singleton.callers caller = .addingRef → 1 ≤ (singleton.objects 0).nRef :=
    fun place other adds => absurd (place.symm.trans adds) other
  cases move with
  | missed place missing =>
    exact sole.goto caller (by simp) (by simp [GetInstancePc.holds]) (addsNothing place (by simp))
  | found object place present =>
    exact sole.goto caller (by simp) (fun _ => sole.first present) (addsNothing place (by simp))
  | acquired place isFree =>
    have same : Sole { singleton with instMutex := some caller } :=
      ⟨sole.single, sole.fresh, sole.kept, sole.creating, sole.holding, sole.results, sole.answered,
        sole.counting, sole.referenced⟩
    exact same.goto caller (by simp) (by simp [GetInstancePc.holds]) (addsNothing place (by simp))
  | missedAgain place missing =>
    exact sole.goto caller (fun _ => missing) (by simp [GetInstancePc.holds]) (addsNothing place (by simp))
  | foundAgain object place present =>
    exact sole.goto caller (by simp) (fun _ => sole.first present) (addsNothing place (by simp))
  | created place =>
    have none := sole.unmade (sole.creating caller place)
    have first : (singleton.create).instancePtr = some 0 := by rw [create, none]
    refine ⟨.inr ⟨by simp [ISingleton.goto, create, none], first⟩, fun none => (by cases first.symm.trans none),
      sole.kept, ?_, fun _ _ => first, sole.results, fun _ => first, ?_, ?_⟩
    · intro other creates
      by_cases same : other = caller
      · rw [same, callers_goto] at creates
        cases creates
      · rw [callers_goto_of_ne _ _ same] at creates
        have held := locked caller (by rw [place]; rfl)
        rw [locked other (by rw [show singleton.callers other = .creating from creates]; rfl)] at held
        exact absurd (Option.some.inj held) same
    · simp [ISingleton.goto, create, none, CountRef.new]
    · exact fun _ => .inl ⟨caller, callers_goto ..⟩
  | counted object place present =>
    have first := sole.first present
    have isFirst : object = 0 := Option.some.inj (present.symm.trans first)
    have counting := sole.counting
    have more : ((singleton.addRef object).objects 0).nRef = (singleton.objects 0).nRef + 1 := by
      simp [addRef, isFirst, CountRef.addRef]
    have same : Sole (singleton.addRef object) :=
      ⟨sole.single, fun none => (by cases first.symm.trans none), sole.kept, sole.creating, sole.holding,
        sole.results, sole.answered, by omega, fun _ => .inr (by omega)⟩
    exact same.goto caller (by simp) (fun _ => first) (fun _ => by omega)
  | released place =>
    have same : Sole { singleton with instMutex := none } :=
      ⟨sole.single, sole.fresh, sole.kept, sole.creating, sole.holding, sole.results, sole.answered,
        sole.counting, sole.referenced⟩
    have present := sole.holding caller (by rw [place]; rfl)
    exact same.goto caller (by simp) (fun _ => present) (addsNothing place (by simp))
  | gaveBack place =>
    have present := sole.holding caller (by rw [place]; rfl)
    have results : ∀ result ∈ singleton.returned ++ [singleton.instancePtr], result = some 0 := by
      intro result member
      rcases List.mem_append.mp member with before | last
      · exact sole.results result before
      · exact (List.mem_singleton.mp last).trans present
    have same : Sole { singleton with returned := singleton.returned ++ [singleton.instancePtr] } :=
      ⟨sole.single, sole.fresh, sole.kept, sole.creating, sole.holding, results, fun _ => present,
        sole.counting, sole.referenced⟩
    exact same.goto caller (by simp) (by simp [GetInstancePc.holds]) (addsNothing place (by simp))

/-! ## How many calls are counted -/

/-- Out of the lock, with the reference added or with none. -/
def Leaves (pc : GetInstancePc) : Prop := pc = .unlocking ∨ pc = .returning

/-- The references are as many as the calls that have returned or are about to, but for those
whose first test found the instance. -/
structure Accounted (uncounted : Nat) (singleton : ISingleton) : Prop where
  finite : (Census.standing Leaves singleton.callers).Finite
  balance : (singleton.objects 0).nRef + uncounted =
    singleton.returned.length + Census.count Leaves singleton.callers

/-- Before the first call there are no references and no calls to account for them. -/
theorem accounted_new : Accounted 0 new := by
  have nobody : ∀ caller, ¬ Leaves (new.callers caller) := by simp [new, Leaves]
  have none : Census.standing Leaves new.callers = ∅ := Set.eq_empty_of_forall_notMem nobody
  constructor
  · rw [none]
    exact Set.finite_empty
  · rw [Census.count_eq_zero nobody]
    rfl

variable {uncounted : Nat}

/-- A caller goes between places of which both or neither are left with the call counted. -/
theorem Accounted.goto (accounted : Accounted uncounted singleton) {pc : GetInstancePc}
    (same : Leaves pc ↔ Leaves (singleton.callers caller)) : Accounted uncounted (singleton.goto caller pc) where
  finite := Census.finite_update accounted.finite caller pc
  balance := by
    have balance := accounted.balance
    rwa [← Census.count_same same] at balance

/-- An access that is no first test behind the instance leaves the calls accounted for. -/
theorem Accounted.moved (accounted : Accounted uncounted singleton) (sole : Sole singleton)
    (move : InstanceMove singleton caller next)
    (finds : singleton.callers caller = .testing → singleton.instancePtr = none) :
    Accounted uncounted next := by
  cases move with
  | missed place => exact accounted.goto (by simp [Leaves, place])
  | found object place present =>
    rw [finds place] at present
    cases present
  | acquired place =>
    have same : Accounted uncounted { singleton with instMutex := some caller } :=
      ⟨accounted.finite, accounted.balance⟩
    exact same.goto (by simp [Leaves, place])
  | missedAgain place => exact accounted.goto (by simp [Leaves, place])
  | foundAgain object place => exact accounted.goto (by simp [Leaves, place])
  | created place =>
    have missing := sole.creating caller place
    have same : Accounted uncounted singleton.create := by
      have unchanged : singleton.create.objects 0 = singleton.objects 0 := by
        simp [create, sole.unmade missing, sole.fresh missing]
      refine ⟨accounted.finite, ?_⟩
      rw [unchanged]
      exact accounted.balance
    exact same.goto (by simp [create, Leaves, place])
  | counted object place present =>
    have isFirst : object = 0 := Option.some.inj (present.symm.trans (sole.first present))
    have more : ((singleton.addRef object).objects 0).nRef = (singleton.objects 0).nRef + 1 := by
      simp [addRef, isFirst, CountRef.addRef]
    have outside : ¬ Leaves (singleton.callers caller) := by simp [Leaves, place]
    have entered := Census.count_enter accounted.finite outside (.inl rfl : Leaves .unlocking)
    have balance := accounted.balance
    refine ⟨Census.finite_update accounted.finite caller _, ?_⟩
    change ((singleton.addRef object).objects 0).nRef + uncounted =
      singleton.returned.length + (Census.count Leaves (Function.update singleton.callers caller .unlocking) : Nat)
    omega
  | released place =>
    have same : Accounted uncounted { singleton with instMutex := none } :=
      ⟨accounted.finite, accounted.balance⟩
    exact same.goto (by simp [Leaves, place])
  | gaveBack place =>
    have inside : Leaves (singleton.callers caller) := .inr place
    have left := Census.count_leave accounted.finite inside (by simp [Leaves] : ¬ Leaves .idle)
    have balance := accounted.balance
    refine ⟨Census.finite_update accounted.finite caller _, ?_⟩
    change (singleton.objects 0).nRef + uncounted =
      (singleton.returned ++ [singleton.instancePtr]).length +
        (Census.count Leaves (Function.update singleton.callers caller .idle) : Nat)
    rw [List.length_append, List.length_singleton]
    omega

/-- A first test behind the instance lets a call return without a reference. -/
theorem Accounted.missed (accounted : Accounted uncounted singleton) (move : InstanceMove singleton caller next)
    (place : singleton.callers caller = .testing) (behind : singleton.instancePtr ≠ none) :
    Accounted (uncounted + 1) next := by
  cases move with
  | missed _ missing => exact absurd missing behind
  | found object _ present =>
    have outside : ¬ Leaves (singleton.callers caller) := by simp [Leaves, place]
    have entered := Census.count_enter accounted.finite outside (.inr rfl : Leaves .returning)
    have balance := accounted.balance
    refine ⟨Census.finite_update accounted.finite caller _, ?_⟩
    change (singleton.objects 0).nRef + (uncounted + 1 : Nat) =
      singleton.returned.length + (Census.count Leaves (Function.update singleton.callers caller .returning) : Nat)
    omega
  | acquired other | missedAgain other | foundAgain _ other | created other | counted _ other | released other
  | gaveBack other =>
    rw [place] at other
    cases other

/-- A run of calls of `GetInstance` keeps one object, and leaves as many calls uncounted as
there are first tests behind the instance. -/
theorem run_accounted (labels : List InstanceStep) (acquires : ∀ label ∈ labels, label.acquires = true)
    {final : ISingleton} (locked : Locked singleton) (sole : Sole singleton)
    (accounted : Accounted uncounted singleton) (ran : Runs.run step singleton labels = some final) :
    ∃ more, Sole final ∧ Accounted (uncounted + more) final ∧
      (more = 0 ↔ Runs.Meets step FindsNull singleton labels) := by
  induction labels generalizing singleton uncounted with
  | nil =>
    cases ran
    exact ⟨0, sole, accounted, iff_of_true rfl trivial⟩
  | cons label rest inductionHypothesis =>
    obtain ⟨next, stepped, finished⟩ := (Runs.run_cons step singleton final label rest).mp ran
    obtain ⟨now, later⟩ := List.forall_mem_cons.mp acquires
    have onlyNext : (∀ other, step singleton label = some other → Runs.Meets step FindsNull other rest) ↔
        Runs.Meets step FindsNull next rest := by
      rw [stepped]
      simp
    cases label with
    | free object => cases now
    | call caller =>
      obtain ⟨isIdle, same⟩ := Option.ite_none_right_eq_some.mp stepped
      cases same
      have free : FindsNull singleton (.call caller) := trivial
      have nextLocked : Locked (singleton.goto caller .testing) :=
        locked.goto caller (fun inside => by cases inside)
      have nextSole : Sole (singleton.goto caller .testing) :=
        sole.goto caller (by simp) (by simp [GetInstancePc.holds]) (by simp [isIdle])
      obtain ⟨more, finalSole, finalAccounted, same⟩ :=
        inductionHypothesis later nextLocked nextSole (accounted.goto (by simp [Leaves, isIdle])) finished
      exact ⟨more, finalSole, finalAccounted, by rw [Runs.Meets, onlyNext, same, and_iff_right free]⟩
    | getInstance caller =>
      have move := getInstance_move stepped
      by_cases finds : FindsNull singleton (.getInstance caller)
      · obtain ⟨more, finalSole, finalAccounted, same⟩ := inductionHypothesis later (locked.moved move)
          (sole.moved locked move) (accounted.moved sole move finds) finished
        exact ⟨more, finalSole, finalAccounted, by rw [Runs.Meets, onlyNext, same, and_iff_right finds]⟩
      · obtain ⟨place, behind⟩ := Classical.not_imp.mp finds
        obtain ⟨more, finalSole, finalAccounted, -⟩ := inductionHypothesis later (locked.moved move)
          (sole.moved locked move) (accounted.missed move place behind) finished
        refine ⟨more + 1, finalSole, ?_, iff_of_false (Nat.succ_ne_zero more) (fun meets => finds meets.1)⟩
        rwa [Nat.add_right_comm] at finalAccounted

/-! ## The calls of `Free` -/

/-- A call of `Free` that is not the last. -/
theorem free_more (one : 0 < singleton.created) (kept : singleton.destroyed = [])
    (more : 1 < (singleton.objects 0).nRef) :
    ∃ after, step singleton (.free 0) = some after ∧ after.created = singleton.created ∧
      after.destroyed = [] ∧ (after.objects 0).nRef = (singleton.objects 0).nRef - 1 := by
  have positive : ¬ (singleton.objects 0).nRef ≤ 0 := by omega
  have notLast : ¬ (singleton.objects 0).nRef - 1 = 0 := by omega
  exact ⟨singleton.free 0, by simp [step, one, kept], by simp [free, CountRef.releaseRef, positive, notLast, kept]⟩

/-- The last call of `Free`, which takes the last reference, destroys the object. -/
theorem free_last (one : 0 < singleton.created) (kept : singleton.destroyed = [])
    (last : (singleton.objects 0).nRef = 1) :
    ∃ after, step singleton (.free 0) = some after ∧ after.destroyed = [0] :=
  ⟨singleton.free 0, by simp [step, one, kept], by simp [free, CountRef.releaseRef, last, kept]⟩

/-- Without a reference `Free` does nothing, since the count is not lowered below zero. -/
theorem free_none (one : 0 < singleton.created) (kept : singleton.destroyed = [])
    (none : (singleton.objects 0).nRef ≤ 0) : step singleton (.free 0) = some singleton := by
  have free : step singleton (.free 0) = some (singleton.free 0) := by simp [step, one, kept]
  have same : singleton.free 0 = singleton := by
    rw [ISingleton.free, CountRef.releaseRef, if_pos none]
    simp
  rw [free, same]

/-- With fewer calls of `Free` than there are references the instance stays, and the count goes down
by one for each. -/
theorem frees_below (frees : Nat) (one : 0 < singleton.created) (kept : singleton.destroyed = [])
    (fewer : frees < (singleton.objects 0).nRef) :
    ∃ after, Runs.run step singleton (List.replicate frees (.free 0)) = some after ∧
      0 < after.created ∧ after.destroyed = [] ∧ (after.objects 0).nRef = (singleton.objects 0).nRef - frees := by
  induction frees generalizing singleton with
  | zero => exact ⟨singleton, rfl, one, kept, by simp⟩
  | succ frees inductionHypothesis =>
    obtain ⟨next, stepped, created, nextKept, count⟩ := free_more one kept (by omega)
    obtain ⟨after, ran, afterOne, afterKept, left⟩ :=
      inductionHypothesis (by omega) nextKept (by omega)
    refine ⟨after, ?_, afterOne, afterKept, by omega⟩
    rw [List.replicate_succ]
    exact (Runs.run_cons step singleton after _ _).mpr ⟨next, stepped, ran⟩

/-- As many calls of `Free` as there are references. -/
theorem frees_all (frees : Nat) (one : 0 < singleton.created) (kept : singleton.destroyed = [])
    (some : 0 < frees) (all : (singleton.objects 0).nRef = frees) :
    ∃ after, Runs.run step singleton (List.replicate frees (.free 0)) = Option.some after ∧
      after.destroyed = [0] := by
  obtain ⟨fewer, rfl⟩ := Nat.exists_eq_succ_of_ne_zero (Nat.pos_iff_ne_zero.mp some)
  obtain ⟨middle, ran, middleOne, middleKept, left⟩ := frees_below fewer one kept (by omega)
  obtain ⟨after, stepped, destroyed⟩ := free_last middleOne middleKept (by omega)
  refine ⟨after, ?_, destroyed⟩
  rw [Nat.succ_eq_add_one, List.replicate_succ']
  exact (Runs.run_append step singleton after _ _).mpr
    ⟨middle, ran, (Runs.run_cons step middle after _ _).mpr ⟨after, stepped, rfl⟩⟩

/-- Calls of `Free` behind the last reference do nothing: the pointer stays, and so does the object. -/
theorem frees_none (frees : Nat) (one : 0 < singleton.created) (kept : singleton.destroyed = [])
    (none : (singleton.objects 0).nRef ≤ 0) :
    Runs.run step singleton (List.replicate frees (.free 0)) = some singleton := by
  induction frees with
  | zero => rfl
  | succ frees inductionHypothesis =>
    rw [List.replicate_succ]
    exact (Runs.run_cons step singleton singleton _ _).mpr
      ⟨singleton, free_none one kept none, inductionHypothesis⟩

/-- The calls are counted when there are as many references as calls, and only then. -/
theorem refCounted_iff_count (sole : Sole singleton) (called : singleton.returned ≠ []) :
    RefCounted singleton ↔ (singleton.objects 0).nRef = singleton.returned.length := by
  obtain ⟨result, rest, returned⟩ := List.exists_cons_of_ne_nil called
  have member : result ∈ singleton.returned := by rw [returned]; exact List.mem_cons_self
  have one := sole.one (sole.answered called)
  have calls : 0 < singleton.returned.length := List.length_pos_iff.mpr called
  constructor
  · rintro ⟨object, results, freed⟩
    have isFirst : object = 0 :=
      Option.some.inj ((results result member).symm.trans (sole.results result member))
    subst isFirst
    by_contra different
    by_cases none : (singleton.objects 0).nRef ≤ 0
    · obtain ⟨after, ran, destroyed⟩ := freed singleton.returned.length (Nat.le_refl _)
      rw [frees_none _ one sole.kept none] at ran
      cases ran
      rw [sole.kept, if_neg (Nat.lt_irrefl _)] at destroyed
      cases destroyed
    · obtain ⟨count, isCount⟩ := Int.eq_ofNat_of_zero_le sole.counting
      rcases Nat.lt_or_ge count singleton.returned.length with fewer | atLeast
      · obtain ⟨after, ran, destroyed⟩ := freed count (Nat.le_of_lt fewer)
        obtain ⟨other, otherRan, gone⟩ := frees_all count one sole.kept (by omega) isCount
        cases otherRan.symm.trans ran
        rw [gone, if_pos fewer] at destroyed
        cases destroyed
      · obtain ⟨after, ran, destroyed⟩ := freed singleton.returned.length (Nat.le_refl _)
        obtain ⟨other, otherRan, -, kept, -⟩ :=
          frees_below singleton.returned.length one sole.kept (by omega)
        cases otherRan.symm.trans ran
        rw [kept, if_neg (Nat.lt_irrefl _)] at destroyed
        cases destroyed
  · intro counted
    refine ⟨0, sole.results, fun frees atMost => ?_⟩
    rcases Nat.lt_or_eq_of_le atMost with fewer | all
    · obtain ⟨after, ran, -, kept, -⟩ := frees_below frees one sole.kept (by omega)
      exact ⟨after, ran, by rw [kept, if_pos fewer]⟩
    · obtain ⟨after, ran, destroyed⟩ := frees_all frees one sole.kept (by omega) (by omega)
      exact ⟨after, ran, by rw [destroyed, if_neg (by omega)]⟩

/-! ## Schedules with different counts -/

/-- The instance is there, and so many calls have returned it with so many references. -/
structure Settled (calls count : Nat) (singleton : ISingleton) : Prop where
  quiet : Quiet singleton
  present : singleton.instancePtr = some 0
  calls : singleton.returned.length = calls
  count : (singleton.objects 0).nRef = count

/-- A call that finds the instance at its first test. -/
def lateCall : List InstanceStep := .call 0 :: List.replicate 2 (.getInstance 0)

/-- A call that finds the instance returns it and takes no reference, which is the slip of the
source. -/
theorem run_lateCall {calls count : Nat} (settled : Settled calls count singleton) :
    ∃ after, Runs.run step singleton lateCall = some after ∧ Settled (calls + 1) count after := by
  have isIdle := settled.quiet 0
  have present := settled.present
  have back : Function.update singleton.callers 0 .idle = singleton.callers := by
    rw [← isIdle, Function.update_eq_self]
  refine ⟨{ singleton with returned := singleton.returned ++ [some 0] }, ?_, settled.quiet, present, ?_,
    settled.count⟩
  · simp [lateCall, Runs.run, step, isIdle, getInstance, goto, present, back]
  · rw [List.length_append, settled.calls, List.length_singleton]

/-- Calls one after the other are not counted any more. -/
theorem run_lateCalls {calls count : Nat} (settled : Settled calls count singleton) (more : Nat) :
    ∃ labels after, (∀ label ∈ labels, label.acquires = true) ∧
      Runs.run step singleton labels = some after ∧ Settled (calls + more) count after := by
  induction more with
  | zero => exact ⟨[], singleton, by simp, rfl, settled⟩
  | succ more inductionHypothesis =>
    obtain ⟨labels, middle, acquires, ran, middleSettled⟩ := inductionHypothesis
    obtain ⟨after, following, afterSettled⟩ := run_lateCall middleSettled
    refine ⟨labels ++ lateCall, after, ?_, (Runs.run_append ..).mpr ⟨middle, ran, following⟩, afterSettled⟩
    intro label member
    rcases List.mem_append.mp member with before | last
    · exact acquires label before
    · exact (by decide : ∀ label ∈ lateCall, label.acquires = true) label last

/-- The first call, alone: both tests find nothing, and the instance is created under the lock. -/
def firstCall : List InstanceStep := .call 0 :: List.replicate 7 (.getInstance 0)

/-- The first call of all creates the instance and takes a reference. -/
theorem run_firstCall : ∃ after, Runs.run step new firstCall = some after ∧ Settled 1 1 after := by
  refine ⟨_, rfl, ?_, rfl, rfl, rfl⟩
  intro caller
  by_cases first : caller = 0
  · subst first
    rfl
  · simp [goto, addRef, create, new]

/-- Two calls of which both test before the instance is created. -/
def twoAtOnce : List InstanceStep :=
  [.call 0, .call 1, .getInstance 0, .getInstance 1] ++ List.replicate 6 (.getInstance 0) ++
    List.replicate 5 (.getInstance 1)

/-- Two calls that both find no instance take a reference each. The count thus depends on the
interleaving and not only on the number of calls. -/
theorem run_twoAtOnce : ∃ after, Runs.run step new twoAtOnce = some after ∧ Settled 2 2 after := by
  refine ⟨_, rfl, ?_, rfl, rfl, rfl⟩
  intro caller
  by_cases first : caller = 0
  · subst first
    rfl
  · by_cases second : caller = 1
    · subst second
      rfl
    · simp [goto, addRef, create, new, first, second]

/-! ## The count -/

/-- What a run of calls that have all returned leaves. -/
theorem run_balance {labels : List InstanceStep} (acquires : ∀ label ∈ labels, label.acquires = true)
    (ran : Runs.run step new labels = some singleton) (quiet : Quiet singleton) :
    ∃ uncounted : Nat, Sole singleton ∧ (singleton.objects 0).nRef + uncounted = singleton.returned.length ∧
      (uncounted = 0 ↔ Runs.Meets step FindsNull new labels) := by
  have locked : Locked new := by simp [Locked, new, GetInstancePc.inScope]
  obtain ⟨uncounted, sole, accounted, same⟩ := run_accounted labels acquires locked sole_new accounted_new ran
  have nobody : Census.count Leaves singleton.callers = 0 :=
    Census.count_eq_zero (fun caller => by simp [quiet caller, Leaves])
  have balance := accounted.balance
  exact ⟨uncounted, sole, by omega, same⟩

/-- The reference of the call that created the instance. -/
theorem Sole.positive (sole : Sole singleton) (quiet : Quiet singleton) (called : singleton.returned ≠ []) :
    1 ≤ (singleton.objects 0).nRef := by
  rcases sole.referenced (sole.answered called) with ⟨caller, adding⟩ | counted
  · rw [quiet caller] at adding
    cases adding
  · exact counted

/-- The calls are counted just in the runs in which every first test comes before the
instance, and the count is the same for all runs of so many calls just for a single call. -/
theorem refCounted_iff (labels : List InstanceStep) (acquires : ∀ label ∈ labels, label.acquires = true)
    (final : ISingleton) (ran : Runs.run step new labels = some final) (quiet : Quiet final)
    (called : 1 ≤ final.returned.length) :
    (RefCounted final ↔ Runs.Meets step FindsNull new labels) ∧
      ((∀ others otherFinal, (∀ label ∈ others, label.acquires = true) →
          Runs.run step new others = some otherFinal → Quiet otherFinal →
          otherFinal.returned.length = final.returned.length →
          (otherFinal.objects 0).nRef = (final.objects 0).nRef) ↔
        final.returned.length = 1) := by
  obtain ⟨uncounted, sole, balance, same⟩ := run_balance acquires ran quiet
  have answered : final.returned ≠ [] := List.length_pos_iff.mp called
  constructor
  · rw [refCounted_iff_count sole answered, ← same]
    omega
  · constructor
    · intro unchanging
      by_contra several
      obtain ⟨first, ranFirst, firstSettled⟩ := run_firstCall
      obtain ⟨late, oneAfter, lateAcquires, ranLate, one⟩ :=
        run_lateCalls firstSettled (final.returned.length - 1)
      obtain ⟨both, ranBoth, bothSettled⟩ := run_twoAtOnce
      obtain ⟨later, twoAfter, laterAcquires, ranLater, two⟩ :=
        run_lateCalls bothSettled (final.returned.length - 2)
      have countOne := unchanging (firstCall ++ late) oneAfter
        (List.forall_mem_append.mpr ⟨by decide, lateAcquires⟩)
        ((Runs.run_append ..).mpr ⟨first, ranFirst, ranLate⟩) one.quiet (by have calls := one.calls; omega)
      have countTwo := unchanging (twoAtOnce ++ later) twoAfter
        (List.forall_mem_append.mpr ⟨by decide, laterAcquires⟩)
        ((Runs.run_append ..).mpr ⟨both, ranBoth, ranLater⟩) two.quiet (by have calls := two.calls; omega)
      have isOne := one.count
      have isTwo := two.count
      omega
    · intro single others otherFinal otherAcquires otherRan otherQuiet equal
      obtain ⟨otherUncounted, otherSole, otherBalance, -⟩ := run_balance otherAcquires otherRan otherQuiet
      have otherAnswered : otherFinal.returned ≠ [] := List.length_pos_iff.mp (by omega)
      have positive := sole.positive quiet answered
      have otherPositive := otherSole.positive otherQuiet otherAnswered
      omega

/-- Two calls at once, both of them counted, because both find no instance at their first test. -/
theorem refCounted_iff_two :
    ∃ final, Runs.run step new twoAtOnce = some final ∧ final.returned.length = 2 ∧ RefCounted final := by
  obtain ⟨final, ran, settled⟩ := run_twoAtOnce
  have calls := settled.calls
  refine ⟨final, ran, calls, ?_⟩
  exact (refCounted_iff twoAtOnce (by decide) final ran settled.quiet (by omega)).1.mpr (by decide)

/-- Of two calls one after the other only the first is counted: the first `Free` destroys the
instance that the second caller holds, and a later use of it is one of freed memory. -/
theorem second_call_uncounted :
    ∃ final, Runs.run step new (firstCall ++ lateCall) = some final ∧ Quiet final ∧
      final.returned = [some 0, some 0] ∧ (final.objects 0).nRef = 1 ∧
      (Runs.run step final [.free 0]).map (·.destroyed) = some [0] ∧ ¬ RefCounted final := by
  obtain ⟨first, ranFirst, firstSettled⟩ := run_firstCall
  obtain ⟨final, ranLate, settled⟩ := run_lateCall firstSettled
  have ran : Runs.run step new (firstCall ++ lateCall) = some final :=
    (Runs.run_append ..).mpr ⟨first, ranFirst, ranLate⟩
  obtain ⟨-, sole, -, -⟩ := run_balance (by decide) ran settled.quiet
  have calls : final.returned.length = 2 := settled.calls
  have count : (final.objects 0).nRef = 1 := settled.count
  have answered : final.returned ≠ [] := List.length_pos_iff.mp (by omega)
  obtain ⟨after, freed, destroyed⟩ := free_last (sole.one settled.present) sole.kept count
  have results : final.returned = [some 0, some 0] :=
    List.eq_replicate_iff.mpr ⟨calls, sole.results⟩
  refine ⟨final, ran, settled.quiet, results, count, ?_, ?_⟩
  · rw [Runs.run, freed]
    exact congrArg some destroyed
  · rw [refCounted_iff_count sole answered, count, calls]
    decide

end ISingleton

end OpenTaker
