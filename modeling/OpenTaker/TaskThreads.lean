import OpenTaker.Runs
import Mathlib.Data.List.ReduceOption

/-!
# Task threads

A `CThread` runs the tasks of its queue in `doTask` until it is disabled or something throws,
and then clears the queue. Any number of callers add tasks: they test whether the thread is
enabled, and push the task under the lock of the queue. The semaphore counts the tasks that
have been pushed.

Every access is a step of its own, so that the calls, `enable(false)` and the worker run in
any order. What `exec`, the wait for the semaphore and a task do is given with the step.
-/

namespace OpenTaker

/-- Who holds `m_queue_mutex`: one of the callers, or the worker. -/
inductive QueueHolder where
  | worker
  | caller (caller : Nat)
deriving DecidableEq

/-- Where the worker stands in `doTask` and `clear`. A task that is NULL is not called. -/
inductive DoTaskPc where
  | testing
  | executing
  | waiting
  | locking
  | taking
  | unlocking (task : Option Nat)
  | calling (task : Option Nat)
  | clearing
  | deleting
  | draining
  | finished
deriving DecidableEq

/-- Where a caller stands in `addTask`, between two of its accesses. -/
inductive AddTaskPc where
  | idle
  | testing (task : Option Nat) (highPriority : Bool)
  | locking (task : Option Nat) (highPriority : Bool)
  | pushing (task : Option Nat) (highPriority : Bool)
  | posting
  | unlocking
deriving DecidableEq

/-- Inside of the scope of the lock, where the worker takes a task or clears the queue. -/
def DoTaskPc.inScope : DoTaskPc → Bool
  | .taking | .unlocking _ | .deleting | .draining => true
  | _ => false

/-- The places of `addTask` at which the caller holds the mutex of the queue. -/
def AddTaskPc.inScope : AddTaskPc → Bool
  | .pushing .. | .posting | .unlocking => true
  | _ => false

/-- What the called code does: `exec` returns 0, the semaphore is taken or the task returns;
`exec` returns something else, or the wait ends at its time; something throws. -/
inductive DoTaskOutcome where
  | succeeds
  | fails
  | throws
deriving DecidableEq

/-- A thread with its callers, and what has become of the tasks they have given it. -/
structure CThread where
  enable : Bool
  taskQueue : List (Option Nat)
  queueSem : Nat
  queueMutex : Option QueueHolder
  worker : DoTaskPc
  callers : Nat → AddTaskPc
  /-- The tasks that were pushed, called and deleted, for the history only. -/
  accepted : List Nat
  executed : List Nat
  deleted : List Nat

namespace CThread

/-- A constructed thread. The boost thread starts in the initialiser list, before `m_enable` is set;
a run begins behind the constructor, with a worker that has taken no step since. -/
def new : CThread where
  enable := true
  taskQueue := []
  queueSem := 0
  queueMutex := none
  worker := .testing
  callers := fun _ => .idle
  accepted := []
  executed := []
  deleted := []

/-- Leave a caller at another place, with nothing else changed. -/
def goto (thread : CThread) (caller : Nat) (pc : AddTaskPc) : CThread :=
  { thread with callers := Function.update thread.callers caller pc }

/-- `push_front` for a task of high priority, and `push_back`. -/
def push (thread : CThread) (task : Option Nat) (highPriority : Bool) : CThread :=
  { thread with
    taskQueue := if highPriority then task :: thread.taskQueue else thread.taskQueue ++ [task]
    accepted := thread.accepted ++ task.toList }

/-- The next access of a caller inside of `addTask`. -/
def addTask (thread : CThread) (caller : Nat) : Option CThread :=
  match thread.callers caller with
  | .idle => none
  | .testing task highPriority =>
      some (thread.goto caller (if thread.enable then .locking task highPriority else .idle))
  | .locking task highPriority =>
      if thread.queueMutex = none then
        some ({ thread with queueMutex := some (.caller caller) }.goto caller (.pushing task highPriority))
      else none
  | .pushing task highPriority => some ((thread.push task highPriority).goto caller .posting)
  | .posting => some ({ thread with queueSem := thread.queueSem + 1 }.goto caller .unlocking)
  | .unlocking => some ({ thread with queueMutex := none }.goto caller .idle)

/-- The next access of the worker inside of `doTask` and `clear`. -/
def doTask (thread : CThread) (outcome : DoTaskOutcome) : Option CThread :=
  match thread.worker with
  | .testing => some { thread with worker := if thread.enable then .executing else .clearing }
  | .executing =>
      match outcome with
      | .succeeds => some { thread with worker := .waiting }
      | .fails => some { thread with worker := .testing }
      | .throws => some { thread with worker := .clearing }
  | .waiting =>
      match outcome with
      | .succeeds =>
          if thread.queueSem = 0 then none
          else some { thread with queueSem := thread.queueSem - 1, worker := .locking }
      | .fails => some { thread with worker := .testing }
      | .throws => some { thread with worker := .clearing }
  | .locking =>
      if thread.queueMutex = none then
        some { thread with queueMutex := some .worker, worker := .taking }
      else none
  | .taking =>
      match thread.taskQueue with
      | [] => none -- `front` of an empty list
      | task :: rest => some { thread with taskQueue := rest, worker := .unlocking task }
  | .unlocking task => some { thread with queueMutex := none, worker := .calling task }
  | .calling none => some { thread with worker := .testing }
  | .calling (some task) =>
      some { thread with
        executed := thread.executed ++ [task]
        worker := if outcome = .throws then .clearing else .testing }
  | .clearing =>
      if thread.queueMutex = none then
        some { thread with queueMutex := some .worker, worker := .deleting }
      else none
  | .deleting =>
      some { thread with
        taskQueue := [], deleted := thread.deleted ++ thread.taskQueue.reduceOption, worker := .draining }
  | .draining =>
      if thread.queueSem = 0 then some { thread with queueMutex := none, worker := .finished }
      else some { thread with queueSem := thread.queueSem - 1 }
  | .finished => none

end CThread

/-- One step: a call of `addTask`, an access inside of one, `enable(false)`, or an access of
the worker. -/
inductive ThreadStep where
  | call (caller : Nat) (task : Option Nat) (highPriority : Bool)
  | addTask (caller : Nat)
  | disable
  | doTask (outcome : DoTaskOutcome)
deriving DecidableEq

namespace CThread

/-- Perform one step: a call begins, a caller goes on, or the worker does. -/
def step (thread : CThread) : ThreadStep → Option CThread
  | .call caller task highPriority =>
      if thread.callers caller = .idle then some (thread.goto caller (.testing task highPriority)) else none
  | .addTask caller => thread.addTask caller
  | .disable => some { thread with enable := false }
  | .doTask outcome => thread.doTask outcome

/-- Once the worker has finished, the thread is disabled, its queue is empty, and every task
that was accepted has been executed or deleted. -/
structure Retired (thread : CThread) : Prop where
  disabled : thread.worker = .finished → thread.enable = false
  empty : thread.worker = .finished → thread.taskQueue = []
  settled : thread.worker = .finished →
    ∀ task ∈ thread.accepted, task ∈ thread.executed ∨ task ∈ thread.deleted

/-- When the worker finishes, the thread has been disabled, and a task is pushed only while
the worker has not finished. -/
def InTime (thread : CThread) : ThreadStep → Prop
  | .doTask _ => thread.worker = .draining → thread.queueSem = 0 → thread.enable = false
  | .addTask caller =>
      ∀ task highPriority, thread.callers caller = .pushing task highPriority → thread.worker ≠ .finished
  | _ => True

variable {thread next : CThread}

/-! ## What an access can do -/

/-- The accesses of a caller inside of `addTask`, each of which is one step of a run. -/
inductive AddTaskMove (thread : CThread) (caller : Nat) : CThread → Prop where
  | tested (task : Option Nat) (highPriority : Bool)
      (place : thread.callers caller = .testing task highPriority) :
      AddTaskMove thread caller (thread.goto caller (if thread.enable then .locking task highPriority else .idle))
  | acquired (task : Option Nat) (highPriority : Bool)
      (place : thread.callers caller = .locking task highPriority) (isFree : thread.queueMutex = none) :
      AddTaskMove thread caller
        ({ thread with queueMutex := some (.caller caller) }.goto caller (.pushing task highPriority))
  | pushed (task : Option Nat) (highPriority : Bool)
      (place : thread.callers caller = .pushing task highPriority) :
      AddTaskMove thread caller ((thread.push task highPriority).goto caller .posting)
  | posted (place : thread.callers caller = .posting) :
      AddTaskMove thread caller ({ thread with queueSem := thread.queueSem + 1 }.goto caller .unlocking)
  | released (place : thread.callers caller = .unlocking) :
      AddTaskMove thread caller ({ thread with queueMutex := none }.goto caller .idle)

/-- The accesses of the worker inside of `doTask` and `clear`. -/
inductive DoTaskMove (thread : CThread) : CThread → Prop where
  /-- The worker goes on with nothing in hand. -/
  | went (pc : DoTaskPc)
      (was : thread.worker = .testing ∨ thread.worker = .executing ∨ thread.worker = .waiting ∨
        thread.worker = .calling none)
      (goes : pc = .testing ∨ pc = .executing ∨ pc = .waiting ∨ pc = .clearing) :
      DoTaskMove thread { thread with worker := pc }
  | waited (place : thread.worker = .waiting) (posted : thread.queueSem ≠ 0) :
      DoTaskMove thread { thread with queueSem := thread.queueSem - 1, worker := .locking }
  /-- The worker takes the free lock, to take a task or to clear the queue. -/
  | entered (pc : DoTaskPc) (isFree : thread.queueMutex = none)
      (place : thread.worker = .locking ∧ pc = .taking ∨ thread.worker = .clearing ∧ pc = .deleting) :
      DoTaskMove thread { thread with queueMutex := some .worker, worker := pc }
  | took (task : Option Nat) (rest : List (Option Nat)) (place : thread.worker = .taking)
      (queue : thread.taskQueue = task :: rest) :
      DoTaskMove thread { thread with taskQueue := rest, worker := .unlocking task }
  | left (task : Option Nat) (place : thread.worker = .unlocking task) :
      DoTaskMove thread { thread with queueMutex := none, worker := .calling task }
  | called (task : Nat) (pc : DoTaskPc) (place : thread.worker = .calling (some task))
      (goes : pc = .testing ∨ pc = .clearing) :
      DoTaskMove thread { thread with executed := thread.executed ++ [task], worker := pc }
  | emptied (place : thread.worker = .deleting) :
      DoTaskMove thread { thread with
        taskQueue := [], deleted := thread.deleted ++ thread.taskQueue.reduceOption, worker := .draining }
  | drained (place : thread.worker = .draining) (more : thread.queueSem ≠ 0) :
      DoTaskMove thread { thread with queueSem := thread.queueSem - 1, worker := .draining }
  | finished (place : thread.worker = .draining) (none : thread.queueSem = 0) :
      DoTaskMove thread { thread with queueMutex := Option.none, worker := .finished }

/-- There are no other accesses of a caller than those of the type. -/
theorem addTask_move {caller : Nat} (stepped : thread.addTask caller = some next) :
    AddTaskMove thread caller next := by
  unfold addTask at stepped
  cases place : thread.callers caller with
  | idle =>
    rw [place] at stepped
    cases stepped
  | testing task highPriority =>
    rw [place] at stepped
    cases stepped
    exact .tested task highPriority place
  | locking task highPriority =>
    rw [place] at stepped
    obtain ⟨isFree, same⟩ := Option.ite_none_right_eq_some.mp stepped
    cases same
    exact .acquired task highPriority place isFree
  | pushing task highPriority =>
    rw [place] at stepped
    cases stepped
    exact .pushed task highPriority place
  | posting =>
    rw [place] at stepped
    cases stepped
    exact .posted place
  | unlocking =>
    rw [place] at stepped
    cases stepped
    exact .released place

/-- The worker has no other accesses either: what a step of it does is one of these. -/
theorem doTask_move {outcome : DoTaskOutcome} (stepped : thread.doTask outcome = some next) :
    DoTaskMove thread next := by
  unfold doTask at stepped
  cases place : thread.worker with
  | testing =>
    rw [place] at stepped
    cases stepped
    refine .went _ (.inl place) ?_
    cases thread.enable <;> simp
  | executing =>
    rw [place] at stepped
    cases outcome <;> cases stepped <;> exact .went _ (.inr (.inl place)) (by simp)
  | waiting =>
    rw [place] at stepped
    cases outcome with
    | succeeds =>
      obtain ⟨posted, same⟩ := Option.ite_none_left_eq_some.mp stepped
      cases same
      exact .waited place posted
    | fails | throws =>
      cases stepped
      exact .went _ (.inr (.inr (.inl place))) (by simp)
  | locking =>
    rw [place] at stepped
    obtain ⟨isFree, same⟩ := Option.ite_none_right_eq_some.mp stepped
    cases same
    exact .entered _ isFree (.inl ⟨place, rfl⟩)
  | taking =>
    rw [place] at stepped
    cases queue : thread.taskQueue with
    | nil =>
      rw [queue] at stepped
      cases stepped
    | cons task rest =>
      rw [queue] at stepped
      cases stepped
      exact .took task rest place queue
  | unlocking task =>
    rw [place] at stepped
    cases stepped
    exact .left task place
  | calling task =>
    rw [place] at stepped
    cases task with
    | none =>
      cases stepped
      exact .went _ (.inr (.inr (.inr place))) (.inl rfl)
    | some task =>
      cases stepped
      refine .called task _ place ?_
      split <;> simp
  | clearing =>
    rw [place] at stepped
    obtain ⟨isFree, same⟩ := Option.ite_none_right_eq_some.mp stepped
    cases same
    exact .entered _ isFree (.inr ⟨place, rfl⟩)
  | deleting =>
    rw [place] at stepped
    cases stepped
    exact .emptied place
  | draining =>
    rw [place] at stepped
    by_cases none : thread.queueSem = 0
    · simp only [if_pos none] at stepped
      cases stepped
      exact .finished place none
    · simp only [if_neg none] at stepped
      cases stepped
      exact .drained place none
  | finished =>
    rw [place] at stepped
    cases stepped

/-! ## The lock -/

/-- Whoever is in the scope of the lock holds it. -/
structure Locked (thread : CThread) : Prop where
  worker : thread.worker.inScope = true → thread.queueMutex = some .worker
  caller : ∀ caller, (thread.callers caller).inScope = true → thread.queueMutex = some (.caller caller)

namespace Locked

/-- A caller inside of the scope keeps out the worker and the other callers. -/
theorem alone (locked : Locked thread) {caller : Nat} (inScope : (thread.callers caller).inScope = true) :
    thread.worker.inScope = false ∧
      ∀ other, other ≠ caller → (thread.callers other).inScope = false := by
  have holds := locked.caller caller inScope
  constructor
  · by_contra worker
    rw [Bool.not_eq_false] at worker
    have both := (locked.worker worker).symm.trans holds
    cases both
  · intro other distinct
    by_contra otherInScope
    rw [Bool.not_eq_false] at otherInScope
    have both := (locked.caller other otherInScope).symm.trans holds
    cases both
    exact distinct rfl

/-- The worker inside of the scope keeps out the callers. -/
theorem alone_worker (locked : Locked thread) (inScope : thread.worker.inScope = true) (caller : Nat) :
    (thread.callers caller).inScope = false := by
  by_contra callerInScope
  rw [Bool.not_eq_false] at callerInScope
  have both := (locked.caller caller callerInScope).symm.trans (locked.worker inScope)
  cases both

/-- Nobody is inside of the scope of a free lock. -/
theorem free (locked : Locked thread) (isFree : thread.queueMutex = none) :
    thread.worker.inScope = false ∧ ∀ caller, (thread.callers caller).inScope = false := by
  constructor
  · by_contra worker
    rw [Bool.not_eq_false] at worker
    have both := (locked.worker worker).symm.trans isFree
    cases both
  · intro caller
    by_contra callerInScope
    rw [Bool.not_eq_false] at callerInScope
    have both := (locked.caller caller callerInScope).symm.trans isFree
    cases both

/-- A step that neither enters nor leaves the scope. -/
theorem congr (locked : Locked thread) (mutex : next.queueMutex = thread.queueMutex)
    (worker : next.worker.inScope = thread.worker.inScope)
    (callers : ∀ caller, (next.callers caller).inScope = (thread.callers caller).inScope) : Locked next where
  worker inScope := mutex.trans (locked.worker (worker ▸ inScope))
  caller caller inScope := mutex.trans (locked.caller caller (callers caller ▸ inScope))

/-- A caller goes to a place that is in the scope just where its last one was. -/
theorem moved (locked : Locked thread) {caller : Nat} {pc : AddTaskPc}
    (mutex : next.queueMutex = thread.queueMutex) (worker : next.worker = thread.worker)
    (callers : next.callers = Function.update thread.callers caller pc)
    (same : pc.inScope = (thread.callers caller).inScope) : Locked next := by
  refine locked.congr mutex (by rw [worker]) fun other => ?_
  rw [callers, Function.update_apply]
  split
  · rename_i isCaller
    rw [isCaller, same]
  · rfl

/-- A caller takes the lock that was free, and is the only one in its scope. -/
theorem acquired (locked : Locked thread) {caller : Nat} {pc : AddTaskPc} (isFree : thread.queueMutex = none)
    (mutex : next.queueMutex = some (.caller caller)) (worker : next.worker = thread.worker)
    (callers : next.callers = Function.update thread.callers caller pc) : Locked next where
  worker inScope := by
    rw [worker, (locked.free isFree).1] at inScope
    cases inScope
  caller other inScope := by
    rw [callers, Function.update_apply] at inScope
    split at inScope
    · rename_i isCaller
      rw [isCaller, mutex]
    · rw [(locked.free isFree).2 other] at inScope
      cases inScope

/-- A caller gives the lock back, and is no longer in its scope. -/
theorem released (locked : Locked thread) {caller : Nat} {pc : AddTaskPc}
    (inScope : (thread.callers caller).inScope = true) (worker : next.worker = thread.worker)
    (callers : next.callers = Function.update thread.callers caller pc) (outOfScope : pc.inScope = false) :
    Locked next where
  worker workerInScope := by
    rw [worker, (locked.alone inScope).1] at workerInScope
    cases workerInScope
  caller other otherInScope := by
    rw [callers, Function.update_apply] at otherInScope
    split at otherInScope
    · rw [outOfScope] at otherInScope
      cases otherInScope
    · rename_i distinct
      rw [(locked.alone inScope).2 other distinct] at otherInScope
      cases otherInScope

/-- The worker takes the lock that was free, so that all callers are outside of its scope. -/
theorem acquired_worker (locked : Locked thread) (isFree : thread.queueMutex = none)
    (mutex : next.queueMutex = some .worker) (callers : next.callers = thread.callers) : Locked next where
  worker _ := mutex
  caller caller inScope := by
    rw [callers, (locked.free isFree).2 caller] at inScope
    cases inScope

/-- The worker gives the lock back, and nobody is in its scope then. -/
theorem released_worker (locked : Locked thread) (inScope : thread.worker.inScope = true)
    (outOfScope : next.worker.inScope = false) (callers : next.callers = thread.callers) : Locked next where
  worker workerInScope := by
    rw [outOfScope] at workerInScope
    cases workerInScope
  caller caller callerInScope := by
    rw [callers, locked.alone_worker inScope caller] at callerInScope
    cases callerInScope

/-- An access of a caller keeps the lock: it takes the mutex when it is free, and gives it back
behind its scope. -/
theorem addTask (locked : Locked thread) {caller : Nat} (stepped : thread.addTask caller = some next) :
    Locked next := by
  cases addTask_move stepped with
  | tested task highPriority place =>
    refine locked.moved rfl rfl rfl ?_
    rw [place]
    split <;> rfl
  | acquired task highPriority place isFree => exact locked.acquired isFree rfl rfl rfl
  | pushed task highPriority place => exact locked.moved rfl rfl rfl (by rw [place]; rfl)
  | posted place => exact locked.moved rfl rfl rfl (by rw [place]; rfl)
  | released place => exact locked.released (by rw [place]; rfl) rfl rfl rfl

/-- An access of the worker keeps to the lock too, by the cases of what it may do. -/
theorem doTask (locked : Locked thread) {outcome : DoTaskOutcome}
    (stepped : thread.doTask outcome = some next) : Locked next := by
  cases doTask_move stepped with
  | went pc was goes =>
    refine locked.congr rfl ?_ fun _ => rfl
    have outside : thread.worker.inScope = false := by
      rcases was with place | place | place | place <;> simp [place, DoTaskPc.inScope]
    rw [outside]
    rcases goes with rfl | rfl | rfl | rfl <;> rfl
  | waited place posted => exact locked.congr rfl (by rw [place]; rfl) fun _ => rfl
  | entered pc isFree place => exact locked.acquired_worker isFree rfl rfl
  | took task rest place queue => exact locked.congr rfl (by rw [place]; rfl) fun _ => rfl
  | left task place => exact locked.released_worker (by rw [place]; rfl) rfl rfl
  | called task pc place goes =>
    refine locked.congr rfl ?_ fun _ => rfl
    rw [place]
    rcases goes with rfl | rfl <;> rfl
  | emptied place => exact locked.congr rfl (by rw [place]; rfl) fun _ => rfl
  | drained place more => exact locked.congr rfl (by rw [place]) fun _ => rfl
  | finished place none => exact locked.released_worker (by rw [place]; rfl) rfl rfl

end Locked

/-! ## The tasks -/

/-- What the worker took from the semaphore and has not taken from the queue. -/
def tokens (thread : CThread) : Nat :=
  match thread.worker with
  | .locking | .taking => 1
  | _ => 0

/-- What was pushed without the semaphore saying so yet. -/
def unposted (thread : CThread) : Nat :=
  match thread.queueMutex with
  | some (.caller caller) => if thread.callers caller = .posting then 1 else 0
  | _ => 0

/-- A caller that goes on without a push or a post. -/
theorem unposted_update {caller : Nat} {pc : AddTaskPc} (was : thread.callers caller ≠ .posting)
    (goes : pc ≠ .posting) :
    ({ thread with callers := Function.update thread.callers caller pc } : CThread).unposted =
      thread.unposted := by
  cases mutex : thread.queueMutex with
  | none => simp only [unposted, mutex]
  | some holder =>
    cases holder with
    | worker => simp only [unposted, mutex]
    | caller other =>
      by_cases isCaller : other = caller
      · simp [unposted, mutex, isCaller, was, goes]
      · simp [unposted, mutex, isCaller]

/-- The task that the worker has in hand, between taking it and the end of its execution. -/
def inHand (thread : CThread) : Option Nat :=
  match thread.worker with
  | .unlocking task | .calling task => task
  | _ => none

/-- Each accepted task is somewhere, the semaphore counts the queue, and what is to hold in
the end. -/
structure Accounted (thread : CThread) : Prop where
  account : ∀ task ∈ thread.accepted, task ∈ thread.executed ∨ task ∈ thread.deleted ∨
    some task ∈ thread.taskQueue ∨ thread.inHand = some task
  counted : thread.worker ≠ .draining →
    thread.queueSem + thread.tokens + thread.unposted = thread.taskQueue.length
  drained : thread.worker = .draining → thread.taskQueue = []
  disabled : thread.worker = .finished → thread.enable = false
  empty : thread.worker = .finished → thread.taskQueue = []

namespace Accounted

/-- With nothing in the hand of the worker, a task that was accepted is executed, deleted or in the
queue. -/
theorem elsewhere (accounted : Accounted thread) (idle : thread.inHand = none) {task : Nat}
    (member : task ∈ thread.accepted) :
    task ∈ thread.executed ∨ task ∈ thread.deleted ∨ some task ∈ thread.taskQueue := by
  rcases accounted.account task member with executed | deleted | queued | held
  · exact .inl executed
  · exact .inr (.inl deleted)
  · exact .inr (.inr queued)
  · rw [idle] at held
    cases held

/-- The worker goes on with nothing in hand, which keeps the account: no task has changed its place. -/
theorem went (accounted : Accounted thread) {pc : DoTaskPc} (was : thread.worker ≠ .draining)
    (idle : thread.inHand = none) (none : thread.tokens = 0)
    (goes : pc = .testing ∨ pc = .executing ∨ pc = .waiting ∨ pc = .clearing) :
    Accounted { thread with worker := pc } where
  account _ member := (accounted.elsewhere idle member).imp_right (.imp_right .inl)
  counted _ := by
    have counted := accounted.counted was
    rw [none] at counted
    rcases goes with rfl | rfl | rfl | rfl <;> exact counted
  drained isPlace := by rcases goes with rfl | rfl | rfl | rfl <;> cases isPlace
  disabled isPlace := by rcases goes with rfl | rfl | rfl | rfl <;> cases isPlace
  empty isPlace := by rcases goes with rfl | rfl | rfl | rfl <;> cases isPlace

/-- The wait for the semaphore ends by a post or by its time-out. -/
theorem waited (accounted : Accounted thread) (place : thread.worker = .waiting)
    (posted : thread.queueSem ≠ 0) :
    Accounted { thread with queueSem := thread.queueSem - 1, worker := .locking } where
  account _ member := by
    have idle : thread.inHand = none := by simp [inHand, place]
    exact (accounted.elsewhere idle member).imp_right (.imp_right .inl)
  counted _ := by
    have counted := accounted.counted (by rw [place]; nofun)
    have none : thread.tokens = 0 := by simp [tokens, place]
    change thread.queueSem - 1 + 1 + thread.unposted = thread.taskQueue.length
    omega
  drained := nofun
  disabled := nofun
  empty := nofun

/-- The worker takes the free lock, to take a task or to clear the queue. -/
theorem entered (accounted : Accounted thread) (isFree : thread.queueMutex = none) {pc : DoTaskPc}
    (place : thread.worker = .locking ∧ pc = .taking ∨ thread.worker = .clearing ∧ pc = .deleting) :
    Accounted { thread with queueMutex := some .worker, worker := pc } := by
  have unposted : thread.unposted = 0 := by simp [CThread.unposted, isFree]
  rcases place with ⟨place, rfl⟩ | ⟨place, rfl⟩
  · have idle : thread.inHand = none := by simp [inHand, place]
    have counted := accounted.counted (by rw [place]; nofun)
    have tokens : thread.tokens = 1 := by simp [CThread.tokens, place]
    rw [unposted, tokens] at counted
    exact ⟨fun _ member => (accounted.elsewhere idle member).imp_right (.imp_right .inl),
      fun _ => counted, nofun, nofun, nofun⟩
  · have idle : thread.inHand = none := by simp [inHand, place]
    have counted := accounted.counted (by rw [place]; nofun)
    have tokens : thread.tokens = 0 := by simp [CThread.tokens, place]
    rw [unposted, tokens] at counted
    exact ⟨fun _ member => (accounted.elsewhere idle member).imp_right (.imp_right .inl),
      fun _ => counted, nofun, nofun, nofun⟩

/-- The first task of the queue is in the hand of the worker. -/
theorem took (accounted : Accounted thread) (place : thread.worker = .taking) {task : Option Nat}
    {rest : List (Option Nat)} (queue : thread.taskQueue = task :: rest) :
    Accounted { thread with taskQueue := rest, worker := .unlocking task } where
  account other member := by
    have idle : thread.inHand = none := by simp [inHand, place]
    rcases accounted.elsewhere idle member with executed | deleted | queued
    · exact .inl executed
    · exact .inr (.inl deleted)
    · rw [queue] at queued
      rcases List.mem_cons.mp queued with isTask | inRest
      · exact .inr (.inr (.inr isTask.symm))
      · exact .inr (.inr (.inl inRest))
  counted _ := by
    have counted := accounted.counted (by rw [place]; nofun)
    have one : thread.tokens = 1 := by simp [tokens, place]
    rw [one, queue, List.length_cons] at counted
    change thread.queueSem + 0 + thread.unposted = rest.length
    omega
  drained := nofun
  disabled := nofun
  empty := nofun

/-- The worker leaves the scope of the lock with its task. -/
theorem left (accounted : Accounted thread) {task : Option Nat} (place : thread.worker = .unlocking task)
    (holds : thread.queueMutex = some .worker) :
    Accounted { thread with queueMutex := none, worker := .calling task } where
  account other member := by
    have hand : thread.inHand = task := by simp [inHand, place]
    have account := accounted.account other member
    rw [hand] at account
    exact account
  counted _ := by
    have counted := accounted.counted (by rw [place]; nofun)
    have none : thread.tokens = 0 := by simp [tokens, place]
    have unposted : thread.unposted = 0 := by simp [CThread.unposted, holds]
    rw [none, unposted] at counted
    exact counted
  drained := nofun
  disabled := nofun
  empty := nofun

/-- The task has been called, whether it returns or throws. -/
theorem called (accounted : Accounted thread) {task : Nat} (place : thread.worker = .calling (some task))
    {pc : DoTaskPc} (goes : pc = .testing ∨ pc = .clearing) :
    Accounted { thread with executed := thread.executed ++ [task], worker := pc } where
  account other member := by
    have hand : thread.inHand = some task := by simp [inHand, place]
    rcases accounted.account other member with executed | deleted | queued | held
    · exact .inl (List.mem_append_left _ executed)
    · exact .inr (.inl deleted)
    · exact .inr (.inr (.inl queued))
    · rw [hand, Option.some.injEq] at held
      exact .inl (List.mem_append_right _ (held ▸ List.mem_singleton_self _))
  counted _ := by
    have counted := accounted.counted (by rw [place]; nofun)
    have none : thread.tokens = 0 := by simp [tokens, place]
    rw [none] at counted
    rcases goes with rfl | rfl <;> exact counted
  drained isPlace := by rcases goes with rfl | rfl <;> cases isPlace
  disabled isPlace := by rcases goes with rfl | rfl <;> cases isPlace
  empty isPlace := by rcases goes with rfl | rfl <;> cases isPlace

/-- What was in the queue is deleted, and no task is lost by that. -/
theorem emptied (accounted : Accounted thread) (place : thread.worker = .deleting) :
    Accounted { thread with
      taskQueue := [], deleted := thread.deleted ++ thread.taskQueue.reduceOption, worker := .draining } where
  account other member := by
    have idle : thread.inHand = none := by simp [inHand, place]
    rcases accounted.elsewhere idle member with executed | deleted | queued
    · exact .inl executed
    · exact .inr (.inl (List.mem_append_left _ deleted))
    · exact .inr (.inl (List.mem_append_right _ (List.reduceOption_mem_iff.mpr queued)))
  counted notDraining := absurd rfl notDraining
  drained _ := rfl
  disabled := nofun
  empty := nofun

/-- The semaphore is drained by one, as the queue was by the task before. -/
theorem drainedOne (accounted : Accounted thread) (place : thread.worker = .draining) :
    Accounted { thread with queueSem := thread.queueSem - 1, worker := .draining } where
  account _ member := by
    have idle : thread.inHand = none := by simp [inHand, place]
    exact (accounted.elsewhere idle member).imp_right (.imp_right .inl)
  counted notDraining := absurd rfl notDraining
  drained _ := accounted.drained place
  disabled := nofun
  empty := nofun

/-- The worker finishes when the thread has been disabled. -/
theorem finish (accounted : Accounted thread) (place : thread.worker = .draining)
    (drained : thread.queueSem = 0) (disabled : thread.enable = false) :
    Accounted { thread with queueMutex := none, worker := .finished } where
  account _ member := by
    have idle : thread.inHand = none := by simp [inHand, place]
    exact (accounted.elsewhere idle member).imp_right (.imp_right .inl)
  counted _ := by
    rw [accounted.drained place]
    exact drained
  drained := nofun
  disabled _ := disabled
  empty _ := accounted.drained place

/-- A caller goes on, and the lock with it, without a push or a post. -/
theorem moved (accounted : Accounted thread) {mutex : Option QueueHolder} {callers : Nat → AddTaskPc}
    (same : ({ thread with queueMutex := mutex, callers := callers } : CThread).unposted = thread.unposted) :
    Accounted { thread with queueMutex := mutex, callers := callers } where
  account := accounted.account
  counted notDraining := by rw [same]; exact accounted.counted notDraining
  drained := accounted.drained
  disabled := accounted.disabled
  empty := accounted.empty

/-- A task is pushed by a caller that holds the lock. -/
theorem pushed (locked : Locked thread) (accounted : Accounted thread) {caller : Nat} {task : Option Nat}
    {highPriority : Bool} (place : thread.callers caller = .pushing task highPriority)
    (unfinished : thread.worker ≠ .finished) :
    Accounted ((thread.push task highPriority).goto caller .posting) := by
  have inScope : (thread.callers caller).inScope = true := by rw [place]; rfl
  have holds := locked.caller caller inScope
  have notDraining : thread.worker ≠ .draining := by
    intro draining
    have outside := (locked.alone inScope).1
    rw [draining] at outside
    cases outside
  have counted := accounted.counted notDraining
  refine ⟨fun other member => ?_, fun _ => ?_, fun draining => absurd draining notDraining,
    fun finished => absurd finished unfinished, fun finished => absurd finished unfinished⟩
  · have queued : some other ∈ thread.taskQueue ∨ task = some other →
        some other ∈ (if highPriority then task :: thread.taskQueue else thread.taskQueue ++ [task]) := by
      cases highPriority <;> simp [or_comm, eq_comm]
    rcases List.mem_append.mp member with before | isTask
    · rcases accounted.account other before with executed | deleted | inQueue | held
      · exact .inl executed
      · exact .inr (.inl deleted)
      · exact .inr (.inr (.inl (queued (.inl inQueue))))
      · exact .inr (.inr (.inr held))
    · exact .inr (.inr (.inl (queued (.inr (Option.mem_toList.mp isTask)))))
  · have was : thread.unposted = 0 := by simp [unposted, holds, place]
    have is : ((thread.push task highPriority).goto caller .posting).unposted = 1 := by
      simp [unposted, goto, push, holds]
    have longer : (if highPriority then task :: thread.taskQueue else thread.taskQueue ++ [task]).length =
        thread.taskQueue.length + 1 := by
      cases highPriority <;> simp
    have same : ((thread.push task highPriority).goto caller .posting).tokens = thread.tokens := rfl
    rw [is, same]
    change thread.queueSem + thread.tokens + 1 =
      (if highPriority then task :: thread.taskQueue else thread.taskQueue ++ [task]).length
    omega

/-- The post behind a push: from here on the semaphore counts the task that was queued. -/
theorem posted (locked : Locked thread) (accounted : Accounted thread) {caller : Nat}
    (place : thread.callers caller = .posting) :
    Accounted ({ thread with queueSem := thread.queueSem + 1 }.goto caller .unlocking) where
  account := accounted.account
  counted notDraining := by
    have holds := locked.caller caller (by rw [place]; rfl)
    have counted := accounted.counted notDraining
    have was : thread.unposted = 1 := by simp [unposted, holds, place]
    have is : ({ thread with queueSem := thread.queueSem + 1 }.goto caller .unlocking).unposted = 0 := by
      simp [unposted, goto, holds]
    rw [is]
    change thread.queueSem + 1 + thread.tokens + 0 = thread.taskQueue.length
    omega
  drained := accounted.drained
  disabled := accounted.disabled
  empty := accounted.empty

/-- An access of a caller keeps the account of the semaphore with the queue and the callers between
push and post. -/
theorem addTask (locked : Locked thread) (accounted : Accounted thread) {caller : Nat}
    (inTime : InTime thread (.addTask caller)) (stepped : thread.addTask caller = some next) :
    Accounted next := by
  cases addTask_move stepped with
  | tested task highPriority place =>
    refine accounted.moved (unposted_update (by rw [place]; nofun) ?_)
    split <;> nofun
  | acquired task highPriority place isFree =>
    refine accounted.moved ?_
    simp [unposted, isFree]
  | pushed task highPriority place => exact accounted.pushed locked place (inTime task highPriority place)
  | posted place => exact accounted.posted locked place
  | released place =>
    have holds := locked.caller caller (by rw [place]; rfl)
    refine accounted.moved ?_
    simp [unposted, holds, place]

/-- So does an access of the worker, which takes a post before it takes a task. -/
theorem doTask (locked : Locked thread) (accounted : Accounted thread) {outcome : DoTaskOutcome}
    (inTime : InTime thread (.doTask outcome)) (stepped : thread.doTask outcome = some next) :
    Accounted next := by
  cases doTask_move stepped with
  | went pc was goes =>
    rcases was with place | place | place | place <;>
      exact accounted.went (by simp [place]) (by simp [inHand, place]) (by simp [tokens, place]) goes
  | waited place posted => exact accounted.waited place posted
  | entered pc isFree place => exact accounted.entered isFree place
  | took task rest place queue => exact accounted.took place queue
  | left task place => exact accounted.left place (locked.worker (by rw [place]; rfl))
  | called task pc place goes => exact accounted.called place goes
  | emptied place => exact accounted.emptied place
  | drained place more => exact accounted.drainedOne place
  | finished place none => exact accounted.finish place none (inTime place none)

/-- Each step in time keeps the account, by the cases of the callers and of the worker. -/
theorem step (locked : Locked thread) (accounted : Accounted thread) {label : ThreadStep}
    (inTime : InTime thread label) (stepped : thread.step label = some next) : Accounted next := by
  cases label with
  | call caller task highPriority =>
    obtain ⟨idle, same⟩ := Option.ite_none_right_eq_some.mp stepped
    cases same
    exact accounted.moved (unposted_update (by rw [idle]; nofun) nofun)
  | addTask caller => exact accounted.addTask locked inTime stepped
  | disable =>
    cases stepped
    exact ⟨accounted.account, accounted.counted, accounted.drained, fun _ => rfl, accounted.empty⟩
  | doTask outcome => exact accounted.doTask locked inTime stepped

/-- The account implies what is to hold when the worker has finished. -/
theorem retired (accounted : Accounted thread) : Retired thread where
  disabled := accounted.disabled
  empty := accounted.empty
  settled finished task member := by
    rcases accounted.account task member with executed | deleted | queued | held
    · exact .inl executed
    · exact .inr deleted
    · rw [accounted.empty finished] at queued
      cases queued
    · rw [inHand, finished] at held
      cases held

end Accounted

/-- Each step keeps to the lock, of the callers and of the worker. -/
theorem Locked.step (locked : Locked thread) {label : ThreadStep} (stepped : thread.step label = some next) :
    Locked next := by
  cases label with
  | call caller task highPriority =>
    obtain ⟨idle, same⟩ := Option.ite_none_right_eq_some.mp stepped
    cases same
    exact locked.moved rfl rfl rfl (by rw [idle]; rfl)
  | addTask caller => exact locked.addTask stepped
  | disable =>
    cases stepped
    exact locked.congr rfl rfl fun _ => rfl
  | doTask outcome => exact locked.doTask stepped

/-- A worker that takes a task finds one: `front` and `pop_front` are called on a list that
is not empty. -/
theorem taking_finds (locked : Locked thread) (accounted : Accounted thread)
    (place : thread.worker = .taking) : ∃ task rest, thread.taskQueue = task :: rest := by
  have holds := locked.worker (by rw [place]; rfl)
  have counted := accounted.counted (by rw [place]; nofun)
  simp only [tokens, place, unposted, holds] at counted
  exact List.exists_cons_of_length_pos (by omega)

/-- The worker finishes too early, or a task comes too late. -/
theorem not_retired {label : ThreadStep} (late : ¬ InTime thread label)
    (stepped : thread.step label = some next) : ¬ Retired next := by
  intro retired
  cases label with
  | call | disable => exact late trivial
  | addTask caller =>
    simp only [InTime, not_forall, not_not] at late
    obtain ⟨task, highPriority, place, finished⟩ := late
    simp only [CThread.step, CThread.addTask, place] at stepped
    cases stepped
    have empty := retired.empty finished
    cases highPriority <;> simp [push, goto] at empty
  | doTask outcome =>
    simp only [InTime, not_forall] at late
    obtain ⟨place, drained, enabled⟩ := late
    simp only [CThread.step, CThread.doTask, place, if_pos drained] at stepped
    cases stepped
    exact enabled (retired.disabled rfl)

/-- The thread retires properly in just the runs whose steps are in time: the worker finishes only
when the thread has been disabled, and no task is pushed behind that. -/
theorem retired_iff (labels : List ThreadStep) :
    Runs.Throughout step Retired new labels ↔ Runs.Meets step InTime new labels := by
  apply Runs.throughout_iff_meets step InTime (fun thread => Locked thread ∧ Accounted thread) Retired
  · exact fun _ kept => kept.2.retired
  · exact fun _ _ _ kept inTime stepped => ⟨kept.1.step stepped, kept.2.step kept.1 inTime stepped⟩
  · intro thread label late
    cases label with
    | call | disable => exact absurd trivial late
    | addTask caller =>
      simp only [InTime, not_forall, not_not] at late
      obtain ⟨task, highPriority, place, -⟩ := late
      exact ⟨_, by simp only [step, addTask, place]; rfl⟩
    | doTask outcome =>
      simp only [InTime, not_forall] at late
      obtain ⟨place, drained, -⟩ := late
      exact ⟨_, by simp only [step, doTask, place, if_pos drained]; rfl⟩
  · exact fun _ _ _ _ late stepped => not_retired late stepped
  · refine ⟨⟨nofun, nofun⟩, ?_⟩
    exact ⟨nofun, fun _ => rfl, nofun, nofun, nofun⟩

/-- A call of `addTask` that goes through, from its test to its return. -/
def added (caller task : Nat) : List ThreadStep :=
  .call caller (some task) false :: List.replicate 5 (.addTask caller)

/-- The worker takes a task that throws, and clears the queue. -/
def thrown : List ThreadStep :=
  List.replicate 6 (.doTask .succeeds) ++ .doTask .throws :: List.replicate 3 (.doTask .succeeds)

/-- A task throws: the worker finishes with the thread still enabled, and the next task is accepted
by nobody who would run it. -/
theorem dead_worker_accepts :
    ¬ Runs.Throughout step Retired new (added 0 1 ++ thrown) ∧
      ∃ final, Runs.run step new (added 0 1 ++ thrown ++ added 0 2) = some final ∧
        final.worker = .finished ∧ final.enable = true ∧ final.taskQueue = [some 2] ∧
          final.accepted = [1, 2] ∧ final.executed = [1] ∧ final.deleted = [] := by
  constructor
  · intro throughout
    obtain ⟨final, ran, finished, enabled⟩ := Runs.run_reaches step new (added 0 1 ++ thrown)
      (fun final => final.worker = .finished ∧ final.enable = true) (by decide +kernel)
    have disabled := (Runs.throughout_final step Retired new final _ throughout ran).disabled finished
    rw [enabled] at disabled
    cases disabled
  · exact Runs.run_reaches step new _ _ (by decide +kernel)

end CThread

end OpenTaker
