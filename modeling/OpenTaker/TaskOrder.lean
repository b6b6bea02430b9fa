import OpenTaker.TaskThreads
import Mathlib.Data.List.Nodup
import Mathlib.Data.List.Range

/-!
# The order of the tasks

The semaphore is taken outside of the lock and the queue is changed inside of it. A run of a
`CThread` is kept here with its history: each call of `addTask` draws a number when it
acquires the lock, and the numbers follow the tasks through the queue. The worker never
takes from an empty queue, no number is taken twice, and without tasks of high priority the
numbers are taken in order.
-/

namespace OpenTaker

/-- A call that adds a task of high priority. -/
def ThreadStep.highPriority : ThreadStep → Bool
  | .call _ _ highPriority => highPriority
  | _ => false

/-- A thread with the numbers of its tasks, which the code does not have and the order is said with. -/
structure TaskHistory where
  thread : CThread
  /-- The tasks in the order in which `addTask` acquired the lock for them. -/
  acquired : List (Option Nat)
  /-- The number that a caller drew last. -/
  ticket : Nat → Nat
  /-- The numbers of the tasks in the queue, and of those that were taken from it. -/
  queued : List Nat
  popped : List Nat

namespace TaskHistory

/-- Before the first step nobody has a number, and nothing was executed. -/
def new : TaskHistory where
  thread := .new
  acquired := []
  ticket := fun _ => 0
  queued := []
  popped := []

/-- A caller draws the next number when it takes the lock: the order of the lock is the order of the
tasks. -/
def acquire (history : TaskHistory) (caller : Nat) (task : Option Nat) : TaskHistory :=
  { history with
    acquired := history.acquired ++ [task]
    ticket := Function.update history.ticket caller history.acquired.length }

/-- Its number goes with its task into the queue, to the front or to the back. -/
def push (history : TaskHistory) (caller : Nat) (highPriority : Bool) : TaskHistory :=
  { history with
    queued := if highPriority then history.ticket caller :: history.queued
      else history.queued ++ [history.ticket caller] }

/-- The first number is taken with the first task. -/
def pop (history : TaskHistory) : TaskHistory :=
  { history with queued := history.queued.tail, popped := history.popped ++ history.queued.take 1 }

/-- The numbers after a step, by what the step has done. -/
def record (history : TaskHistory) : ThreadStep → TaskHistory
  | .addTask caller =>
      match history.thread.callers caller with
      | .locking task _ => history.acquire caller task
      | .pushing _ highPriority => history.push caller highPriority
      | _ => history
  | .doTask _ =>
      match history.thread.worker with
      | .taking => history.pop
      | .deleting => { history with queued := [] }
      | _ => history
  | _ => history

/-- Perform one step, of the thread and of the history. -/
def step (history : TaskHistory) (label : ThreadStep) : Option TaskHistory :=
  (history.thread.step label).map fun next => { history.record label with thread := next }

/-- The numbers do not hold up the thread: its runs are those it has without them. -/
theorem run_thread (history : TaskHistory) (labels : List ThreadStep) :
    (Runs.run step history labels).map (·.thread) = Runs.run CThread.step history.thread labels := by
  induction labels generalizing history with
  | nil => rfl
  | cons label rest inductionHypothesis =>
    rw [Runs.run, Runs.run, step]
    cases history.thread.step label with
    | none => rfl
    | some next => exact inductionHypothesis _

/-- The semaphore and the queue agree: a worker that is about to take a task finds one, the
numbers are those of the tasks in the queue, none is taken twice, and what has been called,
or is about to be, are the tasks of the numbers taken. -/
structure Agreed (history : TaskHistory) : Prop where
  finds : history.thread.worker = .taking → history.thread.taskQueue ≠ []
  tickets : history.thread.taskQueue.map some = history.queued.map (history.acquired[·]?)
  once : (history.popped ++ history.queued).Nodup
  called : history.thread.executed ++ history.thread.inHand.toList =
    history.popped.filterMap fun ticket => history.acquired[ticket]?.join

/-- The tasks are taken in the order of their numbers, and called so. -/
structure InOrder (history : TaskHistory) : Prop where
  popped : history.popped = List.range history.popped.length
  called : history.thread.executed ++ history.thread.inHand.toList =
    (history.acquired.take history.popped.length).reduceOption

variable {history next : TaskHistory}

/-! ## What a step can do -/

/-- The worker has not cleared the queue, as it does when it ends. -/
def Active (thread : CThread) : Prop := thread.worker ≠ .draining ∧ thread.worker ≠ .finished

/-- A step that leaves the queue, the numbers and the pushes under way as they were. -/
structure Quiet (history next : TaskHistory) : Prop where
  taskQueue : next.thread.taskQueue = history.thread.taskQueue
  acquired : next.acquired = history.acquired
  ticket : next.ticket = history.ticket
  queued : next.queued = history.queued
  popped : next.popped = history.popped
  called : next.thread.executed ++ next.thread.inHand.toList =
    history.thread.executed ++ history.thread.inHand.toList
  pushing : ∀ caller task highPriority, next.thread.callers caller = .pushing task highPriority ↔
    history.thread.callers caller = .pushing task highPriority
  active : Active next.thread → Active history.thread

/-- A caller goes on, and neither comes from a push nor to one. -/
theorem quiet_caller {caller queueSem : Nat} {mutex : Option QueueHolder} {pc : AddTaskPc}
    (was : ∀ task highPriority, history.thread.callers caller ≠ .pushing task highPriority)
    (goes : ∀ task highPriority, pc ≠ .pushing task highPriority) :
    Quiet history { history with
      thread := { history.thread with
        queueMutex := mutex, queueSem := queueSem
        callers := Function.update history.thread.callers caller pc } } where
  taskQueue := rfl
  acquired := rfl
  ticket := rfl
  queued := rfl
  popped := rfl
  called := rfl
  pushing other task highPriority := by
    simp only [Function.update_apply]
    split
    · rename_i same
      simp only [same, goes task highPriority, was task highPriority]
    · rfl
  active := id

/-- The worker goes on, with nothing taken or cleared. -/
theorem quiet_worker {queueSem : Nat} {mutex : Option QueueHolder} {pc : DoTaskPc} {executed : List Nat}
    (called : executed ++ ({ history.thread with worker := pc } : CThread).inHand.toList =
      history.thread.executed ++ history.thread.inHand.toList)
    (active : Active { history.thread with worker := pc } → Active history.thread) :
    Quiet history { history with
      thread := { history.thread with
        queueMutex := mutex, queueSem := queueSem, worker := pc, executed := executed } } where
  taskQueue := rfl
  acquired := rfl
  ticket := rfl
  queued := rfl
  popped := rfl
  called := called
  pushing _ _ _ := Iff.rfl
  active := active

/-- The worker goes on with nothing in hand, from a place before the queue is cleared. -/
theorem quiet_idle {queueSem : Nat} {mutex : Option QueueHolder} {pc : DoTaskPc}
    (was : history.thread.inHand = none)
    (goes : ({ history.thread with worker := pc } : CThread).inHand = none)
    (active : Active history.thread) :
    Quiet history { history with
      thread := { history.thread with queueMutex := mutex, queueSem := queueSem, worker := pc } } :=
  quiet_worker (by rw [was, goes]) fun _ => active

/-- What an access inside of `addTask` can do to the numbers: nothing, draw one, or put one into the
queue. -/
theorem addTask_cases {caller : Nat} {thread : CThread}
    (stepped : history.thread.addTask caller = some thread) :
    Quiet history { history.record (.addTask caller) with thread := thread } ∨
    (∃ task highPriority, history.thread.callers caller = .locking task highPriority ∧
      history.thread.queueMutex = none ∧ history.record (.addTask caller) = history.acquire caller task ∧
      thread = { history.thread with queueMutex := some (.caller caller) }.goto caller
        (.pushing task highPriority)) ∨
    ∃ task highPriority, history.thread.callers caller = .pushing task highPriority ∧
      history.record (.addTask caller) = history.push caller highPriority ∧
      thread = (history.thread.push task highPriority).goto caller .posting := by
  cases CThread.addTask_move stepped with
  | tested task highPriority place =>
    simp only [record, place]
    refine .inl (quiet_caller (by simp [place]) ?_)
    split <;> simp
  | acquired task highPriority place isFree =>
    exact .inr (.inl ⟨task, highPriority, place, isFree, by simp only [record, place], rfl⟩)
  | pushed task highPriority place =>
    exact .inr (.inr ⟨task, highPriority, place, by simp only [record, place], rfl⟩)
  | posted place | released place =>
    simp only [record, place]
    exact .inl (quiet_caller (by simp [place]) (by simp))

/-- What an access of the worker can do to the numbers: nothing, take the first one, or forget those
in the queue. -/
theorem doTask_cases {outcome : DoTaskOutcome} {thread : CThread}
    (stepped : history.thread.doTask outcome = some thread) :
    Quiet history { history.record (.doTask outcome) with thread := thread } ∨
    (∃ task rest, history.thread.worker = .taking ∧ history.thread.taskQueue = task :: rest ∧
      history.record (.doTask outcome) = history.pop ∧
      thread = { history.thread with taskQueue := rest, worker := .unlocking task }) ∨
    history.thread.worker = .deleting ∧
      history.record (.doTask outcome) = { history with queued := [] } ∧
      thread = { history.thread with
        taskQueue := [], deleted := history.thread.deleted ++ history.thread.taskQueue.reduceOption
        worker := .draining } := by
  cases CThread.doTask_move stepped with
  | went pc was goes =>
    have idle : ({ history.thread with worker := pc } : CThread).inHand = none := by
      rcases goes with rfl | rfl | rfl | rfl <;> rfl
    rcases was with place | place | place | place <;>
      simp only [record, place] <;>
      exact .inl (quiet_idle (by simp [CThread.inHand, place]) idle (by simp [Active, place]))
  | waited place posted =>
    simp only [record, place]
    exact .inl (quiet_idle (by simp [CThread.inHand, place]) rfl (by simp [Active, place]))
  | entered pc isFree place =>
    rcases place with ⟨place, rfl⟩ | ⟨place, rfl⟩ <;>
      simp only [record, place] <;>
      exact .inl (quiet_idle (by simp [CThread.inHand, place]) rfl (by simp [Active, place]))
  | took task rest place queue =>
    exact .inr (.inl ⟨task, rest, place, queue, by simp only [record, place], rfl⟩)
  | left task place =>
    simp only [record, place]
    exact .inl (quiet_worker (by simp [CThread.inHand, place]) (by simp [Active, place]))
  | called task pc place goes =>
    simp only [record, place]
    refine .inl (quiet_worker ?_ (by simp [Active, place]))
    rcases goes with rfl | rfl <;> simp [CThread.inHand, place]
  | emptied place => exact .inr (.inr ⟨place, by simp only [record, place], rfl⟩)
  | drained place more =>
    simp only [record, place]
    exact .inl (quiet_worker (by simp [CThread.inHand, place]) (by simp [Active]))
  | finished place none =>
    simp only [record, place]
    exact .inl (quiet_worker (by simp [CThread.inHand, place]) (by simp [Active]))

/-- What a step can do with the numbers: draw, push, pop, or leave them all. -/
theorem step_cases {label : ThreadStep} (stepped : history.step label = some next) :
    Quiet history next ∨
    (∃ caller task highPriority, label = .addTask caller ∧
      history.thread.callers caller = .locking task highPriority ∧ history.thread.queueMutex = none ∧
      next = { history.acquire caller task with
        thread := { history.thread with queueMutex := some (.caller caller) }.goto caller
          (.pushing task highPriority) }) ∨
    (∃ caller task highPriority, label = .addTask caller ∧
      history.thread.callers caller = .pushing task highPriority ∧
      next = { history.push caller highPriority with
        thread := (history.thread.push task highPriority).goto caller .posting }) ∨
    (∃ task rest, history.thread.worker = .taking ∧ history.thread.taskQueue = task :: rest ∧
      next = { history.pop with
        thread := { history.thread with taskQueue := rest, worker := .unlocking task } }) ∨
    history.thread.worker = .deleting ∧
      next = { history with
        queued := []
        thread := { history.thread with
          taskQueue := [], deleted := history.thread.deleted ++ history.thread.taskQueue.reduceOption
          worker := .draining } } := by
  obtain ⟨thread, moved, rfl⟩ := Option.map_eq_some_iff.mp stepped
  cases label with
  | call caller task highPriority =>
    obtain ⟨idle, same⟩ := Option.ite_none_right_eq_some.mp moved
    cases same
    exact .inl (quiet_caller (by simp [idle]) (by simp))
  | addTask caller =>
    rcases addTask_cases moved with
      quiet | ⟨task, highPriority, place, isFree, recorded, rfl⟩ | ⟨task, highPriority, place, recorded, rfl⟩
    · exact .inl quiet
    · exact .inr (.inl ⟨caller, task, highPriority, rfl, place, isFree, by rw [recorded]⟩)
    · exact .inr (.inr (.inl ⟨caller, task, highPriority, rfl, place, by rw [recorded]⟩))
  | disable =>
    cases moved
    exact .inl ⟨rfl, rfl, rfl, rfl, rfl, rfl, fun _ _ _ => Iff.rfl, id⟩
  | doTask outcome =>
    rcases doTask_cases moved with quiet | ⟨task, rest, place, queue, recorded, rfl⟩ | ⟨place, recorded, rfl⟩
    · exact .inl quiet
    · exact .inr (.inr (.inr (.inl ⟨task, rest, place, queue, by rw [recorded]⟩)))
    · exact .inr (.inr (.inr (.inr ⟨place, by rw [recorded]⟩)))

/-! ## The numbers -/

/-- The numbers are those of the tasks, and a caller that is about to push has one that is
not in use. -/
structure Numbered (history : TaskHistory) : Prop where
  tickets : history.thread.taskQueue.map some = history.queued.map (history.acquired[·]?)
  once : (history.popped ++ history.queued).Nodup
  known : ∀ ticket ∈ history.popped ++ history.queued, ticket < history.acquired.length
  called : history.thread.executed ++ history.thread.inHand.toList =
    history.popped.filterMap fun ticket => history.acquired[ticket]?.join
  pushing : ∀ caller task highPriority, history.thread.callers caller = .pushing task highPriority →
    history.acquired[history.ticket caller]? = some task ∧
      history.ticket caller ∉ history.popped ++ history.queued

/-- A caller that may push is in the scope of the lock. -/
theorem pushing_inScope {caller : Nat} {task : Option Nat} {highPriority : Bool}
    (place : history.thread.callers caller = .pushing task highPriority) :
    (history.thread.callers caller).inScope = true := by
  rw [place, AddTaskPc.inScope]

/-- So one that is outside is not about to push. -/
theorem no_push_outside {caller : Nat} (outside : (history.thread.callers caller).inScope = false)
    (task : Option Nat) (highPriority : Bool) :
    history.thread.callers caller ≠ .pushing task highPriority := by
  intro place
  rw [pushing_inScope place] at outside
  cases outside

/-- No caller is about to push when the lock is free. -/
theorem free_no_push (locked : CThread.Locked history.thread) (isFree : history.thread.queueMutex = none)
    (caller : Nat) : ∀ task highPriority, history.thread.callers caller ≠ .pushing task highPriority :=
  no_push_outside ((locked.free isFree).2 caller)

/-- No other caller is about to push while one is inside of the scope of the lock. -/
theorem alone_push (locked : CThread.Locked history.thread) {caller other : Nat}
    (inScope : (history.thread.callers caller).inScope = true) (distinct : other ≠ caller) :
    ∀ task highPriority, history.thread.callers other ≠ .pushing task highPriority :=
  no_push_outside ((locked.alone inScope).2 other distinct)

/-- Nor is any while the worker is in the scope. -/
theorem worker_no_push (locked : CThread.Locked history.thread)
    (inScope : history.thread.worker.inScope = true) (caller : Nat) :
    ∀ task highPriority, history.thread.callers caller ≠ .pushing task highPriority :=
  no_push_outside (locked.alone_worker inScope caller)

namespace Numbered

/-- A step that moves no task keeps the numbers of all tasks. -/
theorem quiet (numbered : Numbered history) (same : Quiet history next) : Numbered next where
  tickets := by rw [same.taskQueue, same.queued, same.acquired]; exact numbered.tickets
  once := by rw [same.popped, same.queued]; exact numbered.once
  known := by rw [same.popped, same.queued, same.acquired]; exact numbered.known
  called := by rw [same.called, same.popped, same.acquired]; exact numbered.called
  pushing caller task highPriority place := by
    rw [same.acquired, same.ticket, same.popped, same.queued]
    exact numbered.pushing caller task highPriority ((same.pushing caller task highPriority).mp place)

/-- The next number is in use nowhere, so that all numbers stay different when a caller draws it. -/
theorem acquire (numbered : Numbered history) (locked : CThread.Locked history.thread) {caller : Nat}
    {task : Option Nat} {highPriority : Bool} (isFree : history.thread.queueMutex = none) :
    Numbered { history.acquire caller task with
      thread := { history.thread with queueMutex := some (.caller caller) }.goto caller
        (.pushing task highPriority) } where
  tickets := by
    refine numbered.tickets.trans (List.map_congr_left fun ticket member => ?_)
    exact (List.getElem?_append_left (numbered.known ticket (List.mem_append_right _ member))).symm
  once := numbered.once
  known ticket member := by
    have known := numbered.known ticket member
    simp only [TaskHistory.acquire, List.length_append, List.length_singleton]
    omega
  called := by
    refine numbered.called.trans (List.filterMap_congr fun ticket member => ?_)
    rw [TaskHistory.acquire, List.getElem?_append_left (numbered.known ticket (List.mem_append_left _ member))]
  pushing other otherTask otherPriority place := by
    simp only [CThread.goto, Function.update_apply] at place
    split at place
    · rename_i same
      obtain ⟨rfl, rfl⟩ := AddTaskPc.pushing.inj place
      simp only [TaskHistory.acquire, same, Function.update_self, List.getElem?_concat_length, true_and]
      exact fun member => Nat.lt_irrefl _ (numbered.known _ member)
    · exact absurd place (free_no_push locked isFree other otherTask otherPriority)

/-- The number of the caller goes into the queue. -/
theorem push (numbered : Numbered history) (locked : CThread.Locked history.thread) {caller : Nat}
    {task : Option Nat} {highPriority : Bool}
    (place : history.thread.callers caller = .pushing task highPriority) :
    Numbered { history.push caller highPriority with
      thread := (history.thread.push task highPriority).goto caller .posting } := by
  obtain ⟨isTask, unused⟩ := numbered.pushing caller task highPriority place
  have more : (history.push caller highPriority).queued.Perm (history.ticket caller :: history.queued) := by
    cases highPriority with
    | true => exact List.Perm.refl _
    | false => exact List.perm_append_singleton _ _
  have all : (history.popped ++ (history.push caller highPriority).queued).Perm
      (history.ticket caller :: (history.popped ++ history.queued)) :=
    (more.append_left history.popped).trans List.perm_middle
  refine ⟨?_, ?_, ?_, numbered.called, ?_⟩
  · cases highPriority with
    | true => simp [TaskHistory.push, CThread.push, CThread.goto, numbered.tickets, isTask]
    | false => simp [TaskHistory.push, CThread.push, CThread.goto, numbered.tickets, isTask]
  · exact all.nodup_iff.mpr (List.nodup_cons.mpr ⟨unused, numbered.once⟩)
  · intro ticket member
    rcases List.mem_cons.mp (all.mem_iff.mp member) with rfl | before
    · exact (List.getElem?_eq_some_iff.mp isTask).1
    · exact numbered.known ticket before
  · intro other otherTask otherPriority otherPlace
    simp only [CThread.goto, Function.update_apply] at otherPlace
    split at otherPlace
    · cases otherPlace
    · rename_i distinct
      exact absurd otherPlace (alone_push locked (pushing_inScope place) distinct otherTask otherPriority)

/-- The first task of the queue is the one of the first number. -/
theorem pop_eq (numbered : Numbered history) {task : Option Nat} {rest : List (Option Nat)}
    (queue : history.thread.taskQueue = task :: rest) :
    ∃ ticket tickets, history.queued = ticket :: tickets ∧ history.acquired[ticket]? = some task ∧
      rest.map some = tickets.map (history.acquired[·]?) := by
  have same := numbered.tickets
  rw [queue] at same
  cases queued : history.queued with
  | nil =>
    rw [queued] at same
    cases same
  | cons ticket tickets =>
    rw [queued, List.map_cons, List.map_cons] at same
    obtain ⟨first, others⟩ := List.cons.inj same
    exact ⟨ticket, tickets, rfl, first.symm, others⟩

/-- The first number goes with the first task, so that they leave their queues together. -/
theorem pop (numbered : Numbered history) (locked : CThread.Locked history.thread)
    (place : history.thread.worker = .taking) {task : Option Nat} {rest : List (Option Nat)}
    (queue : history.thread.taskQueue = task :: rest) :
    Numbered { history.pop with
      thread := { history.thread with taskQueue := rest, worker := .unlocking task } } := by
  obtain ⟨ticket, tickets, queued, isTask, others⟩ := numbered.pop_eq queue
  have moved : history.popped ++ [ticket] ++ tickets = history.popped ++ history.queued := by
    rw [queued, List.append_assoc, List.singleton_append]
  have idle : history.thread.inHand = none := by simp [CThread.inHand, place]
  have called := numbered.called
  rw [idle, Option.toList_none, List.append_nil] at called
  simp only [TaskHistory.pop, queued, List.tail_cons, List.take_succ_cons, List.take_zero]
  refine ⟨others, moved ▸ numbered.once, moved ▸ numbered.known, ?_, ?_⟩
  · simp only [CThread.inHand, List.filterMap_append, ← called, List.filterMap_cons, List.filterMap_nil,
      isTask, Option.join_some]
    cases task <;> rfl
  · intro caller other highPriority pushes
    have inScope : history.thread.worker.inScope = true := by rw [place, DoTaskPc.inScope]
    exact absurd pushes (worker_no_push locked inScope caller other highPriority)

/-- The numbers in the queue are forgotten when the worker clears it. -/
theorem clear (numbered : Numbered history) (place : history.thread.worker = .deleting)
    {deleted : List Nat} :
    Numbered { history with
      queued := []
      thread := { history.thread with taskQueue := [], deleted := deleted, worker := .draining } } := by
  have idle : history.thread.inHand = none := by simp [CThread.inHand, place]
  have called := numbered.called
  rw [idle] at called
  have fewer : ∀ ticket ∈ history.popped ++ [], ticket ∈ history.popped ++ history.queued := by
    intro ticket member
    rw [List.append_nil] at member
    exact List.mem_append_left _ member
  refine ⟨rfl, ?_, fun ticket member => numbered.known ticket (fewer ticket member), called, ?_⟩
  · rw [List.append_nil]
    exact numbered.once.of_append_left
  · intro caller task highPriority pushes
    obtain ⟨isTask, unused⟩ := numbered.pushing caller task highPriority pushes
    exact ⟨isTask, fun member => unused (fewer _ member)⟩

/-- Each step keeps the numbers with their tasks, by the cases of the callers and of the worker. -/
theorem step (numbered : Numbered history) (locked : CThread.Locked history.thread) {label : ThreadStep}
    (stepped : history.step label = some next) : Numbered next := by
  rcases step_cases stepped with quiet | ⟨caller, task, highPriority, -, -, isFree, rfl⟩ |
    ⟨caller, task, highPriority, -, place, rfl⟩ | ⟨task, rest, place, queue, rfl⟩ | ⟨place, rfl⟩
  · exact numbered.quiet quiet
  · exact numbered.acquire locked isFree
  · exact numbered.push locked place
  · exact numbered.pop locked place queue
  · exact numbered.clear place

end Numbered

/-! ## Without high priority -/

/-- No call under way adds a task of high priority. -/
structure Ordinary (thread : CThread) : Prop where
  testing : ∀ caller task, thread.callers caller ≠ .testing task true
  locking : ∀ caller task, thread.callers caller ≠ .locking task true
  pushing : ∀ caller task, thread.callers caller ≠ .pushing task true

namespace Ordinary

variable {thread after : CThread}

/-- A caller goes to a place of no high priority. -/
theorem goes (ordinary : Ordinary thread) {caller : Nat} {pc : AddTaskPc}
    (callers : after.callers = Function.update thread.callers caller pc)
    (place : ∀ task, pc ≠ .testing task true ∧ pc ≠ .locking task true ∧ pc ≠ .pushing task true) :
    Ordinary after := by
  constructor
  all_goals
    intro other task
    rw [callers, Function.update_apply]
    split
  · exact (place task).1
  · exact ordinary.testing other task
  · exact (place task).2.1
  · exact ordinary.locking other task
  · exact (place task).2.2
  · exact ordinary.pushing other task

/-- A step of `addTask` brings no task of high priority, when there was none. -/
theorem addTask (ordinary : Ordinary thread) {caller : Nat} (stepped : thread.addTask caller = some after) :
    Ordinary after := by
  cases CThread.addTask_move stepped with
  | tested task highPriority place =>
    cases highPriority with
    | true => exact absurd place (ordinary.testing caller task)
    | false =>
      refine ordinary.goes rfl fun other => ?_
      split <;> simp
  | acquired task highPriority place isFree =>
    cases highPriority with
    | true => exact absurd place (ordinary.locking caller task)
    | false => exact ordinary.goes rfl (by simp)
  | pushed | posted | released => exact ordinary.goes rfl (by simp)

/-- The worker leaves the callers where they are, whatever it does. -/
theorem doTask_callers {outcome : DoTaskOutcome} (stepped : thread.doTask outcome = some after) :
    after.callers = thread.callers := by
  cases CThread.doTask_move stepped <;> rfl

/-- So does any step, if the call it may begin is of ordinary priority. -/
theorem step (ordinary : Ordinary thread) {label : ThreadStep} (low : label.highPriority = false)
    (stepped : thread.step label = some after) : Ordinary after := by
  cases label with
  | call caller task highPriority =>
    obtain ⟨-, same⟩ := Option.ite_none_right_eq_some.mp stepped
    cases same
    have isLow : highPriority = false := low
    exact ordinary.goes rfl (by simp [isLow])
  | addTask caller => exact ordinary.addTask stepped
  | disable =>
    cases stepped
    exact ⟨ordinary.testing, ordinary.locking, ordinary.pushing⟩
  | doTask outcome =>
    have same := doTask_callers stepped
    exact ⟨same ▸ ordinary.testing, same ▸ ordinary.locking, same ▸ ordinary.pushing⟩

end Ordinary

/-- Until the queue is cleared the numbers taken, those in the queue and that of a caller
about to push are all the numbers drawn, in order. -/
structure Sequential (history : TaskHistory) : Prop where
  popped : history.popped = List.range history.popped.length
  settled : Active history.thread →
    (∀ caller task highPriority, history.thread.callers caller ≠ .pushing task highPriority) →
    history.popped ++ history.queued = List.range history.acquired.length
  pushing : Active history.thread → ∀ caller task highPriority,
    history.thread.callers caller = .pushing task highPriority →
    history.popped ++ history.queued ++ [history.ticket caller] = List.range history.acquired.length

namespace Sequential

/-- A step that moves no task keeps the queue in sequence. -/
theorem quiet (sequential : Sequential history) (same : Quiet history next) : Sequential next where
  popped := by rw [same.popped]; exact sequential.popped
  settled active none := by
    rw [same.popped, same.queued, same.acquired]
    refine sequential.settled (same.active active) fun caller task highPriority place => ?_
    exact none caller task highPriority ((same.pushing caller task highPriority).mpr place)
  pushing active caller task highPriority place := by
    rw [same.popped, same.queued, same.acquired, same.ticket]
    exact sequential.pushing (same.active active) caller task highPriority
      ((same.pushing caller task highPriority).mp place)

/-- The number drawn is the next one, and the caller who has drawn it holds the lock until it has
pushed. -/
theorem acquire (sequential : Sequential history) (locked : CThread.Locked history.thread) {caller : Nat}
    {task : Option Nat} {highPriority : Bool} (isFree : history.thread.queueMutex = none) :
    Sequential { history.acquire caller task with
      thread := { history.thread with queueMutex := some (.caller caller) }.goto caller
        (.pushing task highPriority) } where
  popped := sequential.popped
  settled _ none := by
    have pushes := none caller task highPriority
    simp [CThread.goto] at pushes
  pushing active other otherTask otherPriority place := by
    simp only [CThread.goto, Function.update_apply] at place
    split at place
    · rename_i same
      have settled := sequential.settled active (free_no_push locked isFree)
      simp only [TaskHistory.acquire, same, Function.update_self, List.length_append, List.length_singleton,
        List.range_succ, settled]
    · exact absurd place (free_no_push locked isFree other otherTask otherPriority)

/-- A task of ordinary priority goes to the end of the queue, and so does its number. -/
theorem push (sequential : Sequential history) (locked : CThread.Locked history.thread) {caller : Nat}
    {task : Option Nat} (place : history.thread.callers caller = .pushing task false) :
    Sequential { history.push caller false with
      thread := (history.thread.push task false).goto caller .posting } where
  popped := sequential.popped
  settled active _ := by
    have pushed := sequential.pushing active caller task false place
    rw [List.append_assoc] at pushed
    exact pushed
  pushing _ other otherTask otherPriority otherPlace := by
    simp only [CThread.goto, Function.update_apply] at otherPlace
    split at otherPlace
    · cases otherPlace
    · rename_i distinct
      exact absurd otherPlace (alone_push locked (pushing_inScope place) distinct otherTask otherPriority)

/-- The number taken is the first one of those left, which are in the order in which they were
drawn. -/
theorem pop (sequential : Sequential history) (numbered : Numbered history)
    (locked : CThread.Locked history.thread) (place : history.thread.worker = .taking) {task : Option Nat}
    {rest : List (Option Nat)} (queue : history.thread.taskQueue = task :: rest) :
    Sequential { history.pop with
      thread := { history.thread with taskQueue := rest, worker := .unlocking task } } := by
  obtain ⟨ticket, tickets, queued, -, -⟩ := numbered.pop_eq queue
  have inScope : history.thread.worker.inScope = true := by rw [place, DoTaskPc.inScope]
  have none := worker_no_push locked inScope
  have settled := sequential.settled (by simp [Active, place]) none
  have moved : history.popped ++ [ticket] ++ tickets = List.range history.acquired.length := by
    rw [← settled, queued, List.append_assoc, List.singleton_append]
  simp only [TaskHistory.pop, queued, List.tail_cons, List.take_succ_cons, List.take_zero]
  refine ⟨?_, fun _ _ => moved, fun _ caller other highPriority pushes =>
    absurd pushes (none caller other highPriority)⟩
  -- What has been taken is an initial part of all the numbers.
  have first : history.popped ++ [ticket] =
      (List.range history.acquired.length).take (history.popped ++ [ticket]).length := by
    rw [← moved, List.take_left]
  have within : (history.popped ++ [ticket]).length ≤ history.acquired.length := by
    have length := congrArg List.length moved
    rw [List.length_append, List.length_range] at length
    omega
  rw [List.take_range, Nat.min_eq_left within] at first
  exact first

/-- Each step keeps the order, as long as no task of high priority is added. -/
theorem step (sequential : Sequential history) (numbered : Numbered history)
    (locked : CThread.Locked history.thread) (ordinary : Ordinary history.thread) {label : ThreadStep}
    (stepped : history.step label = some next) : Sequential next := by
  rcases step_cases stepped with quiet | ⟨caller, task, highPriority, -, -, isFree, rfl⟩ |
    ⟨caller, task, highPriority, -, place, rfl⟩ | ⟨task, rest, place, queue, rfl⟩ | ⟨place, rfl⟩
  · exact sequential.quiet quiet
  · exact sequential.acquire locked isFree
  · cases highPriority with
    | true => exact absurd place (ordinary.pushing caller task)
    | false => exact sequential.push locked place
  · exact sequential.pop numbered locked place queue
  · exact ⟨sequential.popped, fun active => absurd rfl active.1, fun active => absurd rfl active.1⟩

end Sequential

/-- The tasks of the first numbers are the first tasks. -/
theorem filterMap_range_join (tasks : List (Option Nat)) {count : Nat} (enough : count ≤ tasks.length) :
    (List.range count).filterMap (fun ticket => tasks[ticket]?.join) = (tasks.take count).reduceOption := by
  induction count with
  | zero => rfl
  | succ count inductionHypothesis =>
    have drawn : tasks[count]? = some tasks[count] := List.getElem?_eq_getElem enough
    rw [List.range_succ, List.filterMap_append, inductionHypothesis (by omega), List.take_add_one,
      List.reduceOption_append, drawn]
    simp only [List.filterMap_cons, List.filterMap_nil, drawn, Option.join_some]
    cases tasks[count] <;> rfl

/-! ## All runs -/

/-- What holds however the callers and the worker run: the account of the semaphore is kept
until the worker has finished. -/
structure Kept (history : TaskHistory) : Prop where
  locked : CThread.Locked history.thread
  accounted : history.thread.worker = .finished ∨ CThread.Accounted history.thread
  numbered : Numbered history

/-- The callers leave the worker where it is, whatever they do. -/
theorem addTask_worker {thread after : CThread} {caller : Nat} (stepped : thread.addTask caller = some after) :
    after.worker = thread.worker := by
  cases CThread.addTask_move stepped <;> rfl

/-- A worker that has finished stays so, as there is no access behind its last one. -/
theorem finished_step {thread after : CThread} {label : ThreadStep} (finished : thread.worker = .finished)
    (stepped : thread.step label = some after) : after.worker = .finished := by
  cases label with
  | call caller task highPriority =>
    obtain ⟨-, same⟩ := Option.ite_none_right_eq_some.mp stepped
    cases same
    exact finished
  | addTask caller => exact (addTask_worker stepped).trans finished
  | disable =>
    cases stepped
    exact finished
  | doTask outcome =>
    simp only [CThread.step, CThread.doTask, finished] at stepped
    cases stepped

/-- The step that finishes the worker may come too early, and no other step before it. -/
theorem accounted_step {thread after : CThread} {label : ThreadStep} (locked : CThread.Locked thread)
    (accounted : CThread.Accounted thread) (working : thread.worker ≠ .finished)
    (stepped : thread.step label = some after) : after.worker = .finished ∨ CThread.Accounted after := by
  by_cases inTime : CThread.InTime thread label
  · exact .inr (accounted.step locked inTime stepped)
  · cases label with
    | call | disable => exact absurd trivial inTime
    | addTask caller => exact absurd (fun _ _ _ => working) inTime
    | doTask outcome =>
      simp only [CThread.InTime, not_forall] at inTime
      obtain ⟨place, drained, -⟩ := inTime
      simp only [CThread.step, CThread.doTask, place, if_pos drained] at stepped
      cases stepped
      exact .inl rfl

namespace Kept

/-- For a new thread there is nothing to keep account of. -/
theorem new : Kept .new where
  locked := ⟨nofun, nofun⟩
  accounted := .inr ⟨nofun, fun _ => rfl, nofun, nofun, nofun⟩
  numbered := ⟨rfl, List.nodup_nil, nofun, rfl, nofun⟩

/-- Each step keeps the account, by the cases of the callers and of the worker. -/
theorem step (kept : Kept history) {label : ThreadStep} (stepped : history.step label = some next) :
    Kept next := by
  obtain ⟨thread, moved, same⟩ := Option.map_eq_some_iff.mp stepped
  have isThread : next.thread = thread := by rw [← same]
  refine ⟨isThread ▸ kept.locked.step moved, isThread ▸ ?_, kept.numbered.step kept.locked stepped⟩
  by_cases working : history.thread.worker = .finished
  · exact .inl (finished_step working moved)
  · exact accounted_step kept.locked (kept.accounted.resolve_left working) working moved

/-- The account makes the worker find its task, and the numbers tell in which order it was called. -/
theorem agreed (kept : Kept history) : Agreed history where
  finds taking := by
    have accounted := kept.accounted.resolve_left (by rw [taking]; nofun)
    obtain ⟨task, rest, queue⟩ := CThread.taking_finds kept.locked accounted taking
    rw [queue]
    exact List.cons_ne_nil task rest
  tickets := kept.numbered.tickets
  once := kept.numbered.once
  called := kept.numbered.called

end Kept

/-- Where all tasks are of ordinary priority they are called in the order in which the lock was
acquired for them. -/
theorem Sequential.inOrder (sequential : Sequential history) (numbered : Numbered history) :
    InOrder history where
  popped := sequential.popped
  called := by
    have enough : history.popped.length ≤ history.acquired.length := by
      by_contra more
      have member : history.acquired.length ∈ history.popped := by
        rw [sequential.popped]
        exact List.mem_range.mpr (by omega)
      exact Nat.lt_irrefl _ (numbered.known _ (List.mem_append_left _ member))
    have called := numbered.called
    rw [sequential.popped, filterMap_range_join history.acquired enough] at called
    exact called

/-- **Semaphore and queue.** In every run of the callers and the worker they agree, and in
every run without high priority the tasks are called in the order of the lock. -/
theorem semaphore_and_queue_agree (labels : List ThreadStep) (history : TaskHistory)
    (ran : Runs.run step new labels = some history) :
    Agreed history ∧ ((∀ label ∈ labels, label.highPriority = false) → InOrder history) := by
  constructor
  · exact (Runs.run_invariant step Kept (fun _ _ _ kept stepped => kept.step stepped) new history labels
      Kept.new ran).agreed
  · intro low
    have initial : Kept new ∧ Ordinary new.thread ∧ Sequential new :=
      ⟨Kept.new, ⟨nofun, nofun, nofun⟩, ⟨rfl, fun _ _ => rfl, fun _ _ _ _ place => by cases place⟩⟩
    have meets := Runs.meets_of_forall step (fun label => label.highPriority = false) new labels low
    obtain ⟨kept, -, sequential⟩ := Runs.run_invariant_meets step _
      (fun history => Kept history ∧ Ordinary history.thread ∧ Sequential history)
      (fun history label next held isLow stepped => by
        obtain ⟨kept, ordinary, sequential⟩ := held
        obtain ⟨thread, moved, same⟩ := Option.map_eq_some_iff.mp stepped
        have isThread : next.thread = thread := by rw [← same]
        exact ⟨kept.step stepped, isThread ▸ ordinary.step isLow moved,
          sequential.step kept.numbered kept.locked ordinary stepped⟩)
      new history labels initial meets ran
    exact sequential.inOrder kept.numbered

/-- Two tasks are added, the first of them is called and throws, and the queue is cleared. -/
def twoTasks : List ThreadStep := CThread.added 0 7 ++ CThread.added 1 8 ++ CThread.thrown

/-- Two tasks are added and executed in their order, each of them once. -/
theorem semaphore_and_queue_agree_two :
    ∃ history, Runs.run step new twoTasks = some history ∧ Agreed history ∧ InOrder history := by
  have finishes : (Runs.run step new twoTasks).isSome = true := by decide +kernel
  obtain ⟨history, ran⟩ := Option.isSome_iff_exists.mp finishes
  obtain ⟨agreed, inOrder⟩ := semaphore_and_queue_agree twoTasks history ran
  exact ⟨history, ran, agreed, inOrder (by decide)⟩

end TaskHistory

end OpenTaker
