import OpenTaker.ThreadPools

/-!
# The tasks of a pool

Each task that a pool was given is in one place: with the caller that gives it, in the queue of
a thread, with its worker, among the tasks that were called, or among those that were deleted.
Only a caller that has chosen a thread before it was disabled has its task ignored.
-/

namespace OpenTaker

namespace CThread

/-- All the tasks that a thread has or had, with those of its callers. -/
def tasks (callers : Nat) (thread : CThread) : List Nat :=
  thread.executed ++ thread.deleted ++ thread.taskQueue.reduceOption ++ thread.inHand.toList ++
    (List.range callers).flatMap fun caller => (thread.callers caller).task.toList

variable {callers caller task : Nat} {thread next : CThread}

/-- A place that holds a task or nothing counts it once or not at all. Callers and workers are such
places. -/
theorem count_reduceOption_cons (first : Option Nat) (rest : List (Option Nat)) (task : Nat) :
    (first :: rest).reduceOption.count task = first.toList.count task + rest.reduceOption.count task := by
  cases first with
  | none => simp
  | some first => simp [List.count_cons, Nat.add_comm]

/-- A caller goes to another place, and nothing else changes. -/
theorem count_goto (inside : caller < callers) (thread : CThread) (pc : AddTaskPc) (task : Nat) :
    ((thread.goto caller pc).tasks callers).count task + (thread.callers caller).task.toList.count task =
      (thread.tasks callers).count task + pc.task.toList.count task := by
  have moved := (Holdings.flatMap_update (List.nodup_range (n := callers)) (List.mem_range.mpr inside)
    thread.callers pc fun place => place.task.toList).count_eq task
  have same : (thread.goto caller pc).inHand = thread.inHand := rfl
  rw [tasks, same]
  simp only [tasks, goto, List.count_append] at moved ⊢
  omega

/-- What a caller hands over to a thread is with that caller. -/
theorem count_call (inside : caller < callers) {given : Option Nat} {highPriority : Bool}
    (stepped : thread.step (.call caller given highPriority) = some next) (task : Nat) :
    (next.tasks callers).count task = (thread.tasks callers).count task + given.toList.count task := by
  obtain ⟨idle, same⟩ := Option.ite_none_right_eq_some.mp stepped
  cases same
  have moved := count_goto inside thread (.testing given highPriority) task
  rw [idle] at moved
  exact moved

/-- A task that is pushed is in the queue. -/
theorem count_push (thread : CThread) (callers : Nat) (given : Option Nat) (highPriority : Bool) (task : Nat) :
    ((thread.push given highPriority).tasks callers).count task =
      (thread.tasks callers).count task + given.toList.count task := by
  have hand : (thread.push given highPriority).inHand = thread.inHand := rfl
  rw [tasks, hand]
  cases highPriority with
  | true =>
    simp only [tasks, push, if_true, List.count_append, count_reduceOption_cons]
    omega
  | false =>
    have last := count_reduceOption_cons given [] task
    simp only [tasks, push, Bool.false_eq_true, if_false, List.reduceOption_append,
      List.count_append, List.reduceOption_nil, List.count_nil] at last ⊢
    omega

/-- A caller loses its task only to a thread that has been disabled. -/
theorem count_addTask (inside : caller < callers) (stepped : thread.addTask caller = some next)
    (task : Nat) :
    (next.tasks callers).count task + (ThreadPool.ignores thread caller).count task =
      (thread.tasks callers).count task := by
  cases addTask_move stepped with
  | tested given highPriority place =>
    have moved := count_goto inside thread (if thread.enable then .locking given highPriority else .idle) task
    rw [place] at moved
    cases enabled : thread.enable with
    | true =>
      simp only [ThreadPool.ignores, place, enabled, if_true, AddTaskPc.task, List.count_nil] at moved ⊢
      omega
    | false =>
      simp only [ThreadPool.ignores, place, enabled, Bool.false_eq_true, if_false, AddTaskPc.task,
        Option.toList_none, List.count_nil] at moved ⊢
      omega
  | acquired given highPriority place isFree =>
    have moved := count_goto inside { thread with queueMutex := some (.caller caller) }
      (.pushing given highPriority) task
    simp only [ThreadPool.ignores, place, AddTaskPc.task, List.count_nil] at moved ⊢
    exact Nat.add_right_cancel moved
  | pushed given highPriority place =>
    have moved := count_goto inside (thread.push given highPriority) .posting task
    have pushed := count_push thread callers given highPriority task
    have there : (thread.push given highPriority).callers caller = .pushing given highPriority := place
    simp only [ThreadPool.ignores, place, there, AddTaskPc.task, Option.toList_none, List.count_nil]
      at moved ⊢
    omega
  | posted place =>
    have moved := count_goto inside { thread with queueSem := thread.queueSem + 1 } .unlocking task
    simp only [ThreadPool.ignores, place, AddTaskPc.task, Option.toList_none, List.count_nil] at moved ⊢
    exact moved
  | released place =>
    have moved := count_goto inside { thread with queueMutex := none } .idle task
    simp only [ThreadPool.ignores, place, AddTaskPc.task, Option.toList_none, List.count_nil] at moved ⊢
    exact moved

/-- The worker neither loses nor repeats a task: each stays as often among those it has. -/
theorem count_doTask (callers : Nat) {outcome : DoTaskOutcome} (stepped : thread.doTask outcome = some next)
    (task : Nat) : (next.tasks callers).count task = (thread.tasks callers).count task := by
  cases doTask_move stepped with
  | went pc was goes =>
    have before : thread.inHand = none := by
      rcases was with place | place | place | place <;> simp [inHand, place]
    have after : ({ thread with worker := pc } : CThread).inHand = none := by
      rcases goes with rfl | rfl | rfl | rfl <;> rfl
    simp only [tasks, before, after]
  | waited place posted =>
    have before : thread.inHand = none := by simp [inHand, place]
    simp only [tasks, before]
    rfl
  | entered pc isFree place =>
    have before : thread.inHand = none := by
      rcases place with ⟨place, -⟩ | ⟨place, -⟩ <;> simp [inHand, place]
    have after : ({ thread with queueMutex := some .worker, worker := pc } : CThread).inHand = none := by
      rcases place with ⟨-, rfl⟩ | ⟨-, rfl⟩ <;> rfl
    simp only [tasks, before, after]
  | took first rest place queue =>
    have before : thread.inHand = none := by simp [inHand, place]
    have after : ({ thread with taskQueue := rest, worker := .unlocking first } : CThread).inHand = first := rfl
    simp only [tasks, before, after, queue, List.count_append, count_reduceOption_cons,
      Option.toList_none, List.count_nil]
    omega
  | left first place =>
    have before : thread.inHand = first := by simp [inHand, place]
    have after : ({ thread with queueMutex := none, worker := .calling first } : CThread).inHand = first := rfl
    simp only [tasks, before, after]
  | called first pc place goes =>
    have before : thread.inHand = some first := by simp [inHand, place]
    have after : ({ thread with executed := thread.executed ++ [first], worker := pc } : CThread).inHand =
        none := by
      rcases goes with rfl | rfl <;> rfl
    simp only [tasks, before, after, List.count_append, Option.toList_none, Option.toList_some,
      List.count_nil]
    omega
  | emptied place =>
    have before : thread.inHand = none := by simp [inHand, place]
    have after : ({ thread with
        taskQueue := []
        deleted := thread.deleted ++ thread.taskQueue.reduceOption
        worker := .draining } : CThread).inHand = none := rfl
    simp only [tasks, before, after, List.count_append, List.reduceOption_nil, List.count_nil]
    omega
  | drained place more =>
    have before : thread.inHand = none := by simp [inHand, place]
    simp only [tasks, before]
    rfl
  | finished place done =>
    have before : thread.inHand = none := by simp [inHand, place]
    simp only [tasks, before]
    rfl

end CThread

namespace ThreadPool

/-- All the tasks of a pool by the place where they are: with a caller, deleted, ignored, or with
one of the threads. -/
def places (pool : ThreadPool) : List Nat :=
  pool.callers.flatMap (·.task.toList) ++ pool.deleted ++ pool.ignored ++
    pool.threads.flatMap (CThread.tasks pool.callers.length)

variable {pool next : ThreadPool}

/-- The places of a task by kind: its callers, the deleted and ignored ones, and the threads. The
conservation of tasks is shown on these four numbers. -/
theorem count_places (pool : ThreadPool) (task : Nat) :
    pool.places.count task = (pool.callers.flatMap (·.task.toList)).count task +
      pool.deleted.count task + pool.ignored.count task +
        (pool.threads.flatMap (CThread.tasks pool.callers.length)).count task := by
  simp only [places, List.count_append]

/-- Replacing one thread changes the count by the difference of its own tasks. It is stated without
subtraction, so that `omega` can use it. -/
theorem count_threads {i : Nat} {thread : CThread} (here : pool.threads[i]? = some thread)
    (callers : Nat) (after : CThread) (task : Nat) :
    ((pool.threads.set i after).flatMap (CThread.tasks callers)).count task +
        (thread.tasks callers).count task =
      (pool.threads.flatMap (CThread.tasks callers)).count task +
        (after.tasks callers).count task := by
  have moved := (Holdings.flatMap_set here after (CThread.tasks callers)).count_eq task
  rwa [List.count_append, List.count_append] at moved

/-- The same for one caller that goes to another place. -/
theorem count_callers {caller : Nat} {place : DispatchPc} (here : pool.callers[caller]? = some place)
    (pc : DispatchPc) (task : Nat) :
    ((pool.callers.set caller pc).flatMap (·.task.toList)).count task + place.task.toList.count task =
      (pool.callers.flatMap (·.task.toList)).count task + pc.task.toList.count task := by
  have moved := (Holdings.flatMap_set here pc (·.task.toList)).count_eq task
  rwa [List.count_append, List.count_append] at moved

/-- Each task that was offered is in one place, and no other task is anywhere. -/
def Conserved (pool : ThreadPool) : Prop := pool.places.Perm pool.offered

/-- Each step moves at most one task from one place to another, by the cases of `Move`. -/
theorem Conserved.step (conserved : Conserved pool) (label : ThreadPoolStep)
    (stepped : pool.step label = some next) : Conserved next := by
  rw [Conserved, List.perm_iff_count] at conserved ⊢
  intro item
  have before := conserved item
  rw [count_places] at before ⊢
  cases step_move stepped with
  | called caller task highPriority place =>
    have callers := count_callers place (.looking task highPriority 0 none) item
    have idle : DispatchPc.idle.task = none := rfl
    have looking : (DispatchPc.looking task highPriority 0 none).task = task := rfl
    rw [idle, looking, Option.toList_none, List.count_nil] at callers
    simp only [goto, List.length_set, List.count_append]
    omega
  | adds caller next move =>
    cases move with
    | looked was pc place inLoop keeps =>
      have callers := count_callers place pc item
      rw [keeps, Nat.add_right_cancel_iff] at callers
      simp only [goto, List.length_set]
      omega
    | gave i was highPriority thread after place inLoop here given =>
      have inside : caller < pool.callers.length := (List.getElem?_eq_some_iff.mp place).1
      have taken := CThread.count_call inside given item
      have threads := count_threads here pool.callers.length after item
      have callers := count_callers place (.adding i) item
      have gone : (DispatchPc.adding i).task = none := rfl
      rw [gone, Option.toList_none, List.count_nil] at callers
      simp only [goto, List.length_set]
      omega
    | deleted was place =>
      have callers := count_callers place .idle item
      have gone : DispatchPc.idle.task = none := rfl
      rw [gone, Option.toList_none, List.count_nil] at callers
      simp only [goto, List.length_set, List.count_append]
      omega
    | added i thread after place here moved =>
      have inside : caller < pool.callers.length := (List.getElem?_eq_some_iff.mp place).1
      have kept := CThread.count_addTask inside moved item
      have threads := count_threads here pool.callers.length after item
      have callers := count_callers place .idle item
      have same : (DispatchPc.adding i).task = DispatchPc.idle.task := rfl
      rw [same, Nat.add_right_cancel_iff] at callers
      simp only [List.count_append]
      split
      · rw [List.length_set]
        omega
      · omega
  | worked i thread after outcome here moved =>
    have kept := CThread.count_doTask pool.callers.length moved item
    have threads := count_threads here pool.callers.length after item
    dsimp only
    omega
  | stops next move =>
    cases move with
    | disabled i thread place here =>
      have threads := count_threads here pool.callers.length { thread with enable := false } item
      have same : ({ thread with enable := false } : CThread).tasks pool.callers.length =
        thread.tasks pool.callers.length := rfl
      rw [same, Nat.add_right_cancel_iff] at threads
      dsimp only
      omega
    | began | joined | ended => exact before

/-- A new pool has no tasks in any place, and none was offered. -/
theorem conserved_new (threads callers : Nat) : Conserved (new threads callers) := by
  have nobody : ∀ thread ∈ List.replicate threads CThread.new, thread.tasks callers = [] := by
    intro thread member
    rw [List.eq_of_mem_replicate member]
    simp [CThread.tasks, CThread.new, CThread.inHand, AddTaskPc.task]
  have idle : ∀ place ∈ List.replicate callers DispatchPc.idle, place.task.toList = [] := by
    intro place member
    rw [List.eq_of_mem_replicate member]
    rfl
  have none : (new threads callers).places = [] := by
    simp only [places, new, List.length_replicate, List.flatMap_eq_nil_iff.mpr nobody,
      List.flatMap_eq_nil_iff.mpr idle, List.append_nil]
  rw [Conserved, none]
  exact List.Perm.refl _

/-! ## Stopping -/

/-- A thread that was at an index is there after a step, and has made one step at most. -/
theorem Move.came (move : Move pool next) {i : Nat} {after : CThread}
    (here : next.threads[i]? = some after) : ∃ thread, pool.threads[i]? = some thread ∧
      (after = thread ∨ ∃ label, thread.step label = some after) := by
  have set : ∀ {j : Nat} {before changed : CThread}, pool.threads[j]? = some before →
      (∃ label, before.step label = some changed) → (pool.threads.set j changed)[i]? = some after →
      ∃ thread, pool.threads[i]? = some thread ∧
        (after = thread ∨ ∃ label, thread.step label = some after) := by
    intro j before changed was stepped is
    by_cases same : j = i
    · subst same
      rw [List.getElem?_set_self (List.getElem?_eq_some_iff.mp was).1] at is
      cases is
      exact ⟨before, was, .inr stepped⟩
    · rw [List.getElem?_set_ne same] at is
      exact ⟨after, is, .inl rfl⟩
  cases move with
  | called => exact ⟨after, here, .inl rfl⟩
  | adds caller next move =>
    cases move with
    | looked | deleted => exact ⟨after, here, .inl rfl⟩
    | gave j was highPriority thread changed place inLoop inPool given =>
      exact set inPool ⟨_, given⟩ here
    | added j thread changed place inPool moved => exact set inPool ⟨.addTask caller, moved⟩ here
  | worked j thread changed outcome inPool moved => exact set inPool ⟨.doTask outcome, moved⟩ here
  | stops next move =>
    cases move with
    | began | joined | ended => exact ⟨after, here, .inl rfl⟩
    | disabled j thread place inPool => exact set inPool ⟨.disable, rfl⟩ here

/-- No step adds or removes a thread, so that their indices stay good. -/
theorem Move.length (move : Move pool next) : next.threads.length = pool.threads.length := by
  cases move with
  | called => rfl
  | worked => exact List.length_set
  | adds caller next move =>
    cases move with
    | looked | deleted => rfl
    | gave | added => exact List.length_set
  | stops next move =>
    cases move with
    | began | joined | ended => rfl
    | disabled => exact List.length_set

/-- A thread that has been disabled and whose worker has finished. -/
structure Over (thread : CThread) : Prop where
  finished : thread.worker = .finished
  disabled : thread.enable = false

/-- A thread that is disabled stays so: only `stop` writes the flag, and it writes false. -/
theorem disabled_step {thread after : CThread} {label : ThreadStep} (disabled : thread.enable = false)
    (stepped : thread.step label = some after) : after.enable = false := by
  cases label with
  | call caller task highPriority =>
    obtain ⟨-, same⟩ := Option.ite_none_right_eq_some.mp stepped
    cases same
    exact disabled
  | addTask caller => cases CThread.addTask_move stepped <;> exact disabled
  | disable =>
    cases stepped
    rfl
  | doTask outcome => cases CThread.doTask_move stepped <;> exact disabled

/-- A worker that has finished calls and deletes no task. -/
theorem finished_keeps {thread after : CThread} {label : ThreadStep} (finished : thread.worker = .finished)
    (stepped : thread.step label = some after) :
    after.executed = thread.executed ∧ after.deleted = thread.deleted := by
  cases label with
  | call caller task highPriority =>
    obtain ⟨-, same⟩ := Option.ite_none_right_eq_some.mp stepped
    cases same
    exact ⟨rfl, rfl⟩
  | addTask caller => cases CThread.addTask_move stepped <;> exact ⟨rfl, rfl⟩
  | disable =>
    cases stepped
    exact ⟨rfl, rfl⟩
  | doTask outcome =>
    simp only [CThread.step, CThread.doTask, finished] at stepped
    cases stepped

/-- A thread that is over stays over, whatever callers still do with its queue. -/
theorem Over.step {thread after : CThread} {label : ThreadStep} (isOver : Over thread)
    (stepped : thread.step label = some after) : Over after :=
  ⟨TaskHistory.finished_step isOver.finished stepped, disabled_step isOver.disabled stepped⟩

/-- How many threads `stop` is through with, which grows by one with each that it has joined. -/
def joinedThreads (pool : ThreadPool) : Nat :=
  match pool.stopping with
  | .running => 0
  | .disabling i | .joining i => i
  | .stopped => pool.threads.length

/-- The threads that `stop` is through with are over, and the one it waits for is disabled. -/
structure Stopping (pool : ThreadPool) : Prop where
  joined : ∀ i thread, i < pool.joinedThreads → pool.threads[i]? = some thread → Over thread
  waiting : ∀ i thread, pool.stopping = .joining i → pool.threads[i]? = some thread →
    thread.enable = false

/-- Before `stop` has begun it is through with no thread. -/
theorem stopping_new (threads callers : Nat) : Stopping (new threads callers) :=
  ⟨fun _ _ within => absurd within (Nat.not_lt_zero _), nofun⟩

/-- Where `stop` does not move, the threads only step. -/
theorem Stopping.threads (stopping : Stopping pool) (move : Move pool next)
    (same : next.stopping = pool.stopping) : Stopping next := by
  have joined : next.joinedThreads = pool.joinedThreads := by
    rw [joinedThreads, joinedThreads, same, move.length]
  constructor
  · intro i after within here
    obtain ⟨thread, was, rfl | ⟨label, stepped⟩⟩ := move.came here
    · exact stopping.joined i after (joined ▸ within) was
    · exact (stopping.joined i thread (joined ▸ within) was).step stepped
  · intro i after place here
    obtain ⟨thread, was, rfl | ⟨label, stepped⟩⟩ := move.came here
    · exact stopping.waiting i after (same ▸ place) was
    · exact disabled_step (stopping.waiting i thread (same ▸ place) was) stepped

/-- Each step of the pool keeps what `stop` has achieved by then; the other parties cannot start a
worker again. -/
theorem Stopping.step (stopping : Stopping pool) (label : ThreadPoolStep)
    (stepped : pool.step label = some next) : Stopping next := by
  cases step_move stepped with
  | called | worked => exact stopping.threads (step_move stepped) rfl
  | adds caller next move =>
    cases move with
    | looked | gave | deleted | added => exact stopping.threads (step_move stepped) rfl
  | stops next move =>
    cases move with
    | began place => exact ⟨fun _ _ within => absurd within (Nat.not_lt_zero _), nofun⟩
    | disabled i thread place here =>
      have joined : pool.joinedThreads = i := by simp only [joinedThreads, place]
      constructor
      · intro j after within isThere
        have before : j < i := within
        rw [List.getElem?_set_ne (Nat.ne_of_gt before)] at isThere
        exact stopping.joined j after (joined ▸ before) isThere
      · intro j after isPlace isThere
        cases isPlace
        rw [List.getElem?_set_self (List.getElem?_eq_some_iff.mp here).1] at isThere
        cases isThere
        rfl
    | joined i thread place here finished =>
      have joined : pool.joinedThreads = i := by simp only [joinedThreads, place]
      refine ⟨fun j after within isThere => ?_, nofun⟩
      rcases Nat.lt_or_eq_of_le (Nat.lt_succ_iff.mp within) with before | rfl
      · exact stopping.joined j after (joined ▸ before) isThere
      · cases isThere.symm.trans here
        exact ⟨finished, stopping.waiting j thread place isThere⟩
    | ended i place all =>
      have joined : pool.joinedThreads = i := by simp only [joinedThreads, place]
      refine ⟨fun j after within isThere => ?_, nofun⟩
      have inside : j < pool.threads.length := within
      exact stopping.joined j after (joined ▸ Nat.lt_of_lt_of_le inside all) isThere

/-- When `stop` has returned, all threads are over, as it has joined each of them. -/
theorem Stopping.all_over (stopping : Stopping pool) (stopped : pool.stopping = .stopped) :
    ∀ thread ∈ pool.threads, Over thread := by
  intro thread member
  obtain ⟨i, here⟩ := List.mem_iff_getElem?.mp member
  refine stopping.joined i thread ?_ here
  rw [joinedThreads, stopped]
  exact (List.getElem?_eq_some_iff.mp here).1

/-- From then on no step changes which tasks were called or deleted by the threads. -/
theorem Stopping.settled (stopping : Stopping pool) (stopped : pool.stopping = .stopped)
    (move : Move pool next) : next.stopping = .stopped ∧
      next.threads.map (fun thread => (thread.executed, thread.deleted)) =
        pool.threads.map fun thread => (thread.executed, thread.deleted) := by
  constructor
  · cases move with
    | called | worked => exact stopped
    | adds caller next move => cases move <;> exact stopped
    | stops next move =>
      cases move with
      | began place | disabled i thread place | joined i thread place | ended i place =>
        cases stopped.symm.trans place
  · apply List.ext_getElem?
    intro i
    rw [List.getElem?_map, List.getElem?_map]
    cases here : next.threads[i]? with
    | none =>
      have beyond := List.getElem?_eq_none_iff.mp here
      rw [move.length] at beyond
      rw [List.getElem?_eq_none beyond]
    | some after =>
      obtain ⟨thread, was, rfl | ⟨label, stepped⟩⟩ := move.came here
      · rw [was]
      · have finished := (stopping.all_over stopped thread (List.mem_of_getElem? was)).finished
        obtain ⟨executed, deleted⟩ := finished_keeps finished stepped
        rw [was, Option.map_some, Option.map_some, executed, deleted]

/-- In every run of the callers, the workers and `stop`, each task that was given to the pool is
in just one place. When `stop` has returned, all threads are disabled and have finished, and no
further step calls a task, or deletes one of theirs. -/
theorem each_task_in_one_place (threads callers : Nat) (before later : List ThreadPoolStep)
    (middle final : ThreadPool) (ran : Runs.run step (new threads callers) before = some middle)
    (went : Runs.run step middle later = some final) :
    final.places.Perm final.offered ∧
      (middle.stopping = .stopped → (∀ thread ∈ middle.threads, Over thread) ∧
        final.threads.map (fun thread => (thread.executed, thread.deleted)) =
          middle.threads.map fun thread => (thread.executed, thread.deleted)) := by
  have keeps : ∀ pool label next, Conserved pool ∧ Stopping pool → step pool label = some next →
      Conserved next ∧ Stopping next :=
    fun _ label _ both stepped => ⟨both.1.step label stepped, both.2.step label stepped⟩
  have inMiddle := Runs.run_invariant step _ keeps _ middle before
    ⟨conserved_new threads callers, stopping_new threads callers⟩ ran
  have atEnd := Runs.run_invariant step _ keeps middle final later inMiddle went
  refine ⟨atEnd.1, fun stopped => ⟨inMiddle.2.all_over stopped, ?_⟩⟩
  have settled := Runs.run_invariant step
    (fun pool => Stopping pool ∧ pool.stopping = .stopped ∧
      pool.threads.map (fun thread => (thread.executed, thread.deleted)) =
        middle.threads.map fun thread => (thread.executed, thread.deleted))
    (fun _ label _ ⟨stopping, isStopped, same⟩ stepped => by
      obtain ⟨still, unchanged⟩ := stopping.settled isStopped (step_move stepped)
      exact ⟨stopping.step label stepped, still, unchanged.trans same⟩)
    middle final later ⟨inMiddle.2, stopped, rfl⟩ went
  exact settled.2.2

/-- Two tasks, of which the second is deleted with the queue as its thread is stopped, and a third
one that is offered to the stopped pool. -/
theorem each_task_in_one_place_two :
    ∃ middle final, Runs.run step (new 1 1)
        (.call 0 (some 7) false :: List.replicate 7 (.addTask 0) ++ .call 0 (some 8) false ::
          List.replicate 8 (.addTask 0) ++ List.replicate 6 (.doTask 0 .succeeds) ++ [.stop, .stop] ++
          List.replicate 6 (.doTask 0 .succeeds) ++ [.stop, .stop]) = some middle ∧
      Runs.run step middle [.call 0 (some 9) false] = some final ∧
      final.places.Perm final.offered ∧ final.offered = [7, 8, 9] := by
  obtain ⟨middle, ran, went⟩ := Runs.run_reaches step (new 1 1)
    (.call 0 (some 7) false :: List.replicate 7 (.addTask 0) ++ .call 0 (some 8) false ::
      List.replicate 8 (.addTask 0) ++ List.replicate 6 (.doTask 0 .succeeds) ++ [.stop, .stop] ++
      List.replicate 6 (.doTask 0 .succeeds) ++ [.stop, .stop])
    (fun middle => (Runs.run step middle [.call 0 (some 9) false]).any
      (fun final => final.offered = [7, 8, 9]) = true) (by decide +kernel)
  obtain ⟨final, later, offered⟩ := (Option.any_eq_true _ _).mp went
  exact ⟨middle, final, ran, later, (each_task_in_one_place 1 1 _ _ middle final ran later).1,
    of_decide_eq_true offered⟩

end ThreadPool

end OpenTaker
