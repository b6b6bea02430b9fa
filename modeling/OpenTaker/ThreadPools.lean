import OpenTaker.Holdings
import OpenTaker.TaskDispatch
import OpenTaker.TaskOrder

/-!
# A pool of threads at work

The callers of `CThreadPool::addTask` go through the threads without a lock, while the workers
run and `stop` disables the threads one after the other. Each access of a caller is a step of
its own: it tests whether a thread is enabled, reads the size of its queue, and at last goes
through `CThread::addTask` of the thread that it has chosen.
-/

namespace OpenTaker

/-- Where a caller stands in `CThreadPool::addTask`: in the loop over the threads, or in the
`addTask` of one of them. -/
inductive DispatchPc where
  | idle
  /-- At the head of the loop, or at its end. -/
  | looking (task : Option Nat) (highPriority : Bool) (i : Nat) (thread : Option Nat)
  /-- The thread at `i` was enabled. -/
  | sizing (task : Option Nat) (highPriority : Bool) (i : Nat) (thread : Option Nat)
  /-- Inside of `addTask` of a thread. -/
  | adding (thread : Nat)
deriving DecidableEq

/-- Where the one that stops the pool stands in `stop`. -/
inductive StopPc where
  | running
  | disabling (i : Nat)
  | joining (i : Nat)
  | stopped
deriving DecidableEq

/-- A pool of threads with those that use it. -/
structure ThreadPool where
  threads : List CThread
  callers : List DispatchPc
  stopping : StopPc
  /-- The tasks that were given to the pool, for the history only. -/
  offered : List Nat
  /-- The tasks that were deleted for want of a thread. -/
  deleted : List Nat
  /-- The tasks that a thread ignored because it had been disabled. -/
  ignored : List Nat

/-- One step: a call of `addTask`, an access inside of one, an access of a worker, or an
access of `stop`. -/
inductive ThreadPoolStep where
  | call (caller : Nat) (task : Option Nat) (highPriority : Bool)
  | addTask (caller : Nat)
  | doTask (thread : Nat) (outcome : DoTaskOutcome)
  | stop

/-- The task that a caller of a thread has not pushed. -/
def AddTaskPc.task : AddTaskPc → Option Nat
  | .testing task _ | .locking task _ | .pushing task _ => task
  | .idle | .posting | .unlocking => none

/-- The task that a caller of the pool has not given to a thread. -/
def DispatchPc.task : DispatchPc → Option Nat
  | .looking task .. | .sizing task .. => task
  | .idle | .adding _ => none

/-- An access of `addTask` does not enable or disable its thread. -/
theorem CThread.addTask_enable {thread after : CThread} {caller : Nat}
    (stepped : thread.addTask caller = some after) : after.enable = thread.enable := by
  cases CThread.addTask_move stepped <;> rfl

/-- A caller that has not chosen a thread yet, and still looks at them one after the other. -/
def DispatchPc.inLoop : DispatchPc → Bool
  | .looking .. | .sizing .. => true
  | .idle | .adding _ => false

namespace ThreadPool

/-- A pool with its threads created. As each of them starts its boost thread before it sets `m_enable`,
a run begins when all are constructed and no worker has taken a step. -/
def new (threads callers : Nat) : ThreadPool where
  threads := List.replicate threads .new
  callers := List.replicate callers .idle
  stopping := .running
  offered := []
  deleted := []
  ignored := []

/-- Leave a caller at another place, with nothing else changed. -/
def goto (pool : ThreadPool) (caller : Nat) (pc : DispatchPc) : ThreadPool :=
  { pool with callers := pool.callers.set caller pc }

/-- Let one thread make a step, if it is there and the step is possible. -/
def stepThread (pool : ThreadPool) (i : Nat) (label : ThreadStep) : Option ThreadPool :=
  (pool.threads[i]?).bind fun thread => (thread.step label).map fun next =>
    { pool with threads := pool.threads.set i next }

/-- Call `addTask` of a thread, or go on with that call. -/
def give (pool : ThreadPool) (caller i : Nat) (task : Option Nat) (highPriority : Bool) :
    Option ThreadPool :=
  (pool.stepThread i (.call caller task highPriority)).map (·.goto caller (.adding i))

/-- What a thread that has been disabled ignores at the test of a caller. -/
def ignores (thread : CThread) (caller : Nat) : List Nat :=
  match thread.callers caller with
  | .testing task _ => if thread.enable then [] else task.toList
  | _ => []

/-- The next access of a caller inside of `addTask`. -/
def addTask (pool : ThreadPool) (caller : Nat) : Option ThreadPool :=
  (pool.callers[caller]?).bind fun
  | .idle => none
  | .looking task highPriority i thread =>
      match pool.threads[i]? with
      | some next =>
          some (pool.goto caller (if next.enable then .sizing task highPriority i thread
            else .looking task highPriority (i + 1) thread))
      | none =>
          match thread with
          | some chosen => pool.give caller chosen task highPriority
          | none => some ({ pool with deleted := pool.deleted ++ task.toList }.goto caller .idle)
  | .sizing task highPriority i thread =>
      (pool.threads[i]?).bind fun next =>
        if next.size = 0 then pool.give caller i task highPriority
        else some (pool.goto caller (.looking task highPriority (i + 1)
          (if next.size < CThreadPool.minSize then some i else thread)))
  | .adding i =>
      (pool.threads[i]?).bind fun thread => (thread.addTask caller).map fun next =>
        { pool with
          threads := pool.threads.set i next
          ignored := pool.ignored ++ ignores thread caller
          callers := if next.callers caller = .idle then pool.callers.set caller .idle
            else pool.callers }

/-- The next access of `stop`, which disables the threads and waits for each of them. -/
def stop (pool : ThreadPool) : Option ThreadPool :=
  match pool.stopping with
  | .running => some { pool with stopping := .disabling 0 }
  | .disabling i =>
      if i < pool.threads.length then
        (pool.stepThread i .disable).map fun next => { next with stopping := .joining i }
      else some { pool with stopping := .stopped }
  | .joining i =>
      (pool.threads[i]?).bind fun thread =>
        if thread.worker = .finished then some { pool with stopping := .disabling (i + 1) } else none
  | .stopped => none

/-- Perform one step, of a caller, a worker or of `stop`. -/
def step (pool : ThreadPool) : ThreadPoolStep → Option ThreadPool
  | .call caller task highPriority =>
      if pool.callers[caller]? = some .idle then
        some ({ pool with offered := pool.offered ++ task.toList }.goto caller
          (.looking task highPriority 0 none))
      else none
  | .addTask caller => pool.addTask caller
  | .doTask thread outcome => pool.stepThread thread (.doTask outcome)
  | .stop => pool.stop

variable {pool next : ThreadPool}

/-! ## What a step can do -/

/-- The accesses of a caller inside of `addTask`, each of which is one step of a run. -/
inductive AddTaskMove (pool : ThreadPool) (caller : Nat) : ThreadPool → Prop where
  /-- The caller goes on in the loop with its task. -/
  | looked (was pc : DispatchPc) (place : pool.callers[caller]? = some was)
      (inLoop : was.inLoop = true) (keeps : pc.task = was.task) :
      AddTaskMove pool caller (pool.goto caller pc)
  | gave (i : Nat) (was : DispatchPc) (highPriority : Bool) (thread after : CThread)
      (place : pool.callers[caller]? = some was) (inLoop : was.inLoop = true)
      (here : pool.threads[i]? = some thread)
      (given : thread.step (.call caller was.task highPriority) = some after) :
      AddTaskMove pool caller
        ({ pool with threads := pool.threads.set i after }.goto caller (.adding i))
  | deleted (was : DispatchPc) (place : pool.callers[caller]? = some was)
      (inLoop : was.inLoop = true) :
      AddTaskMove pool caller
        ({ pool with deleted := pool.deleted ++ was.task.toList }.goto caller .idle)
  | added (i : Nat) (thread after : CThread) (place : pool.callers[caller]? = some (.adding i))
      (here : pool.threads[i]? = some thread) (moved : thread.addTask caller = some after) :
      AddTaskMove pool caller { pool with
        threads := pool.threads.set i after
        ignored := pool.ignored ++ ignores thread caller
        callers := if after.callers caller = .idle then pool.callers.set caller .idle
          else pool.callers }

/-- The accesses of `stop`, one case for each place where it can be. -/
inductive StopMove (pool : ThreadPool) : ThreadPool → Prop where
  | began (place : pool.stopping = .running) : StopMove pool { pool with stopping := .disabling 0 }
  | disabled (i : Nat) (thread : CThread) (place : pool.stopping = .disabling i)
      (here : pool.threads[i]? = some thread) :
      StopMove pool { pool with
        threads := pool.threads.set i { thread with enable := false }
        stopping := .joining i }
  | joined (i : Nat) (thread : CThread) (place : pool.stopping = .joining i)
      (here : pool.threads[i]? = some thread) (finished : thread.worker = .finished) :
      StopMove pool { pool with stopping := .disabling (i + 1) }
  | ended (i : Nat) (place : pool.stopping = .disabling i) (all : pool.threads.length ≤ i) :
      StopMove pool { pool with stopping := .stopped }

/-- The steps of a pool, one case for each kind of access. -/
inductive Move (pool : ThreadPool) : ThreadPool → Prop where
  | called (caller : Nat) (task : Option Nat) (highPriority : Bool)
      (place : pool.callers[caller]? = some .idle) :
      Move pool ({ pool with offered := pool.offered ++ task.toList }.goto caller
        (.looking task highPriority 0 none))
  | adds (caller : Nat) (next : ThreadPool) (move : AddTaskMove pool caller next) : Move pool next
  | worked (i : Nat) (thread after : CThread) (outcome : DoTaskOutcome)
      (here : pool.threads[i]? = some thread) (moved : thread.doTask outcome = some after) :
      Move pool { pool with threads := pool.threads.set i after }
  | stops (next : ThreadPool) (move : StopMove pool next) : Move pool next

/-- What giving a task to a thread can have done: an access of that thread's `addTask`, or the end
of the call. The cases are named, and the invariants are proved on them. -/
theorem give_move {caller i : Nat} {was : DispatchPc} {highPriority : Bool}
    (place : pool.callers[caller]? = some was) (inLoop : was.inLoop = true)
    (given : pool.give caller i was.task highPriority = some next) : AddTaskMove pool caller next := by
  simp only [give, stepThread, Option.map_eq_some_iff, Option.bind_eq_some_iff] at given
  obtain ⟨-, ⟨thread, here, after, called, rfl⟩, rfl⟩ := given
  exact .gave i was highPriority thread after place inLoop here called

/-- What an access of the pool's `addTask` can have done: a move through the loop, the choice of a
thread, or an access of the chosen one. -/
theorem addTask_move {caller : Nat} (stepped : pool.addTask caller = some next) :
    AddTaskMove pool caller next := by
  obtain ⟨was, place, stepped⟩ := Option.bind_eq_some_iff.mp stepped
  cases was with
  | idle => cases stepped
  | looking task highPriority i thread =>
    dsimp only at stepped
    split at stepped
    · rename_i tested here
      cases stepped
      refine .looked _ _ place rfl ?_
      split <;> rfl
    · cases thread with
      | some chosen => exact give_move place rfl stepped
      | none =>
        cases stepped
        exact .deleted _ place rfl
  | sizing task highPriority i thread =>
    obtain ⟨chosen, here, stepped⟩ := Option.bind_eq_some_iff.mp stepped
    split at stepped
    · exact give_move place rfl stepped
    · cases stepped
      exact .looked _ _ place rfl rfl
  | adding i =>
    obtain ⟨thread, here, moved⟩ := Option.bind_eq_some_iff.mp stepped
    obtain ⟨after, added, rfl⟩ := Option.map_eq_some_iff.mp moved
    exact .added i thread after place here added

/-- What an access of `stop` can have done: its begin, one more thread disabled or awaited, or the
end of the call. -/
theorem stop_move (stepped : pool.stop = some next) : StopMove pool next := by
  cases place : pool.stopping with
  | running =>
    simp only [stop, place] at stepped
    cases stepped
    exact .began place
  | disabling i =>
    simp only [stop, place] at stepped
    split at stepped
    · simp only [stepThread, Option.map_eq_some_iff, Option.bind_eq_some_iff] at stepped
      obtain ⟨-, ⟨thread, here, after, disabled, rfl⟩, rfl⟩ := stepped
      cases disabled
      exact .disabled i thread place here
    · rename_i all
      cases stepped
      exact .ended i place (Nat.le_of_not_lt all)
  | joining i =>
    simp only [stop, place] at stepped
    obtain ⟨thread, here, joined⟩ := Option.bind_eq_some_iff.mp stepped
    obtain ⟨finished, same⟩ := Option.ite_none_right_eq_some.mp joined
    cases same
    exact .joined i thread place here finished
  | stopped =>
    simp only [stop, place] at stepped
    cases stepped

/-- What any step can have done, for each of the parties. Every invariant of the pool is proved by
these cases. -/
theorem step_move {label : ThreadPoolStep} (stepped : pool.step label = some next) : Move pool next := by
  cases label with
  | call caller task highPriority =>
    obtain ⟨place, same⟩ := Option.ite_none_right_eq_some.mp stepped
    cases same
    exact .called caller task highPriority place
  | addTask caller => exact .adds caller next (addTask_move stepped)
  | doTask i outcome =>
    obtain ⟨thread, here, moved⟩ := Option.bind_eq_some_iff.mp stepped
    obtain ⟨after, worked, rfl⟩ := Option.map_eq_some_iff.mp moved
    exact .worked i thread after outcome here worked
  | stop => exact .stops next (stop_move stepped)

/-! ## A call that nobody interferes with -/

/-- A caller that goes to two places in a row is at the second one. The lemmas below run the loop of
a caller alone in the pool. -/
theorem goto_goto (pool : ThreadPool) (caller : Nat) (first second : DispatchPc) :
    (pool.goto caller first).goto caller second = pool.goto caller second := by
  rw [goto, goto, goto, List.set_set]

/-- What is done with a task when the loop has ended. -/
def dispatch (pool : ThreadPool) (caller : Nat) (task : Option Nat) (highPriority : Bool) :
    Option Nat → Option ThreadPool
  | some chosen => pool.give caller chosen task highPriority
  | none => some ({ pool with deleted := pool.deleted ++ task.toList }.goto caller .idle)

/-- Giving a task does not look at where its caller was, so that the place may be written before or
after. -/
theorem give_goto (pool : ThreadPool) (caller i : Nat) (pc : DispatchPc) (task : Option Nat)
    (highPriority : Bool) :
    (pool.goto caller pc).give caller i task highPriority = pool.give caller i task highPriority := by
  simp only [give, stepThread, goto, Option.map_bind]
  congr 1
  funext thread
  simp only [Function.comp_apply, Option.map_map]
  congr 1
  funext next
  simp only [Function.comp_apply, List.set_set]

section Looking

variable {caller i : Nat} {task : Option Nat} {highPriority : Bool} {thread : Option Nat}

/-- The caller is found at the place it went to. -/
theorem addTask_goto (inside : caller < pool.callers.length) (pc : DispatchPc) :
    (pool.goto caller pc).callers[caller]? = some pc :=
  List.getElem?_set_self inside

/-- Behind the last thread the loop ends, and the task goes to the thread that was chosen on the
way. -/
theorem looking_end (inside : caller < pool.callers.length) (atEnd : pool.threads[i]? = none) :
    (pool.goto caller (.looking task highPriority i thread)).addTask caller =
      pool.dispatch caller task highPriority thread := by
  have threads : (pool.goto caller (.looking task highPriority i thread)).threads[i]? = none := atEnd
  rw [addTask, addTask_goto inside, Option.bind_some]
  simp only [threads]
  cases thread with
  | some chosen => exact give_goto ..
  | none => exact congrArg some (goto_goto { pool with deleted := pool.deleted ++ task.toList } ..)

/-- A thread that is disabled is passed over, and the choice stays. -/
theorem looking_disabled {next : CThread} (inside : caller < pool.callers.length)
    (here : pool.threads[i]? = some next) (disabled : next.enable = false) :
    (pool.goto caller (.looking task highPriority i thread)).addTask caller =
      some (pool.goto caller (.looking task highPriority (i + 1) thread)) := by
  have threads : (pool.goto caller (.looking task highPriority i thread)).threads[i]? = some next := here
  rw [addTask, addTask_goto inside, Option.bind_some]
  simp only [threads, disabled, Bool.false_eq_true, if_false, goto_goto]

/-- An enabled thread is asked for the size of its queue, in a further access. -/
theorem looking_enabled {next : CThread} (inside : caller < pool.callers.length)
    (here : pool.threads[i]? = some next) (enabled : next.enable = true) :
    (pool.goto caller (.looking task highPriority i thread)).addTask caller =
      some (pool.goto caller (.sizing task highPriority i thread)) := by
  have threads : (pool.goto caller (.looking task highPriority i thread)).threads[i]? = some next := here
  rw [addTask, addTask_goto inside, Option.bind_some]
  simp only [threads, enabled, if_true, goto_goto]

/-- An empty queue takes the task at once. Any other one is chosen when it is shorter than the
minimum, which is never lowered. -/
theorem sizing_next {next : CThread} (inside : caller < pool.callers.length)
    (here : pool.threads[i]? = some next) :
    (pool.goto caller (.sizing task highPriority i thread)).addTask caller =
      if next.size = 0 then pool.give caller i task highPriority
      else some (pool.goto caller (.looking task highPriority (i + 1)
        (if next.size < CThreadPool.minSize then some i else thread))) := by
  have threads : (pool.goto caller (.sizing task highPriority i thread)).threads[i]? = some next := here
  rw [addTask, addTask_goto inside, Option.bind_some]
  dsimp only
  rw [threads, Option.bind_some, give_goto, goto_goto]

end Looking

/-- The loop from an index on chooses as the plain loop does. -/
theorem run_choose (pool : ThreadPool) {caller : Nat} (inside : caller < pool.callers.length)
    (task : Option Nat) (highPriority : Bool) (rest : List CThread) (i : Nat) (atRest : pool.threads.drop i = rest)
    (thread : Option Nat) :
    ∃ accesses, Runs.run step (pool.goto caller (.looking task highPriority i thread))
        (List.replicate accesses (.addTask caller)) =
      pool.dispatch caller task highPriority (CThreadPool.choose rest i thread) := by
  induction rest generalizing i thread with
  | nil =>
    have atEnd : pool.threads[i]? = none := List.getElem?_eq_none (List.drop_eq_nil_iff.mp atRest)
    refine ⟨1, ?_⟩
    rw [List.replicate_one, Runs.run, step, looking_end inside atEnd]
    exact Option.bind_fun_some _
  | cons next rest inductionHypothesis =>
    have here : pool.threads[i]? = some next := by
      rw [← List.head?_drop, atRest, List.head?_cons]
    have further : pool.threads.drop (i + 1) = rest := by
      rw [← List.drop_drop, atRest, List.drop_one, List.tail_cons]
    rw [CThreadPool.choose]
    by_cases disabled : next.enable = false
    · obtain ⟨accesses, ran⟩ := inductionHypothesis (i + 1) further thread
      refine ⟨accesses + 1, ?_⟩
      rw [List.replicate_succ, Runs.run, step, looking_disabled inside here disabled, Option.bind_some,
        ran, if_pos disabled]
    · have enabled := eq_true_of_ne_false disabled
      rw [if_neg disabled]
      by_cases idle : next.size = 0
      · refine ⟨2, ?_⟩
        rw [List.replicate_succ, Runs.run, step, looking_enabled inside here enabled, Option.bind_some,
          List.replicate_one, Runs.run, step, sizing_next inside here, if_pos idle, if_pos idle]
        exact Option.bind_fun_some _
      · obtain ⟨accesses, ran⟩ := inductionHypothesis (i + 1) further
          (if next.size < CThreadPool.minSize then some i else thread)
        refine ⟨accesses + 2, ?_⟩
        rw [List.replicate_succ, Runs.run, step, looking_enabled inside here enabled, Option.bind_some,
          List.replicate_succ, Runs.run, step, sizing_next inside here, if_neg idle, Option.bind_some,
          ran, if_neg idle]

/-- One access inside of a thread is an access of the atomic `addTask` that the caller is in. -/
theorem adding_next {caller i : Nat} {thread after : CThread} (place : pool.callers[caller]? = some (.adding i))
    (here : pool.threads[i]? = some thread) (moved : thread.addTask caller = some after)
    (keeps : ignores thread caller = []) :
    pool.step (.addTask caller) = some { pool with
      threads := pool.threads.set i after
      callers := if after.callers caller = .idle then pool.callers.set caller .idle
        else pool.callers } := by
  rw [step, addTask, place, Option.bind_some]
  dsimp only
  rw [here, Option.bind_some, moved, Option.map_some, keeps, List.append_nil]

/-- The accesses inside of an enabled thread are those of the thread. -/
theorem run_adding (pool : ThreadPool) {caller i accesses : Nat} {thread after : CThread}
    (inside : caller < pool.callers.length) (place : pool.callers[caller]? = some (.adding i))
    (here : pool.threads[i]? = some thread) (enabled : thread.enable = true)
    (busy : thread.callers caller ≠ .idle)
    (ran : Runs.run CThread.step thread (List.replicate accesses (.addTask caller)) = some after) :
    Runs.run step pool (List.replicate accesses (.addTask caller)) = some { pool with
      threads := pool.threads.set i after
      callers := if after.callers caller = .idle then pool.callers.set caller .idle
        else pool.callers } := by
  have inPool : i < pool.threads.length := (List.getElem?_eq_some_iff.mp here).1
  induction accesses generalizing pool thread with
  | zero =>
    obtain rfl : thread = after := Option.some.inj ran
    have same : pool.threads.set i thread = pool.threads := by
      rw [← (List.getElem?_eq_some_iff.mp here).2, List.set_getElem_self]
    rw [if_neg busy, same]
    rfl
  | succ accesses inductionHypothesis =>
    obtain ⟨middle, moved, later⟩ := (Runs.run_cons CThread.step thread after _ _).mp ran
    have keeps : ignores thread caller = [] := by
      unfold ignores
      split
      · rw [if_pos enabled]
      · rfl
    rw [List.replicate_succ, Runs.run, adding_next place here moved keeps, Option.bind_some]
    by_cases through : middle.callers caller = .idle
    · cases accesses with
      | zero =>
        cases later
        rfl
      | succ accesses =>
        obtain ⟨another, again, -⟩ := (Runs.run_cons CThread.step middle after _ _).mp later
        simp only [CThread.step, CThread.addTask, through] at again
        cases again
    · have still : middle.enable = true := (CThread.addTask_enable moved).trans enabled
      have followed := inductionHypothesis
        { pool with threads := pool.threads.set i middle } inside place
        (List.getElem?_set_self inPool) still through later (by rwa [List.length_set])
      rw [if_neg through]
      rw [List.set_set] at followed
      exact followed

/-- Five accesses bring a caller through `addTask` of an enabled thread that nobody else is
inside of. -/
theorem run_give (pool : ThreadPool) {caller i : Nat} {thread : CThread} (inside : caller < pool.callers.length)
    (here : pool.threads[i]? = some thread) (enabled : thread.enable = true)
    (isFree : thread.queueMutex = none) (idle : thread.callers caller = .idle) (task : Option Nat)
    (highPriority : Bool) :
    (pool.give caller i task highPriority).bind
        (fun given => Runs.run step given (List.replicate 5 (.addTask caller))) =
      some ({ pool with threads := pool.threads.set i (thread.accept task highPriority) }.goto
        caller .idle) := by
  have inPool : i < pool.threads.length := (List.getElem?_eq_some_iff.mp here).1
  have accepted := CThread.run_accept task highPriority isFree idle
  rw [if_pos enabled] at accepted
  obtain ⟨called, entered, ran⟩ := (Runs.run_cons CThread.step thread _ _ _).mp accepted
  have given : pool.give caller i task highPriority =
      some ({ pool with threads := pool.threads.set i called }.goto caller (.adding i)) := by
    rw [give, stepThread, here, Option.bind_some, entered]
    rfl
  obtain ⟨-, same⟩ := Option.ite_none_right_eq_some.mp entered
  have busy : called.callers caller ≠ .idle := by
    rw [← Option.some.inj same]
    simp [CThread.goto]
  have stillEnabled : called.enable = true := by
    rw [← Option.some.inj same]
    exact enabled
  have atEnd : (thread.accept task highPriority).callers caller = .idle := by
    rw [CThread.accept, if_pos enabled]
    exact idle
  have place : (({ pool with threads := pool.threads.set i called } : ThreadPool).goto caller
      (.adding i)).callers[caller]? = some (.adding i) := List.getElem?_set_self inside
  have isCalled : (({ pool with threads := pool.threads.set i called } : ThreadPool).goto caller
      (.adding i)).threads[i]? = some called := List.getElem?_set_self inPool
  have stillInside := (List.getElem?_eq_some_iff.mp place).1
  rw [given, Option.bind_some, run_adding _ stillInside place isCalled stillEnabled busy ran, if_pos atEnd]
  simp only [goto, List.set_set]

/-- The loop chooses an enabled thread, or keeps the one it had. -/
theorem choose_enabled {threads rest : List CThread} {i chosen : Nat} {thread : Option Nat}
    (atRest : threads.drop i = rest) (isChosen : CThreadPool.choose rest i thread = some chosen) :
    thread = some chosen ∨ ∃ next, threads[chosen]? = some next ∧ next.enable = true := by
  induction rest generalizing i thread with
  | nil => exact .inl isChosen
  | cons next rest inductionHypothesis =>
    have here : threads[i]? = some next := by
      rw [← List.head?_drop, atRest, List.head?_cons]
    have further : threads.drop (i + 1) = rest := by
      rw [← List.drop_drop, atRest, List.drop_one, List.tail_cons]
    rw [CThreadPool.choose] at isChosen
    by_cases disabled : next.enable = false
    · rw [if_pos disabled] at isChosen
      exact inductionHypothesis further isChosen
    · have enabled := eq_true_of_ne_false disabled
      rw [if_neg disabled] at isChosen
      by_cases idle : next.size = 0
      · rw [if_pos idle] at isChosen
        cases isChosen
        exact .inr ⟨next, here, enabled⟩
      · rw [if_neg idle] at isChosen
        rcases inductionHypothesis further isChosen with kept | later
        · split at kept
          · cases kept
            exact .inr ⟨next, here, enabled⟩
          · exact .inl kept
        · exact .inr later

/-- The pool without its callers, as the atomic functions see it. -/
structure Shows (pool : ThreadPool) (plain : CThreadPool) : Prop where
  threads : plain.threads = pool.threads
  deleted : plain.deleted.reduceOption = pool.deleted

/-- A whole call that nobody interferes with does what the plain `addTask` does, and comes to its
end in so many accesses as the threads ask for. -/
theorem undisturbed_addTask {caller : Nat} {plain : CThreadPool} (shows : Shows pool plain) (task : Option Nat)
    (highPriority : Bool) (place : pool.callers[caller]? = some .idle)
    (quiet : ∀ thread ∈ pool.threads, thread.queueMutex = none ∧ thread.callers caller = .idle) :
    ∃ accesses final, Runs.run step pool
        (.call caller task highPriority :: List.replicate accesses (.addTask caller)) = some final ∧
      Shows final (plain.addTask task highPriority) ∧ final.callers = pool.callers ∧
      final.ignored = pool.ignored := by
  have inside : caller < pool.callers.length := (List.getElem?_eq_some_iff.mp place).1
  have back : pool.callers.set caller .idle = pool.callers := by
    rw [← Option.some.inj ((List.getElem?_eq_getElem inside).symm.trans place), List.set_getElem_self]
  have called : pool.step (.call caller task highPriority) =
      some ({ pool with offered := pool.offered ++ task.toList }.goto caller
        (.looking task highPriority 0 none)) := if_pos place
  obtain ⟨accesses, ran⟩ := run_choose { pool with offered := pool.offered ++ task.toList }
    inside task highPriority pool.threads 0 rfl none
  cases chosen : CThreadPool.choose pool.threads 0 none with
  | none =>
    rw [chosen] at ran
    have whole := (Runs.run_cons step pool _ _ _).mpr ⟨_, called, ran⟩
    refine ⟨accesses, _, whole, ⟨?_, ?_⟩, back, rfl⟩
    · rw [CThreadPool.addTask_delete (shows.threads ▸ chosen)]
      exact shows.threads
    · rw [CThreadPool.addTask_delete (shows.threads ▸ chosen), CThreadPool.delete]
      dsimp only
      rw [List.reduceOption_append, shows.deleted]
      cases task <;> rfl
  | some i =>
    obtain kept | ⟨thread, here, enabled⟩ := choose_enabled (i := 0) rfl chosen
    · cases kept
    obtain ⟨isFree, idle⟩ := quiet thread (List.mem_of_getElem? here)
    have finished := run_give { pool with offered := pool.offered ++ task.toList } inside
      here enabled isFree idle task highPriority
    obtain ⟨given, isGiven, later⟩ := Option.bind_eq_some_iff.mp finished
    rw [chosen, dispatch, isGiven] at ran
    have went := (Runs.run_append step _ _ _ _).mpr ⟨given, ran, later⟩
    rw [List.replicate_append_replicate] at went
    have whole := (Runs.run_cons step pool _ _ _).mpr ⟨_, called, went⟩
    refine ⟨accesses + 5, _, whole, ⟨?_, ?_⟩, back, rfl⟩
    · rw [CThreadPool.addTask_give (shows.threads ▸ chosen), CThreadPool.give]
      dsimp only [goto]
      rw [shows.threads, List.modify_eq_set_getElem?, here]
      rfl
    · rw [CThreadPool.addTask_give (shows.threads ▸ chosen)]
      exact shows.deleted

/-- A pool of two threads, of which one is busy. -/
def oneBusy : ThreadPool where
  threads := [CThread.new.accept (some 1) false, .new]
  callers := [.idle]
  stopping := .running
  offered := [1]
  deleted := []
  ignored := []

/-- With two threads, of which the first has a task in its queue, the interleaved call reaches what
the atomic one does. -/
theorem undisturbed_addTask_oneBusy :
    ∃ accesses final, Runs.run step oneBusy
        (.call 0 (some 2) false :: List.replicate accesses (.addTask 0)) = some final ∧
      Shows final (CThreadPool.addTask ⟨oneBusy.threads, []⟩ (some 2) false) ∧
      final.callers = oneBusy.callers ∧ final.ignored = oneBusy.ignored := by
  have quiet : ∀ thread ∈ oneBusy.threads,
      thread.queueMutex = none ∧ thread.callers 0 = .idle := by decide
  exact undisturbed_addTask ⟨rfl, rfl⟩ (some 2) false rfl quiet

end ThreadPool

end OpenTaker
