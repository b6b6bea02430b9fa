import OpenTaker.PoolTasks

/-!
# An orderly stop

No task is lost when the callers are through with `addTask` before `stop` begins and nothing
throws: a worker clears its queue only when its thread has been disabled, and then nobody pushes
a task any more.
-/

namespace OpenTaker

/-- The worker is in its loop, where it can still execute tasks. -/
def DoTaskPc.inLoop : DoTaskPc → Bool
  | .clearing | .deleting | .draining | .finished => false
  | _ => true

/-- A caller inside of the loop is not idle. -/
theorem DispatchPc.not_idle {place : DispatchPc} (inLoop : place.inLoop = true) : place ≠ .idle := by
  rintro rfl
  cases inLoop

/-- A caller inside of the loop has not chosen a thread either, as it leaves the loop to do so. -/
theorem DispatchPc.not_adding {place : DispatchPc} (inLoop : place.inLoop = true) (i : Nat) :
    place ≠ .adding i := by
  rintro rfl
  cases inLoop

namespace CThread

variable {thread after : CThread}

/-- The worker of an enabled thread stays in its loop while nothing throws. -/
theorem inLoop_doTask {outcome : DoTaskOutcome} (calm : outcome ≠ .throws) (enabled : thread.enable = true)
    (inLoop : thread.worker.inLoop = true) (stepped : thread.doTask outcome = some after) :
    after.worker.inLoop = true := by
  cases place : thread.worker with
  | clearing | deleting | draining | finished =>
    rw [place] at inLoop
    cases inLoop
  | testing =>
    simp only [doTask, place, enabled, if_true] at stepped
    cases stepped
    rfl
  | executing =>
    cases outcome with
    | throws => exact absurd rfl calm
    | succeeds | fails =>
      simp only [doTask, place] at stepped
      cases stepped
      rfl
  | waiting =>
    cases outcome with
    | throws => exact absurd rfl calm
    | succeeds =>
      simp only [doTask, place] at stepped
      obtain ⟨-, same⟩ := Option.ite_none_left_eq_some.mp stepped
      cases same
      rfl
    | fails =>
      simp only [doTask, place] at stepped
      cases stepped
      rfl
  | locking =>
    simp only [doTask, place] at stepped
    obtain ⟨-, same⟩ := Option.ite_none_right_eq_some.mp stepped
    cases same
    rfl
  | taking =>
    simp only [doTask, place] at stepped
    split at stepped
    · cases stepped
    · cases stepped
      rfl
  | unlocking task =>
    simp only [doTask, place] at stepped
    cases stepped
    rfl
  | calling task =>
    cases task with
    | none =>
      simp only [doTask, place] at stepped
      cases stepped
      rfl
    | some task =>
      simp only [doTask, place, if_neg calm] at stepped
      cases stepped
      rfl

/-- The queue has been cleared, when the worker has left its loop. -/
def Cleared (thread : CThread) : Prop :=
  thread.worker = .draining ∨ thread.worker = .finished → thread.taskQueue = []

/-- The worker clears the queue before it finishes, and nobody pushes to it afterwards in an orderly
run. -/
theorem cleared_doTask {outcome : DoTaskOutcome} (cleared : Cleared thread)
    (stepped : thread.doTask outcome = some after) : Cleared after := by
  cases doTask_move stepped with
  | went pc was goes =>
    rintro (place | place) <;> rcases goes with rfl | rfl | rfl | rfl <;> cases place
  | waited | took | left => rintro (place | place) <;> cases place
  | entered pc isFree goes =>
    rintro (place | place) <;> rcases goes with ⟨-, rfl⟩ | ⟨-, rfl⟩ <;> cases place
  | called task pc was goes =>
    rintro (place | place) <;> rcases goes with rfl | rfl <;> cases place
  | emptied => exact fun _ => rfl
  | drained place | finished place => exact fun _ => cleared (.inl place)

/-- A caller leaves the other callers where they are. -/
theorem addTask_others {caller other : Nat} (different : other ≠ caller)
    (stepped : thread.addTask caller = some after) : after.callers other = thread.callers other := by
  cases addTask_move stepped <;> exact Function.update_of_ne different _ _

end CThread

namespace ThreadPool

/-- A task is given only before `stop` begins, `stop` begins when the callers are through, and
nothing throws. -/
def Orderly (pool : ThreadPool) : ThreadPoolStep → Prop
  | .call .. => pool.stopping = .running
  | .addTask _ => True
  | .doTask _ outcome => outcome ≠ .throws
  | .stop => pool.stopping = .running → ∀ place ∈ pool.callers, place = .idle

/-- Whether a step is an orderly one is a test of the state before it. -/
instance (pool : ThreadPool) (label : ThreadPoolStep) : Decidable (Orderly pool label) :=
  match label with
  | .call .. => inferInstanceAs (Decidable (_ = _))
  | .addTask _ => isTrue trivial
  | .doTask _ _ => inferInstanceAs (Decidable (_ ≠ _))
  | .stop => inferInstanceAs (Decidable (_ → _))

/-- What holds of a thread before and after an orderly stop. -/
structure CalmThread (thread : CThread) : Prop where
  inLoop : thread.enable = true → thread.worker.inLoop = true
  cleared : CThread.Cleared thread

/-- The invariant of orderly runs, in which nobody is inside of `addTask` once `stop` has begun. -/
structure Calm (pool : ThreadPool) : Prop where
  inside : ∀ (i : Nat) (thread : CThread), pool.threads[i]? = some thread →
    ∀ caller, thread.callers caller ≠ .idle → pool.callers[caller]? = some (.adding i)
  enabled : pool.stopping = .running → ∀ thread ∈ pool.threads, thread.enable = true
  through : pool.stopping ≠ .running → ∀ place ∈ pool.callers, place = .idle
  threads : ∀ thread ∈ pool.threads, CalmThread thread
  ignored : pool.ignored = []

variable {pool next : ThreadPool}

/-- A new pool is calm: nobody is inside, and every thread is enabled. -/
theorem calm_new (threads callers : Nat) : Calm (new threads callers) where
  inside i thread here caller busy := by
    rw [List.eq_of_mem_replicate (List.mem_of_getElem? here)] at busy
    exact absurd rfl busy
  enabled _ thread member := by
    rw [List.eq_of_mem_replicate member]
    rfl
  through stopping := absurd rfl stopping
  threads thread member := by
    rw [List.eq_of_mem_replicate member]
    exact ⟨fun _ => rfl, by rintro (place | place) <;> cases place⟩
  ignored := rfl

namespace Calm

/-- A caller that is not at rest shows that `stop` has not begun. -/
theorem running (calm : Calm pool) {caller : Nat} {place : DispatchPc}
    (here : pool.callers[caller]? = some place) (busy : place ≠ .idle) : pool.stopping = .running := by
  by_contra stopping
  exact busy (calm.through stopping place (List.mem_of_getElem? here))

/-- A caller that is not inside of a thread is at rest in each of them. -/
theorem apart (calm : Calm pool) {i : Nat} {thread : CThread} (here : pool.threads[i]? = some thread)
    {caller other : Nat} (busy : thread.callers other ≠ .idle) {was : DispatchPc}
    (place : pool.callers[caller]? = some was) (looping : ∀ i, was ≠ .adding i) : caller ≠ other := by
  rintro rfl
  exact looping i (Option.some.inj (place.symm.trans (calm.inside i thread here caller busy)))

/-- A caller that is not inside of a thread goes to another place in the loop, or leaves it. -/
theorem goto (calm : Calm pool) {caller : Nat} {was pc : DispatchPc}
    (place : pool.callers[caller]? = some was) (looping : ∀ i, was ≠ .adding i)
    (started : pool.stopping = .running) (offered deleted : List Nat) :
    Calm ({ pool with offered := offered, deleted := deleted }.goto caller pc) where
  inside i thread here other busy := by
    have before := calm.inside i thread here other busy
    exact (List.getElem?_set_ne (calm.apart here busy place looping)).trans before
  enabled := calm.enabled
  through stopping := absurd started stopping
  threads := calm.threads
  ignored := calm.ignored

/-- One thread is replaced by another that is calm. -/
theorem replace (calm : Calm pool) {i : Nat} {after : CThread} (callers : List DispatchPc)
    (kept : CalmThread after) (enabled : pool.stopping = .running → after.enable = true)
    (started : pool.stopping = .running ∨ callers = pool.callers)
    (atPlace : ∀ caller, after.callers caller ≠ .idle → callers[caller]? = some (.adding i))
    (others : ∀ (j : Nat) (thread : CThread), j ≠ i → pool.threads[j]? = some thread →
      ∀ caller, thread.callers caller ≠ .idle → callers[caller]? = some (.adding j)) :
    Calm { pool with threads := pool.threads.set i after, callers := callers } where
  inside j thread here caller busy := by
    by_cases same : j = i
    · subst same
      have inside := (List.getElem?_eq_some_iff.mp here).1
      rw [List.length_set] at inside
      have isAfter := here.symm.trans (List.getElem?_set_self inside)
      cases isAfter
      exact atPlace caller busy
    · rw [List.getElem?_set_ne (Ne.symm same)] at here
      exact others j thread same here caller busy
  enabled running thread member := by
    rcases List.mem_or_eq_of_mem_set member with before | rfl
    · exact calm.enabled running thread before
    · exact enabled running
  through stopping := by
    rcases started with running | same
    · exact absurd running stopping
    · rw [same]
      exact calm.through stopping
  threads thread member := by
    rcases List.mem_or_eq_of_mem_set member with before | rfl
    · exact calm.threads thread before
    · exact kept
  ignored := calm.ignored

/-- A caller that gives its task to a thread keeps the pool calm: it is noted as being with that
thread. -/
theorem gave (calm : Calm pool) {caller i : Nat} {was : DispatchPc} {highPriority : Bool}
    {thread after : CThread} (place : pool.callers[caller]? = some was)
    (here : pool.threads[i]? = some thread)
    (given : thread.step (.call caller was.task highPriority) = some after)
    (looping : ∀ i, was ≠ .adding i) (started : pool.stopping = .running) :
    Calm ({ pool with threads := pool.threads.set i after }.goto caller (.adding i)) := by
  have inPool := List.mem_of_getElem? here
  have inside : caller < pool.callers.length := (List.getElem?_eq_some_iff.mp place).1
  obtain ⟨-, same⟩ := Option.ite_none_right_eq_some.mp given
  cases same
  have kept := calm.threads thread inPool
  refine calm.replace _ ⟨kept.inLoop, kept.cleared⟩ (fun running => calm.enabled running thread inPool)
    (.inl started) (fun other busy => ?_) (fun j another different isThere other busy => ?_)
  · by_cases isCaller : other = caller
    · rw [isCaller]
      exact List.getElem?_set_self inside
    · have before : thread.callers other ≠ .idle := by
        simpa only [CThread.goto, Function.update_of_ne isCaller] using busy
      exact (List.getElem?_set_ne (Ne.symm isCaller)).trans (calm.inside i thread here other before)
  · exact (List.getElem?_set_ne (calm.apart isThere busy place looping)).trans
      (calm.inside j another isThere other busy)

/-- A caller goes on inside of a thread, which has not been disabled. -/
theorem added (calm : Calm pool) {caller i : Nat} {thread after : CThread}
    (place : pool.callers[caller]? = some (.adding i)) (here : pool.threads[i]? = some thread)
    (moved : thread.addTask caller = some after) :
    Calm { pool with
      threads := pool.threads.set i after
      ignored := pool.ignored ++ ignores thread caller
      callers := if after.callers caller = .idle then pool.callers.set caller .idle
        else pool.callers } := by
  have inPool := List.mem_of_getElem? here
  have started := calm.running place nofun
  have enabled := calm.enabled started thread inPool
  have inside : caller < pool.callers.length := (List.getElem?_eq_some_iff.mp place).1
  have stays := TaskHistory.addTask_worker moved
  have inLoop : after.worker.inLoop = true := by
    rw [stays]
    exact (calm.threads thread inPool).inLoop enabled
  have none : ignores thread caller = [] := by
    unfold ignores
    split
    · rw [if_pos enabled]
    · rfl
  have cleared : CThread.Cleared after := by
    rintro (place | place) <;> rw [place] at inLoop <;> cases inLoop
  have replaced := calm.replace (if after.callers caller = .idle then
      pool.callers.set caller .idle else pool.callers) (i := i) ⟨fun _ => inLoop, cleared⟩
    (fun _ => (CThread.addTask_enable moved).trans enabled) (.inl started)
    (fun other busy => ?_) (fun j another different isThere other busy => ?_)
  · rw [none, List.append_nil]
    exact replaced
  · by_cases isCaller : other = caller
    · rw [isCaller] at busy ⊢
      rw [if_neg busy]
      exact place
    · rw [CThread.addTask_others isCaller moved] at busy
      have before := calm.inside i thread here other busy
      split
      · exact (List.getElem?_set_ne (Ne.symm isCaller)).trans before
      · exact before
  · have before := calm.inside j another isThere other busy
    split
    · refine (List.getElem?_set_ne ?_).trans before
      rintro rfl
      cases place.symm.trans before
      exact different rfl
    · exact before

/-- A worker makes an access, which its own thread sees only. -/
theorem worked (calm : Calm pool) {i : Nat} {thread after : CThread} {outcome : DoTaskOutcome}
    (here : pool.threads[i]? = some thread) (moved : thread.doTask outcome = some after)
    (noThrow : outcome ≠ .throws) : Calm { pool with threads := pool.threads.set i after } := by
  have inPool := List.mem_of_getElem? here
  have kept := calm.threads thread inPool
  have sameEnable : after.enable = thread.enable := by
    cases CThread.doTask_move moved <;> rfl
  have sameCallers := TaskHistory.Ordinary.doTask_callers moved
  refine calm.replace _ ⟨fun enabled => ?_, CThread.cleared_doTask kept.cleared moved⟩
    (fun running => ?_) (.inr rfl) (fun caller busy => ?_) (fun j another _ => calm.inside j another)
  · rw [sameEnable] at enabled
    exact CThread.inLoop_doTask noThrow enabled (kept.inLoop enabled) moved
  · rw [sameEnable]
    exact calm.enabled running thread inPool
  · rw [sameCallers] at busy
    exact calm.inside i thread here caller busy

/-- `stop` goes on, with the next thread or to its end. -/
theorem stopped (calm : Calm pool) (place : StopPc) (begun : place ≠ .running)
    (through : ∀ caller ∈ pool.callers, caller = .idle) : Calm { pool with stopping := place } where
  inside := calm.inside
  enabled running := absurd running begun
  through _ := through
  threads := calm.threads
  ignored := calm.ignored

/-- It disables a thread, whose worker finishes its queue before it ends. -/
theorem disabled (calm : Calm pool) {i : Nat} {thread : CThread}
    (here : pool.threads[i]? = some thread) (begun : pool.stopping ≠ .running) :
    Calm { pool with threads := pool.threads.set i { thread with enable := false } } := by
  have kept := calm.threads thread (List.mem_of_getElem? here)
  exact calm.replace _ ⟨nofun, kept.cleared⟩ (fun running => absurd running begun) (.inr rfl)
    (fun caller busy => calm.inside i thread here caller busy)
    (fun j another _ => calm.inside j another)

/-- Each orderly step keeps the pool calm, by the cases of `Move`. -/
theorem step (calm : Calm pool) (label : ThreadPoolStep) (orderly : Orderly pool label)
    (stepped : pool.step label = some next) : Calm next := by
  cases label with
  | call caller task highPriority =>
    obtain ⟨place, same⟩ := Option.ite_none_right_eq_some.mp stepped
    cases same
    exact calm.goto place nofun orderly _ _
  | addTask caller =>
    cases addTask_move stepped with
    | looked was pc place inLoop keeps =>
      exact calm.goto place (DispatchPc.not_adding inLoop)
        (calm.running place (DispatchPc.not_idle inLoop)) _ _
    | gave i was highPriority thread after place inLoop here given =>
      exact calm.gave place here given (DispatchPc.not_adding inLoop)
        (calm.running place (DispatchPc.not_idle inLoop))
    | deleted was place inLoop =>
      exact calm.goto place (DispatchPc.not_adding inLoop)
        (calm.running place (DispatchPc.not_idle inLoop)) _ _
    | added i thread after place here moved => exact calm.added place here moved
  | doTask i outcome =>
    obtain ⟨thread, here, moved⟩ := Option.bind_eq_some_iff.mp stepped
    obtain ⟨after, worked, rfl⟩ := Option.map_eq_some_iff.mp moved
    exact calm.worked here worked orderly
  | stop =>
    cases stop_move stepped with
    | began place => exact calm.stopped _ nofun (orderly place)
    | disabled i thread place here =>
      have begun : pool.stopping ≠ .running := by
        rw [place]
        nofun
      exact (calm.disabled here begun).stopped _ nofun (calm.through begun)
    | joined i thread place here finished =>
      exact calm.stopped _ nofun (calm.through (by rw [place]; nofun))
    | ended i place all => exact calm.stopped _ nofun (calm.through (by rw [place]; nofun))

end Calm

/-- What a thread that is over has of its tasks, when nobody is inside of it. -/
theorem Over.tasks {thread : CThread} (isOver : Over thread) (calm : CalmThread thread)
    (nobody : ∀ caller, thread.callers caller = .idle) (callers : Nat) :
    thread.tasks callers = thread.executed ++ thread.deleted := by
  have hand : thread.inHand = none := by simp only [CThread.inHand, isOver.finished]
  have queue := calm.cleared (.inr isOver.finished)
  have waiting : ((List.range callers).flatMap fun caller => (thread.callers caller).task.toList) = [] := by
    rw [List.flatMap_eq_nil_iff]
    intro caller _
    rw [nobody caller]
    rfl
  rw [CThread.tasks, hand, queue, waiting, List.reduceOption_nil, Option.toList_none,
    List.append_nil, List.append_nil, List.append_nil]

/-- When the callers are through before `stop` begins and nothing throws, each task that the pool
was given has been called or deleted, and just once, as soon as `stop` has returned. -/
theorem orderly_stop (threads callers : Nat) (steps : List ThreadPoolStep) (final : ThreadPool)
    (ran : Runs.run step (new threads callers) steps = some final)
    (orderly : Runs.Meets step Orderly (new threads callers) steps)
    (stopped : final.stopping = .stopped) :
    (final.deleted ++ final.threads.flatMap fun thread => thread.executed ++ thread.deleted).Perm
      final.offered := by
  obtain ⟨conserved, stopping, calm⟩ := Runs.run_invariant_meets step Orderly
    (fun pool => Conserved pool ∧ Stopping pool ∧ Calm pool)
    (fun _ label _ ⟨conserved, stopping, calm⟩ isOrderly stepped =>
      ⟨conserved.step label stepped, stopping.step label stepped, calm.step label isOrderly stepped⟩)
    _ final steps ⟨conserved_new threads callers, stopping_new threads callers, calm_new threads callers⟩
    orderly ran
  have begun : final.stopping ≠ .running := by
    rw [stopped]
    nofun
  have through := calm.through begun
  have isOver := stopping.all_over stopped
  have nothing : final.callers.flatMap (·.task.toList) = [] := by
    rw [List.flatMap_eq_nil_iff]
    intro place member
    rw [through place member]
    rfl
  have all : final.threads.flatMap (CThread.tasks final.callers.length) =
      final.threads.flatMap fun thread => thread.executed ++ thread.deleted := by
    refine List.flatMap_congr fun thread member => ?_
    obtain ⟨i, here⟩ := List.mem_iff_getElem?.mp member
    refine (isOver thread member).tasks (calm.threads thread member) (fun caller => ?_) _
    by_contra busy
    have inside := List.mem_of_getElem? (calm.inside i thread here caller busy)
    cases through _ inside
  have whole := conserved
  rw [Conserved, places, nothing, calm.ignored, all, List.nil_append, List.append_nil] at whole
  exact whole

/-- One caller gives one task, which is called before `stop` begins. -/
def oneTask : List ThreadPoolStep :=
  .call 0 (some 7) false :: List.replicate 7 (.addTask 0) ++ List.replicate 7 (.doTask 0 .succeeds)

/-- Then the thread is stopped: disabled, drained and awaited. -/
def stopped : List ThreadPoolStep :=
  [.stop, .stop] ++ List.replicate 4 (.doTask 0 .succeeds) ++ [.stop, .stop]

/-- One thread executes one task, and then the pool is stopped in an orderly way. What was executed
or deleted is the one task that was offered. -/
theorem orderly_stop_one :
    ∃ final, Runs.run step (new 1 1) (oneTask ++ stopped) = some final ∧
      (final.deleted ++ final.threads.flatMap fun thread => thread.executed ++ thread.deleted).Perm
        final.offered ∧ final.offered = [7] := by
  obtain ⟨final, ran, isStopped, offered⟩ := Runs.run_reaches step (new 1 1) (oneTask ++ stopped)
    (fun final => final.stopping = .stopped ∧ final.offered = [7]) (by decide +kernel)
  have orderly : Runs.Meets step Orderly (new 1 1) (oneTask ++ stopped) := by decide +kernel
  exact ⟨final, ran, orderly_stop 1 1 _ final ran orderly isStopped, offered⟩

end ThreadPool

end OpenTaker
