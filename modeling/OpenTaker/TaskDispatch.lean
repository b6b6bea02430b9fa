import OpenTaker.TaskThreads

/-!
# The dispatch of tasks

`CThreadPool::addTask` goes through its threads for the one that has the least to do. It
stops at the first enabled thread whose queue is empty; but `min_size` is set once and never
lowered, so that otherwise the last enabled thread is the one it takes.
-/

namespace OpenTaker

namespace CThread

/-- `size`, the length of the queue as an `int`. -/
def size (thread : CThread) : Int := Int.bmod thread.taskQueue.length 4294967296

/-- A whole call of `addTask` that nobody interferes with. -/
def accept (thread : CThread) (task : Option Nat) (highPriority : Bool) : CThread :=
  if thread.enable then { thread.push task highPriority with queueSem := thread.queueSem + 1 } else thread

/-- An enabled thread has one task more after it accepted one. -/
theorem accept_length {thread : CThread} (enabled : thread.enable = true) (task : Option Nat)
    (highPriority : Bool) :
    (thread.accept task highPriority).taskQueue.length = thread.taskQueue.length + 1 := by
  cases highPriority <;> simp [accept, enabled, push]

/-- It is what the accesses of a caller do that gets the lock at once. -/
theorem run_accept {thread : CThread} {caller : Nat} (task : Option Nat) (highPriority : Bool)
    (isFree : thread.queueMutex = none) (idle : thread.callers caller = .idle) :
    Runs.run step thread (.call caller task highPriority ::
      List.replicate (if thread.enable then 5 else 1) (.addTask caller)) =
        some (thread.accept task highPriority) := by
  have back : Function.update thread.callers caller .idle = thread.callers := by
    rw [← idle, Function.update_eq_self]
  cases enabled : thread.enable with
  | true =>
    simp [Runs.run, step, idle, addTask, goto, enabled, isFree, push, accept, Function.update_idem, back]
  | false =>
    simp [Runs.run, step, idle, addTask, goto, enabled, accept, Function.update_idem, back]
    rw [← enabled]

end CThread

/-- A pool of threads at rest, with the tasks that it has deleted. -/
structure CThreadPool where
  threads : List CThread
  /-- The tasks that were deleted for want of a thread. -/
  deleted : List (Option Nat)

namespace CThreadPool

/-- `min_size`, a variable of the source which nothing lowers. -/
def minSize : Int := 0x7FFFFFFF

/-- The loop over the threads from an index on, with the thread chosen so far. -/
def choose : List CThread → Nat → Option Nat → Option Nat
  | [], _, thread => thread
  | next :: rest, i, thread =>
      if next.enable = false then choose rest (i + 1) thread
      else if next.size = 0 then some i
      else choose rest (i + 1) (if next.size < minSize then some i else thread)

/-- One thread is given the task, and accepts it when it is enabled. -/
def give (pool : CThreadPool) (i : Nat) (task : Option Nat) (highPriority : Bool) : CThreadPool :=
  { pool with threads := pool.threads.modify i (·.accept task highPriority) }

/-- The task is deleted, because no thread is enabled. -/
def delete (pool : CThreadPool) (task : Option Nat) : CThreadPool :=
  { pool with deleted := pool.deleted ++ [task] }

/-- `addTask`: choose a thread and give it the task, as one step. -/
def addTask (pool : CThreadPool) (task : Option Nat) (highPriority : Bool) : CThreadPool :=
  match choose pool.threads 0 none with
  | some i => pool.give i task highPriority
  | none => pool.delete task

/-- An enabled thread with the shortest queue of all enabled ones. -/
structure Least (threads : List CThread) (thread : CThread) : Prop where
  enabled : thread.enable = true
  shortest : ∀ other ∈ threads, other.enable = true →
    thread.taskQueue.length ≤ other.taskQueue.length

/-- The task goes to a thread that has the least to do, and it is deleted just when no
thread is enabled. -/
structure LeastLoaded (pool : CThreadPool) (task : Option Nat) (highPriority : Bool) : Prop where
  given : (∃ thread ∈ pool.threads, thread.enable = true) → ∃ i thread,
    pool.threads[i]? = some thread ∧ Least pool.threads thread ∧
      pool.addTask task highPriority = pool.give i task highPriority
  deleted : (∀ thread ∈ pool.threads, thread.enable = false) →
    pool.addTask task highPriority = pool.delete task

/-- The first enabled thread of size 0, behind the threads before it. -/
structure FirstIdle (before : List CThread) (thread : CThread) : Prop where
  enabled : thread.enable = true
  idle : thread.size = 0
  busy : ∀ other ∈ before, other.enable = true → other.size ≠ 0

/-- The last enabled thread of a size below `min_size`, in front of the threads after it. -/
structure LastBelow (thread : CThread) (after : List CThread) : Prop where
  enabled : thread.enable = true
  below : thread.size < minSize
  above : ∀ other ∈ after, other.enable = true → ¬ other.size < minSize

/-- No thread is enabled; or the first enabled one of size 0 has the least to do; or none is
of size 0, and the last enabled one below `min_size` has the least to do. -/
inductive Balanced (pool : CThreadPool) : Prop where
  | none (disabled : ∀ thread ∈ pool.threads, thread.enable = false)
  | idle (before : List CThread) (thread : CThread) (after : List CThread)
      (split : pool.threads = before ++ thread :: after) (first : FirstIdle before thread)
      (least : Least pool.threads thread)
  | busy (before : List CThread) (thread : CThread) (after : List CThread)
      (split : pool.threads = before ++ thread :: after) (last : LastBelow thread after)
      (none : ∀ other ∈ pool.threads, other.enable = true → other.size ≠ 0)
      (least : Least pool.threads thread)

variable {before after threads : List CThread} {thread : CThread} {pool : CThreadPool}

/-! ## The loop -/

/-- The loop stops at the first idle thread, whatever stands behind it. -/
theorem choose_firstIdle (after : List CThread) (first : FirstIdle before thread) (i : Nat)
    (chosen : Option Nat) : choose (before ++ thread :: after) i chosen = some (i + before.length) := by
  induction before generalizing i chosen with
  | nil =>
    have enabled : thread.enable ≠ false := by simp [first.enabled]
    rw [List.nil_append, choose, if_neg enabled, if_pos first.idle]
    rfl
  | cons next rest inductionHypothesis =>
    obtain ⟨nextBusy, restBusy⟩ := List.forall_mem_cons.mp first.busy
    have further : ∀ earlier, choose (rest ++ thread :: after) (i + 1) earlier =
        some (i + (next :: rest).length) := by
      intro earlier
      rw [inductionHypothesis ⟨first.enabled, first.idle, restBusy⟩ (i + 1) earlier, List.length_cons]
      congr 1
      omega
    rw [List.cons_append, choose]
    by_cases disabled : next.enable = false
    · rw [if_pos disabled, further]
    · rw [if_neg disabled, if_neg (nextBusy (eq_true_of_ne_false disabled)), further]

/-- Threads that are not below `min_size` change nothing, so that the thread chosen before them
stays. -/
theorem choose_above (busy : ∀ other ∈ threads, other.enable = true → other.size ≠ 0)
    (above : ∀ other ∈ threads, other.enable = true → ¬ other.size < minSize) (i : Nat)
    (chosen : Option Nat) : choose threads i chosen = chosen := by
  induction threads generalizing i with
  | nil => rfl
  | cons next rest inductionHypothesis =>
    obtain ⟨nextBusy, restBusy⟩ := List.forall_mem_cons.mp busy
    obtain ⟨nextAbove, restAbove⟩ := List.forall_mem_cons.mp above
    rw [choose]
    by_cases disabled : next.enable = false
    · rw [if_pos disabled, inductionHypothesis restBusy restAbove]
    · have enabled := eq_true_of_ne_false disabled
      rw [if_neg disabled, if_neg (nextBusy enabled), if_neg (nextAbove enabled),
        inductionHypothesis restBusy restAbove]

/-- The loop ends with the last thread below `min_size`: the ones before it are forgotten. -/
theorem choose_lastBelow (last : LastBelow thread after)
    (busy : ∀ other ∈ before ++ thread :: after, other.enable = true → other.size ≠ 0) (i : Nat)
    (chosen : Option Nat) : choose (before ++ thread :: after) i chosen = some (i + before.length) := by
  induction before generalizing i chosen with
  | nil =>
    obtain ⟨threadBusy, afterBusy⟩ := List.forall_mem_cons.mp busy
    have enabled : thread.enable ≠ false := by simp [last.enabled]
    rw [List.nil_append, choose, if_neg enabled, if_neg (threadBusy last.enabled), if_pos last.below,
      choose_above afterBusy last.above]
    rfl
  | cons next rest inductionHypothesis =>
    obtain ⟨nextBusy, restBusy⟩ := List.forall_mem_cons.mp busy
    have further : ∀ earlier, choose (rest ++ thread :: after) (i + 1) earlier =
        some (i + (next :: rest).length) := by
      intro earlier
      rw [inductionHypothesis restBusy (i + 1) earlier, List.length_cons]
      congr 1
      omega
    rw [List.cons_append, choose]
    by_cases disabled : next.enable = false
    · rw [if_pos disabled, further]
    · rw [if_neg disabled, if_neg (nextBusy (eq_true_of_ne_false disabled)), further]

/-- Some thread of a kind is the first one of it. -/
theorem exists_first (kind : CThread → Prop) (some : ∃ thread ∈ threads, kind thread) :
    ∃ before thread after, threads = before ++ thread :: after ∧ kind thread ∧
      ∀ other ∈ before, ¬ kind other := by
  classical
  induction threads with
  | nil => simp at some
  | cons next rest inductionHypothesis =>
    by_cases isKind : kind next
    · exact ⟨[], next, rest, rfl, isKind, nofun⟩
    · obtain ⟨before, thread, after, rfl, found, others⟩ := inductionHypothesis (by simpa [isKind] using some)
      exact ⟨next :: before, thread, after, rfl, found, List.forall_mem_cons.mpr ⟨isKind, others⟩⟩

/-- Among the threads of a kind, where there are any, some thread is the last one. -/
theorem exists_last (kind : CThread → Prop) (some : ∃ thread ∈ threads, kind thread) :
    ∃ before thread after, threads = before ++ thread :: after ∧ kind thread ∧
      ∀ other ∈ after, ¬ kind other := by
  have reversed : ∃ thread ∈ threads.reverse, kind thread := by simpa only [List.mem_reverse] using some
  obtain ⟨after, thread, before, split, found, others⟩ := exists_first kind reversed
  refine ⟨before.reverse, thread, after.reverse, ?_, found, fun other member =>
    others other (List.mem_reverse.mp member)⟩
  rw [← List.reverse_reverse threads, split, List.reverse_append, List.reverse_cons, List.append_assoc,
    List.singleton_append]

/-! ## The choice -/

/-- Every pool is of one of these kinds, by which the thread that is chosen is known. -/
theorem choose_cases (threads : List CThread) :
    (∃ before thread after, threads = before ++ thread :: after ∧ FirstIdle before thread) ∨
    (∀ other ∈ threads, other.enable = true → other.size ≠ 0) ∧
      ((∃ before thread after, threads = before ++ thread :: after ∧ LastBelow thread after) ∨
        ∀ other ∈ threads, other.enable = true → ¬ other.size < minSize) := by
  by_cases idle : ∃ thread ∈ threads, thread.enable = true ∧ thread.size = 0
  · obtain ⟨before, thread, after, split, ⟨enabled, isIdle⟩, others⟩ := exists_first _ idle
    refine .inl ⟨before, thread, after, split, enabled, isIdle, ?_⟩
    exact fun other member itsEnabled itsIdle => others other member ⟨itsEnabled, itsIdle⟩
  · refine .inr ⟨fun other member enabled isIdle => idle ⟨other, member, enabled, isIdle⟩, ?_⟩
    by_cases below : ∃ thread ∈ threads, thread.enable = true ∧ thread.size < minSize
    · obtain ⟨before, thread, after, split, ⟨enabled, isBelow⟩, others⟩ := exists_last _ below
      refine .inl ⟨before, thread, after, split, enabled, isBelow, ?_⟩
      exact fun other member itsEnabled itsBelow => others other member ⟨itsEnabled, itsBelow⟩
    · exact .inr fun other member enabled isBelow => below ⟨other, member, enabled, isBelow⟩

/-- The thread in the middle of a split is one of the threads. -/
theorem mem_split (split : threads = before ++ thread :: after) : thread ∈ threads := by
  rw [split]
  exact List.mem_append_right _ List.mem_cons_self

/-- The thread behind those in front of it stands at their number. -/
theorem getElem?_split (split : threads = before ++ thread :: after) :
    threads[0 + before.length]? = some thread := by
  rw [split, Nat.zero_add, List.getElem?_append_right (Nat.le_refl _), Nat.sub_self, List.getElem?_cons_zero]

/-- A task that is given to an enabled thread is seen in its queue. -/
theorem give_inj {i j : Nat} {task : Option Nat} {highPriority : Bool}
    (isThread : pool.threads[i]? = some thread) (enabled : thread.enable = true)
    (same : pool.give i task highPriority = pool.give j task highPriority) : i = j := by
  by_contra distinct
  have queues := congrArg (fun pool => pool.threads[i]?.map (·.taskQueue.length)) same
  simp only [give, List.getElem?_modify, if_true, if_neg (Ne.symm distinct), isThread, Option.map_eq_map,
    Option.map_some, CThread.accept_length enabled, Option.some.injEq] at queues
  omega

/-- A task that is given to a thread is not deleted. -/
theorem give_ne_delete (i : Nat) (task : Option Nat) (highPriority : Bool) :
    pool.give i task highPriority ≠ pool.delete task := by
  intro same
  have deleted := congrArg CThreadPool.deleted same
  simp [give, delete] at deleted

/-- The claim at the thread that the loop chooses. -/
theorem least_of_leastLoaded {task : Option Nat} {highPriority : Bool}
    (leastLoaded : LeastLoaded pool task highPriority) (split : pool.threads = before ++ thread :: after)
    (enabled : thread.enable = true)
    (added : pool.addTask task highPriority = pool.give (0 + before.length) task highPriority) :
    Least pool.threads thread := by
  obtain ⟨i, other, isOther, least, gives⟩ := leastLoaded.given ⟨thread, mem_split split, enabled⟩
  have same := give_inj isOther least.enabled (gives.symm.trans added)
  rw [same, getElem?_split split, Option.some.injEq] at isOther
  exact isOther ▸ least

/-- A thread that the loop chooses, and that has the least to do. -/
theorem leastLoaded_of_least {task : Option Nat} {highPriority : Bool}
    (split : pool.threads = before ++ thread :: after) (least : Least pool.threads thread)
    (added : pool.addTask task highPriority = pool.give (0 + before.length) task highPriority) :
    LeastLoaded pool task highPriority where
  given _ := ⟨0 + before.length, thread, getElem?_split split, least, added⟩
  deleted none := by
    have disabled := none thread (mem_split split)
    rw [least.enabled] at disabled
    cases disabled

/-- The thread that is given the task, when the loop chooses one. -/
theorem addTask_give {i : Nat} (chosen : choose pool.threads 0 none = some i) (task : Option Nat)
    (highPriority : Bool) : pool.addTask task highPriority = pool.give i task highPriority := by
  rw [addTask, chosen]

/-- With no enabled thread nothing is chosen, and the task is deleted. -/
theorem addTask_delete (chosen : choose pool.threads 0 none = none) (task : Option Nat)
    (highPriority : Bool) : pool.addTask task highPriority = pool.delete task := by
  rw [addTask, chosen]

/-- **The dispatch.** The task goes to a thread that has the least to do just in the pools
where the first idle thread, or else the last one, happens to be such. -/
theorem leastLoaded_iff (pool : CThreadPool) (task : Option Nat) (highPriority : Bool) :
    LeastLoaded pool task highPriority ↔ Balanced pool := by
  constructor
  · intro leastLoaded
    by_cases enabled : ∃ thread ∈ pool.threads, thread.enable = true
    · rcases choose_cases pool.threads with
        ⟨before, thread, after, split, first⟩ | ⟨busy, ⟨before, thread, after, split, last⟩ | above⟩
      · have chosen := choose_firstIdle after first 0 none
        rw [← split] at chosen
        exact .idle before thread after split first
          (least_of_leastLoaded leastLoaded split first.enabled (addTask_give chosen task highPriority))
      · have chosen := choose_lastBelow last (split ▸ busy) 0 none
        rw [← split] at chosen
        exact .busy before thread after split last busy
          (least_of_leastLoaded leastLoaded split last.enabled (addTask_give chosen task highPriority))
      · obtain ⟨i, thread, -, -, gives⟩ := leastLoaded.given enabled
        rw [addTask_delete (choose_above busy above 0 none)] at gives
        exact absurd gives.symm (give_ne_delete i task highPriority)
    · exact .none fun thread member =>
        Bool.eq_false_iff.mpr fun isEnabled => enabled ⟨thread, member, isEnabled⟩
  · rintro (disabled | ⟨before, thread, after, split, first, least⟩ |
      ⟨before, thread, after, split, last, busy, least⟩)
    · have never : ∀ thread ∈ pool.threads, thread.enable ≠ true := by
        intro thread member
        rw [disabled thread member]
        exact Bool.false_ne_true
      refine ⟨fun ⟨thread, member, enabled⟩ => absurd enabled (never thread member), fun _ => ?_⟩
      apply addTask_delete
      exact choose_above (fun other member enabled => absurd enabled (never other member))
        (fun other member enabled => absurd enabled (never other member)) 0 none
    · have chosen := choose_firstIdle after first 0 none
      rw [← split] at chosen
      exact leastLoaded_of_least split least (addTask_give chosen task highPriority)
    · have chosen := choose_lastBelow last (split ▸ busy) 0 none
      rw [← split] at chosen
      exact leastLoaded_of_least split least (addTask_give chosen task highPriority)

/-! ## Queues of an ordinary length -/

/-- The size of a queue that an `int` holds. -/
theorem size_of_short {thread : CThread} (short : thread.taskQueue.length < 0x7FFFFFFF) :
    thread.size = thread.taskQueue.length := by
  have upper : (thread.taskQueue.length : Int) < 2147483648 := by omega
  exact Int.bmod_eq_of_le (by omega) (by omega)

/-- A pool with an idle thread does well, if only empty queues have the size 0. -/
theorem balanced_of_idle (empty : ∀ thread ∈ pool.threads, thread.size = 0 → thread.taskQueue = [])
    (idle : ∃ thread ∈ pool.threads, thread.enable = true ∧ thread.size = 0) : Balanced pool := by
  obtain ⟨before, first, after, split, ⟨enabled, isIdle⟩, others⟩ := exists_first _ idle
  refine .idle before first after split ⟨enabled, isIdle, ?_⟩ ⟨enabled, ?_⟩
  · exact fun other member itsEnabled itsIdle => others other member ⟨itsEnabled, itsIdle⟩
  · intro other _ _
    rw [empty first (mem_split split) isIdle]
    exact Nat.zero_le _

/-- As long as no queue is as long as `min_size`, the pools that do well are those with no
enabled thread, those with an idle one, and those whose last enabled thread has the least
to do. -/
theorem balanced_iff_short (short : ∀ thread ∈ pool.threads, thread.taskQueue.length < 0x7FFFFFFF) :
    Balanced pool ↔ (∀ thread ∈ pool.threads, thread.enable = false) ∨
      (∃ thread ∈ pool.threads, thread.enable = true ∧ thread.taskQueue = []) ∨
      ∃ before thread after, pool.threads = before ++ thread :: after ∧
        (∀ other ∈ after, other.enable = false) ∧ Least pool.threads thread := by
  have idle_iff : ∀ thread ∈ pool.threads, (thread.size = 0 ↔ thread.taskQueue = []) := by
    intro thread member
    rw [size_of_short (short thread member), Int.natCast_eq_zero, List.length_eq_zero_iff]
  have empty : ∀ thread ∈ pool.threads, thread.size = 0 → thread.taskQueue = [] :=
    fun thread member => (idle_iff thread member).mp
  have below : ∀ thread ∈ pool.threads, thread.size < minSize := by
    intro thread member
    have isShort := short thread member
    rw [size_of_short isShort, minSize]
    omega
  constructor
  · rintro (disabled | ⟨before, thread, after, split, first, least⟩ |
      ⟨before, thread, after, split, last, busy, least⟩)
    · exact .inl disabled
    · have member := mem_split split
      exact .inr (.inl ⟨thread, member, first.enabled, (idle_iff thread member).mp first.idle⟩)
    · refine .inr (.inr ⟨before, thread, after, split, fun other member => ?_, least⟩)
      refine Bool.eq_false_iff.mpr fun enabled => last.above other member enabled (below other ?_)
      rw [split]
      exact List.mem_append_right _ (List.mem_cons_of_mem _ member)
  · rintro (disabled | ⟨thread, member, enabled, isEmpty⟩ | ⟨before, thread, after, split, disabled, least⟩)
    · exact .none disabled
    · exact balanced_of_idle empty ⟨thread, member, enabled, (idle_iff thread member).mpr isEmpty⟩
    · by_cases idle : ∃ other ∈ pool.threads, other.enable = true ∧ other.size = 0
      · exact balanced_of_idle empty idle
      · refine .busy before thread after split ⟨least.enabled, below thread (mem_split split), ?_⟩ ?_ least
        · intro other member enabled
          rw [disabled other member] at enabled
          cases enabled
        · exact fun other member enabled isIdle => idle ⟨other, member, enabled, isIdle⟩

/-- A thread with one task in its queue, and one with two. -/
def oneAndTwo : CThreadPool where
  threads := [CThread.new.accept (some 1) false, (CThread.new.accept (some 2) false).accept (some 3) false]
  deleted := []

/-- The next task goes to the second thread, although its queue is the longer one: the comparison is
made with a bound that no thread lowers. -/
theorem longer_queue_chosen : ¬ ∀ (pool : CThreadPool) (task : Option Nat) (highPriority : Bool),
    LeastLoaded pool task highPriority := by
  intro everywhere
  have enabled : ∃ thread ∈ oneAndTwo.threads, thread.enable = true := ⟨_, List.mem_cons_self, rfl⟩
  obtain ⟨i, thread, isThread, least, gives⟩ := (everywhere oneAndTwo (some 4) false).given enabled
  have same : i = 1 := give_inj isThread least.enabled gives.symm
  subst same
  obtain rfl := Option.some.inj isThread
  have shortest := least.shortest _ List.mem_cons_self rfl
  revert shortest
  decide

end CThreadPool

end OpenTaker
