import OpenTaker.ObjectPools
import OpenTaker.CyclicPositions

/-!
# A pool as a queue

`CObjectPool` calls itself a FIFO pool. It is one when its objects are released in the order
in which they were handed out: those in use then lie next to each other, behind the cursor,
and while fewer of them than all are in use, the object at the cursor is free.

With a single caller of `getBlock` that keeps to this bound, no call waits or retries, even
when releases come between its accesses. Each call makes its four accesses, and the objects
are handed out in cyclic order.
-/

namespace OpenTaker

open CyclicPositions

namespace ObjectPool

/-- So many accesses of the caller, one after the other. -/
def accesses (pool : ObjectPool) : Nat → ObjectPool
  | 0 => pool
  | count + 1 => (pool.getBlock .objectPool 0).accesses count

/-- A call of `getBlock` by caller 0 that succeeds at once: the object and the pool after it.
`none` when the call waits or retries. -/
def getBlockCall (pool : ObjectPool) : Option (Nat × ObjectPool) :=
  match (pool.accesses 3).pc 0 with
  | .storing obj => some (obj, pool.accesses 4)
  | _ => none

/-- The objects in use are so many, from a first one on, and the cursor is behind them. -/
structure InUse (objCount first count : Nat) (pool : ObjectPool) : Prop where
  sized : pool.objCount = objCount
  bounded : count ≤ objCount
  used : ∀ obj < objCount, pool.used obj = true ↔ ∃ offset < count, obj = (first + offset) % objCount

namespace InUse

variable {objCount first count : Nat} {pool : ObjectPool}

/-- While not all are in use, the object behind them is free. -/
theorem free (inUse : InUse objCount first count pool) (room : count < objCount) :
    pool.used ((first + count) % objCount) = false := by
  rw [← Bool.not_eq_true, inUse.used _ (Nat.mod_lt _ (by omega))]
  rintro ⟨offset, inside, same⟩
  have equal := cells_distinct (Nat.le_add_right first offset) (by omega)
    (Nat.le_add_right first count) (by omega) same.symm
  omega

/-- Marking the object behind those in use makes one more of them, in the order of the queue. -/
theorem mark (inUse : InUse objCount first count pool) (room : count < objCount) {after : ObjectPool}
    (objects : after.objCount = pool.objCount)
    (flags : after.used = Function.update pool.used ((first + count) % objCount) true) :
    InUse objCount first (count + 1) after where
  sized := objects.trans inUse.sized
  bounded := room
  used obj inside := by
    rw [flags]
    by_cases last : obj = (first + count) % objCount
    · subst last
      rw [Function.update_self]
      exact iff_of_true rfl ⟨count, Nat.lt_succ_self count, rfl⟩
    · rw [Function.update_of_ne last, inUse.used obj inside]
      constructor
      · exact fun ⟨offset, before, same⟩ => ⟨offset, by omega, same⟩
      · rintro ⟨offset, before, same⟩
        have earlier : offset ≠ count := fun equal => last (equal ▸ same)
        exact ⟨offset, by omega, same⟩

/-- Releasing the first object in use moves the stretch of those in use on by one. -/
theorem release (inUse : InUse objCount first (count + 1) pool) :
    InUse objCount (first + 1) count (pool.release (first % objCount)) where
  sized := inUse.sized
  bounded := Nat.le_of_succ_le inUse.bounded
  used obj inside := by
    have bounded := inUse.bounded
    simp only [ObjectPool.release]
    by_cases isFirst : obj = first % objCount
    · subst isFirst
      rw [Function.update_self]
      refine iff_of_false Bool.false_ne_true ?_
      rintro ⟨offset, before, same⟩
      have equal := cells_distinct (Nat.le_refl first) (by omega) (by omega) (by omega) same
      omega
    · rw [Function.update_of_ne isFirst, inUse.used obj inside]
      constructor
      · rintro ⟨offset, before, same⟩
        cases offset with
        | zero => exact absurd same isFirst
        | succ offset => exact ⟨offset, by omega, by rw [same]; congr 1; omega⟩
      · rintro ⟨offset, before, same⟩
        exact ⟨offset + 1, by omega, by rw [same]; congr 1; omega⟩

/-- Whoever is in use stays so through steps that change neither the number of objects nor their
flags. -/
theorem kept (inUse : InUse objCount first count pool) {after : ObjectPool}
    (objects : after.objCount = pool.objCount) (flags : after.used = pool.used) :
    InUse objCount first count after where
  sized := objects.trans inUse.sized
  bounded := inUse.bounded
  used obj inside := by rw [flags, inUse.used obj inside]

end InUse

end ObjectPool

/-! ## Accesses and releases interleaved -/

/-- A pool with one caller that releases its objects in their order. -/
structure TokenQueue where
  pool : ObjectPool
  /-- The objects that were handed out, in order. -/
  handedOut : List Nat
  /-- How many of them were released. -/
  released : Nat
  /-- How many accesses the caller has made. -/
  accesses : Nat

/-- A new pool, of which nothing is in use. -/
def TokenQueue.start (objCount : Nat) : TokenQueue := ⟨.init objCount, [], 0, 0⟩

/-- The next access of the caller, or the release of the oldest object in use. -/
inductive TokenQueueStep where
  | access
  | release
deriving DecidableEq

namespace TokenQueue

/-- Perform one step. The caller starts a call only while not all objects are in use. -/
def step (state : TokenQueue) : TokenQueueStep → Option TokenQueue
  | .access =>
      if state.pool.pc 0 = .start ∧ state.released + state.pool.objCount ≤ state.handedOut.length then
        none
      else
        some { state with
          pool := state.pool.getBlock .objectPool 0
          handedOut :=
            match state.pool.pc 0 with
            | .storing obj => state.handedOut ++ [obj]
            | _ => state.handedOut
          accesses := state.accesses + 1 }
  | .release =>
      state.handedOut[state.released]?.map fun obj =>
        { state with pool := state.pool.release obj, released := state.released + 1 }

/-- Where the caller stands after so many accesses of a call that goes through. -/
inductive Stands (objCount given : Nat) : GetBlockPc → Nat → Prop where
  | start : Stands objCount given .start 0
  | testing : Stands objCount given
      (.testing (given % objCount) ((given + 1) % objCount) (given % objCount)) 1
  | swapping (crossed : Bool) : Stands objCount given
      (.swapping (given % objCount) ((given + 1) % objCount) (given % objCount) crossed) 2
  | storing : Stands objCount given (.storing (given % objCount)) 3

/-- A call of `getBlock` needs four accesses here, so that its place is one of these. -/
theorem Stands.le {objCount given place : Nat} {pc : GetBlockPc} (stands : Stands objCount given pc place) :
    place ≤ 3 := by
  cases stands <;> omega

/-- A release may cross what the caller has read, and leaves it where it stands. -/
theorem Stands.cross {objCount given place : Nat} {pc : GetBlockPc}
    (stands : Stands objCount given pc place) (obj : Nat) (crossed : Bool) :
    Stands objCount given (pc.cross obj crossed) place := by
  cases stands with
  | start => exact .start
  | testing => exact .testing
  | swapping before => exact .swapping _
  | storing => exact .storing

/-- The objects in use lie between what was released and the cursor, and the caller stands
where its accesses have brought it. -/
structure Queueing (objCount : Nat) (state : TokenQueue) : Prop where
  order : state.released ≤ state.handedOut.length
  inUse : state.pool.InUse objCount state.released (state.handedOut.length - state.released)
  cyclic : state.handedOut = (List.range state.handedOut.length).map (· % objCount)
  stands : ∃ place, Stands objCount state.handedOut.length (state.pool.pc 0) place ∧
    state.accesses = 4 * state.handedOut.length + place ∧
    (place ≠ 0 → state.handedOut.length < state.released + objCount) ∧
    state.pool.curIndex =
      (if place = 3 then state.handedOut.length + 1 else state.handedOut.length) % objCount

/-- In a new pool no object is in use, and nobody is inside of `getBlock`. -/
theorem queueing_start (objCount : Nat) : Queueing objCount (start objCount) where
  order := Nat.le_refl 0
  inUse := ⟨rfl, Nat.zero_le _, fun _ _ => by simp [start, ObjectPool.init]⟩
  cyclic := rfl
  stands := ⟨0, .start, rfl, fun impossible => absurd rfl impossible, (Nat.zero_mod _).symm⟩

variable {objCount : Nat} {state next : TokenQueue}

/-- An access of the getter keeps the queue: it finds the next object free at once, since objects
come back in order. -/
theorem Queueing.access (queueing : Queueing objCount state)
    (stepped : state.step .access = some next) : Queueing objCount next := by
  obtain ⟨place, stands, counted, room, cursor⟩ := queueing.stands
  have order := queueing.order
  have sized := queueing.inUse.sized
  simp only [step, Option.ite_none_left_eq_some, Option.some.injEq] at stepped
  obtain ⟨allowed, rfl⟩ := stepped
  generalize place' : state.pool.pc 0 = pc at stands allowed
  cases stands with
  | start =>
    have below : state.handedOut.length < state.released + objCount := by
      rw [sized] at allowed
      exact Nat.lt_of_not_le fun full => allowed ⟨rfl, full⟩
    have moved : state.pool.getBlock .objectPool 0 = state.pool.goto 0
        (.testing (state.handedOut.length % objCount) ((state.handedOut.length + 1) % objCount)
          (state.handedOut.length % objCount)) := by
      have loaded : state.pool.loaded .objectPool = state.handedOut.length % objCount := cursor
      simp only [ObjectPool.getBlock, place', loaded, sized, advance_mod]
    refine ⟨order, ?_, queueing.cyclic, 1, ?_, ?_, fun _ => below, ?_⟩
    · rw [moved]
      exact queueing.inUse.kept rfl rfl
    · simp only [moved, ObjectPool.goto_pc, if_true]
      exact .testing
    · simp only [counted]
    · rw [moved]
      exact cursor
  | testing =>
    have below := room (by decide)
    have unused : state.pool.used (state.handedOut.length % objCount) = false := by
      have isFree := queueing.inUse.free (by omega)
      rwa [Nat.add_sub_cancel' order] at isFree
    have moved : state.pool.getBlock .objectPool 0 = state.pool.goto 0
        (.swapping (state.handedOut.length % objCount) ((state.handedOut.length + 1) % objCount)
          (state.handedOut.length % objCount)
          (state.pool.unmarked (state.handedOut.length % objCount))) := by
      simp only [ObjectPool.getBlock, place', unused, Bool.false_eq_true, if_false,
        ObjectPool.cursorAfter]
    refine ⟨order, ?_, queueing.cyclic, 2, ?_, ?_, fun _ => below, ?_⟩
    · rw [moved]
      exact queueing.inUse.kept rfl rfl
    · simp only [moved, ObjectPool.goto_pc, if_true]
      exact .swapping _
    · simp only [counted]
    · rw [moved]
      exact cursor
  | swapping crossed =>
    have below := room (by decide)
    have moved : state.pool.getBlock .objectPool 0 = state.pool.take 0
        ((state.handedOut.length + 1) % objCount) (state.handedOut.length % objCount) := by
      have same : state.handedOut.length % objCount = state.pool.curIndex := cursor.symm
      simp only [ObjectPool.getBlock, place', same, ne_eq, not_true_eq_false, if_false]
    refine ⟨order, ?_, queueing.cyclic, 3, ?_, ?_, fun _ => below, ?_⟩
    · rw [moved]
      exact queueing.inUse.kept rfl rfl
    · simp only [moved, ObjectPool.take_pc, if_true]
      exact .storing
    · simp only [counted]
    · rw [moved]
      rfl
  | storing =>
    have below := room (by decide)
    have moved : state.pool.getBlock .objectPool 0 =
        state.pool.mark 0 (state.handedOut.length % objCount) := by
      simp only [ObjectPool.getBlock, place']
    have longer : (state.handedOut ++ [state.handedOut.length % objCount]).length =
        state.handedOut.length + 1 := by simp
    have count : state.handedOut.length + 1 - state.released =
        state.handedOut.length - state.released + 1 := by omega
    refine ⟨?_, ?_, ?_, 0, ?_, ?_, fun impossible => absurd rfl impossible, ?_⟩
    · simp only [longer]
      omega
    · simp only [longer, count, moved]
      refine queueing.inUse.mark (by omega) rfl ?_
      rw [Nat.add_sub_cancel' order]
      rfl
    · simp only [longer]
      conv_lhs => rw [queueing.cyclic]
      rw [List.range_succ, List.map_append, List.map_singleton, List.length_map, List.length_range]
    · simp only [moved, ObjectPool.mark_pc, if_true]
      exact .start
    · simp only [longer, counted]
      omega
    · simp only [longer, moved]
      exact cursor

/-- A release frees the oldest object, behind which the getter stands. -/
theorem Queueing.release (queueing : Queueing objCount state)
    (stepped : state.step .release = some next) : Queueing objCount next := by
  obtain ⟨place, stands, counted, room, cursor⟩ := queueing.stands
  simp only [step, Option.map_eq_some_iff] at stepped
  obtain ⟨obj, oldest, rfl⟩ := stepped
  have inside : state.released < state.handedOut.length := (List.getElem?_eq_some_iff.mp oldest).1
  have isFirst : obj = state.released % objCount := by
    rw [queueing.cyclic, List.getElem?_map, List.getElem?_range inside] at oldest
    exact (Option.some.inj oldest).symm
  subst isFirst
  have count : state.handedOut.length - state.released =
      state.handedOut.length - (state.released + 1) + 1 := by omega
  refine ⟨inside, ?_, queueing.cyclic, place, stands.cross _ false, counted, ?_, cursor⟩
  · have inUse := queueing.inUse
    rw [count] at inUse
    exact inUse.release
  · intro standing
    have before := room standing
    simp only
    omega

/-- Every step keeps the invariant: an access of the getter, or a release in order. -/
theorem Queueing.step (queueing : Queueing objCount state) (label : TokenQueueStep)
    (stepped : state.step label = some next) : Queueing objCount next := by
  cases label with
  | access => exact queueing.access stepped
  | release => exact queueing.release stepped

/-- The accesses that were made tell where the caller stands. -/
theorem Queueing.stands_at (queueing : Queueing objCount state) (place : Nat) (within : place ≤ 3)
    (counted : state.accesses = 4 * state.handedOut.length + place) :
    Stands objCount state.handedOut.length (state.pool.pc 0) place := by
  obtain ⟨actual, stands, accesses, -, -⟩ := queueing.stands
  have bounds : actual ≤ 3 ∧ place ≤ 3 := ⟨stands.le, within⟩
  have same : actual = place := by omega
  exact same ▸ stands

/-- An access that does not begin a call is made whatever the queue holds, as only the beginning can
be refused. -/
theorem step_access (begun : state.pool.pc 0 ≠ .start) :
    state.step .access = some { state with
      pool := state.pool.getBlock .objectPool 0
      handedOut :=
        match state.pool.pc 0 with
        | .storing obj => state.handedOut ++ [obj]
        | _ => state.handedOut
      accesses := state.accesses + 1 } :=
  if_neg fun refused => begun refused.1

/-- A call that begins while not all objects are in use goes through at once. -/
theorem Queueing.getBlockCall_eq (queueing : Queueing objCount state)
    (atRest : state.accesses = 4 * state.handedOut.length)
    (room : state.handedOut.length < state.released + objCount) :
    state.pool.getBlockCall =
        some (state.handedOut.length % objCount, state.pool.accesses 4) ∧
      Queueing objCount { state with
        pool := state.pool.accesses 4
        handedOut := state.handedOut ++ [state.handedOut.length % objCount]
        accesses := state.accesses + 4 } := by
  have idle : state.pool.pc 0 = .start := by
    have stands := queueing.stands_at 0 (by decide) atRest
    generalize state.pool.pc 0 = pc at stands
    cases stands
    rfl
  have sized := queueing.inUse.sized
  have loads : state.step .access = some { state with
      pool := state.pool.getBlock .objectPool 0, accesses := state.accesses + 1 } := by
    simp only [TokenQueue.step, idle]
    rw [if_neg (by omega)]
  have loaded := queueing.access loads
  have atTest := loaded.stands_at 1 (by decide) (by simp only [atRest])
  have tests : TokenQueue.step { state with
      pool := state.pool.getBlock .objectPool 0, accesses := state.accesses + 1 } .access =
      some { state with
        pool := (state.pool.getBlock .objectPool 0).getBlock .objectPool 0
        accesses := state.accesses + 2 } := by
    generalize same : (state.pool.getBlock .objectPool 0).pc 0 = pc at atTest
    cases atTest
    simp [step_access, same]
  have tested := loaded.access tests
  have atSwap := tested.stands_at 2 (by decide) (by simp only [atRest])
  have swaps : TokenQueue.step { state with
      pool := (state.pool.getBlock .objectPool 0).getBlock .objectPool 0
      accesses := state.accesses + 2 } .access =
      some { state with
        pool := ((state.pool.getBlock .objectPool 0).getBlock .objectPool 0).getBlock .objectPool 0
        accesses := state.accesses + 3 } := by
    generalize same : ((state.pool.getBlock .objectPool 0).getBlock .objectPool 0).pc 0 = pc at atSwap
    cases atSwap
    simp [step_access, same]
  have swapped := tested.access swaps
  have atStore := swapped.stands_at 3 (by decide) (by simp only [atRest])
  have holds : (state.pool.accesses 3).pc 0 = .storing (state.handedOut.length % objCount) := by
    change (((state.pool.getBlock .objectPool 0).getBlock .objectPool 0).getBlock
      .objectPool 0).pc 0 = _
    generalize (((state.pool.getBlock .objectPool 0).getBlock .objectPool 0).getBlock
      .objectPool 0).pc 0 = pc at atStore ⊢
    cases atStore
    rfl
  refine ⟨by rw [ObjectPool.getBlockCall, holds], ?_⟩
  refine swapped.access ?_
  have stored : (((state.pool.getBlock .objectPool 0).getBlock .objectPool 0).getBlock
      .objectPool 0).pc 0 = .storing (state.handedOut.length % objCount) := holds
  simp [step_access, stored, ObjectPool.accesses]

/-- In every run each call makes its four accesses and no more, however the releases come
between them. The objects are handed out in cyclic order, no object is in use twice, and the
flags tell which are. -/
theorem calls_go_through (objCount : Nat) (labels : List TokenQueueStep) (final : TokenQueue)
    (ran : Runs.run step (start objCount) labels = some final) :
    final.accesses / 4 = final.handedOut.length ∧
      final.handedOut = (List.range final.handedOut.length).map (· % objCount) ∧
      (final.handedOut.drop final.released).Nodup ∧
      ∀ obj < objCount, final.pool.used obj = true ↔ obj ∈ final.handedOut.drop final.released := by
  have queueing := Runs.run_invariant step (Queueing objCount)
    (fun _ label _ queueing stepped => queueing.step label stepped) _ final labels
    (queueing_start objCount) ran
  obtain ⟨place, stands, counted, -, -⟩ := queueing.stands
  have standing := stands.le
  have bounded := queueing.inUse.bounded
  have held : final.handedOut.drop final.released =
      (List.range (final.handedOut.length - final.released)).map
        fun offset => (final.released + offset) % objCount := by
    conv_lhs => rw [queueing.cyclic]
    rw [← List.map_drop, List.range_eq_range', List.drop_range', List.range'_eq_map_range,
      List.map_map]
    simp only [Function.comp_def, Nat.zero_add, Nat.mul_one]
  refine ⟨by omega, queueing.cyclic, ?_, ?_⟩
  · rw [held]
    refine List.Nodup.map_on ?_ List.nodup_range
    intro offset inside other otherInside same
    rw [List.mem_range] at inside otherInside
    have equal := cells_distinct (Nat.le_add_right final.released offset) (by omega)
      (Nat.le_add_right final.released other) (by omega) same
    omega
  · intro obj inside
    rw [queueing.inUse.used obj inside, held, List.mem_map]
    exact exists_congr fun offset => by rw [List.mem_range, eq_comm]

/-- A pool of two: the third call starts when the first object is released, during the
second call, and gets that object. -/
theorem calls_go_through_two :
    ∃ final, Runs.run step (start 2)
        [.access, .access, .access, .access, .access, .access, .release, .access, .access, .access,
          .access, .access, .access] = some final ∧
      final.accesses / 4 = final.handedOut.length ∧ final.handedOut = [0, 1, 0] := by
  refine ⟨_, rfl, ?_, rfl⟩
  exact (calls_go_through 2 [.access, .access, .access, .access, .access, .access,
    .release, .access, .access, .access, .access, .access, .access] _ rfl).1

end TokenQueue

end OpenTaker
