import OpenTaker.ObjectPools
import Mathlib.Data.Nat.Find

/-!
# The search for a free object

A caller of `CObjectPool3::getBlock` that runs alone goes round the pool from the cursor on
until it meets an object that is not used. The loop has no other exit: when each object is
used it goes round for ever, and `CFilePool::tryGetBlock` is this very call.
-/

namespace OpenTaker.ObjectPool

/-- Let a caller of `CObjectPool3::getBlock` run alone for some accesses, and give what it
returns if it has returned by then. -/
def returnWithin (pool : ObjectPool) (caller : Nat) : Nat → Option (Nat × ObjectPool)
  | 0 => none
  | accesses + 1 =>
      match pool.pc caller with
      | .storing obj => some (obj, pool.mark caller obj)
      | _ => (pool.step .objectPool3 (.getBlock caller)).bind fun next =>
          next.returnWithin caller accesses

/-- `CFilePool::tryGetBlock` calls `getBlock` of its pool, so that it never answers without an
object. -/
def tryGetBlock (pool : ObjectPool) (caller accesses : Nat) : Option (Option Nat × ObjectPool) :=
  (pool.returnWithin caller accesses).map fun returned => (some returned.1, returned.2)

/-- The request pool of a `CFilePool`, with 1024 objects at least. -/
def ioContextPool (blockNum : Int) : ObjectPool := init (max blockNum 1024).toNat

/-- The object at a distance from the cursor, in cyclic order. -/
def objAt (pool : ObjectPool) (distance : Nat) : Nat := (pool.curIndex + distance) % pool.objCount

/-- Some object is not used, so that a search can come to it. -/
def HasFree (pool : ObjectPool) : Prop := ∃ obj < pool.objCount, pool.used obj = false

/-- The first object that is not used stands at this distance from the cursor. -/
structure FirstFree (pool : ObjectPool) (distance : Nat) : Prop where
  within : distance < pool.objCount
  unused : pool.used (pool.objAt distance) = false
  passed : ∀ nearer < distance, pool.used (pool.objAt nearer) = true

/-- The caller has been given the object: it alone is marked, and the cursor stands behind
it. -/
structure Given (pool : ObjectPool) (caller obj : Nat) (after : ObjectPool) : Prop where
  objCount : after.objCount = pool.objCount
  curIndex : after.curIndex = (obj + 1) % pool.objCount
  used : after.used = Function.update pool.used obj true
  finished : after.pc caller = .start
  returned : after.returned = obj :: pool.returned

/-- The call returns without waiting for another thread, and it returns `NULL` exactly when
no object is free. -/
def NeverBlocks (pool : ObjectPool) (caller : Nat) : Prop :=
  ∃ accesses result after, pool.tryGetBlock caller accesses = some (result, after) ∧
    (result = none ↔ ¬ pool.HasFree)

variable {pool : ObjectPool} {caller : Nat}

/-! ## Going round the pool -/

/-- The caller that went to a place is there. -/
theorem goto_self (pc : GetBlockPc) : (pool.goto caller pc).pc caller = pc := by
  rw [goto_pc, if_pos rfl]

/-- Going to two places in a row is going to the second one. -/
theorem goto_goto (first second : GetBlockPc) :
    (pool.goto caller first).goto caller second = pool.goto caller second := by
  simp only [goto, Function.update_idem]

/-- What the caller still needs after one more access. -/
theorem returnWithin_succ {next : ObjectPool} (accesses : Nat)
    (elsewhere : ∀ obj, pool.pc caller ≠ .storing obj)
    (stepped : pool.step .objectPool3 (.getBlock caller) = some next) :
    pool.returnWithin caller (accesses + 1) = next.returnWithin caller accesses := by
  rw [returnWithin]
  split
  · rename_i obj place
    exact absurd place (elsewhere obj)
  · rw [stepped, Option.bind_some]

/-- A caller that returns has run to the pool it leaves. -/
theorem run_of_returnWithin {accesses obj : Nat} {after : ObjectPool}
    (returned : pool.returnWithin caller accesses = some (obj, after)) (nonempty : pool.objCount ≠ 0) :
    ∃ labels, Runs.run (step .objectPool3) pool labels = some after := by
  induction accesses generalizing pool with
  | zero => cases returned
  | succ accesses inductionHypothesis =>
    rw [returnWithin] at returned
    split at returned
    · rename_i stored place
      obtain ⟨rfl, rfl⟩ := Prod.mk.inj (Option.some.inj returned)
      refine ⟨[.getBlock caller], ?_⟩
      rw [Runs.run, step_mark nonempty place, Option.bind_some, Runs.run]
    · obtain ⟨next, stepped, returned⟩ := Option.bind_eq_some_iff.mp returned
      have same : next.objCount = pool.objCount := by
        rcases step_cases stepped with
          ⟨_, _, -, rfl, -⟩ | ⟨_, _, _, _, -, -, -, rfl⟩ | ⟨_, _, _, _, -, -, rfl⟩ |
          ⟨_, _, -, -, rfl⟩ | ⟨_, -, -, rfl⟩ <;> rfl
      obtain ⟨labels, ran⟩ := inductionHypothesis returned (same ▸ nonempty)
      exact ⟨.getBlock caller :: labels, (Runs.run_cons ..).mpr ⟨next, stepped, ran⟩⟩

/-- Where the loop stands when it looks at the object at a distance. -/
def lookingAt (pool : ObjectPool) (distance : Nat) : GetBlockPc :=
  .testing pool.curIndex (pool.objAt (distance + 1)) (pool.objAt distance)

/-- The first access of a call loads the index at which the search begins. -/
theorem step_start (cursor : pool.curIndex < pool.objCount) (begins : pool.pc caller = .start) :
    pool.step .objectPool3 (.getBlock caller) = some (pool.goto caller (pool.lookingAt 0)) := by
  have nonempty : pool.objCount ≠ 0 := by omega
  simp only [step, if_neg nonempty, getBlock, begins, loaded, lookingAt, objAt,
    Nat.mod_eq_of_lt cursor, Nat.add_zero, Nat.zero_add]

/-- One look at an object: it is taken when it is unused, or passed over. -/
theorem step_testing (curIndex nextIndex obj : Nat) (nonempty : pool.objCount ≠ 0) :
    (pool.goto caller (.testing curIndex nextIndex obj)).step .objectPool3 (.getBlock caller) =
      some (pool.goto caller (if pool.used obj then pool.passUsed curIndex nextIndex .objectPool3
        else .swapping curIndex (nextIndex % pool.objCount) obj (pool.unmarked obj))) := by
  have same : (pool.goto caller (.testing curIndex nextIndex obj)).objCount = pool.objCount := rfl
  rw [step, same, if_neg nonempty, getBlock, goto_self]
  simp only [goto_goto]
  cases used : pool.used obj with
  | true =>
    have looked : (pool.goto caller (.testing curIndex nextIndex obj)).used obj = true := used
    simp only [looked, if_true]
    rfl
  | false =>
    have looked : (pool.goto caller (.testing curIndex nextIndex obj)).used obj = false := used
    simp only [looked, Bool.false_eq_true, if_false]
    rfl

/-- One round of the loop: the index that wraps keeps one ahead of the object. -/
theorem step_used {distance : Nat} (nonempty : pool.objCount ≠ 0)
    (used : pool.used (pool.objAt distance) = true) :
    (pool.goto caller (pool.lookingAt distance)).step .objectPool3 (.getBlock caller) =
      some (pool.goto caller (pool.lookingAt (distance + 1))) := by
  have inside : pool.objAt (distance + 1) < pool.objCount := Nat.mod_lt _ (Nat.pos_of_ne_zero nonempty)
  have wrapped : (if pool.objAt (distance + 1) + 1 ≥ pool.objCount then 0
      else pool.objAt (distance + 1) + 1) = pool.objAt (distance + 2) := by
    have next : pool.objAt (distance + 2) = (pool.objAt (distance + 1) + 1) % pool.objCount := by
      simp only [objAt, Nat.mod_add_mod, Nat.add_assoc]
    rw [next]
    split
    · have last : pool.objAt (distance + 1) + 1 = pool.objCount := by omega
      rw [last, Nat.mod_self]
    · exact (Nat.mod_eq_of_lt (by omega)).symm
  rw [lookingAt, step_testing _ _ _ nonempty, if_pos used, passUsed, wrapped, Nat.mod_eq_of_lt inside,
    lookingAt]

/-- The end of the loop, where the next object is tried by a compare-and-swap. -/
theorem step_unused {distance : Nat} (nonempty : pool.objCount ≠ 0)
    (unused : pool.used (pool.objAt distance) = false) :
    (pool.goto caller (pool.lookingAt distance)).step .objectPool3 (.getBlock caller) =
      some (pool.goto caller (.swapping pool.curIndex (pool.objAt (distance + 1))
        (pool.objAt distance) (pool.unmarked (pool.objAt distance)))) := by
  have inside : pool.objAt (distance + 1) < pool.objCount := Nat.mod_lt _ (Nat.pos_of_ne_zero nonempty)
  rw [lookingAt, step_testing _ _ _ nonempty, unused, if_neg Bool.false_ne_true, Nat.mod_eq_of_lt inside]

/-- From the object at a distance the loop goes on to the first one that is free, and the
call returns it. -/
theorem returnWithin_looking (caller : Nat) {distance : Nat} (rounds : Nat)
    (first : pool.FirstFree (distance + rounds)) :
    ∃ after, (pool.goto caller (pool.lookingAt distance)).returnWithin caller (rounds + 3) =
        some (pool.objAt (distance + rounds), after) ∧
      pool.Given caller (pool.objAt (distance + rounds)) after := by
  have nonempty : pool.objCount ≠ 0 := fun none => by
    have within := first.within
    omega
  have looking : ∀ distance obj, (pool.goto caller (pool.lookingAt distance)).pc caller ≠ .storing obj := by
    intro distance obj
    rw [goto_self, lookingAt]
    simp
  induction rounds generalizing distance with
  | zero =>
    have swapping : ∀ obj, (pool.goto caller (.swapping pool.curIndex (pool.objAt (distance + 1))
        (pool.objAt distance) (pool.unmarked (pool.objAt distance)))).pc caller ≠ .storing obj := by
      intro obj
      rw [goto_self]
      simp
    rw [returnWithin_succ 2 (looking distance) (step_unused nonempty first.unused),
      returnWithin_succ 1 swapping (step_take nonempty (goto_self _)), returnWithin, take_pc, if_pos rfl]
    refine ⟨_, rfl, ?_⟩
    constructor
    case objCount => rfl
    case curIndex =>
      simp only [ObjectPool.mark, ObjectPool.take, objAt, Nat.add_zero, Nat.mod_add_mod, Nat.add_assoc]
    case used => rfl
    case finished => rw [mark_pc, if_pos rfl]
    case returned => rfl
  | succ rounds inductionHypothesis =>
    have used := first.passed distance (by omega)
    have further : distance + (rounds + 1) = distance + 1 + rounds := by omega
    rw [further] at first ⊢
    rw [returnWithin_succ (rounds + 3) (looking distance) (step_used nonempty used)]
    exact inductionHypothesis first

/-- A call of a caller that runs alone, when an object is free. -/
theorem returnWithin_first {distance : Nat} (cursor : pool.curIndex < pool.objCount)
    (begins : pool.pc caller = .start) (first : pool.FirstFree distance) :
    ∃ after, pool.returnWithin caller (distance + 4) = some (pool.objAt distance, after) ∧
      pool.Given caller (pool.objAt distance) after := by
  have elsewhere : ∀ obj, pool.pc caller ≠ .storing obj := by simp [begins]
  rw [returnWithin_succ (distance + 3) elsewhere (step_start cursor begins)]
  have found := returnWithin_looking caller distance ((Nat.zero_add distance).symm ▸ first)
  rwa [Nat.zero_add] at found

/-- Each object stands at some distance from the cursor, less than a lap. -/
theorem exists_objAt {obj : Nat} (cursor : pool.curIndex < pool.objCount) (inside : obj < pool.objCount) :
    ∃ distance < pool.objCount, pool.objAt distance = obj := by
  by_cases ahead : pool.curIndex ≤ obj
  · refine ⟨obj - pool.curIndex, by omega, ?_⟩
    rw [objAt, Nat.add_sub_cancel' ahead, Nat.mod_eq_of_lt inside]
  · refine ⟨obj + pool.objCount - pool.curIndex, by omega, ?_⟩
    rw [objAt, Nat.add_sub_cancel' (by omega), Nat.add_mod_right, Nat.mod_eq_of_lt inside]

/-- When some object is free, one of them is the first. -/
theorem exists_firstFree (cursor : pool.curIndex < pool.objCount) (free : pool.HasFree) :
    ∃ distance, pool.FirstFree distance := by
  obtain ⟨obj, inside, unused⟩ := free
  obtain ⟨distance, within, rfl⟩ := exists_objAt cursor inside
  have some : ∃ distance, pool.used (pool.objAt distance) = false := ⟨distance, unused⟩
  refine ⟨Nat.find some, ?_, Nat.find_spec some, ?_⟩
  · exact Nat.lt_of_le_of_lt (Nat.find_min' some unused) within
  · exact fun nearer before => eq_true_of_ne_false (Nat.find_min some before)

/-- **The circular search.** A caller that runs alone in a pool with a free object is given
the first one at or behind the cursor, after one test for each object passed. -/
theorem getBlock_first_free (pool : ObjectPool) (caller : Nat) (cursor : pool.curIndex < pool.objCount)
    (begins : pool.pc caller = .start) (free : pool.HasFree) :
    ∃ distance after, pool.FirstFree distance ∧
      pool.returnWithin caller (distance + 4) = some (pool.objAt distance, after) ∧
      pool.Given caller (pool.objAt distance) after := by
  obtain ⟨distance, first⟩ := exists_firstFree cursor free
  obtain ⟨after, returned, given⟩ := returnWithin_first cursor begins first
  exact ⟨distance, after, first, returned, given⟩

/-- A pool whose cursor and the object behind it, over the end of the array, are used. -/
def wrappingPool : ObjectPool := { init 4 with curIndex := 3, used := fun obj => obj == 3 || obj == 0 }

/-- A pool whose index is about to wrap gives the next free object, in the number of accesses that
the distance says. -/
theorem getBlock_first_free_wrapping :
    ∃ distance after, wrappingPool.FirstFree distance ∧
      wrappingPool.returnWithin 0 (distance + 4) = some (wrappingPool.objAt distance, after) ∧
      wrappingPool.Given 0 (wrappingPool.objAt distance) after :=
  getBlock_first_free wrappingPool 0 (by decide) rfl ⟨1, by decide, rfl⟩

/-! ## When no object is free -/

/-- Where a caller can stand while it finds each object used. -/
def Searching (pool : ObjectPool) (caller : Nat) : Prop :=
  pool.pc caller = .start ∨
    ∃ curIndex nextIndex obj, pool.pc caller = .testing curIndex nextIndex obj ∧ obj < pool.objCount

/-- Its next access leaves it searching, as long as every object is used. -/
theorem Searching.step (searching : pool.Searching caller) (full : ¬ pool.HasFree)
    (nonempty : pool.objCount ≠ 0) :
    ∃ pc, pool.step .objectPool3 (.getBlock caller) = some (pool.goto caller pc) ∧
      (pool.goto caller pc).Searching caller := by
  have positive : 0 < pool.objCount := Nat.pos_of_ne_zero nonempty
  rcases searching with place | ⟨curIndex, nextIndex, obj, place, inside⟩
  · have loadedInside : pool.loaded .objectPool3 < pool.objCount := Nat.mod_lt _ positive
    refine ⟨.testing (pool.loaded .objectPool3) ((pool.loaded .objectPool3 + 1) % pool.objCount)
      (pool.loaded .objectPool3), ?_, .inr ⟨_, _, _, goto_self _, loadedInside⟩⟩
    simp only [ObjectPool.step, if_neg nonempty, getBlock, place]
  · have used : pool.used obj = true := eq_true_of_ne_false fun unused => full ⟨obj, inside, unused⟩
    refine ⟨pool.passUsed curIndex nextIndex .objectPool3, ?_, ?_⟩
    · simp only [ObjectPool.step, if_neg nonempty, getBlock, place, used, if_true]
    · exact .inr ⟨_, _, _, goto_self _, Nat.mod_lt _ positive⟩

/-- So a call that searches never returns, however many accesses it makes. -/
theorem Searching.returnWithin (searching : pool.Searching caller) (full : ¬ pool.HasFree)
    (accesses : Nat) : pool.returnWithin caller accesses = none := by
  induction accesses generalizing pool with
  | zero => rfl
  | succ accesses inductionHypothesis =>
    have elsewhere : ∀ obj, pool.pc caller ≠ .storing obj := by
      rcases searching with place | ⟨_, _, _, place, _⟩ <;> simp [place]
    by_cases empty : pool.objCount = 0
    · rw [ObjectPool.returnWithin]
      split
      · rename_i obj place
        exact absurd place (elsewhere obj)
      · rw [ObjectPool.step, if_pos empty, Option.bind_none]
    · obtain ⟨pc, stepped, searches⟩ := searching.step full empty
      rw [returnWithin_succ accesses elsewhere stepped]
      exact inductionHypothesis searches full

/-! ## Pools of requests -/

/-- The cursor stays inside the pool, and so does where a caller is about to move it. -/
structure Inside (pool : ObjectPool) : Prop where
  cursor : pool.curIndex < pool.objCount
  moves : ∀ caller curIndex nextIndex obj crossed,
    pool.pc caller = .swapping curIndex nextIndex obj crossed → nextIndex < pool.objCount

/-- A new pool is inside of its bounds: its index is zero, and there is an object. -/
theorem inside_init {objCount : Nat} (nonempty : 0 < objCount) : Inside (init objCount) where
  cursor := nonempty
  moves _ _ _ _ _ place := by cases place

namespace Inside

/-- Another place of a caller keeps the cursor inside, if the move it is about to make does. -/
theorem goto (inside : Inside pool) {pc : GetBlockPc}
    (moves : ∀ curIndex nextIndex obj crossed, pc = .swapping curIndex nextIndex obj crossed →
      nextIndex < pool.objCount) : Inside (pool.goto caller pc) where
  cursor := inside.cursor
  moves other curIndex nextIndex obj crossed place := by
    rw [goto_pc] at place
    split at place
    · exact moves curIndex nextIndex obj crossed place
    · exact inside.moves other curIndex nextIndex obj crossed place

/-- The next access of a caller stays inside of the bounds of the pool. -/
theorem getBlock (inside : Inside pool) (caller : Nat) :
    Inside (pool.getBlock .objectPool3 caller) := by
  have positive : 0 < pool.objCount := by
    have cursor := inside.cursor
    omega
  cases place : pool.pc caller with
  | start =>
    simp only [ObjectPool.getBlock, place]
    apply inside.goto
    simp
  | testing curIndex nextIndex obj =>
    simp only [ObjectPool.getBlock, place]
    split
    · apply inside.goto
      simp [passUsed]
    · apply inside.goto
      rintro _ _ _ _ ⟨⟩
      exact Nat.mod_lt nextIndex positive
  | swapping curIndex nextIndex obj crossed =>
    simp only [ObjectPool.getBlock, place]
    split
    · apply inside.goto
      simp
    · refine ⟨inside.moves caller curIndex nextIndex obj crossed place, ?_⟩
      intro other otherIndex otherNext found after otherPlace
      rw [take_pc] at otherPlace
      split at otherPlace
      · cases otherPlace
      · obtain ⟨before, otherBefore, -⟩ := cross_swapping otherPlace
        exact inside.moves other otherIndex otherNext found before otherBefore
  | storing obj =>
    simp only [ObjectPool.getBlock, place]
    refine ⟨inside.cursor, ?_⟩
    intro other curIndex nextIndex found crossed otherPlace
    rw [mark_pc] at otherPlace
    split at otherPlace
    · cases otherPlace
    · exact inside.moves other curIndex nextIndex found crossed otherPlace

/-- Releasing an object moves no index, so that all lists still stand inside. -/
theorem release (inside : Inside pool) (obj : Nat) : Inside (pool.release obj) := by
  refine ⟨inside.cursor, ?_⟩
  intro caller curIndex nextIndex found crossed place
  obtain ⟨before, earlier, -⟩ := cross_swapping place
  exact inside.moves caller curIndex nextIndex found before earlier

/-- No access leaves the bounds, since every index is taken modulo the number of objects. -/
theorem step {next : ObjectPool} {label : PoolStep} (inside : Inside pool)
    (stepped : pool.step .objectPool3 label = some next) : Inside next := by
  cases label with
  | getBlock caller =>
    simp only [ObjectPool.step, Option.ite_none_left_eq_some, Option.some.injEq] at stepped
    obtain ⟨-, rfl⟩ := stepped
    exact inside.getBlock caller
  | release obj =>
    simp only [ObjectPool.step, Option.ite_none_right_eq_some, Option.some.injEq] at stepped
    obtain ⟨-, rfl⟩ := stepped
    exact inside.release obj

/-- Every pool that the callers reach stays inside of its bounds. -/
theorem run {objCount : Nat} {labels : List PoolStep} (nonempty : 0 < objCount)
    (ran : Runs.run (ObjectPool.step .objectPool3) (init objCount) labels = some pool) : Inside pool :=
  Runs.run_invariant (ObjectPool.step .objectPool3) Inside
    (fun _ _ _ inside stepped => inside.step stepped)
    (init objCount) pool labels (inside_init nonempty) ran

end Inside

/-- The pool of I/O contexts has at least 1024 objects, however few are asked for. -/
theorem ioContextPool_nonempty (blockNum : Int) : 0 < (max blockNum 1024).toNat := by omega

/-- **`tryGetBlock`.** However the callers of a request pool have run, the call returns without
waiting exactly when an object is free. With none free, no number of accesses is enough. -/
theorem neverBlocks_iff (blockNum : Int) (labels : List PoolStep) (pool : ObjectPool) (caller : Nat)
    (ran : Runs.run (step .objectPool3) (ioContextPool blockNum) labels = some pool)
    (begins : pool.pc caller = .start) : pool.NeverBlocks caller ↔ pool.HasFree := by
  have inside : Inside pool := Inside.run (ioContextPool_nonempty blockNum) ran
  constructor
  · rintro ⟨accesses, result, after, tried, -⟩
    by_contra full
    have searching : pool.Searching caller := .inl begins
    rw [tryGetBlock, searching.returnWithin full accesses] at tried
    cases tried
  · intro free
    obtain ⟨distance, first⟩ := exists_firstFree inside.cursor free
    obtain ⟨after, returned, -⟩ := returnWithin_first inside.cursor begins first
    refine ⟨distance + 4, some (pool.objAt distance), after, ?_, ?_⟩
    · rw [tryGetBlock, returned, Option.map_some]
    · simp only [reduceCtorEq, free, not_true_eq_false]

/-- Both sides of the equivalence for a new pool, in which every object is free. -/
theorem neverBlocks_iff_new : (ioContextPool 16).NeverBlocks 0 ↔ (ioContextPool 16).HasFree :=
  neverBlocks_iff 16 [] (ioContextPool 16) 0 rfl rfl

/-- A caller that takes one object after the other takes them in order. -/
theorem exists_run_used {objCount taken : Nat} (enough : taken ≤ objCount) (nonempty : 0 < objCount) :
    ∃ labels pool, Runs.run (step .objectPool3) (init objCount) labels = some pool ∧
      pool.objCount = objCount ∧ pool.curIndex = taken % objCount ∧ pool.pc 0 = .start ∧
      ∀ obj, pool.used obj = decide (obj < taken) := by
  induction taken with
  | zero => exact ⟨[], init objCount, rfl, rfl, (Nat.zero_mod objCount).symm, rfl, fun obj => by simp [init]⟩
  | succ taken inductionHypothesis =>
    obtain ⟨labels, pool, ran, rfl, cursor, begins, used⟩ := inductionHypothesis (by omega)
    rw [Nat.mod_eq_of_lt enough] at cursor
    have here : pool.objAt 0 = taken := by
      rw [objAt, Nat.add_zero, cursor, Nat.mod_eq_of_lt enough]
    have first : pool.FirstFree 0 := by
      refine ⟨nonempty, ?_, fun nearer before => absurd before (Nat.not_lt_zero nearer)⟩
      rw [here, used]
      simp
    obtain ⟨after, returned, given⟩ := returnWithin_first (cursor ▸ enough) begins first
    obtain ⟨further, reached⟩ := run_of_returnWithin returned (by omega)
    refine ⟨labels ++ further, after, ?_, given.objCount, ?_, given.finished, ?_⟩
    · exact (Runs.run_append ..).mpr ⟨pool, ran, reached⟩
    · rw [given.curIndex, here]
    · intro obj
      rw [given.used, here, Function.update_apply, used]
      by_cases same : obj = taken
      · simp [same]
      · rw [if_neg same, decide_eq_decide]
        omega

/-- After as many calls as there are requests, `tryGetBlock` never returns: its search has no end
without a free object. -/
theorem exhausted_pool_blocks : ¬ ∀ (blockNum : Int) (labels : List PoolStep) (pool : ObjectPool)
    (caller : Nat), Runs.run (step .objectPool3) (ioContextPool blockNum) labels = some pool →
      pool.pc caller = .start → pool.NeverBlocks caller := by
  intro everywhere
  obtain ⟨labels, pool, ran, count, -, begins, used⟩ :=
    exists_run_used (Nat.le_refl 1024) (by omega : 0 < 1024)
  obtain ⟨accesses, result, after, tried, -⟩ := everywhere 16 labels pool 0 ran begins
  have full : ¬ pool.HasFree := by
    rintro ⟨obj, inside, unused⟩
    rw [used, decide_eq_false_iff_not] at unused
    omega
  have searching : pool.Searching 0 := .inl begins
  rw [tryGetBlock, searching.returnWithin full accesses] at tried
  cases tried

end OpenTaker.ObjectPool
