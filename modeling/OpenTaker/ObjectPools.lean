import OpenTaker.Runs
import Mathlib.Data.List.Nodup

/-!
# Object pools

`CObjectPool` and `CObjectPool3` keep their objects in an array with a cursor and one
`used` flag for each object. A caller of `getBlock` loads the cursor, looks for an object
whose flag is clear, moves the cursor by a compare-and-swap and only then sets the flag.
Any number of callers run here with these accesses interleaved.

The cursor comes back to its old value after a lap, or at once in a pool of one object, so
the compare-and-swap alone does not tell that the flag is out of date. What matters is the
gap between a successful compare-and-swap and the store of the flag: a caller that looks at
the flag during the gap, or before it, and succeeds afterwards is given the object too.
-/

namespace OpenTaker

/-- `CObjectPool` waits for the object at the cursor, and `CObjectPool3` goes on to the
next one that is not used. -/
inductive PoolKind where
  | objectPool
  | objectPool3
deriving DecidableEq

/-- Where a caller stands in `getBlock`, with its locals. -/
inductive GetBlockPc where
  | start
  | testing (curIndex nextIndex obj : Nat)
  /-- It has found the object unused. Whether the gap of another caller has met the time
  since then, with no release of the object yet, is kept for the history only. -/
  | swapping (curIndex nextIndex obj : Nat) (crossed : Bool)
  | storing (obj : Nat)
deriving DecidableEq

/-- The gap of another caller, or a release, meets a caller that has found the object
unused. -/
def GetBlockPc.cross (obj : Nat) (crossed : Bool) : GetBlockPc → GetBlockPc
  | .swapping curIndex nextIndex found before =>
      .swapping curIndex nextIndex found (if found = obj then crossed else before)
  | pc => pc

/-- A pool with its callers: the index, the used flags, and for each caller where in `getBlock` it
is. -/
structure ObjectPool where
  objCount : Nat
  curIndex : Nat
  used : Nat → Bool
  pc : Nat → GetBlockPc
  /-- The objects that a caller has taken and not marked yet, for the history only. -/
  unmarked : Nat → Bool
  /-- The objects that were returned and not released since. -/
  returned : List Nat

namespace ObjectPool

/-- `init`: every object unused, and the index at the first one. -/
def init (objCount : Nat) : ObjectPool where
  objCount := objCount
  curIndex := 0
  used := fun _ => false
  pc := fun _ => .start
  unmarked := fun _ => false
  returned := []

/-- Leave the caller at another place, with nothing else changed. -/
def goto (pool : ObjectPool) (caller : Nat) (pc : GetBlockPc) : ObjectPool :=
  { pool with pc := Function.update pool.pc caller pc }

/-- The cursor as `getBlock` loads it, reduced to the number of objects. -/
def loaded (pool : ObjectPool) : PoolKind → Nat
  | .objectPool => pool.curIndex
  | .objectPool3 => pool.curIndex % pool.objCount

/-- What follows when the object is used: `CObjectPool` retries, and `CObjectPool3` looks
at the next one. -/
def passUsed (pool : ObjectPool) (curIndex nextIndex : Nat) : PoolKind → GetBlockPc
  | .objectPool => .start
  | .objectPool3 =>
      .testing curIndex (if nextIndex + 1 ≥ pool.objCount then 0 else nextIndex + 1)
        (nextIndex % pool.objCount)

/-- The cursor that the compare-and-swap is to leave, which `CObjectPool3` reduces to an index
again. -/
def cursorAfter (pool : ObjectPool) (nextIndex : Nat) : PoolKind → Nat
  | .objectPool => nextIndex
  | .objectPool3 => nextIndex % pool.objCount

/-- A compare-and-swap that succeeds: the index moves behind the object found. -/
def take (pool : ObjectPool) (caller nextIndex obj : Nat) : ObjectPool :=
  { pool with
    curIndex := nextIndex
    pc := Function.update (fun other => (pool.pc other).cross obj true) caller (.storing obj)
    unmarked := Function.update pool.unmarked obj true }

/-- `obj->used = 1`, after which the object is returned. -/
def mark (pool : ObjectPool) (caller obj : Nat) : ObjectPool :=
  { pool with
    used := Function.update pool.used obj true
    pc := Function.update pool.pc caller .start
    unmarked := Function.update pool.unmarked obj false
    returned := obj :: pool.returned }

/-- `release`: clear the used flag of an object, with no other test. -/
def release (pool : ObjectPool) (obj : Nat) : ObjectPool :=
  { pool with
    used := Function.update pool.used obj false
    pc := fun caller => (pool.pc caller).cross obj false
    returned := pool.returned.erase obj }

/-- The next access of a caller inside `getBlock`, each of which is a step that others may come
between. -/
def getBlock (kind : PoolKind) (pool : ObjectPool) (caller : Nat) : ObjectPool :=
  match pool.pc caller with
  | .start =>
      pool.goto caller
        (.testing (pool.loaded kind) ((pool.loaded kind + 1) % pool.objCount) (pool.loaded kind))
  | .testing curIndex nextIndex obj =>
      if pool.used obj then pool.goto caller (pool.passUsed curIndex nextIndex kind)
      else
        pool.goto caller
          (.swapping curIndex (pool.cursorAfter nextIndex kind) obj (pool.unmarked obj))
  | .swapping curIndex nextIndex obj _ =>
      if curIndex ≠ pool.curIndex then pool.goto caller .start
      else pool.take caller nextIndex obj
  | .storing obj => pool.mark caller obj

end ObjectPool

/-- One atomic step: the next access of a caller inside `getBlock`, or a release. -/
inductive PoolStep where
  | getBlock (caller : Nat)
  | release (obj : Nat)
deriving DecidableEq

namespace ObjectPool

/-- Perform one step. `getBlock` divides by the number of objects, and only an object that
was returned is released. -/
def step (kind : PoolKind) (pool : ObjectPool) : PoolStep → Option ObjectPool
  | .getBlock caller => if pool.objCount = 0 then none else some (pool.getBlock kind caller)
  | .release obj => if obj ∈ pool.returned then some (pool.release obj) else none

/-- No object is returned again before it is released. -/
def HandedOutOnce (pool : ObjectPool) : Prop := pool.returned.Nodup

/-- Whether an object has been handed out twice can be seen in the list of those that are out. -/
instance (pool : ObjectPool) : Decidable pool.HandedOutOnce :=
  inferInstanceAs (Decidable pool.returned.Nodup)

/-- The step is a compare-and-swap that succeeds although the object was between another
caller's compare-and-swap and its `used = 1` when this caller found it unused, or has been
since. -/
def crossing (pool : ObjectPool) : PoolStep → Bool
  | .getBlock caller =>
      match pool.pc caller with
      | .swapping curIndex _ _ crossed => curIndex == pool.curIndex && crossed
      | _ => false
  | .release _ => false

/-- What a step can do. A caller that neither finds an object unused nor succeeds with it
changes nothing but its own place. -/
theorem step_cases {kind : PoolKind} {pool next : ObjectPool} {label : PoolStep}
    (stepped : pool.step kind label = some next) :
    (∃ caller pc, label = .getBlock caller ∧ next = pool.goto caller pc ∧
      (∀ obj, pool.pc caller ≠ .storing obj) ∧ (∀ obj, pc ≠ .storing obj) ∧
      ∀ curIndex nextIndex obj crossed, pc ≠ .swapping curIndex nextIndex obj crossed) ∨
    (∃ caller curIndex nextIndex obj, label = .getBlock caller ∧
      (∀ other, pool.pc caller ≠ .storing other) ∧ pool.used obj = false ∧
      next = pool.goto caller (.swapping curIndex nextIndex obj (pool.unmarked obj))) ∨
    (∃ caller nextIndex obj crossed, label = .getBlock caller ∧
      pool.pc caller = .swapping pool.curIndex nextIndex obj crossed ∧
      next = pool.take caller nextIndex obj) ∨
    (∃ caller obj, label = .getBlock caller ∧ pool.pc caller = .storing obj ∧
      next = pool.mark caller obj) ∨
    (∃ obj, label = .release obj ∧ obj ∈ pool.returned ∧ next = pool.release obj) := by
  cases label with
  | release obj =>
    simp only [step, Option.ite_none_right_eq_some, Option.some.injEq] at stepped
    exact .inr (.inr (.inr (.inr ⟨obj, rfl, stepped.1, stepped.2.symm⟩)))
  | getBlock caller =>
    simp only [step, Option.ite_none_left_eq_some, Option.some.injEq] at stepped
    obtain ⟨-, rfl⟩ := stepped
    cases place : pool.pc caller with
    | start =>
      refine .inl ⟨caller, _, rfl, by rw [getBlock, place], ?_, ?_, ?_⟩ <;> simp [place]
    | testing curIndex nextIndex obj =>
      by_cases used : pool.used obj = true
      · refine .inl ⟨caller, pool.passUsed curIndex nextIndex kind, rfl, ?_, ?_, ?_, ?_⟩
        · simp only [getBlock, place, used, if_true]
        · simp [place]
        · cases kind <;> simp [passUsed]
        · cases kind <;> simp [passUsed]
      · refine .inr (.inl ⟨caller, curIndex, pool.cursorAfter nextIndex kind, obj, rfl, ?_, ?_, ?_⟩)
        · simp [place]
        · exact Bool.eq_false_iff.mpr used
        · simp only [getBlock, place, used, Bool.false_eq_true, if_false]
    | swapping curIndex nextIndex obj crossed =>
      by_cases same : curIndex = pool.curIndex
      · subst same
        refine .inr (.inr (.inl ⟨caller, nextIndex, obj, crossed, rfl, place, ?_⟩))
        simp only [getBlock, place, ne_eq, not_true_eq_false, if_false]
      · refine .inl ⟨caller, .start, rfl, ?_, ?_, ?_, ?_⟩
        · simp only [getBlock, place, ne_eq, same, not_false_eq_true, if_true]
        all_goals simp [place]
    | storing obj =>
      refine .inr (.inr (.inr (.inl ⟨caller, obj, rfl, place, ?_⟩)))
      simp only [getBlock, place]

/-- The object was returned and not released, or a caller has succeeded with it and will
return it. -/
def Taken (pool : ObjectPool) (obj : Nat) : Prop :=
  obj ∈ pool.returned ∨ ∃ caller, pool.pc caller = .storing obj

/-- Every object has one holder at most, and the flags and the history say which have. -/
structure Orderly (pool : ObjectPool) : Prop where
  once : pool.returned.Nodup
  used : ∀ obj ∈ pool.returned, pool.used obj = true
  apart : ∀ caller obj, pool.pc caller = .storing obj → obj ∉ pool.returned
  alone : ∀ caller other obj, pool.pc caller = .storing obj → pool.pc other = .storing obj →
    caller = other
  unmarked : ∀ obj, pool.unmarked obj = true ↔ ∃ caller, pool.pc caller = .storing obj
  crossed : ∀ caller curIndex nextIndex obj crossed,
    pool.pc caller = .swapping curIndex nextIndex obj crossed → (crossed = true ↔ pool.Taken obj)

/-- In a new pool every object is free, and nobody is inside of `getBlock`. -/
theorem orderly_init (objCount : Nat) : Orderly (init objCount) where
  once := List.nodup_nil
  used _ returned := by cases returned
  apart _ _ place := by cases place
  alone _ _ _ place := by cases place
  unmarked obj := by simp [init]
  crossed _ _ _ _ _ place := by cases place

section Places

variable {pool : ObjectPool} {caller : Nat}

/-- Crossing is noted at the compare-and-swap only: the store that follows is not changed by it. -/
theorem cross_storing (pc : GetBlockPc) (obj stored : Nat) (crossed : Bool) :
    pc.cross obj crossed = .storing stored ↔ pc = .storing stored := by
  cases pc <;> simp [GetBlockPc.cross]

/-- A caller in front of its compare-and-swap is noted as crossed when another one has stored the
same object. -/
theorem cross_swapping {pc : GetBlockPc} {obj curIndex nextIndex found : Nat} {crossed after : Bool}
    (place : pc.cross obj crossed = .swapping curIndex nextIndex found after) :
    ∃ before, pc = .swapping curIndex nextIndex found before ∧
      after = if found = obj then crossed else before := by
  cases pc with
  | swapping curIndex nextIndex found before =>
    simp only [GetBlockPc.cross, GetBlockPc.swapping.injEq] at place
    obtain ⟨rfl, rfl, rfl, rfl⟩ := place
    exact ⟨before, rfl, rfl⟩
  | start => cases place
  | testing _ _ _ => cases place
  | storing _ => cases place

/-- Going to a place changes the place of that caller only. -/
theorem goto_pc (pc : GetBlockPc) (other : Nat) :
    (pool.goto caller pc).pc other = if other = caller then pc else pool.pc other := by
  simp only [goto, Function.update_apply]

/-- A caller that is elsewhere before and after a move leaves the same objects in the gap. -/
theorem goto_storing {pc : GetBlockPc} (before : ∀ obj, pool.pc caller ≠ .storing obj)
    (after : ∀ obj, pc ≠ .storing obj) (other obj : Nat) :
    (pool.goto caller pc).pc other = .storing obj ↔ pool.pc other = .storing obj := by
  rw [goto_pc]
  by_cases same : other = caller
  · subst same
    simp only [if_true, after obj, before obj]
  · rw [if_neg same]

/-- Where the callers stand after one of them has succeeded. -/
theorem take_pc (nextIndex obj other : Nat) :
    (pool.take caller nextIndex obj).pc other =
      if other = caller then .storing obj else (pool.pc other).cross obj true := by
  simp only [take, Function.update_apply]

/-- Marking an object as used ends the call of its caller. -/
theorem mark_pc (obj other : Nat) :
    (pool.mark caller obj).pc other = if other = caller then .start else pool.pc other := by
  simp only [mark, Function.update_apply]

/-- The compare-and-swap of a caller that finds the cursor where it loaded it. -/
theorem step_take {kind : PoolKind} {nextIndex obj : Nat} {crossed : Bool}
    (nonempty : pool.objCount ≠ 0)
    (place : pool.pc caller = .swapping pool.curIndex nextIndex obj crossed) :
    pool.step kind (.getBlock caller) = some (pool.take caller nextIndex obj) := by
  simp only [step, if_neg nonempty, getBlock, place, ne_eq, not_true_eq_false, if_false]

/-- The store that ends a gap between the compare-and-swap and the flag: the object is used from
here on. -/
theorem step_mark {kind : PoolKind} {obj : Nat} (nonempty : pool.objCount ≠ 0)
    (place : pool.pc caller = .storing obj) :
    pool.step kind (.getBlock caller) = some (pool.mark caller obj) := by
  simp only [step, if_neg nonempty, getBlock, place]

end Places

namespace Orderly

variable {pool : ObjectPool} {caller : Nat}

/-- A move between other places than the gap keeps the order, if what the caller has found
out about its object is right. -/
theorem goto (orderly : Orderly pool) {pc : GetBlockPc}
    (before : ∀ obj, pool.pc caller ≠ .storing obj) (after : ∀ obj, pc ≠ .storing obj)
    (found : ∀ curIndex nextIndex obj crossed, pc = .swapping curIndex nextIndex obj crossed →
      (crossed = true ↔ pool.Taken obj)) : Orderly (pool.goto caller pc) := by
  have same : ∀ other obj, (pool.goto caller pc).pc other = .storing obj ↔
      pool.pc other = .storing obj := goto_storing before after
  have taken : ∀ obj, (pool.goto caller pc).Taken obj ↔ pool.Taken obj :=
    fun obj => or_congr_right (exists_congr fun other => same other obj)
  constructor
  case once => exact orderly.once
  case used => exact orderly.used
  case apart => exact fun other obj place => orderly.apart other obj ((same other obj).mp place)
  case alone =>
    exact fun other another obj place otherPlace =>
      orderly.alone other another obj ((same other obj).mp place) ((same another obj).mp otherPlace)
  case unmarked =>
    exact fun obj => (orderly.unmarked obj).trans (exists_congr fun other => (same other obj).symm)
  case crossed =>
    intro other curIndex nextIndex obj crossed place
    rw [taken]
    rw [goto_pc] at place
    split at place
    · exact found curIndex nextIndex obj crossed place
    · exact orderly.crossed other curIndex nextIndex obj crossed place

/-- An object that is found unused is taken only within a gap. -/
theorem unused (orderly : Orderly pool) {obj : Nat} (unused : pool.used obj = false) :
    pool.unmarked obj = true ↔ pool.Taken obj := by
  rw [orderly.unmarked]
  constructor
  · exact fun gap => .inr gap
  · rintro (returned | gap)
    · have used := orderly.used obj returned
      rw [unused] at used
      cases used
    · exact gap

/-- A caller that succeeds with an object that is not taken is its only holder. -/
theorem take (orderly : Orderly pool) {nextIndex obj : Nat}
    (before : ∀ other, pool.pc caller ≠ .storing other) (free : ¬ pool.Taken obj) :
    Orderly (pool.take caller nextIndex obj) := by
  have storing : ∀ other found, (pool.take caller nextIndex obj).pc other = .storing found ↔
      other = caller ∧ found = obj ∨ pool.pc other = .storing found := by
    intro other found
    rw [take_pc]
    by_cases same : other = caller
    · subst same
      simp only [if_true, GetBlockPc.storing.injEq, true_and, before found, or_false]
      exact eq_comm
    · rw [if_neg same, cross_storing]
      simp only [same, false_and, false_or]
  have taken : ∀ found, (pool.take caller nextIndex obj).Taken found ↔
      found = obj ∨ pool.Taken found := by
    intro found
    simp only [Taken, storing, exists_or, exists_eq_left]
    tauto
  have unheld : ∀ other, pool.pc other ≠ .storing obj := fun other place => free (.inr ⟨other, place⟩)
  constructor
  case once => exact orderly.once
  case used => exact orderly.used
  case apart =>
    intro other found place
    rcases (storing other found).mp place with ⟨-, rfl⟩ | place
    · exact fun returned => free (.inl returned)
    · exact orderly.apart other found place
  case alone =>
    intro other another found otherAfter anotherAfter
    rcases (storing other found).mp otherAfter with ⟨otherTakes, itsObject⟩ | otherPlace
    · rcases (storing another found).mp anotherAfter with ⟨anotherTakes, -⟩ | anotherPlace
      · exact otherTakes.trans anotherTakes.symm
      · exact absurd anotherPlace (itsObject ▸ unheld another)
    · rcases (storing another found).mp anotherAfter with ⟨-, itsObject⟩ | anotherPlace
      · exact absurd otherPlace (itsObject ▸ unheld other)
      · exact orderly.alone other another found otherPlace anotherPlace
  case unmarked =>
    intro found
    simp only [storing, exists_or, exists_eq_left, ← orderly.unmarked]
    simp only [ObjectPool.take, Function.update_apply]
    by_cases same : found = obj <;> simp [same]
  case crossed =>
    intro other curIndex after found crossed place
    rw [taken]
    rw [take_pc] at place
    split at place
    · cases place
    · obtain ⟨earlier, before, rfl⟩ := cross_swapping place
      have known := orderly.crossed other curIndex after found earlier before
      by_cases same : found = obj
      · simp only [same, if_true, true_or]
      · simp only [same, if_false, false_or, known]

/-- The object that is returned was in the gap of its caller alone. -/
theorem mark (orderly : Orderly pool) {obj : Nat} (place : pool.pc caller = .storing obj) :
    Orderly (pool.mark caller obj) := by
  have storing : ∀ other found, (pool.mark caller obj).pc other = .storing found ↔
      other ≠ caller ∧ pool.pc other = .storing found := by
    intro other found
    rw [mark_pc]
    by_cases same : other = caller <;> simp [same]
  have elsewhere : ∀ other found, other ≠ caller → pool.pc other = .storing found → found ≠ obj := by
    rintro other found distinct otherPlace rfl
    exact distinct (orderly.alone other caller found otherPlace place)
  have taken : ∀ found, (pool.mark caller obj).Taken found ↔ pool.Taken found := by
    intro found
    simp only [Taken, storing]
    constructor
    · rintro (returned | ⟨other, -, otherPlace⟩)
      · rcases List.mem_cons.mp returned with rfl | returned
        · exact .inr ⟨caller, place⟩
        · exact .inl returned
      · exact .inr ⟨other, otherPlace⟩
    · rintro (returned | ⟨other, otherPlace⟩)
      · exact .inl (List.mem_cons_of_mem obj returned)
      · by_cases same : other = caller
        · subst same
          obtain rfl : obj = found := GetBlockPc.storing.inj (place.symm.trans otherPlace)
          exact .inl List.mem_cons_self
        · exact .inr ⟨other, same, otherPlace⟩
  constructor
  case once => exact List.nodup_cons.mpr ⟨orderly.apart caller obj place, orderly.once⟩
  case used =>
    intro found returned
    simp only [ObjectPool.mark, Function.update_apply]
    rcases List.mem_cons.mp returned with rfl | returned
    · rw [if_pos rfl]
    · rw [orderly.used found returned, ite_self]
  case apart =>
    intro other found otherAfter returned
    obtain ⟨distinct, otherPlace⟩ := (storing other found).mp otherAfter
    rcases List.mem_cons.mp returned with rfl | returned
    · exact elsewhere other _ distinct otherPlace rfl
    · exact orderly.apart other found otherPlace returned
  case alone =>
    intro other another found otherPlace anotherPlace
    exact orderly.alone other another found ((storing other found).mp otherPlace).2
      ((storing another found).mp anotherPlace).2
  case unmarked =>
    intro found
    simp only [storing]
    simp only [ObjectPool.mark, Function.update_apply]
    by_cases same : found = obj
    · subst same
      simp only [if_true, Bool.false_eq_true, false_iff, not_exists, not_and]
      exact fun other distinct otherPlace => elsewhere other found distinct otherPlace rfl
    · rw [if_neg same, orderly.unmarked]
      constructor
      · rintro ⟨other, otherPlace⟩
        refine ⟨other, ?_, otherPlace⟩
        rintro rfl
        exact same (GetBlockPc.storing.inj (place.symm.trans otherPlace)).symm
      · exact fun ⟨other, _, otherPlace⟩ => ⟨other, otherPlace⟩
  case crossed =>
    intro other curIndex nextIndex found crossed otherPlace
    rw [taken]
    rw [mark_pc] at otherPlace
    split at otherPlace
    · cases otherPlace
    · exact orderly.crossed other curIndex nextIndex found crossed otherPlace

/-- Releasing an object that is out makes it free again, and nobody else has it. -/
theorem release (orderly : Orderly pool) {obj : Nat} (returned : obj ∈ pool.returned) :
    Orderly (pool.release obj) := by
  have storing : ∀ caller found, (pool.release obj).pc caller = .storing found ↔
      pool.pc caller = .storing found := fun caller found => cross_storing (pool.pc caller) obj found false
  have unheld : ∀ caller, pool.pc caller ≠ .storing obj :=
    fun caller place => orderly.apart caller obj place returned
  have kept : ∀ found, found ∈ (pool.release obj).returned ↔ found ≠ obj ∧ found ∈ pool.returned :=
    fun found => orderly.once.mem_erase_iff
  have taken : ∀ found, (pool.release obj).Taken found ↔ found ≠ obj ∧ pool.Taken found := by
    intro found
    simp only [Taken, storing, kept]
    by_cases same : found = obj
    · simp [same, unheld]
    · simp [same]
  constructor
  case once => exact orderly.once.erase obj
  case used =>
    intro found stays
    obtain ⟨distinct, stays⟩ := (kept found).mp stays
    simp only [ObjectPool.release, Function.update_of_ne distinct, orderly.used found stays]
  case apart =>
    exact fun caller found place stays =>
      orderly.apart caller found ((storing caller found).mp place) ((kept found).mp stays).2
  case alone =>
    exact fun caller other found place otherPlace =>
      orderly.alone caller other found ((storing caller found).mp place)
        ((storing other found).mp otherPlace)
  case unmarked =>
    exact fun found =>
      (orderly.unmarked found).trans (exists_congr fun caller => (storing caller found).symm)
  case crossed =>
    intro caller curIndex nextIndex found crossed place
    rw [taken]
    obtain ⟨earlier, before, rfl⟩ := cross_swapping place
    have known := orderly.crossed caller curIndex nextIndex found earlier before
    by_cases same : found = obj
    · simp only [same, if_true, Bool.false_eq_true, ne_eq, not_true_eq_false, false_and]
    · simp only [same, if_false, ne_eq, not_false_eq_true, true_and, known]

/-- A step that does not cross another caller's gap keeps the order. -/
theorem step {kind : PoolKind} {next : ObjectPool} {label : PoolStep} (orderly : Orderly pool)
    (free : pool.crossing label = false) (stepped : pool.step kind label = some next) :
    Orderly next := by
  rcases step_cases stepped with
    ⟨caller, pc, rfl, rfl, before, after, quiet⟩ |
    ⟨caller, curIndex, nextIndex, obj, rfl, before, unused, rfl⟩ |
    ⟨caller, nextIndex, obj, crossed, rfl, place, rfl⟩ | ⟨caller, obj, rfl, place, rfl⟩ |
    ⟨obj, rfl, returned, rfl⟩
  · apply orderly.goto before after
    exact fun curIndex nextIndex obj crossed same =>
      absurd same (quiet curIndex nextIndex obj crossed)
  · apply orderly.goto before (by simp)
    rintro _ _ _ _ ⟨⟩
    exact orderly.unused unused
  · have uncrossed : crossed = false := by simpa [crossing, place] using free
    have known := orderly.crossed caller _ nextIndex obj crossed place
    apply orderly.take
    · simp [place]
    · exact fun taken => Bool.false_ne_true (uncrossed.symm.trans (known.mpr taken))
  · exact orderly.mark place
  · exact orderly.release returned

/-- A step that crosses another caller's gap gives the object away twice: both callers
have only to store its flag. -/
theorem crossed_twice {kind : PoolKind} {label : PoolStep} (orderly : Orderly pool)
    (nonempty : pool.objCount ≠ 0) (crossing : pool.crossing label = true) :
    ∃ stores final, Runs.run (ObjectPool.step kind) pool (label :: stores) = some final ∧
      ¬ final.HandedOutOnce := by
  cases label with
  | release obj => cases crossing
  | getBlock caller =>
    cases place : pool.pc caller with
    | start => simp [ObjectPool.crossing, place] at crossing
    | testing _ _ _ => simp [ObjectPool.crossing, place] at crossing
    | storing _ => simp [ObjectPool.crossing, place] at crossing
    | swapping curIndex nextIndex obj crossed =>
      simp only [ObjectPool.crossing, place, Bool.and_eq_true, beq_iff_eq] at crossing
      obtain ⟨rfl, rfl⟩ := crossing
      have taken := (orderly.crossed caller _ nextIndex obj true place).mp rfl
      have swapped : pool.step kind (.getBlock caller) = some (pool.take caller nextIndex obj) :=
        step_take nonempty place
      have here : (pool.take caller nextIndex obj).pc caller = .storing obj := by
        rw [take_pc, if_pos rfl]
      rcases taken with returned | ⟨other, otherPlace⟩
      · refine ⟨[.getBlock caller], (pool.take caller nextIndex obj).mark caller obj, ?_, ?_⟩
        · have marks : (pool.take caller nextIndex obj).step kind (.getBlock caller) = some _ :=
            step_mark nonempty here
          simp only [Runs.run, swapped, marks, Option.bind_some]
        · exact fun once => (List.nodup_cons.mp once).1 returned
      · have distinct : caller ≠ other := by
          rintro rfl
          rw [place] at otherPlace
          cases otherPlace
        have there : (pool.take caller nextIndex obj).pc other = .storing obj := by
          rw [take_pc, if_neg (Ne.symm distinct), cross_storing]
          exact otherPlace
        have stillHere :
            ((pool.take caller nextIndex obj).mark other obj).pc caller = .storing obj := by
          rw [mark_pc, if_neg distinct]
          exact here
        refine ⟨[.getBlock other, .getBlock caller],
          ((pool.take caller nextIndex obj).mark other obj).mark caller obj, ?_, ?_⟩
        · have otherMarks : (pool.take caller nextIndex obj).step kind (.getBlock other) = some _ :=
            step_mark nonempty there
          have marks : ((pool.take caller nextIndex obj).mark other obj).step kind
              (.getBlock caller) = some _ := step_mark nonempty stillHere
          simp only [Runs.run, swapped, otherMarks, marks, Option.bind_some]
        · exact fun once => (List.nodup_cons.mp once).1 List.mem_cons_self

end Orderly

/-- No object is handed out twice in the runs in which no caller succeeds across the gap of
another, and the first success across a gap can be followed by stores after which an object
is handed out twice. -/
theorem handedOutOnce_of_no_crossing (kind : PoolKind) (objCount : Nat) (labels : List PoolStep) :
    (Runs.Meets (step kind) (fun pool label => pool.crossing label = false) (init objCount) labels →
      Runs.Throughout (step kind) HandedOutOnce (init objCount) labels) ∧
    ∀ pool label,
      Runs.Meets (step kind) (fun pool label => pool.crossing label = false) (init objCount) labels →
      Runs.run (step kind) (init objCount) labels = some pool → (pool.step kind label).isSome →
      pool.crossing label = true →
      ∃ stores final, Runs.run (step kind) pool (label :: stores) = some final ∧
        ¬ final.HandedOutOnce := by
  constructor
  · intro meets
    apply Runs.throughout_of_meets (step kind) _ Orderly HandedOutOnce
    · exact fun pool orderly => orderly.once
    · exact fun _ _ _ orderly free stepped => orderly.step free stepped
    · exact orderly_init objCount
    · exact meets
  · intro pool label meets ran possible crossing
    have orderly := Runs.run_invariant_meets (step kind) _ Orderly
      (fun _ _ _ orderly free stepped => orderly.step free stepped) _ pool labels
      (orderly_init objCount) meets ran
    apply orderly.crossed_twice _ crossing
    rintro empty
    cases label with
    | getBlock caller => simp [step, empty] at possible
    | release obj => cases crossing

/-- Two callers that follow each other get two objects. When the first of them stalls before
it sets its flag and the cursor goes round, a third caller gets the first one's object. -/
theorem handedOutOnce_of_no_crossing_two :
    Runs.Throughout (step .objectPool) HandedOutOnce (init 2)
        [.getBlock 0, .getBlock 0, .getBlock 0, .getBlock 0, .getBlock 1, .getBlock 1, .getBlock 1,
          .getBlock 1, .release 0] ∧
      ∃ pool, Runs.run (step .objectPool) (init 2)
          [.getBlock 0, .getBlock 0, .getBlock 0, .getBlock 1, .getBlock 1, .getBlock 1, .getBlock 1,
            .getBlock 2, .getBlock 2] = some pool ∧
        ∃ stores final,
          Runs.run (step .objectPool) pool (.getBlock 2 :: stores) = some final ∧
            ¬ final.HandedOutOnce := by
  constructor
  · apply (handedOutOnce_of_no_crossing .objectPool 2 _).1
    decide
  · refine ⟨_, rfl, ?_⟩
    apply (handedOutOnce_of_no_crossing .objectPool 2
      [.getBlock 0, .getBlock 0, .getBlock 0, .getBlock 1, .getBlock 1, .getBlock 1, .getBlock 1,
        .getBlock 2, .getBlock 2]).2
    · decide
    · rfl
    · rfl
    · rfl

/-- Either pool of two objects hands the first one out twice when its first caller stalls
before it sets the flag. -/
theorem handed_out_twice :
    (∃ final, Runs.run (step .objectPool) (init 2)
        [.getBlock 0, .getBlock 0, .getBlock 0, .getBlock 1, .getBlock 1, .getBlock 1, .getBlock 1,
          .getBlock 2, .getBlock 2, .getBlock 2, .getBlock 2, .getBlock 0] = some final ∧
      ¬ final.HandedOutOnce) ∧
    ∃ final, Runs.run (step .objectPool3) (init 2)
        [.getBlock 0, .getBlock 0, .getBlock 0, .getBlock 1, .getBlock 1, .getBlock 1, .getBlock 1,
          .getBlock 2, .getBlock 2, .getBlock 2, .getBlock 2, .getBlock 0] = some final ∧
      ¬ final.HandedOutOnce :=
  ⟨⟨_, rfl, by decide⟩, _, rfl, by decide⟩

end ObjectPool

end OpenTaker
