import OpenTaker.FileRequests
import OpenTaker.Holdings
import Mathlib.Data.List.Perm.Subperm

/-!
# Callbacks of asynchronous files

Each request is in one place: free in the pool, with the client, in flight, among the events,
or with a handler. So no request is handed out while the kernel has it, and each submission
that the kernel has taken is called back once, with what was submitted.
-/

namespace OpenTaker

/-- More accesses make no difference to a call that has returned. -/
theorem ObjectPool.returnWithin_add {pool : ObjectPool} {caller accesses : Nat}
    {result : Nat × ObjectPool} (returned : pool.returnWithin caller accesses = some result)
    (more : Nat) : pool.returnWithin caller (accesses + more) = some result := by
  induction accesses generalizing pool with
  | zero => cases returned
  | succ accesses inductionHypothesis =>
    rw [Nat.add_right_comm, ObjectPool.returnWithin]
    rw [ObjectPool.returnWithin] at returned
    split at returned
    · exact returned
    · obtain ⟨next, stepped, later⟩ := Option.bind_eq_some_iff.mp returned
      rw [stepped, Option.bind_some]
      exact inductionHypothesis later

/-- A result code tells what became of the submission. -/
def SubmitResult.Honest (result : SubmitResult) : Prop :=
  match result.optType with
  | .fileRead => result.code = 0 → result.z = 1 ∨ result.lastError = 0
  | .fileWrite => result.code = 0 → result.z = 1

namespace HFile

variable {file : HFile} {request : FileRequest} {z lastError : Int} {optType : OperationType}

/-- A call that is refused leaves the file as it is: its counter is not moved, and nothing is
submitted. -/
theorem submit_refused (refused : ¬(file.fileHandle.isSome ∧ z = 1)) :
    (file.submit request z lastError optType).file = file := by
  cases opened : file.fileHandle with
  | none => cases optType <;> simp [submit, read, write, opened]
  | some handle =>
    have other : z ≠ 1 := fun one => refused ⟨by simp [opened], one⟩
    cases optType <;> simp [submit, read, write, opened, other]

/-- What the kernel gets carries the operation and the next index of the file. -/
theorem submit_request (request : FileRequest) (z lastError : Int) (optType : OperationType)
    {handle : Nat} (opened : file.fileHandle = some handle) :
    (file.submit request z lastError optType).request =
      request.prepare handle (file.nextIndex optType) optType := by
  cases optType <;> simp only [submit, read, write, opened, nextIndex] <;> split <;> rfl

/-- A taken submission moves the index of its operation only. -/
theorem nextIndex_taken {handle : Nat} (opened : file.fileHandle = some handle)
    (operation : OperationType) :
    (file.submit request 1 lastError optType).file.nextIndex operation =
      if operation = optType then u32 (file.nextIndex optType + 1) else file.nextIndex operation := by
  cases optType <;> cases operation <;> simp [submit, read, write, opened, nextIndex]

/-- With a known answer of the kernel, the code returned for a submission says whether it was taken. -/
theorem submit_honest (answered : z ≠ 0) :
    SubmitResult.Honest ⟨optType, z, lastError, (file.submit request z lastError optType).code⟩ := by
  cases opened : file.fileHandle <;> cases optType <;> by_cases one : z = 1 <;>
    simp [SubmitResult.Honest, submit, read, write, opened, one, answered]

end HFile

namespace FilePool

/-- All the requests that are not free: those a client has taken, and those that the kernel or a
handler has. -/
def busy (state : FilePool) : List Nat := state.owned ++ state.outside

/-- The request of an outside object is the one of its last submission. -/
def Matches (state : FilePool) (obj : Nat) : Prop :=
  ∃ submission, state.submitted[state.number obj]? = some submission ∧
    submission.request = state.requests obj ∧ (state.requests obj).optType = some submission.optType

/-- The callback was made for its submission, with what was submitted. -/
def Told (state : FilePool) (callback : IoCallback) : Prop :=
  ∃ submission, state.submitted[callback.number]? = some submission ∧
    callback.request = submission.request ∧ callback.optType = submission.optType

/-- The invariant: where each request is, what the kernel and the handlers know of it, and that no
request is in two places. -/
structure Tracked (objCount : Nat) (state : FilePool) : Prop where
  sized : state.pool.objCount = objCount
  cursor : state.pool.curIndex < objCount
  idle : state.pool.pc 0 = .start
  inside : ∀ obj ∈ state.busy, obj < objCount
  apart : state.busy.Nodup
  used : ∀ obj < objCount, state.pool.used obj = true ↔ obj ∈ state.busy
  matching : ∀ obj ∈ state.outside, state.Matches obj
  once : (state.callbacks.map IoCallback.number ++ state.outside.map state.number).Perm
    (List.range state.submitted.length)
  told : ∀ callback ∈ state.callbacks, state.Told callback
  indices : ∀ file optType, (state.submissions file optType).map (fun submission => submission.request.index) =
      (List.range (state.submissions file optType).length).map u32 ∧
    (state.files file).nextIndex optType = u32 (state.submissions file optType).length
  honest : ∀ result ∈ state.results, result.Honest

/-- At the start no handler has a request, no event has come, and no client has taken one. -/
theorem busy_start (blockNum : Int) (threads : Nat) (handles : Nat → Option Nat) :
    (start blockNum threads handles).busy = [] := by
  simp [busy, outside, start]

/-- At the start nothing has been submitted, and every request is free. -/
theorem tracked_start (blockNum : Int) (threads : Nat) (handles : Nat → Option Nat) :
    Tracked (max blockNum 1024).toNat (start blockNum threads handles) := by
  have nothing := busy_start blockNum threads handles
  have none := (List.append_eq_nil_iff.mp nothing).2
  constructor
  case sized => rfl
  case cursor => exact ObjectPool.ioContextPool_nonempty blockNum
  case idle => rfl
  case inside =>
    rw [nothing]
    exact fun _ member => absurd member List.not_mem_nil
  case apart =>
    rw [nothing]
    exact List.nodup_nil
  case used =>
    rw [nothing]
    exact fun _ _ => iff_of_false Bool.false_ne_true List.not_mem_nil
  case matching =>
    rw [none]
    exact fun _ member => absurd member List.not_mem_nil
  case once =>
    rw [none]
    exact List.Perm.refl _
  case told => exact fun _ member => absurd member List.not_mem_nil
  case indices =>
    intro file optType
    cases optType <;> exact ⟨rfl, rfl⟩
  case honest => exact fun _ member => absurd member List.not_mem_nil

/-! ## Moving requests -/

variable {objCount : Nat} {state next : FilePool}

/-- What has been submitted keeps its number when more is submitted. -/
theorem still_there {submitted : List Submission} {number : Nat} {submission : Submission}
    (here : submitted[number]? = some submission) (last : Submission) :
    (submitted ++ [last])[number]? = some submission := by
  rw [List.getElem?_append_left (List.getElem?_eq_some_iff.mp here).1]
  exact here

/-- When one handler has other events, the events of all handlers change by the difference. -/
theorem count_handlers {handlers : List (List IoEvent)} {handler : Nat} {events : List IoEvent}
    (here : handlers[handler]? = some events) (after : List IoEvent) (obj : Nat) :
    ((handlers.set handler after).flatten.map Prod.fst).count obj + (events.map Prod.fst).count obj =
      (handlers.flatten.map Prod.fst).count obj + (after.map Prod.fst).count obj := by
  have moved := (Holdings.flatMap_set here after (List.map Prod.fst)).count_eq obj
  rw [List.map_flatten, List.map_flatten]
  rwa [List.count_append, List.count_append] at moved

/-- When an event is worked off, the outside requests lose its request. -/
theorem outside_handle {handler obj : Nat} {res : Int} {rest : List IoEvent}
    (here : state.handlers[handler]? = some ((obj, res) :: rest)) :
    state.outside.Perm (obj :: (state.inFlight ++ state.completed.map Prod.fst ++
      (state.handlers.set handler rest).flatten.map Prod.fst)) := by
  rw [List.perm_iff_count]
  intro other
  have split := count_handlers here rest other
  simp only [outside, List.count_append, List.count_cons, List.map_cons] at split ⊢
  omega

/-- Collecting events moves their requests to the handler that collected them, and all requests
outside are as many as before. -/
theorem outside_collect {handler : Nat} (count : Nat) (here : state.handlers[handler]? = some []) :
    (state.inFlight ++ (state.completed.drop count).map Prod.fst ++
      (state.handlers.set handler (state.completed.take count)).flatten.map Prod.fst).Perm
        state.outside := by
  rw [List.perm_iff_count]
  intro other
  have split := count_handlers here (state.completed.take count) other
  have whole : (state.completed.map Prod.fst).count other =
      ((state.completed.take count).map Prod.fst).count other +
        ((state.completed.drop count).map Prod.fst).count other := by
    rw [← List.count_append, ← List.map_append, List.take_append_drop]
  simp only [outside, List.count_append, List.map_nil, List.count_nil] at split whole ⊢
  omega

/-- Completing a request moves it from the kernel to the events, and so leaves it outside of the
client. -/
theorem outside_complete {obj : Nat} (res : Int) (flying : obj ∈ state.inFlight) :
    (state.inFlight.erase obj ++ (state.completed ++ [(obj, res)]).map Prod.fst ++
      state.handlers.flatten.map Prod.fst).Perm state.outside := by
  rw [List.perm_iff_count]
  intro other
  have erased := (List.perm_cons_erase flying).count_eq other
  simp only [outside, List.count_append, List.map_append, List.map_cons, List.map_nil, List.count_cons,
    List.count_nil] at erased ⊢
  omega

/-- A request that is submitted leaves the client and is with the kernel. -/
theorem busy_submit {obj : Nat} (owned : obj ∈ state.owned) :
    (state.owned.erase obj ++ (state.inFlight ++ [obj] ++ state.completed.map Prod.fst ++
      state.handlers.flatten.map Prod.fst)).Perm state.busy := by
  rw [List.perm_iff_count]
  intro other
  have erased := (List.perm_cons_erase owned).count_eq other
  simp only [busy, outside, List.count_append, List.count_cons, List.count_nil] at erased ⊢
  omega

namespace Tracked

/-- A step that moves no request in or out of the pool, and touches none that is outside. -/
theorem moved (tracked : Tracked objCount state) (pool : next.pool = state.pool)
    (busy : next.busy.Perm state.busy) (outside : next.outside.Perm state.outside)
    (submitted : next.submitted = state.submitted) (number : next.number = state.number)
    (callbacks : next.callbacks = state.callbacks)
    (requests : ∀ obj ∈ state.outside, next.requests obj = state.requests obj)
    (indices : ∀ file optType,
      (next.files file).nextIndex optType = (state.files file).nextIndex optType)
    (honest : ∀ result ∈ next.results, result.Honest) :
    Tracked objCount next := by
  constructor
  case sized =>
    rw [pool]
    exact tracked.sized
  case cursor =>
    rw [pool]
    exact tracked.cursor
  case idle =>
    rw [pool]
    exact tracked.idle
  case inside => exact fun obj member => tracked.inside obj (busy.mem_iff.mp member)
  case apart => exact busy.nodup_iff.mpr tracked.apart
  case used =>
    intro obj inside
    rw [pool, busy.mem_iff]
    exact tracked.used obj inside
  case matching =>
    intro obj member
    have before := outside.mem_iff.mp member
    rw [Matches, submitted, number, requests obj before]
    exact tracked.matching obj before
  case once =>
    rw [callbacks, number, submitted]
    exact ((outside.map state.number).append_left _).trans tracked.once
  case told =>
    intro callback member
    rw [callbacks] at member
    rw [Told, submitted]
    exact tracked.told callback member
  case indices =>
    intro file optType
    rw [submissions, submitted, indices file optType]
    exact tracked.indices file optType
  case honest => exact honest

/-- A request that the client owns is not outside. -/
theorem owned_not_outside (tracked : Tracked objCount state) {obj : Nat} (owned : obj ∈ state.owned) :
    obj ∉ state.outside :=
  fun outside => (List.nodup_append.mp tracked.apart).2.2 obj owned obj outside rfl

/-- A request that is owned is none of those outside, so that submitting it cannot touch one of
them. -/
theorem other_of_outside (tracked : Tracked objCount state) {obj other : Nat}
    (owned : obj ∈ state.owned) (outside : other ∈ state.outside) : other ≠ obj := by
  rintro rfl
  exact tracked.owned_not_outside owned outside

/-- The client gets a request that was free, in one step in which no handler gives one back. -/
theorem getBlock (tracked : Tracked objCount state) (stepped : state.getBlock = some next) :
    Tracked objCount next := by
  simp only [FilePool.getBlock, Option.map_eq_some_iff] at stepped
  obtain ⟨⟨obj, pool⟩, returned, rfl⟩ := stepped
  have cursor : state.pool.curIndex < state.pool.objCount := by
    rw [tracked.sized]
    exact tracked.cursor
  have free : state.pool.HasFree := by
    by_contra full
    have searching : state.pool.Searching 0 := .inl tracked.idle
    rw [searching.returnWithin full] at returned
    cases returned
  obtain ⟨distance, after, first, found, given⟩ :=
    ObjectPool.getBlock_first_free state.pool 0 cursor tracked.idle free
  have same : state.pool.returnWithin 0 (state.pool.objCount + 3) =
      some (state.pool.objAt distance, after) := by
    have within := first.within
    obtain ⟨more, enough⟩ := Nat.exists_eq_add_of_le
      (show distance + 4 ≤ state.pool.objCount + 3 by omega)
    rw [enough]
    exact ObjectPool.returnWithin_add found more
  obtain ⟨rfl, rfl⟩ := Prod.mk.inj (Option.some.inj (same.symm.trans returned))
  have inside : state.pool.objAt distance < objCount := by
    rw [← tracked.sized]
    exact Nat.mod_lt _ (by omega)
  have unused := first.unused
  have fresh : state.pool.objAt distance ∉ state.busy := by
    intro member
    rw [(tracked.used _ inside).mpr member] at unused
    cases unused
  have busy : ({ state with pool := after, owned := state.owned ++ [state.pool.objAt distance] } :
      FilePool).busy.Perm (state.pool.objAt distance :: state.busy) := by
    simp only [FilePool.busy, outside, List.append_assoc]
    exact List.perm_middle
  constructor
  case sized => exact given.objCount.trans tracked.sized
  case cursor =>
    rw [given.curIndex, tracked.sized]
    exact Nat.mod_lt _ (by omega)
  case idle => exact given.finished
  case inside =>
    intro obj member
    rcases List.mem_cons.mp (busy.mem_iff.mp member) with rfl | before
    · exact inside
    · exact tracked.inside obj before
  case apart => exact busy.nodup_iff.mpr (List.nodup_cons.mpr ⟨fresh, tracked.apart⟩)
  case used =>
    intro obj within
    rw [busy.mem_iff, given.used, List.mem_cons]
    by_cases same : obj = state.pool.objAt distance
    · subst same
      simp
    · rw [Function.update_of_ne same, tracked.used obj within]
      exact ⟨.inr, fun either => either.resolve_left same⟩
  case matching => exact tracked.matching
  case once => exact tracked.once
  case told => exact tracked.told
  case indices => exact tracked.indices
  case honest => exact tracked.honest

/-- A request leaves: what is busy loses it, and the pool has it as free again. -/
theorem released (tracked : Tracked objCount state) {obj : Nat} {busy : List Nat}
    (before : state.busy.Perm (obj :: busy)) :
    busy.Nodup ∧ (∀ other ∈ busy, other < objCount) ∧
      ∀ other < objCount, (state.pool.release obj).used other = true ↔ other ∈ busy := by
  have apart := before.nodup_iff.mp tracked.apart
  obtain ⟨gone, rest⟩ := List.nodup_cons.mp apart
  refine ⟨rest, fun other member => ?_, fun other inside => ?_⟩
  · exact tracked.inside other (before.mem_iff.mpr (List.mem_cons_of_mem _ member))
  · simp only [ObjectPool.release]
    by_cases same : other = obj
    · subst same
      simpa using gone
    · rw [Function.update_of_ne same, tracked.used other inside, before.mem_iff, List.mem_cons]
      exact ⟨fun either => either.resolve_left same, .inr⟩

/-- The client gives a request back that it never submitted, or that was refused. -/
theorem release (tracked : Tracked objCount state) {obj : Nat} (owned : obj ∈ state.owned) :
    Tracked objCount
      { state with pool := state.pool.release obj, owned := state.owned.erase obj } := by
  have before : state.busy.Perm (obj :: (state.owned.erase obj ++ state.outside)) :=
    (List.perm_cons_erase owned).append_right _
  obtain ⟨apart, inside, used⟩ := tracked.released before
  exact ⟨tracked.sized, tracked.cursor, by simp [ObjectPool.release, tracked.idle, GetBlockPc.cross], inside,
    apart, used, tracked.matching, tracked.once, tracked.told, tracked.indices, tracked.honest⟩

/-- A handler works off an event: it calls back once, and gives the request back. -/
theorem handle (tracked : Tracked objCount state) {handler : Nat}
    (stepped : state.handle handler = some next) : Tracked objCount next := by
  simp only [FilePool.handle] at stepped
  split at stepped
  · rename_i obj res rest here
    obtain ⟨optType, isType, rfl⟩ := Option.map_eq_some_iff.mp stepped
    have leaves := outside_handle here
    have before : state.busy.Perm (obj :: (state.owned ++ (state.inFlight ++
        state.completed.map Prod.fst ++ (state.handlers.set handler rest).flatten.map Prod.fst))) :=
      (leaves.append_left _).trans List.perm_middle
    obtain ⟨apart, inside, used⟩ := tracked.released before
    have member : obj ∈ state.outside := leaves.mem_iff.mpr List.mem_cons_self
    constructor
    case sized => exact tracked.sized
    case cursor => exact tracked.cursor
    case idle => simp [ObjectPool.release, tracked.idle, GetBlockPc.cross]
    case inside => exact inside
    case apart => exact apart
    case used => exact used
    case matching =>
      exact fun other isOutside =>
        tracked.matching other (leaves.mem_iff.mpr (List.mem_cons_of_mem _ isOutside))
    case once =>
      refine List.Perm.trans ?_ tracked.once
      have numbers := leaves.map state.number
      rw [List.map_append, List.append_assoc]
      exact (numbers.symm.append_left _)
    case told =>
      intro callback isCallback
      rcases List.mem_append.mp isCallback with old | new
      · exact tracked.told callback old
      · rw [List.mem_singleton.mp new]
        obtain ⟨submission, isSubmission, request, operation⟩ := tracked.matching obj member
        refine ⟨submission, isSubmission, request.symm, ?_⟩
        exact Option.some.inj (isType.symm.trans operation)
    case indices => exact tracked.indices
    case honest => exact tracked.honest
  · cases stepped

/-- The client enters data in a request that it owns. -/
theorem fill (tracked : Tracked objCount state) {obj : Nat} (request : FileRequest)
    (owned : obj ∈ state.owned) :
    Tracked objCount { state with requests := Function.update state.requests obj request } :=
  tracked.moved rfl (List.Perm.refl _) (List.Perm.refl _) rfl rfl rfl
    (fun _ member => Function.update_of_ne
      (tracked.other_of_outside owned member) _ _)
    (fun _ _ => rfl) tracked.honest

/-- The kernel completes a request, in any order, and its event waits to be collected. -/
theorem complete (tracked : Tracked objCount state) {obj : Nat} (res : Int)
    (flying : obj ∈ state.inFlight) :
    Tracked objCount { state with
      inFlight := state.inFlight.erase obj, completed := state.completed ++ [(obj, res)] } := by
  have outside := outside_complete res flying
  exact tracked.moved rfl (outside.append_left _) outside rfl rfl rfl (fun _ _ => rfl)
    (fun _ _ => rfl) tracked.honest

/-- A handler collects events, at most as many as it asks for at a time. -/
theorem collect (tracked : Tracked objCount state) {handler : Nat} (count : Nat)
    (here : state.handlers[handler]? = some []) :
    Tracked objCount { state with
      completed := state.completed.drop count
      handlers := state.handlers.set handler (state.completed.take count) } := by
  have outside := outside_collect count here
  exact tracked.moved rfl (outside.append_left _) outside rfl rfl rfl (fun _ _ => rfl)
    (fun _ _ => rfl) tracked.honest

/-- A refused submission leaves the request with the client. -/
theorem submit_refused (tracked : Tracked objCount state) {file obj : Nat} {z : Int}
    {optType : OperationType} (owned : obj ∈ state.owned) (answered : z ≠ 0)
    (refused : ¬((state.files file).fileHandle.isSome ∧ z = 1)) :
    Tracked objCount (state.submit optType file obj z) := by
  rw [FilePool.submit, if_neg refused]
  refine tracked.moved rfl (List.Perm.refl _) (List.Perm.refl _) rfl rfl rfl
    (fun other member => ?_) (fun other operation => ?_) (fun result member => ?_)
  · exact Function.update_of_ne
      (tracked.other_of_outside owned member) _ _
  · rw [HFile.submit_refused refused, Function.update_eq_self]
  · rcases List.mem_append.mp member with before | last
    · exact tracked.honest result before
    · rw [List.mem_singleton.mp last]
      exact HFile.submit_honest answered

/-- The index of a taken submission follows those of its file and operation. -/
theorem next_index (tracked : Tracked objCount state) {file handle : Nat} {request : FileRequest}
    {optType : OperationType} (opened : (state.files file).fileHandle = some handle)
    {entered : FileRequest}
    (asked : entered = request.prepare handle ((state.files file).nextIndex optType) optType)
    (submitted : next.submitted = state.submitted ++ [⟨file, optType, entered⟩])
    (files : next.files = Function.update state.files file
      ((state.files file).submit request 1 state.lastError optType).file)
    (other : Nat) (operation : OperationType) :
    (next.submissions other operation).map (fun submission => submission.request.index) =
        (List.range (next.submissions other operation).length).map u32 ∧
      (next.files other).nextIndex operation =
        u32 (next.submissions other operation).length := by
  obtain ⟨indices, index⟩ := tracked.indices other operation
  by_cases here : file = other ∧ optType = operation
  · obtain ⟨rfl, rfl⟩ := here
    have longer : next.submissions file optType =
        state.submissions file optType ++ [⟨file, optType, entered⟩] := by
      simp [submissions, submitted, List.filter_append]
    constructor
    · rw [longer, List.map_append, indices, List.length_append, List.length_singleton,
        List.range_succ, List.map_append, asked, List.map_singleton, List.map_singleton, ← index]
      rfl
    · rw [files, Function.update_self, HFile.nextIndex_taken opened, if_pos rfl, index, longer,
        List.length_append, List.length_singleton]
      exact Nat.mod_add_mod _ _ _
  · have same : next.submissions other operation = state.submissions other operation := by
      simp [submissions, submitted, List.filter_append, here]
    rw [same]
    refine ⟨indices, ?_⟩
    rw [files, ← index]
    by_cases file_same : other = file
    · subst file_same
      have operation_other : operation ≠ optType := fun equal => here ⟨rfl, equal.symm⟩
      rw [Function.update_self, HFile.nextIndex_taken opened, if_neg operation_other]
    · rw [Function.update_of_ne file_same]

/-- A taken submission is in flight, under the number of its place in the history. -/
theorem submit_taken (tracked : Tracked objCount state) {file obj handle : Nat}
    {optType : OperationType} (owned : obj ∈ state.owned)
    (opened : (state.files file).fileHandle = some handle) :
    Tracked objCount (state.submit optType file obj 1) := by
  have taken : (state.files file).fileHandle.isSome ∧ (1 : Int) = 1 := by
    rw [opened]
    exact ⟨rfl, rfl⟩
  rw [FilePool.submit, if_pos taken]
  have busy := busy_submit owned
  have outside : (state.inFlight ++ [obj] ++ state.completed.map Prod.fst ++
      state.handlers.flatten.map Prod.fst).Perm (obj :: state.outside) := by
    simp only [FilePool.outside, List.append_assoc]
    exact List.perm_middle
  have asked := HFile.submit_request (state.requests obj) 1 state.lastError optType opened
  constructor
  case sized => exact tracked.sized
  case cursor => exact tracked.cursor
  case idle => exact tracked.idle
  case inside => exact fun other member => tracked.inside other (busy.mem_iff.mp member)
  case apart => exact busy.nodup_iff.mpr tracked.apart
  case used =>
    intro other within
    exact (tracked.used other within).trans busy.mem_iff.symm
  case matching =>
    intro other member
    rcases List.mem_cons.mp (outside.mem_iff.mp member) with rfl | before
    · refine ⟨⟨file, optType, _⟩, ?_, rfl, ?_⟩
      · simp only [Function.update_self]
        exact List.getElem?_concat_length
      · simp only [Function.update_self, asked, FileRequest.prepare]
    · have different := tracked.other_of_outside owned before
      obtain ⟨submission, here, request, operation⟩ := tracked.matching other before
      refine ⟨submission, ?_, ?_, ?_⟩
      · simp only [Function.update_of_ne different]
        exact still_there here _
      · simpa only [Function.update_of_ne different] using request
      · simpa only [Function.update_of_ne different] using operation
  case once =>
    have numbers : (state.outside.map (Function.update state.number obj state.submitted.length)) =
        state.outside.map state.number :=
      List.map_congr_left fun other before =>
        Function.update_of_ne (tracked.other_of_outside owned before) _ _
    have moved := outside.map (Function.update state.number obj state.submitted.length)
    rw [List.map_cons, Function.update_self, numbers] at moved
    rw [List.length_append, List.length_singleton, List.range_succ]
    refine (moved.append_left _).trans (List.perm_middle.trans ?_)
    exact (tracked.once.cons _).trans (List.perm_append_singleton _ _).symm
  case told =>
    intro callback member
    obtain ⟨submission, here, told⟩ := tracked.told callback member
    exact ⟨submission, still_there here _, told⟩
  case indices => exact tracked.next_index opened asked rfl rfl
  case honest =>
    intro result member
    rcases List.mem_append.mp member with before | last
    · exact tracked.honest result before
    · rw [List.mem_singleton.mp last]
      exact HFile.submit_honest Int.one_ne_zero

/-- Every step keeps track of each request: at the client, in flight, among the events, or with a
handler. -/
theorem step (tracked : Tracked objCount state) (label : Step)
    (stepped : state.step label = some next) : Tracked objCount next := by
  cases label with
  | getBlock => exact tracked.getBlock stepped
  | fill obj offset dataLen buffer =>
    simp only [FilePool.step, Option.ite_none_right_eq_some, Option.some.injEq] at stepped
    obtain ⟨owned, rfl⟩ := stepped
    exact tracked.fill _ owned
  | submit optType file obj z =>
    simp only [FilePool.step, Option.ite_none_right_eq_some, Option.some.injEq] at stepped
    obtain ⟨⟨owned, -, answered⟩, rfl⟩ := stepped
    by_cases taken : (state.files file).fileHandle.isSome ∧ z = 1
    · obtain ⟨handle, opened⟩ := Option.isSome_iff_exists.mp taken.1
      rw [taken.2]
      exact tracked.submit_taken owned opened
    · exact tracked.submit_refused owned answered taken
  | release obj =>
    simp only [FilePool.step, Option.ite_none_right_eq_some, Option.some.injEq] at stepped
    obtain ⟨owned, rfl⟩ := stepped
    exact tracked.release owned
  | fail error =>
    cases stepped
    exact tracked.moved rfl (List.Perm.refl _) (List.Perm.refl _) rfl rfl rfl (fun _ _ => rfl)
      (fun _ _ => rfl) tracked.honest
  | complete obj res =>
    simp only [FilePool.step, Option.ite_none_right_eq_some, Option.some.injEq] at stepped
    obtain ⟨flying, rfl⟩ := stepped
    exact tracked.complete res flying
  | collect handler count =>
    simp only [FilePool.step, Option.ite_none_right_eq_some, Option.some.injEq] at stepped
    obtain ⟨⟨here, -⟩, rfl⟩ := stepped
    exact tracked.collect count here
  | handle handler => exact tracked.handle stepped

/-- A handler is never at a request without an operation. -/
theorem no_assert (tracked : Tracked objCount state) {handler obj : Nat} {res : Int}
    {rest : List IoEvent} (here : state.handlers[handler]? = some ((obj, res) :: rest)) :
    (state.handle handler).isSome := by
  have outside : obj ∈ state.outside := (outside_handle here).mem_iff.mpr List.mem_cons_self
  obtain ⟨submission, -, -, operation⟩ := tracked.matching obj outside
  simp only [FilePool.handle, here, operation, Option.map_some, Option.isSome_some]

/-- The client gets a request unless all of them are in use. -/
theorem getBlock_isSome (tracked : Tracked objCount state) :
    state.getBlock.isSome ↔ state.busy.length < objCount := by
  have cursor : state.pool.curIndex < state.pool.objCount := by
    rw [tracked.sized]
    exact tracked.cursor
  have within : state.busy ⊆ List.range objCount :=
    fun obj member => List.mem_range.mpr (tracked.inside obj member)
  have unused : ∀ obj < objCount, state.pool.used obj = false ↔ obj ∉ state.busy :=
    fun obj inside => by rw [← tracked.used obj inside, Bool.not_eq_true]
  rw [FilePool.getBlock, Option.isSome_map]
  constructor
  · intro returned
    by_contra none
    have full : ¬ state.pool.HasFree := by
      rintro ⟨obj, inside, free⟩
      rw [tracked.sized] at inside
      have apart := List.nodup_cons.mpr ⟨(unused obj inside).mp free, tracked.apart⟩
      have fits := (List.Nodup.subperm apart
        (List.cons_subset.mpr ⟨List.mem_range.mpr inside, within⟩)).length_le
      rw [List.length_cons, List.length_range] at fits
      exact none fits
    have searching : state.pool.Searching 0 := .inl tracked.idle
    rw [searching.returnWithin full] at returned
    cases returned
  · intro room
    have free : state.pool.HasFree := by
      by_contra full
      have all : List.range objCount ⊆ state.busy := by
        intro obj member
        have inside := List.mem_range.mp member
        by_contra outside
        refine full ⟨obj, ?_, (unused obj inside).mpr outside⟩
        rw [tracked.sized]
        exact inside
      have fits := (List.Nodup.subperm List.nodup_range all).length_le
      rw [List.length_range] at fits
      exact absurd room (by omega)
    obtain ⟨distance, after, first, found, -⟩ :=
      ObjectPool.getBlock_first_free state.pool 0 cursor tracked.idle free
    have inside := first.within
    obtain ⟨more, enough⟩ := Nat.exists_eq_add_of_le
      (show distance + 4 ≤ state.pool.objCount + 3 by omega)
    rw [enough, ObjectPool.returnWithin_add found more]
    rfl

end Tracked

/-- In every run each submission that the kernel has taken is called back at most once, with
what was submitted, and is called back or outside. No request is in use twice, and a client
gets one unless all are in use; no handler reaches its assertion. The requests of a file carry
the indices of their operation in order, and a returned code of zero tells that the kernel has
taken the request, but for a read whose thread had no error before. -/
theorem called_back_once (blockNum : Int) (threads : Nat) (handles : Nat → Option Nat)
    (steps : List Step) (final : FilePool)
    (ran : Runs.run step (start blockNum threads handles) steps = some final) :
    ((final.callbacks.map IoCallback.number ++ final.outside.map final.number).Perm
        (List.range final.submitted.length) ∧
      ∀ callback ∈ final.callbacks, final.Told callback) ∧
    (final.busy.Nodup ∧
      (final.getBlock.isSome ↔ final.busy.length < (max blockNum 1024).toNat) ∧
      ∀ (handler obj : Nat) (res : Int) (rest : List IoEvent),
        final.handlers[handler]? = some ((obj, res) :: rest) → (final.handle handler).isSome) ∧
    (∀ file optType, (final.submissions file optType).map (fun submission => submission.request.index) =
      (List.range (final.submissions file optType).length).map u32) ∧
    ∀ result ∈ final.results, result.Honest := by
  have tracked := Runs.run_invariant step (Tracked (max blockNum 1024).toNat)
    (fun _ label _ tracked stepped => tracked.step label stepped) _ final steps
    (tracked_start blockNum threads handles) ran
  exact ⟨⟨tracked.once, tracked.told⟩,
    ⟨tracked.apart, tracked.getBlock_isSome, fun _ _ _ _ here => tracked.no_assert here⟩,
    fun file optType => (tracked.indices file optType).1, tracked.honest⟩

/-- Two writes to one file, of which the second is completed first. Each is called back once, with
its own index. -/
theorem called_back_once_two :
    ∃ final, Runs.run step (start 16 1 fun _ => some 5)
        [.getBlock, .submit .fileWrite 0 0 1, .getBlock, .submit .fileWrite 0 1 1, .complete 1 512,
          .collect 0 1, .handle 0] = some final ∧
      final.callbacks.map IoCallback.number = [1] ∧ final.busy = [0] ∧
      (final.getBlock.isSome ↔ final.busy.length < 1024) := by
  refine ⟨_, rfl, rfl, rfl, ?_⟩
  exact (called_back_once 16 1 (fun _ => some 5) [.getBlock, .submit .fileWrite 0 0 1, .getBlock,
    .submit .fileWrite 0 1 1, .complete 1 512, .collect 0 1, .handle 0] _ rfl).2.1.2.1

end FilePool

end OpenTaker
