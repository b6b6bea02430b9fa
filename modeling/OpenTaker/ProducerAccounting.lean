import OpenTaker.ProducerMemory

/-!
# Producer accounting

Every capture fills the blocks it claims from their first slot on, and what it
publishes is what it filled: the sizes count the calls, and reading the published
blocks in order gives the slots that were returned, in the order of the calls. The
invariant says for each capture where it stands; a step of another capture leaves that
as it is.

All of this needs the slots to be addressable: `GetMetaInBlk` takes the byte offset
of a slot in 32 bits, so that beyond that bound two blocks share their slots.
-/

namespace OpenTaker

open CursorPipeline

/-! ## The captures -/

/-- The first slots of the block of a claim. -/
def slotsOf (blocks capacity number count : Nat) : List (Option Nat) :=
  (List.range count).map fun index => some (slotAt capacity (number % blocks) index)

/-- A slot more is taken at the end of the block, at the next index. -/
theorem slotsOf_succ (blocks capacity number count : Nat) :
    slotsOf blocks capacity number (count + 1) =
      slotsOf blocks capacity number count ++ [some (slotAt capacity (number % blocks) count)] := by
  simp [slotsOf, List.range_succ]

/-- A capture fills the block of this claim, which has its data block entered and is not final yet. -/
structure Held (blocks : Nat) (shared : Shared) (dataBlk : Option Nat) (number : Nat) : Prop where
  claimed : shared.status number = .claimed
  entered : (shared.ring.metaBlk (number % blocks)).dataBlk = dataBlk
  notFinal : (shared.ring.metaBlk (number % blocks)).isFinal = false

/-- The block of this claim was published for the data block. -/
structure Sent (blocks capacity slots : Nat) (shared : Shared) (dataBlk : Option Nat)
    (number : Nat) : Prop where
  sent : shared.sent number
  carried : (shared.contents number).dataBlk = dataBlk
  placed : (shared.contents number).offset = number % blocks * capacity
  some : 1 ≤ (shared.contents number).size
  within : (shared.contents number).size ≤ usableAt capacity slots (number % blocks)

/-- The slots a job returned are those of its published blocks and of the current one,
and none of the published blocks is final yet. -/
structure Filling (blocks capacity slots : Nat) (shared : Shared) (job : Job)
    (current : List (Option Nat)) : Prop where
  sent : ∀ number ∈ job.published, Sent blocks capacity slots shared job.dataBlk number
  notFinal : ∀ number ∈ job.published, (shared.contents number).isFinal = false
  nodup : job.published.Nodup
  slots : job.slots = job.published.flatMap
    (fun number => slotsOf blocks capacity number (shared.contents number).size) ++ current

/-- The slots a finished job returned are those of its published blocks, of which the
last one is final. -/
structure Finished (blocks capacity slots : Nat) (shared : Shared) (job : Job) : Prop where
  sent : ∀ number ∈ job.published, Sent blocks capacity slots shared job.dataBlk number
  final : ∃ before last, job.published = before ++ [last] ∧
    (∀ number ∈ before, (shared.contents number).isFinal = false) ∧
    (shared.contents last).isFinal = true
  nodup : job.published.Nodup
  slots : job.slots = job.published.flatMap
    fun number => slotsOf blocks capacity number (shared.contents number).size

/-- Where a capture stands between two steps: without a block, waiting for one, or filling one. -/
inductive CaptureOk (blocks capacity slots : Nat) (shared : Shared) : Capture → Prop where
  /-- It has no data block. -/
  | idle (used : Nat) : CaptureOk blocks capacity slots shared ⟨none, used, none, none, none⟩
  /-- Its call waits for an empty block. -/
  | waits (used : Nat) (dataBlk : Option DataBlock) (job : Job)
      (same : job.dataBlk = addrOf dataBlk)
      (filling : Filling blocks capacity slots shared job []) :
      CaptureOk blocks capacity slots shared ⟨none, used, some dataBlk, none, some job⟩
  /-- It fills the block of a claim. -/
  | fills (number used : Nat) (job : Job) (held : Held blocks shared job.dataBlk number)
      (positive : 1 ≤ used) (usable : used ≤ usableAt capacity slots (number % blocks))
      (filling : Filling blocks capacity slots shared job (slotsOf blocks capacity number used)) :
      CaptureOk blocks capacity slots shared
        ⟨some (number % blocks), used, none, some number, some job⟩

section Kept

variable {blocks capacity slots : Nat} {own : Option Nat} {before after : Shared}

/-- A block that a capture holds stays held through the steps of others, which leave it alone. -/
theorem Held.kept {dataBlk : Option Nat} {number : Nat} (held : Held blocks before dataBlk number)
    (leaves : Leaves blocks own before after) (notOwn : own ≠ some number) :
    Held blocks after dataBlk number := by
  obtain ⟨claimed, kept⟩ := leaves.held number held.claimed notOwn
  exact ⟨claimed, kept ▸ held.entered, kept ▸ held.notFinal⟩

/-- A block that is sent for a job keeps the slots it was sent with, until it is freed. -/
theorem Sent.kept {dataBlk : Option Nat} {number : Nat}
    (sent : Sent blocks capacity slots before dataBlk number)
    (leaves : Leaves blocks own before after) :
    Sent blocks capacity slots after dataBlk number := by
  obtain ⟨still, kept⟩ := leaves.sent number sent.sent
  constructor
  · exact still
  all_goals rw [kept]
  · exact sent.carried
  · exact sent.placed
  · exact sent.some
  · exact sent.within

/-- What was published for a job reads the same after a step. -/
theorem slots_kept {dataBlk : Option Nat} {published : List Nat}
    (sent : ∀ number ∈ published, Sent blocks capacity slots before dataBlk number)
    (leaves : Leaves blocks own before after) :
    published.flatMap
        (fun number => slotsOf blocks capacity number (after.contents number).size) =
      published.flatMap
        (fun number => slotsOf blocks capacity number (before.contents number).size) := by
  apply List.flatMap_congr
  intro number listed
  rw [(leaves.sent number (sent number listed).sent).2]

/-- The job of a capture goes on as it was through the steps of others. -/
theorem Filling.kept {job : Job} {current : List (Option Nat)}
    (filling : Filling blocks capacity slots before job current)
    (leaves : Leaves blocks own before after) :
    Filling blocks capacity slots after job current where
  sent number listed := (filling.sent number listed).kept leaves
  notFinal number listed := by
    rw [(leaves.sent number (filling.sent number listed).sent).2]
    exact filling.notFinal number listed
  nodup := filling.nodup
  slots := by rw [slots_kept filling.sent leaves, filling.slots]

/-- A finished job stays finished: its blocks are sent, and nobody writes to them. -/
theorem Finished.kept {job : Job} (finished : Finished blocks capacity slots before job)
    (leaves : Leaves blocks own before after) : Finished blocks capacity slots after job where
  sent number listed := (finished.sent number listed).kept leaves
  final := by
    obtain ⟨earlier, last, published, notFinal, final⟩ := finished.final
    have contents : ∀ number ∈ job.published, after.contents number = before.contents number :=
      fun number listed => (leaves.sent number (finished.sent number listed).sent).2
    rw [published] at contents
    refine ⟨earlier, last, published, ?_, ?_⟩
    · intro number listed
      rw [contents number (List.mem_append_left _ listed)]
      exact notFinal number listed
    · rw [contents last (by simp)]
      exact final
  nodup := finished.nodup
  slots := by rw [slots_kept finished.sent leaves, finished.slots]

/-- A capture stays where it is when others take a step. -/
theorem CaptureOk.kept {capture : Capture} (ok : CaptureOk blocks capacity slots before capture)
    (leaves : Leaves blocks own before after)
    (notOwn : ∀ number, capture.holds = some number → own ≠ some number) :
    CaptureOk blocks capacity slots after capture := by
  cases ok with
  | idle used => exact .idle used
  | waits used dataBlk job same filling => exact .waits used dataBlk job same (filling.kept leaves)
  | fills number used job held positive usable filling =>
    exact .fills number used job (held.kept leaves (notOwn number rfl)) positive usable
      (filling.kept leaves)

end Kept

/-! ## The operations of a capture -/

section Operations

variable {modules blocks capacity slots : Nat} {shared : Shared}

/-- An assertion that holds changes nothing, so that runs in which all hold are runs of the plain
steps. -/
theorem asserted_eq (check : Bool) (asserted : shared.asserted = true) (holds : check = true) :
    { shared with asserted := shared.asserted && check } = shared := by
  cases shared
  simp only at asserted
  simp [asserted, holds]

/-- Publishing writes the size and the sequence flag of the block, and no slot. -/
theorem publish_contents (number position size : Nat) :
    (shared.publish number position size).contents number =
      { shared.ring.metaBlk position with size := size } := by
  simp only [Shared.publish, publishMetaBlk, Function.update_self, setMetaBlk_self]

/-- A job whose current block is published has only published blocks. -/
theorem Filling.published (accounting : Accounting modules blocks capacity slots shared)
    {number used : Nat} {job : Job} (held : shared.status number = .claimed)
    (entered : (shared.ring.metaBlk (number % blocks)).dataBlk = job.dataBlk)
    (positive : 1 ≤ used) (usable : used ≤ usableAt capacity slots (number % blocks))
    (filling : Filling blocks capacity slots shared job (slotsOf blocks capacity number used)) :
    (∀ other ∈ job.published ++ [number],
      Sent blocks capacity slots (shared.publish number (number % blocks) used) job.dataBlk other) ∧
    (∀ other ∈ job.published,
      ((shared.publish number (number % blocks) used).contents other).isFinal = false) ∧
    (job.published ++ [number]).Nodup ∧
    job.slots = (job.published ++ [number]).flatMap fun other =>
      slotsOf blocks capacity other
        ((shared.publish number (number % blocks) used).contents other).size := by
  have leaves := (accounting.publish held positive).2
  have last : Sent blocks capacity slots (shared.publish number (number % blocks) used)
      job.dataBlk number := by
    constructor
    · exact .inl (Function.update_self _ _ _)
    all_goals rw [publish_contents]
    · exact entered
    · exact accounting.placed number (.inl held)
    · exact positive
    · exact usable
  have kept := filling.kept leaves
  refine ⟨?_, kept.notFinal, ?_, ?_⟩
  · intro other listed
    rcases List.mem_append.mp listed with earlier | isLast
    · exact kept.sent other earlier
    · rw [List.mem_singleton.mp isLast]
      exact last
  · have absent : number ∉ job.published := by
      intro listed
      have sent := (filling.sent number listed).sent
      rw [Shared.sent, held] at sent
      simp at sent
    exact List.nodup_append.mpr ⟨filling.nodup, by simp, by
      intro earlier listed other isLast same
      rw [same, List.mem_singleton.mp isLast] at listed
      exact absent listed⟩
  · rw [kept.slots, List.flatMap_append, List.flatMap_singleton, publish_contents]

/-- `DoneMetaBlk` publishes a block of which a slot has been used, and lets go of it. -/
theorem doneMetaBlk_eq {number used : Nat} (positive : 1 ≤ used) (position : Nat)
    (waiting : Option (Option DataBlock)) (job : Job) :
    doneMetaBlk shared ⟨some position, used, waiting, some number, some job⟩ =
      (shared.publish number position used,
        ⟨none, used, waiting, none, some { job with published := job.published ++ [number] }⟩) := by
  simp only [doneMetaBlk, Option.getD_some, Option.map_some]
  rw [if_neg (by omega)]

/-- The next slot of a block that is not full is returned. -/
theorem takeMeta_ok (accounting : Accounting modules blocks capacity slots shared)
    (several : 3 ≤ blocks) (nonempty : 1 ≤ modules)
    (addressable : slots * sizeofPacketMeta ≤ 2 ^ 32) {number used : Nat} {job : Job}
    {dataBlk : Option DataBlock} (held : Held blocks shared job.dataBlk number)
    (same : job.dataBlk = addrOf dataBlk) (free : used < usableAt capacity slots (number % blocks))
    (filling : Filling blocks capacity slots shared job (slotsOf blocks capacity number used))
    (waiting : Option (Option DataBlock)) :
    ∃ capture, takeMeta dataBlk shared ⟨some (number % blocks), used, waiting, some number, some job⟩ =
        (shared, capture) ∧
      CaptureOk blocks capacity slots shared capture ∧ capture.holds = some number := by
  have inside : number % blocks < blocks := Nat.mod_lt _ (by omega)
  have slot : getMetaInBlk shared.ring 0 (shared.ring.metaBlk (number % blocks)) used =
      some (slotAt capacity (number % blocks) used) :=
    accounting.sized.getMetaInBlk_eq addressable
      (accounting.ledger.represents.mapped 0 (by omega)) inside _
      (accounting.placed number (.inl held.claimed)) free (.inl (accounting.size_claimed held.claimed))
  have bounded : used + 1 < 2 ^ 32 := by
    have most := accounting.sized.usable_le (number % blocks)
    have half := accounting.sized.capacity_le several
    simp only [sizeofPacketMeta] at addressable
    omega
  have check : ((shared.ring.metaBlk (number % blocks)).dataBlk == addrOf dataBlk) = true := by
    rw [held.entered, same, beq_self_eq_true]
  refine ⟨⟨some (number % blocks), used + 1, none, some number,
    some { job with slots := job.slots ++ [some (slotAt capacity (number % blocks) used)] }⟩,
    ?_, ?_, rfl⟩
  · simp only [takeMeta, Option.getD_some, Option.map_some, slot, u32_of_lt bounded,
      asserted_eq _ accounting.asserted check]
  · refine .fills number (used + 1) _ held (by omega) free ⟨filling.sent, filling.notFinal, filling.nodup, ?_⟩
    rw [slotsOf_succ, ← List.append_assoc, ← filling.slots]

/-- What an operation of a capture leads to: a state with an account, and no change to the blocks of
the others. -/
structure Outcome (modules blocks capacity slots : Nat) (own : Option Nat) (shared : Shared)
    (result : Shared × Capture) : Prop where
  accounting : Accounting modules blocks capacity slots result.1
  capture : CaptureOk blocks capacity slots result.1 result.2
  leaves : Leaves blocks own shared result.1
  /-- The capture holds its old claim, a new one or none. -/
  holder : ∀ number, result.2.holds = some number →
    own = some number ∨ shared.status number = .unclaimed

/-- A try to claim a block leads to a first slot or to a wait. -/
theorem waitNextEmptyMetaBlk_ok (accounting : Accounting modules blocks capacity slots shared)
    (several : 3 ≤ blocks) (nonempty : 1 ≤ modules)
    (addressable : slots * sizeofPacketMeta ≤ 2 ^ 32) (used : Nat)
    (waiting : Option (Option DataBlock)) {job : Job} {dataBlk : Option DataBlock}
    (same : job.dataBlk = addrOf dataBlk) (filling : Filling blocks capacity slots shared job []) :
    Outcome modules blocks capacity slots none shared
      (waitNextEmptyMetaBlk dataBlk shared ⟨none, used, waiting, none, some job⟩) := by
  rcases accounting.getEmptyMetaBlk_cases several nonempty addressable with
    decided | ⟨ring, taken, decided, -, claimed, unclaimed, ofTaken, leavesTaken, status, notFinal⟩
  · simp only [waitNextEmptyMetaBlk, decided]
    exact ⟨accounting, .waits used dataBlk job same filling, Leaves.refl blocks none shared,
      fun number holder => by cases holder⟩
  · have size := ofTaken.size_claimed status
    generalize entered : taken.write (shared.cursors.tail % blocks)
      (enteredBlock dataBlk (taken.ring.metaBlk (shared.cursors.tail % blocks))) = written
    have ofWritten : Accounting modules blocks capacity slots written ∧
        Leaves blocks (some shared.cursors.tail) taken written := by
      rw [← entered]
      exact ofTaken.write status _ rfl rfl rfl
    have leaves : Leaves blocks none shared written := by
      refine leavesTaken.trans ofWritten.2 fun number isTail claimedBefore => ?_
      rw [← Option.some.inj isTail, unclaimed] at claimedBefore
      cases claimedBefore
    have held : Held blocks written job.dataBlk shared.cursors.tail := by
      rw [← entered]
      refine ⟨status, ?_, ?_⟩
      · simp only [Shared.write, setMetaBlk_self, enteredBlock, same]
      · simp only [Shared.write, setMetaBlk_self, enteredBlock, notFinal]
    have asserts : { written with asserted := taken.asserted &&
        (taken.ring.metaBlk (shared.cursors.tail % blocks)).size == 0 &&
          !(taken.ring.metaBlk (shared.cursors.tail % blocks)).isFinal } = written := by
      have unchanged : taken.asserted = written.asserted := by
        rw [← entered]
        rfl
      rw [unchanged, Bool.and_assoc]
      exact asserted_eq _ ofWritten.1.asserted (by simp [size, notFinal])
    obtain ⟨capture, returned, ok, holds⟩ := takeMeta_ok ofWritten.1 several nonempty addressable
      held same (Nat.lt_of_lt_of_le Nat.zero_lt_one (Nat.le_max_left _ _))
      (by simpa [slotsOf] using filling.kept leaves) waiting
    have result : waitNextEmptyMetaBlk dataBlk shared ⟨none, used, waiting, none, some job⟩ =
        (written, capture) := by
      simp only [waitNextEmptyMetaBlk, decided, enterMetaBlk, ← claimed, entered, asserts]
      exact returned
    rw [result]
    refine ⟨ofWritten.1, ok, leaves, fun number holder => .inr ?_⟩
    rw [← Option.some.inj (holds.symm.trans holder)]
    exact unclaimed

/-- `GetMeta4PktBlk` of a capture that works for the data block or for none. -/
theorem getMeta4PktBlk_ok (accounting : Accounting modules blocks capacity slots shared)
    (several : 3 ≤ blocks) (nonempty : 1 ≤ modules)
    (addressable : slots * sizeofPacketMeta ≤ 2 ^ 32) {capture : Capture}
    {dataBlk : Option DataBlock} (ok : CaptureOk blocks capacity slots shared capture)
    (accepts : capture.accepts dataBlk = true) :
    Outcome modules blocks capacity slots capture.holds shared
      (getMeta4PktBlk dataBlk shared (capture.opened dataBlk)) := by
  cases ok with
  | idle used =>
    have fresh : Filling blocks capacity slots shared ⟨addrOf dataBlk, [], []⟩ [] :=
      ⟨fun _ listed => absurd listed List.not_mem_nil,
        fun _ listed => absurd listed List.not_mem_nil, List.nodup_nil, rfl⟩
    simpa only [getMeta4PktBlk, Capture.opened, doneMetaBlk, true_or, ↓reduceIte,
      Option.getD_none] using waitNextEmptyMetaBlk_ok accounting several nonempty addressable used
        none rfl fresh
  | waits used other job same filling => simp [Capture.accepts] at accepts
  | fills number used job held positive usable filling =>
    have same : job.dataBlk = addrOf dataBlk := by simpa [Capture.accepts] using accepts
    have inside : number % blocks < blocks := Nat.mod_lt _ (by omega)
    have capacityEq := accounting.sized.getMetaBlkCapacity_eq several addressable inside _
      (accounting.placed number (.inl held.claimed))
    have full : isMetaBlkFull shared.ring
        ⟨some (number % blocks), used, none, some number, some job⟩ =
          decide (roomAt capacity slots (number % blocks) ≤ used) := by
      simp only [isMetaBlkFull, capacityEq]
    simp only [getMeta4PktBlk, Capture.opened, Option.getD_some, full, reduceCtorEq, false_or,
      decide_eq_true_eq]
    by_cases isFull : roomAt capacity slots (number % blocks) ≤ used
    · rw [if_pos isFull, doneMetaBlk_eq positive]
      obtain ⟨published, leaves⟩ := accounting.publish held.claimed positive
      obtain ⟨sent, notFinal, nodup, read⟩ :=
        filling.published accounting held.claimed held.entered positive usable
      have refilled : Filling blocks capacity slots (shared.publish number (number % blocks) used)
          { job with published := job.published ++ [number] } [] := by
        refine ⟨sent, fun other listed => ?_, nodup, by rw [List.append_nil]; exact read⟩
        rcases List.mem_append.mp listed with earlier | isLast
        · exact notFinal other earlier
        · rw [List.mem_singleton.mp isLast, publish_contents]
          exact held.notFinal
      have sameJob : ({ job with published := job.published ++ [number] } : Job).dataBlk =
          addrOf dataBlk := same
      have outcome := waitNextEmptyMetaBlk_ok published several nonempty addressable used none
        sameJob refilled
      refine ⟨outcome.accounting, outcome.capture,
        leaves.trans outcome.leaves (fun _ impossible => by cases impossible), ?_⟩
      intro other holder
      rcases outcome.holder other holder with impossible | unclaimed
      · cases impossible
      · by_cases own : other = number
        · exact .inl (by rw [own])
        · exact .inr ((Function.update_of_ne own _ _).symm.trans unclaimed)
    · rw [if_neg isFull]
      have free : used < usableAt capacity slots (number % blocks) := by
        simp only [usableAt]
        omega
      obtain ⟨capture, returned, ok, holds⟩ :=
        takeMeta_ok accounting several nonempty addressable held same free filling none
      rw [returned]
      exact ⟨accounting, ok, Leaves.refl blocks _ shared,
        fun other holder => .inl (holds.symm.trans holder)⟩

/-- `FinalMetaBlk` publishes the block being filled as the last one of its job. -/
theorem finalMetaBlk_ok (accounting : Accounting modules blocks capacity slots shared)
    {capture : Capture} (ok : CaptureOk blocks capacity slots shared capture)
    (returned : capture.waiting = none) (final : Shared) (done : Capture)
    (result : finalMetaBlk shared capture = (final, done)) :
    Outcome modules blocks capacity slots capture.holds shared (final, { done with job := none }) ∧
      ∀ job ∈ done.job.toList, Finished blocks capacity slots final job := by
  cases ok with
  | idle used =>
    obtain ⟨rfl, rfl⟩ := Prod.mk.inj result
    exact ⟨⟨accounting, .idle used, Leaves.refl blocks none shared, fun _ none => by cases none⟩,
      fun _ listed => by simp at listed⟩
  | waits used other job same filling => cases returned
  | fills number used job held positive usable filling =>
    obtain ⟨written, leavesWritten⟩ := accounting.write held.claimed
      (finalBlock (shared.ring.metaBlk (number % blocks))) rfl rfl rfl
    generalize marked : shared.write (number % blocks)
      (finalBlock (shared.ring.metaBlk (number % blocks))) = middle at written leavesWritten
    have block : middle.ring.metaBlk (number % blocks) =
        finalBlock (shared.ring.metaBlk (number % blocks)) := by
      rw [← marked]
      exact setMetaBlk_self _ _ _
    have claimed : middle.status number = .claimed := by
      rw [← marked]
      exact held.claimed
    simp only [finalMetaBlk, marked, doneMetaBlk_eq positive] at result
    obtain ⟨rfl, rfl⟩ := Prod.mk.inj result
    obtain ⟨published, leaves⟩ := written.publish claimed positive
    obtain ⟨sent, notFinal, nodup, read⟩ := (filling.kept leavesWritten).published written claimed
      (by rw [block]; exact held.entered) positive usable
    refine ⟨⟨published, .idle used, leavesWritten.trans leaves (fun _ own _ => own),
      fun _ none => by cases none⟩, ?_⟩
    intro job listed
    simp only [Option.toList_some, List.mem_singleton] at listed
    subst listed
    refine ⟨sent, ⟨job.published, number, rfl, notFinal, ?_⟩, nodup, read⟩
    rw [publish_contents, block]
    rfl

end Operations

/-! ## The invariant -/

/-- The invariant of the producer, its captures and its consumers. -/
structure ProducingOk (modules blocks capacity slots : Nat) (state : Producing) : Prop where
  accounting : Accounting modules blocks capacity slots state.shared
  captures : ∀ captureId, CaptureOk blocks capacity slots state.shared (state.captures captureId)
  /-- No two captures fill the same block. -/
  holders : ∀ captureId other number, (state.captures captureId).holds = some number →
    (state.captures other).holds = some number → captureId = other
  finished : ∀ job ∈ state.finished, Finished blocks capacity slots state.shared job
  /-- The last slot returned is the last one of its capture's job. -/
  returned : ∀ captureId slot, state.returned = some (captureId, slot) →
    (state.captures captureId).waiting = none ∧
      ∃ job, (state.captures captureId).job = some job ∧ job.slots.getLast? = some slot

/-- A started ring, sized as `InitRing` does it, meets the invariant of the producers. -/
theorem Started.producingOk {modules blocks capacity slots : Nat} {ring : Ring}
    (started : Started modules blocks ring) (sized : Sized blocks capacity slots ring.global) :
    ProducingOk modules blocks capacity slots (Producing.start ring) where
  accounting := {
    ledger := started.ledger
    sized := sized
    asserted := rfl
    placed := fun _ live => by simp [Shared.live, Producing.start] at live
    blank := fun position _ => by
      simp only [Producing.start, started.cleared position, PktMetaBlk.zero]
    frozen := fun _ impossible => by cases impossible }
  captures _ := .idle 0
  holders _ _ _ impossible := by cases impossible
  finished _ impossible := absurd impossible List.not_mem_nil
  returned _ _ impossible := by cases impossible

namespace ProducingOk

variable {modules blocks capacity slots : Nat} {state : Producing}

/-- An operation of one capture keeps what is known of the others. -/
theorem operation (ok : ProducingOk modules blocks capacity slots state) (captureId : Nat)
    {shared : Shared} {capture : Capture}
    (outcome : Outcome modules blocks capacity slots (state.captures captureId).holds state.shared
      (shared, capture))
    (next : Producing) (memory : next.shared = shared)
    (stored : next.captures = Function.update state.captures captureId capture)
    (finished : ∀ job ∈ next.finished, job ∈ state.finished ∨
      Finished blocks capacity slots shared job)
    (returned : ∀ other slot, next.returned = some (other, slot) → other = captureId ∧
      capture.waiting = none ∧ ∃ job, capture.job = some job ∧ job.slots.getLast? = some slot) :
    ProducingOk modules blocks capacity slots next := by
  subst memory
  have own : next.captures captureId = capture := by rw [stored, Function.update_self]
  have others : ∀ other, other ≠ captureId → next.captures other = state.captures other := by
    intro other different
    rw [stored, Function.update_of_ne different]
  -- The claim this capture holds now is held by no other one.
  have exclusive : ∀ other number, other ≠ captureId → capture.holds = some number →
      (state.captures other).holds ≠ some number := by
    intro other number different holds same
    rcases outcome.holder number holds with before | unclaimed
    · exact different (ok.holders other captureId number same before)
    · have other_ok := ok.captures other
      generalize state.captures other = there at same other_ok
      cases other_ok with
      | idle used => cases same
      | waits used dataBlk job equal filling => cases same
      | fills claim used job held positive usable filling =>
        obtain rfl := Option.some.inj same
        rw [held.claimed] at unclaimed
        cases unclaimed
  constructor
  case accounting => exact outcome.accounting
  case captures =>
    intro other
    by_cases same : other = captureId
    · rw [same, own]
      exact outcome.capture
    · rw [others other same]
      exact (ok.captures other).kept outcome.leaves fun number holds before =>
        same (ok.holders other captureId number holds before)
  case holders =>
    intro first second number firstHolds secondHolds
    by_cases isFirst : first = captureId
    · by_cases isSecond : second = captureId
      · rw [isFirst, isSecond]
      · rw [isFirst, own] at firstHolds
        rw [others second isSecond] at secondHolds
        exact absurd secondHolds (exclusive second number isSecond firstHolds)
    · rw [others first isFirst] at firstHolds
      by_cases isSecond : second = captureId
      · rw [isSecond, own] at secondHolds
        exact absurd firstHolds (exclusive first number isFirst secondHolds)
      · rw [others second isSecond] at secondHolds
        exact ok.holders first second number firstHolds secondHolds
  case finished =>
    intro job listed
    rcases finished job listed with before | now
    · exact (ok.finished job before).kept outcome.leaves
    · exact now
  case returned =>
    intro other slot answered
    obtain ⟨rfl, waiting, job⟩ := returned other slot answered
    rw [own]
    exact ⟨waiting, job⟩

/-- The answer to a call of `GetMeta4PktBlk` keeps the invariant. -/
theorem answer (ok : ProducingOk modules blocks capacity slots state) (captureId : Nat)
    (result : Shared × Capture)
    (outcome : Outcome modules blocks capacity slots (state.captures captureId).holds state.shared
      result) :
    ProducingOk modules blocks capacity slots (state.answer captureId result) := by
  obtain ⟨shared, capture⟩ := result
  refine ok.operation captureId outcome _ rfl rfl (fun job listed => .inl listed) ?_
  intro other slot answered
  simp only [Producing.answer] at answered
  split at answered
  · rename_i job returned working
    obtain ⟨last, isLast, pair⟩ := Option.map_eq_some_iff.mp answered
    obtain ⟨rfl, rfl⟩ := Prod.mk.inj pair
    exact ⟨rfl, returned, job, working, isLast⟩
  · cases answered

/-- A step of a consumer keeps the invariant, as it touches no block that a capture fills. -/
theorem consumer (ok : ProducingOk modules blocks capacity slots state) {shared : Shared}
    (accounting : Accounting modules blocks capacity slots shared)
    (leaves : Leaves blocks none state.shared shared) :
    ProducingOk modules blocks capacity slots { state with shared := shared, returned := none } where
  accounting := accounting
  captures captureId := (ok.captures captureId).kept leaves fun _ _ impossible => by
    cases impossible
  holders := ok.holders
  finished job listed := (ok.finished job listed).kept leaves
  returned _ _ impossible := by cases impossible

/-- Every step keeps the invariant, by the lemma for its kind. -/
theorem step (ok : ProducingOk modules blocks capacity slots state) (several : 3 ≤ blocks)
    (nonempty : 1 ≤ modules) (addressable : slots * sizeofPacketMeta ≤ 2 ^ 32)
    (label : ProducingStep) (next : Producing) (stepped : state.step label = some next) :
    ProducingOk modules blocks capacity slots next := by
  cases label with
  | getMeta captureId dataBlk =>
    obtain ⟨accepts, rfl⟩ := Producing.step_getMeta_iff.mp stepped
    exact ok.answer captureId _ (getMeta4PktBlk_ok ok.accounting several nonempty addressable
      (ok.captures captureId) accepts.2)
  | resume captureId =>
    obtain ⟨dataBlk, waiting, rfl⟩ := Producing.step_resume_iff.mp stepped
    apply ok.answer captureId
    have waits := ok.captures captureId
    generalize state.captures captureId = capture at waiting waits
    cases waits with
    | idle used => cases waiting
    | fills number used job held positive usable filling => cases waiting
    | waits used other job same filling =>
      obtain rfl := Option.some.inj waiting
      exact waitNextEmptyMetaBlk_ok ok.accounting several nonempty addressable used _ same filling
  | final captureId =>
    obtain ⟨returned, rfl⟩ := Producing.step_final_iff.mp stepped
    obtain ⟨outcome, finished⟩ := finalMetaBlk_ok ok.accounting (ok.captures captureId) returned.2
      _ _ rfl
    refine ok.operation captureId outcome _ rfl rfl ?_ (fun _ _ impossible => by cases impossible)
    intro job listed
    exact (List.mem_append.mp listed).imp_right (finished job)
  | move id count =>
    obtain ⟨⟨registered, counted, ready⟩, rfl⟩ := Producing.step_move_iff.mp stepped
    have inside : id < modules := ok.accounting.ledger.represents.registered ▸ registered
    obtain ⟨accounting, leaves⟩ := ok.accounting.move several id count inside counted ready
    exact ok.consumer accounting leaves
  | free number =>
    obtain ⟨published, rfl⟩ := Producing.step_free_iff.mp stepped
    obtain ⟨accounting, leaves⟩ := ok.accounting.free published
    exact ok.consumer accounting leaves

end ProducingOk

/-- The invariant holds after every run. What the claims say of the producers is read off from it. -/
theorem producingOk_run {modules blocks capacity slots : Nat} {ring : Ring}
    (started : Started modules blocks ring) (sized : Sized blocks capacity slots ring.global)
    (several : 3 ≤ blocks) (nonempty : 1 ≤ modules)
    (addressable : slots * sizeofPacketMeta ≤ 2 ^ 32) (labels : List ProducingStep)
    (final : Producing) (ran : Runs.run Producing.step (Producing.start ring) labels = some final) :
    ProducingOk modules blocks capacity slots final :=
  Runs.run_invariant Producing.step (ProducingOk modules blocks capacity slots)
    (fun _ label next ok stepped => ok.step several nonempty addressable label next stepped)
    (Producing.start ring) final labels (started.producingOk sized) ran

/-! ## Producer accounting -/

/-- A producer may use the slot for the block: its first one, or one within its
capacity. -/
def BelongsTo (ring : Ring) (block : PktMetaBlk) (slot : Option Nat) : Prop :=
  ∃ index, (index = 0 ∨ index < getMetaBlkCapacity ring block) ∧
    getMetaInBlk ring 0 { block with size := 0 } index = slot

/-- What a module reads from a block with `GetPktMetaInBlk`. -/
def readMetaBlk (ring : Ring) (id : Nat) (block : PktMetaBlk) : List (Option Nat) :=
  (List.range block.size).map (getMetaInBlk ring id block)

/-- The account of a finished job: its blocks, their slots in the order of claims, and the final
one. -/
structure JobAccounted (shared : Shared) (job : Job) : Prop where
  called : 1 ≤ job.slots.length
  distinct : job.published.Nodup
  carried : ∀ number ∈ job.published, (shared.contents number).dataBlk = job.dataBlk
  sizes : ∀ number ∈ job.published, 1 ≤ (shared.contents number).size ∧
    (shared.contents number).size ≤ shared.ring.global.metaBlkCapacity
  counted : (job.published.map fun number => (shared.contents number).size).sum = job.slots.length
  /-- Exactly the last block published is final. -/
  final : ∃ before last, job.published = before ++ [last] ∧
    (∀ number ∈ before, (shared.contents number).isFinal = false) ∧
    (shared.contents last).isFinal = true
  /-- Reading the blocks in order gives the slots of the calls in order. -/
  readBack : ∀ id < shared.ring.global.index,
    (job.published.flatMap fun number => readMetaBlk shared.ring id (shared.contents number)) =
      job.slots
  /-- What was published is in the ring until it is freed. -/
  kept : ∀ number ∈ job.published, shared.sent number ∧
    (shared.status number ≠ .freed →
      shared.ring.metaBlk (shared.claims.getD number 0) = shared.contents number)

/-- The account of a state of a run, of the slot just returned and of the jobs that are finished. -/
structure Accounted (state : Producing) : Prop where
  asserted : state.shared.asserted = true
  /-- The slot just returned exists, is one of the block being filled, and is a slot of
  no other block that has not been freed. -/
  returned : ∀ captureId slot, state.returned = some (captureId, slot) →
    ∃ number index, (state.captures captureId).holds = some number ∧
      slot = some (state.shared.ring.global.metaSize * index) ∧
      index < getMetaCount state.shared.ring ∧
      BelongsTo state.shared.ring
        (state.shared.ring.metaBlk (state.shared.claims.getD number 0)) slot ∧
      ∀ other, other ≠ number → state.shared.live other → ¬ BelongsTo state.shared.ring
        (state.shared.ring.metaBlk (state.shared.claims.getD other 0)) slot
  finished : ∀ job ∈ state.finished, JobAccounted state.shared job

namespace Accounting

variable {modules blocks capacity slots : Nat} {shared : Shared}

/-- The slots of a live block belong to it and to no other claim. -/
theorem belongsTo_iff (accounting : Accounting modules blocks capacity slots shared)
    (several : 3 ≤ blocks) (nonempty : 1 ≤ modules)
    (addressable : slots * sizeofPacketMeta ≤ 2 ^ 32) {number : Nat} (live : shared.live number)
    (slot : Option Nat) :
    BelongsTo shared.ring (shared.ring.metaBlk (shared.claims.getD number 0)) slot ↔
      ∃ index < usableAt capacity slots (number % blocks),
        slot = some (slotAt capacity (number % blocks) index) := by
  have inside : number % blocks < blocks := Nat.mod_lt _ (by omega)
  have place : shared.claims.getD number 0 = number % blocks := by
    refine accounting.ledger.claims_getD number fun unclaimed => ?_
    rw [Shared.live, unclaimed] at live
    simp at live
  have placed := accounting.placed number live
  have usable : ∀ index, (index = 0 ∨ index < getMetaBlkCapacity shared.ring
      (shared.ring.metaBlk (number % blocks))) ↔ index < usableAt capacity slots (number % blocks) := by
    intro index
    rw [accounting.sized.getMetaBlkCapacity_eq several addressable inside _ placed]
    simp only [usableAt]
    omega
  have taken : ∀ index < usableAt capacity slots (number % blocks),
      getMetaInBlk shared.ring 0 { shared.ring.metaBlk (number % blocks) with size := 0 } index =
        some (slotAt capacity (number % blocks) index) := fun index free =>
    accounting.sized.getMetaInBlk_eq addressable
      (accounting.ledger.represents.mapped 0 (by omega)) inside _ placed free (.inl rfl)
  simp only [BelongsTo, place, usable]
  constructor
  · rintro ⟨index, free, equal⟩
    exact ⟨index, free, by rw [← equal, taken index free]⟩
  · rintro ⟨index, free, rfl⟩
    exact ⟨index, free, taken index free⟩

/-- Reading a published block gives its slots, one for each of the packets that the capture put into
it. -/
theorem readMetaBlk_eq (accounting : Accounting modules blocks capacity slots shared)
    (several : 3 ≤ blocks) (addressable : slots * sizeofPacketMeta ≤ 2 ^ 32)
    {dataBlk : Option Nat} {number : Nat} (sent : Sent blocks capacity slots shared dataBlk number)
    (id : Nat) (registered : id < modules) :
    readMetaBlk shared.ring id (shared.contents number) =
      slotsOf blocks capacity number (shared.contents number).size := by
  simp only [readMetaBlk, slotsOf]
  apply List.map_congr_left
  intro index listed
  have within := List.mem_range.mp listed
  exact accounting.sized.getMetaInBlk_eq addressable
    (accounting.ledger.represents.mapped id registered) (Nat.mod_lt _ (by omega)) _ sent.placed
    (within.trans_le sent.within) (.inr within)

end Accounting

/-- A block of so many slots has so many. -/
theorem slotsOf_length (blocks capacity number count : Nat) :
    (slotsOf blocks capacity number count).length = count := by
  simp [slotsOf]

/-- A finished job is accounted for, with every slot that it was given. -/
theorem Finished.accounted {modules blocks capacity slots : Nat} {shared : Shared} {job : Job}
    (finished : Finished blocks capacity slots shared job)
    (accounting : Accounting modules blocks capacity slots shared)
    (several : 3 ≤ blocks) (addressable : slots * sizeofPacketMeta ≤ 2 ^ 32) :
    JobAccounted shared job := by
  have counted : (job.published.map fun number => (shared.contents number).size).sum =
      job.slots.length := by
    simp only [finished.slots, List.length_flatMap, slotsOf_length]
  constructor
  case called =>
    obtain ⟨before, last, published, -⟩ := finished.final
    have some := (finished.sent last (by simp [published])).some
    rw [← counted, published]
    simp only [List.map_append, List.sum_append, List.map_cons, List.map_nil, List.sum_singleton]
    omega
  case distinct => exact finished.nodup
  case carried => exact fun number listed => (finished.sent number listed).carried
  case sizes =>
    intro number listed
    have sent := finished.sent number listed
    rw [accounting.sized.blkCapacity]
    exact ⟨sent.some, sent.within.trans (accounting.sized.usable_le _)⟩
  case counted => exact counted
  case final => exact finished.final
  case readBack =>
    intro id registered
    rw [accounting.ledger.represents.registered] at registered
    rw [finished.slots]
    exact List.flatMap_congr fun number listed =>
      accounting.readMetaBlk_eq several addressable (finished.sent number listed) id registered
  case kept =>
    intro number listed
    have sent := (finished.sent number listed).sent
    refine ⟨sent, fun notFreed => ?_⟩
    have published := sent.resolve_right notFreed
    rw [accounting.ledger.claims_getD number (by rw [published]; decide)]
    exact accounting.frozen number published

/-- While every slot has a byte offset below 2^32, every run of captures that each work
on one data block at a time, with modules that pass and free published blocks, accounts
for every call: the slot is in range and in no other unfreed block, and what is
published for a data block reads back as the slots of its calls. -/
theorem producer_accounting_when_addressable {modules blocks capacity slots : Nat} {ring : Ring}
    (started : Started modules blocks ring) (sized : Sized blocks capacity slots ring.global)
    (nonempty : 1 ≤ modules) (several : 3 ≤ blocks)
    (addressable : slots * sizeofPacketMeta ≤ 2 ^ 32) (labels : List ProducingStep)
    (final : Producing) (ran : Runs.run Producing.step (Producing.start ring) labels = some final) :
    Accounted final := by
  have ok := producingOk_run started sized several nonempty addressable labels final ran
  have accounting := ok.accounting
  refine ⟨accounting.asserted, ?_, ?_⟩
  · intro captureId slot answered
    obtain ⟨returned, job, working, isLast⟩ := ok.returned captureId slot answered
    have captureOk := ok.captures captureId
    generalize final.captures captureId = capture at returned working captureOk
    cases captureOk with
    | idle used => cases working
    | waits used dataBlk other same filling => cases returned
    | fills number used other held positive usable filling =>
      obtain rfl := Option.some.inj working
      obtain ⟨index, rfl⟩ := Nat.exists_eq_add_of_le' positive
      rw [filling.slots, slotsOf_succ, ← List.append_assoc, List.getLast?_concat] at isLast
      obtain rfl := Option.some.inj isLast
      have inside : number % blocks < blocks := Nat.mod_lt _ (by omega)
      have present := accounting.sized.index_lt inside usable
      have counted : getMetaCount final.shared.ring = slots := by
        simp only [sizeofPacketMeta] at addressable
        rw [getMetaCount, accounting.sized.mask, u32_of_lt (by omega)]
      refine ⟨number, number % blocks * capacity + index, rfl, ?_, ?_, ?_, ?_⟩
      · rw [accounting.sized.metaSize, slotAt]
      · rw [counted]
        exact present
      · exact (accounting.belongsTo_iff several nonempty addressable (.inl held.claimed) _).mpr
          ⟨index, usable, rfl⟩
      · intro other different live belongs
        obtain ⟨otherIndex, otherUsable, same⟩ :=
          (accounting.belongsTo_iff several nonempty addressable live _).mp belongs
        exact accounting.distinct (.inl held.claimed) live different
          (accounting.sized.slotAt_distinct usable otherUsable (Option.some.inj same)).symm
  · exact fun job listed => (ok.finished job listed).accounted accounting several addressable

/-- A capture fills a block of four slots and takes one slot of the next. The module
receives and frees the first block while a second capture starts. -/
theorem producer_accounting_two_captures :
    ∃ final, Runs.run Producing.step (Producing.start (freshRing 1 4 4 16))
        [.getMeta 0 (some ⟨1, .pcap⟩), .getMeta 0 (some ⟨1, .pcap⟩), .getMeta 0 (some ⟨1, .pcap⟩),
          .getMeta 0 (some ⟨1, .pcap⟩), .getMeta 0 (some ⟨1, .pcap⟩), .move 0 1, .free 0, .final 0,
          .getMeta 1 none] = some final ∧ Accounted final := by
  have completes : (Runs.run Producing.step (Producing.start (freshRing 1 4 4 16))
      [.getMeta 0 (some ⟨1, .pcap⟩), .getMeta 0 (some ⟨1, .pcap⟩), .getMeta 0 (some ⟨1, .pcap⟩),
        .getMeta 0 (some ⟨1, .pcap⟩), .getMeta 0 (some ⟨1, .pcap⟩), .move 0 1, .free 0, .final 0,
        .getMeta 1 none]).isSome = true := by decide
  have ran := (Option.some_get completes).symm
  exact ⟨_, ran, producer_accounting_when_addressable (freshRing_started 1 4 4 16)
    (freshRing_sized 1 4 4 16 (by decide) (by decide) (by decide)) (by decide) (by decide)
    (by decide) _ _ ran⟩

/-- With 2^27 slots in four blocks, the third block gets the slots of the first one,
which has not been freed. -/
theorem producer_slots_shared :
    ∃ final, Runs.run Producing.step (Producing.start (freshRing 1 4 (2 ^ 25) (2 ^ 27)))
        [.getMeta 0 (some ⟨1, .pcap⟩), .final 0, .move 0 1, .getMeta 0 (some ⟨2, .pcap⟩), .final 0,
          .getMeta 1 (some ⟨3, .pcap⟩)] = some final ∧ ¬ Accounted final := by
  obtain ⟨final, ran, returned, holds, published, read⟩ := Runs.run_reaches Producing.step
    (Producing.start (freshRing 1 4 (2 ^ 25) (2 ^ 27)))
    [.getMeta 0 (some ⟨1, .pcap⟩), .final 0, .move 0 1, .getMeta 0 (some ⟨2, .pcap⟩), .final 0,
      .getMeta 1 (some ⟨3, .pcap⟩)]
    (fun final => final.returned = some (1, some 0) ∧ (final.captures 1).holds = some 2 ∧
      final.shared.status 0 = .published ∧
      getMetaInBlk final.shared.ring 0
        { final.shared.ring.metaBlk (final.shared.claims.getD 0 0) with size := 0 } 0 = some 0)
    (by decide)
  refine ⟨final, ran, fun accounted => ?_⟩
  obtain ⟨number, index, held, -, -, -, alone⟩ := accounted.returned 1 (some 0) returned
  have isThird : number = 2 := Option.some.inj (held.symm.trans holds)
  exact alone 0 (by omega) (.inr published) ⟨0, .inl rfl, read⟩

end OpenTaker
