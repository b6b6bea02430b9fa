import OpenTaker.Signals

/-!
# Signals over runs

Runs of captures that fill their slots with packets, of senders of signals and of modules
that pass and free blocks. On a ring whose slots are addressable, the tests tell the
published blocks apart in every state of every run; where the addresses wrap, a signal can
be entered in a slot of a block of packets. A ring with fewer than three blocks gives no
block away, so that nothing is published there.
-/

namespace OpenTaker

open CursorPipeline

/-- The invariant of the producer with its signals: that of the producer, the marks of the blocks
sent, and the slots given out. -/
structure SignallingOk (modules blocks capacity slots : Nat) (state : Signalling) : Prop where
  producing : ProducingOk modules blocks capacity slots state.producing
  marked : Marked blocks capacity slots state.producing.shared state.senders
  given : ∀ captureId, Given blocks capacity state.producing.shared.ring state.senders
    (state.producing.captures captureId) (state.producing.captures captureId).usedMetaInBlk
    (state.unfilled captureId)

/-- A started ring meets the invariant of captures and signals, with no job and no signal under way. -/
theorem Started.signallingOk {modules blocks capacity slots : Nat} {ring : Ring}
    (started : Started modules blocks ring) (sized : Sized blocks capacity slots ring.global) :
    SignallingOk modules blocks capacity slots (Signalling.start ring) where
  producing := started.producingOk sized
  marked := {
    clean := fun position _ => by
      simp only [Signalling.start, Producing.start, started.cleared position, PktMetaBlk.zero]
    within := fun _ impossible => by cases impossible
    carries := fun _ impossible => by cases impossible
    byCapture := fun _ _ => rfl }
  given _ := .of_idle rfl

/-- A call that does not wait returns the last slot of the block its capture fills. -/
theorem returned_of_answer {blocks capacity slots : Nat} (state : Producing) (captureId : Nat)
    {result : Shared × Capture} (ok : CaptureOk blocks capacity slots result.1 result.2) :
    (result.2.holds = none ∧ (state.answer captureId result).returned = none) ∨
      ∃ number index, result.2.holds = some number ∧ result.2.usedMetaInBlk = index + 1 ∧
        (state.answer captureId result).returned =
          some (captureId, some (slotAt capacity (number % blocks) index)) := by
  obtain ⟨shared, capture⟩ := result
  cases ok with
  | idle used => exact .inl ⟨rfl, rfl⟩
  | waits used dataBlk job same filling => exact .inl ⟨rfl, rfl⟩
  | fills number used job held positive usable filling =>
    obtain ⟨index, rfl⟩ := Nat.exists_eq_add_of_le' positive
    refine .inr ⟨number, index, rfl, rfl, ?_⟩
    simp only [Producing.answer]
    rw [filling.slots, slotsOf_succ, ← List.append_assoc, List.getLast?_concat]
    rfl

namespace SignallingOk

variable {modules blocks capacity slots : Nat} {state : Signalling}

/-- The answer to a call of `GetMeta4PktBlk` gives one slot to fill. -/
theorem answer (ok : SignallingOk modules blocks capacity slots state) (captureId : Nat)
    (result : Shared × Capture)
    (producing : ProducingOk modules blocks capacity slots
      (state.producing.answer captureId result))
    (advanced : Advanced blocks capacity slots state.producing.shared state.senders
      (state.unfilled captureId) (result.2.usedMetaInBlk - 1) result) :
    SignallingOk modules blocks capacity slots
      (state.give (state.producing.answer captureId result)) := by
  have capture : CaptureOk blocks capacity slots result.1 result.2 := by
    have own := producing.captures captureId
    simpa only [Producing.answer, Function.update_self] using own
  have metas : ∀ offset, result.1.ring.metaAt offset = state.producing.shared.ring.metaAt offset := by
    intro offset
    simp only [Ring.metaAt, advanced.metas]
  have others : ∀ other, other ≠ captureId →
      Given blocks capacity result.1.ring state.senders
        ((state.producing.answer captureId result).captures other)
        ((state.producing.answer captureId result).captures other).usedMetaInBlk
        (state.unfilled other) := by
    intro other different
    simp only [Producing.answer, Function.update_of_ne different]
    exact (ok.given other).kept fun _ _ => ⟨rfl, fun _ _ => metas _⟩
  have given : Given blocks capacity result.1.ring state.senders result.2
      (result.2.usedMetaInBlk - 1) (state.unfilled captureId) :=
    advanced.given.kept fun _ _ => ⟨rfl, fun _ _ => metas _⟩
  have own : (state.producing.answer captureId result).captures captureId = result.2 :=
    Function.update_self _ _ _
  refine ⟨producing, advanced.marked, fun other => ?_⟩
  rcases returned_of_answer state.producing captureId capture with
    ⟨idle, nothing⟩ | ⟨number, index, holds, used, slot⟩
  · simp only [Signalling.give, nothing]
    by_cases same : other = captureId
    · rw [same, own, given.empty idle]
      exact .of_idle idle
    · exact others other same
  · simp only [Signalling.give, slot]
    by_cases same : other = captureId
    · rw [same, own, Function.update_self]
      refine ⟨?_, given.byCapture, ?_⟩
      · intro offset listed
        rcases List.mem_append.mp listed with before | now
        · exact given.own offset before
        · exact ⟨number, holds, index, by omega, List.mem_singleton.mp now⟩
      · intro holder isHolder place inside
        by_cases last : place = index
        · obtain rfl := Option.some.inj (holds.symm.trans isHolder)
          exact .inl (List.mem_append_right _ (by rw [last]; exact List.mem_singleton.mpr rfl))
        · exact (given.filled holder isHolder place (by omega)).imp_left
            fun before => List.mem_append_left _ before
    · rw [Function.update_of_ne same]
      exact others other same

/-- A step of the ring keeps the invariant, where a block that it publishes has been filled. -/
theorem ringStep (ok : SignallingOk modules blocks capacity slots state) (several : 3 ≤ blocks)
    (nonempty : 1 ≤ modules) (addressable : slots * sizeofPacketMeta ≤ 2 ^ 32)
    (label : ProducingStep) (filled : state.filled label = true) (next : Producing)
    (stepped : state.producing.step label = some next) :
    SignallingOk modules blocks capacity slots (state.give next) := by
  have producing := ok.producing.step several nonempty addressable label next stepped
  have accounting := ok.producing.accounting
  cases label with
  | getMeta captureId dataBlk =>
    obtain ⟨accepts, rfl⟩ := Producing.step_getMeta_iff.mp stepped
    refine ok.answer captureId _ producing (getMeta4PktBlk_advanced accounting ok.marked several
      nonempty addressable (ok.producing.captures captureId) accepts.2 (ok.given captureId) ?_ _ rfl)
    intro full
    simpa [Signalling.filled, full] using filled
  | resume captureId =>
    obtain ⟨dataBlk, waiting, rfl⟩ := Producing.step_resume_iff.mp stepped
    have idle : (state.producing.captures captureId).holds = none := by
      have captureOk := ok.producing.captures captureId
      generalize state.producing.captures captureId = capture at waiting captureOk ⊢
      cases captureOk with
      | idle used => rfl
      | waits used other job same filling => rfl
      | fills number used job held positive usable filling => cases waiting
    refine ok.answer captureId _ producing ?_
    rw [(ok.given captureId).empty idle]
    exact waitNextEmptyMetaBlk_advanced accounting ok.marked several nonempty addressable dataBlk
      idle _ rfl
  | final captureId =>
    have nothing : state.unfilled captureId = [] := by simpa [Signalling.filled] using filled
    have given := ok.given captureId
    rw [nothing] at given
    obtain ⟨returned, rfl⟩ := Producing.step_final_iff.mp stepped
    obtain ⟨marked, metas, idle⟩ := finalMetaBlk_advanced accounting ok.marked
      (ok.producing.captures captureId) returned.2 given _ rfl
    refine ⟨producing, marked, fun other => ?_⟩
    simp only [Signalling.give]
    by_cases same : other = captureId
    · rw [same, Function.update_self, nothing]
      exact .of_idle idle
    · rw [Function.update_of_ne same]
      exact (ok.given other).kept fun _ _ => ⟨rfl, fun _ _ => by simp only [Ring.metaAt, metas]⟩
  | move id count =>
    obtain ⟨-, rfl⟩ := Producing.step_move_iff.mp stepped
    refine ⟨producing, ok.marked.move id count, fun other => ?_⟩
    exact (ok.given other).kept fun _ _ => ⟨rfl, fun _ _ => metaAt_move id count _⟩
  | free number =>
    obtain ⟨published, rfl⟩ := Producing.step_free_iff.mp stepped
    refine ⟨producing, ok.marked.free accounting published, fun other => ?_⟩
    exact (ok.given other).kept fun _ _ => ⟨rfl, fun _ _ => rfl⟩

/-- Filling a slot keeps the invariant, as the slot belongs to the block that the capture holds. -/
theorem fill (ok : SignallingOk modules blocks capacity slots state) (captureId offset : Nat)
    (record : PacketMeta) (listed : offset ∈ state.unfilled captureId)
    (packet : 0 < record.basicAttr.pktLen) (next : Signalling)
    (stepped : state.step (.fill captureId offset record) = some next) :
    SignallingOk modules blocks capacity slots next := by
  simp only [Signalling.step] at stepped
  rw [if_pos ⟨listed, packet⟩] at stepped
  cases stepped
  obtain ⟨number, holds, index, inside, place⟩ := (ok.given captureId).own offset listed
  obtain ⟨accounting, leaves⟩ := ok.producing.accounting.setMetaAt offset record
  have producing := ok.producing.consumer accounting leaves
  obtain ⟨claimed, within⟩ := (ok.producing.captures captureId).claimed holds
  have usable := inside.trans_le within
  subst place
  refine ⟨producing, ok.marked.setMetaAt ok.producing.accounting claimed usable record,
    fun other => ?_⟩
  by_cases same : other = captureId
  · subst same
    simp only [Function.update_self]
    have given := ok.given other
    refine ⟨?_, given.byCapture, ?_⟩
    · exact fun offset before => given.own offset (List.mem_of_mem_erase before)
    · intro holder isHolder filledIndex filledInside
      by_cases own : slotAt capacity (holder % blocks) filledIndex =
          slotAt capacity (number % blocks) index
      · right
        rw [own]
        exact (congrArg (fun record => 0 < record.basicAttr.pktLen)
          (metaAt_setMetaAt _ _ record)).mpr packet
      · refine (given.filled holder isHolder filledIndex filledInside).imp ?_ ?_
        · exact fun before => (List.mem_erase_of_ne own).mpr before
        · intro before
          exact (congrArg (fun record => 0 < record.basicAttr.pktLen)
            (metaAt_setMetaAt_slotAt _ _ record (Ne.symm own))).mpr before
  · simp only [Function.update_of_ne same]
    refine (ok.given other).kept_apart accounting (ok.producing.captures other)
      (.setMetaAt ok.producing.accounting.sized usable record) (.inl claimed) ?_ fun _ _ => rfl
    exact fun held => same (ok.producing.holders other captureId number held holds)

/-- Sending a signal keeps the invariant: its block carries what its sender has written. -/
theorem send (ok : SignallingOk modules blocks capacity slots state) (several : 3 ≤ blocks)
    (nonempty : 1 ≤ modules) (addressable : slots * sizeofPacketMeta ≤ 2 ^ 32) (ts : Nat)
    (sender : Sender) (sends : sender.sends ts) :
    SignallingOk modules blocks capacity slots
      (state.send sender (sendSignal ts state.producing.shared)) := by
  cases sent : sendSignal ts state.producing.shared with
  | none => exact ok
  | some after =>
    obtain ⟨accounting, leaves, touches, live, marked⟩ := sendSignal_ok ok.producing.accounting
      ok.marked several nonempty addressable ts sender sends after sent
    refine ⟨ok.producing.consumer accounting leaves, marked, fun captureId => ?_⟩
    have captureOk := ok.producing.captures captureId
    refine (ok.given captureId).kept_apart accounting captureOk touches live ?_
      fun other different => Function.update_of_ne different _ _
    intro holds
    have unclaimed := (ok.producing.accounting.ledger.flagged.unclaimed _).mpr (Nat.le_refl _)
    rw [(captureOk.claimed holds).1] at unclaimed
    cases unclaimed

/-- Every step keeps the invariant, of the captures, the modules and the signals. -/
theorem step (ok : SignallingOk modules blocks capacity slots state) (several : 3 ≤ blocks)
    (nonempty : 1 ≤ modules) (addressable : slots * sizeofPacketMeta ≤ 2 ^ 32)
    (label : SignallingStep) (next : Signalling) (stepped : state.step label = some next) :
    SignallingOk modules blocks capacity slots next := by
  cases label with
  | ring label =>
    simp only [Signalling.step] at stepped
    split at stepped
    · rename_i filled
      obtain ⟨after, taken, rfl⟩ := Option.map_eq_some_iff.mp stepped
      exact ok.ringStep several nonempty addressable label filled after taken
    · cases stepped
  | fill captureId offset record =>
    have allowed := stepped
    simp only [Signalling.step] at allowed
    split at allowed
    · rename_i fills
      exact ok.fill captureId offset record fills.1 fills.2 next stepped
    · cases allowed
  | sendStop =>
    cases stepped
    exact ok.send several nonempty addressable 0 .stopSignal rfl
  | sendTimeout ts =>
    simp only [Signalling.step] at stepped
    split at stepped
    · rename_i nonzero
      cases stepped
      exact ok.send several nonempty addressable ts .timeoutSignal nonzero
    · cases stepped

end SignallingOk

/-! ## What the tests find -/

/-- What the tests find in a block whose first meta is this one. -/
theorem tests_of_carries {capacity position id : Nat} {ring : Ring} {block : PktMetaBlk}
    {sender : Sender} (carries : Carries capacity ring position block sender)
    (some : 1 ≤ block.size)
    (first : getMetaInBlk ring id block 0 = .some (slotAt capacity position 0)) :
    isStopSignal ring id (.some block) = .some (decide (sender = .stopSignal)) ∧
      isTimeoutSignal ring id (.some block) = .some (decide (sender = .timeoutSignal)) ∧
      collectorSeesStop ring id block = isStopSignal ring id (.some block) := by
  simp only [isStopSignal, isTimeoutSignal, isSignal, collectorSeesStop, Collector.seesStop,
    getPktMetaInBlk, first, Option.map_some]
  cases carries with
  | packets filled =>
    have packet := beq_false_of_ne (Nat.ne_of_gt (filled 0 some))
    simp [packet]
  | signal sender dataBlk final size stamp pktLen =>
    cases sender with
    | capture => exact stamp.elim
    | stopSignal =>
      have zero : (ring.metaAt (slotAt capacity position 0)).basicAttr.ts = 0 := stamp
      simp [dataBlk, final, size, zero, pktLen]
    | timeoutSignal =>
      have nonzero : (ring.metaAt (slotAt capacity position 0)).basicAttr.ts ≠ 0 := stamp
      simp [dataBlk, final, size, nonzero, pktLen]

/-- With at least three blocks and addressable slots, every signal that stands in the ring is
recognised and no block of packets is taken for one. -/
theorem SignallingOk.recognised {modules blocks capacity slots : Nat} {state : Signalling}
    (ok : SignallingOk modules blocks capacity slots state) (several : 3 ≤ blocks)
    (addressable : slots * sizeofPacketMeta ≤ 2 ^ 32) : Recognised state := by
  have accounting := ok.producing.accounting
  refine ⟨accounting.asserted, ?_⟩
  intro number published id registered block isBlock
  rw [accounting.ledger.represents.registered] at registered
  rw [accounting.ledger.claims_getD number (by rw [published]; decide)] at isBlock
  have full := (accounting.size_live (.inr published)).mpr published
  rw [← isBlock] at full
  have carries := ok.marked.carries number published
  rw [← accounting.frozen number published, ← isBlock] at carries
  refine tests_of_carries carries (by omega) ?_
  refine accounting.sized.getMetaInBlk_eq addressable
    (accounting.ledger.represents.mapped id registered) (Nat.mod_lt _ (by omega)) block ?_
    (Nat.lt_of_lt_of_le Nat.zero_lt_one (Nat.le_max_left _ _)) (.inr (by omega))
  rw [isBlock]
  exact accounting.placed number (.inr published)

/-! ## Rings of fewer than three blocks -/

/-- On a ring of at most two blocks nothing has been claimed. -/
structure Unclaimed (state : Signalling) : Prop where
  few : state.producing.shared.ring.global.metaBlkCount ≤ 2
  tail : state.producing.shared.ring.global.tailMetaBlk = 0
  cursor : state.producing.shared.ring.blkPtr 0 = 0
  status : ∀ number, state.producing.shared.status number = .unclaimed
  asserted : state.producing.shared.asserted = true
  idle : ∀ captureId, (state.producing.captures captureId).curMetaBlock = none
  unfilled : ∀ captureId, state.unfilled captureId = []

/-- There the tail is always at the safety distance, or has no block. -/
theorem getEmptyMetaBlk_of_few {ring : Ring} (few : ring.global.metaBlkCount ≤ 2)
    (tail : ring.global.tailMetaBlk = 0) (cursor : ring.blkPtr 0 = 0) :
    getEmptyMetaBlk ring = (none, ring) := by
  have refused : ∀ position after, claimPass ring ≠ .claimed position after := by
    intro position after claimed
    have taken := claimPass_taken claimed
    have first : position = 0 := taken.current.trans tail
    have notFull := taken.notFull
    have inside := (blockInside_iff _ _).mp taken.inside
    rw [first, cursor] at notFull
    have counts : ring.global.metaBlkCount = 0 ∨ ring.global.metaBlkCount = 1 ∨
        ring.global.metaBlkCount = 2 := by omega
    rcases counts with count | count | count
    · rw [count, first] at inside
      exact absurd inside (by decide)
    · rw [count] at notFull
      exact notFull rfl
    · rw [count] at notFull
      exact notFull rfl
  cases pass : claimPass ring with
  | claimed position after => exact absurd pass (refused position after)
  | _ => simp only [getEmptyMetaBlk, pass]

/-- With fewer blocks nothing can ever be claimed, so that there is nothing to mistake. -/
theorem Started.unclaimed {modules blocks : Nat} {ring : Ring}
    (started : Started modules blocks ring) (nonempty : 1 ≤ modules) (few : blocks ≤ 2) :
    Unclaimed (Signalling.start ring) where
  few := started.blockCount.trans_le few
  tail := started.tailZero
  cursor := started.cursorZero 0 nonempty
  status _ := rfl
  asserted := rfl
  idle _ := rfl
  unfilled _ := rfl

namespace Unclaimed

variable {state : Signalling}

/-- A try to claim a block leaves the capture waiting. -/
theorem waitNextEmptyMetaBlk_eq (unclaimed : Unclaimed state) (dataBlk : Option DataBlock)
    (capture : Capture) :
    waitNextEmptyMetaBlk dataBlk state.producing.shared capture =
      (state.producing.shared, { capture with waiting := some dataBlk }) := by
  simp only [waitNextEmptyMetaBlk,
    getEmptyMetaBlk_of_few unclaimed.few unclaimed.tail unclaimed.cursor]

/-- A call of a capture that ends without a block keeps the invariant. -/
theorem capture (unclaimed : Unclaimed state) (captureId : Nat) {capture : Capture}
    (idle : capture.curMetaBlock = none) (next : Signalling)
    (shared : next.producing.shared = state.producing.shared)
    (captures : next.producing.captures =
      Function.update state.producing.captures captureId capture)
    (unfilled : next.unfilled = state.unfilled) : Unclaimed next := by
  constructor
  case few =>
    rw [shared]
    exact unclaimed.few
  case tail =>
    rw [shared]
    exact unclaimed.tail
  case cursor =>
    rw [shared]
    exact unclaimed.cursor
  case status =>
    rw [shared]
    exact unclaimed.status
  case asserted =>
    rw [shared]
    exact unclaimed.asserted
  case idle =>
    intro other
    rw [captures]
    by_cases same : other = captureId
    · rw [same, Function.update_self]
      exact idle
    · rw [Function.update_of_ne same]
      exact unclaimed.idle other
  case unfilled =>
    rw [unfilled]
    exact unclaimed.unfilled

/-- A module stays where it is, as there is nothing published to move over. -/
theorem move (unclaimed : Unclaimed state) (id : Nat) :
    Unclaimed (state.give
      { state.producing with shared := state.producing.shared.move id 0, returned := none }) := by
  have ring := move_ring state.producing.shared id 0
  constructor
  case few =>
    rcases ring with same | moved
    · simpa only [Signalling.give, same] using unclaimed.few
    · simp only [Signalling.give, moved]
      exact unclaimed.few
  case tail =>
    rcases ring with same | moved
    · simpa only [Signalling.give, same] using unclaimed.tail
    · simp only [Signalling.give, moved]
      exact unclaimed.tail
  case cursor =>
    rcases ring with same | moved
    · simpa only [Signalling.give, same] using unclaimed.cursor
    · simp only [Signalling.give, moved]
      by_cases first : id = 0
      · subst first
        rw [setBlkPtr_self, unclaimed.cursor]
        exact Nat.zero_mod _
      · rw [setBlkPtr_other _ _ _ _ (Ne.symm first)]
        exact unclaimed.cursor
  case status => exact unclaimed.status
  case asserted => exact unclaimed.asserted
  case idle => exact unclaimed.idle
  case unfilled => exact unclaimed.unfilled

/-- No step of the ring claims a block where there are at most two of them, as the lead of the tail
leaves room for none. -/
theorem ringStep (unclaimed : Unclaimed state) (label : ProducingStep) (next : Producing)
    (stepped : state.producing.step label = some next) : Unclaimed (state.give next) := by
  cases label with
  | getMeta captureId dataBlk =>
    obtain ⟨-, rfl⟩ := Producing.step_getMeta_iff.mp stepped
    have idle := unclaimed.idle captureId
    simp only [getMeta4PktBlk, Capture.opened, idle, true_or, ↓reduceIte, doneMetaBlk]
    rw [unclaimed.waitNextEmptyMetaBlk_eq]
    exact unclaimed.capture captureId rfl _ rfl rfl rfl
  | resume captureId =>
    obtain ⟨_, -, rfl⟩ := Producing.step_resume_iff.mp stepped
    rw [unclaimed.waitNextEmptyMetaBlk_eq]
    refine unclaimed.capture captureId ?_ _ rfl rfl rfl
    exact unclaimed.idle captureId
  | final captureId =>
    obtain ⟨-, rfl⟩ := Producing.step_final_iff.mp stepped
    simp only [finalMetaBlk, unclaimed.idle captureId]
    exact unclaimed.capture captureId rfl _ rfl rfl rfl
  | move id count =>
    obtain ⟨⟨-, -, ready⟩, rfl⟩ := Producing.step_move_iff.mp stepped
    -- There is no published block to move over.
    have still : count = 0 := by
      by_contra moves
      have sent := ready 0 (by omega)
      simp only [Shared.sent, unclaimed.status, reduceCtorEq, or_self] at sent
    subst still
    exact unclaimed.move id
  | free number =>
    obtain ⟨published, rfl⟩ := Producing.step_free_iff.mp stepped
    rw [unclaimed.status number] at published
    cases published

/-- Nothing is ever claimed on a ring that is too small, so that every step leaves it so. -/
theorem step (unclaimed : Unclaimed state) (label : SignallingStep) (next : Signalling)
    (stepped : state.step label = some next) : Unclaimed next := by
  have refused : ∀ ts, sendSignal ts state.producing.shared = none := by
    intro ts
    simp only [sendSignal,
      getEmptyMetaBlk_of_few unclaimed.few unclaimed.tail unclaimed.cursor]
  cases label with
  | ring label =>
    simp only [Signalling.step] at stepped
    split at stepped
    · obtain ⟨after, taken, rfl⟩ := Option.map_eq_some_iff.mp stepped
      exact unclaimed.ringStep label after taken
    · cases stepped
  | fill captureId offset record =>
    simp only [Signalling.step] at stepped
    split at stepped
    · rename_i fills
      rw [unclaimed.unfilled captureId] at fills
      exact absurd fills.1 List.not_mem_nil
    · cases stepped
  | sendStop =>
    cases stepped
    rw [sendStopSignal, refused]
    exact unclaimed
  | sendTimeout ts =>
    simp only [Signalling.step] at stepped
    split at stepped
    · cases stepped
      rw [sendTimeoutSignal, refused]
      exact unclaimed
    · cases stepped

/-- Where nothing has been claimed, nothing is published, and everything is recognised. -/
theorem recognised (unclaimed : Unclaimed state) : Recognised state := by
  refine ⟨unclaimed.asserted, fun number published => ?_⟩
  rw [unclaimed.status number] at published
  cases published

end Unclaimed

/-! ## Recognition -/

/-- While every slot has a byte offset below 2^32, or there are fewer than three blocks, the
tests tell the published blocks apart in every state of every run in which captures fill
their slots with packets. -/
theorem signals_recognised_when_addressable {modules blocks capacity slots : Nat} {ring : Ring}
    (started : Started modules blocks ring) (sized : Sized blocks capacity slots ring.global)
    (nonempty : 1 ≤ modules) (addressable : 3 ≤ blocks → slots * sizeofPacketMeta ≤ 2 ^ 32)
    (labels : List SignallingStep) (final : Signalling)
    (ran : Runs.run Signalling.step (Signalling.start ring) labels = some final) :
    Recognised final := by
  by_cases several : 3 ≤ blocks
  · have ok : SignallingOk modules blocks capacity slots final :=
      Runs.run_invariant Signalling.step (SignallingOk modules blocks capacity slots)
        (fun _ label next ok stepped =>
          ok.step several nonempty (addressable several) label next stepped)
        (Signalling.start ring) final labels (started.signallingOk sized) ran
    exact ok.recognised several (addressable several)
  · have unclaimed : Unclaimed final :=
      Runs.run_invariant Signalling.step Unclaimed
        (fun _ label next unclaimed stepped => unclaimed.step label next stepped)
        (Signalling.start ring) final labels (started.unclaimed nonempty (by omega)) ran
    exact unclaimed.recognised

/-- A capture without a data block publishes one packet. Its block is used again for a
signal once it has been freed, and the slot still holds the packet. -/
theorem signals_recognised_reused :
    ∃ final, Runs.run Signalling.step (Signalling.start (freshRing 1 4 4 16))
        [.ring (.getMeta 0 none), .fill 0 0 (.captured 60), .ring (.final 0), .sendStop,
          .ring (.move 0 2), .ring (.free 0), .sendTimeout 5, .sendStop, .ring (.move 0 1),
          .sendTimeout 7] = some final ∧ Recognised final := by
  have completes : (Runs.run Signalling.step (Signalling.start (freshRing 1 4 4 16))
      [.ring (.getMeta 0 none), .fill 0 0 (.captured 60), .ring (.final 0), .sendStop,
        .ring (.move 0 2), .ring (.free 0), .sendTimeout 5, .sendStop, .ring (.move 0 1),
        .sendTimeout 7]).isSome = true := by decide +kernel
  have ran := (Option.some_get completes).symm
  exact ⟨_, ran, signals_recognised_when_addressable (freshRing_started 1 4 4 16)
    (freshRing_sized 1 4 4 16 (by decide) (by decide) (by decide)) (by decide) (fun _ => by decide)
    _ _ ran⟩

/-- With 2^27 slots in four blocks, the stop signal in the third block is entered in the
slot of the packet of the first one, and the collector takes that block for a stop signal. -/
theorem packet_taken_for_stop :
    ∃ final, Runs.run Signalling.step (Signalling.start (freshRing 1 4 (2 ^ 25) (2 ^ 27)))
        [.ring (.getMeta 0 (some ⟨1, .pcap⟩)), .fill 0 0 (.captured 60), .ring (.final 0),
          .ring (.move 0 1), .sendStop, .ring (.move 0 1), .sendStop] = some final ∧
      ¬ Recognised final := by
  obtain ⟨final, ran, published, registered, byCollector, byTest⟩ :=
    Runs.run_reaches Signalling.step (Signalling.start (freshRing 1 4 (2 ^ 25) (2 ^ 27)))
      [.ring (.getMeta 0 (some ⟨1, .pcap⟩)), .fill 0 0 (.captured 60), .ring (.final 0),
        .ring (.move 0 1), .sendStop, .ring (.move 0 1), .sendStop]
      (fun final => final.producing.shared.status 0 = .published ∧
        0 < final.producing.shared.ring.global.index ∧
        collectorSeesStop final.producing.shared.ring 0 (final.producing.shared.ring.metaBlk
          (final.producing.shared.claims.getD 0 0)) = some true ∧
        isStopSignal final.producing.shared.ring 0 (some (final.producing.shared.ring.metaBlk
          (final.producing.shared.claims.getD 0 0))) = some false)
      (by decide +kernel)
  refine ⟨final, ran, fun recognised => ?_⟩
  have agree := (recognised.tests 0 published 0 registered _ rfl).2.2
  rw [byCollector, byTest] at agree
  cases agree

end OpenTaker
