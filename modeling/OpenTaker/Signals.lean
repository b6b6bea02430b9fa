import OpenTaker.SignalMemory

/-!
# Recognition of signals

The tests for signals read the block and its first meta slot. What these say was written
by the sender of the block, as long as every slot has an address of its own: a capture has
filled its slots with packets before it publishes, and a signal is entered in a block that
has no data block. This is kept over runs of any length, with blocks used again.
-/

namespace OpenTaker

open CursorPipeline

/-! ## The operations of the ring -/

section Operations

variable {modules blocks capacity slots number : Nat} {shared : Shared} {senders : Nat → Sender}

/-- The meta slots are no part of what the producer accounts for. -/
theorem Accounting.setMetaAt (accounting : Accounting modules blocks capacity slots shared)
    (offset : Nat) (record : PacketMeta) :
    Accounting modules blocks capacity slots (shared.setMetaAt offset record) ∧
      Leaves blocks none shared (shared.setMetaAt offset record) := by
  have ledger := accounting.ledger
  have represents := ledger.represents
  refine ⟨?_, fun _ sent => ⟨sent, rfl⟩, fun _ claimed _ => ⟨claimed, rfl⟩⟩
  constructor
  case ledger =>
    exact ⟨⟨represents.registered, represents.blockCount, represents.narrow, represents.mapped,
      represents.stored, represents.storedTail, represents.ordered⟩, ledger.claimed,
      ledger.passedReady, ledger.flagged⟩
  case sized => exact accounting.sized
  case asserted => exact accounting.asserted
  case placed => exact accounting.placed
  case blank => exact accounting.blank
  case frozen => exact accounting.frozen

/-- The claimed block has no data block, as a claim clears its header, and the marks of all other
blocks stay. -/
theorem Marked.claim (marked : Marked blocks capacity slots shared senders)
    (accounting : Accounting modules blocks capacity slots shared) {after : Shared}
    (taken : Accounting modules blocks capacity slots after)
    (claimed : after = shared.claim (shared.cursors.tail % blocks)
      (Represents.afterClaim shared.ring blocks shared.cursors)) :
    Marked blocks capacity slots after senders ∧
      (after.ring.metaBlk (shared.cursors.tail % blocks)).dataBlk = none := by
  have status : after.status shared.cursors.tail = .claimed := by
    rw [claimed]
    exact Function.update_self _ _ _
  have touches : Touches blocks capacity slots shared.cursors.tail shared after := by
    rw [claimed]
    exact .claim
  have apart : ∀ other, shared.live other → other % blocks ≠ shared.cursors.tail % blocks :=
    fun _ live => (accounting.tail_apart taken.ledger claimed live).2
  refine ⟨?_, ?_⟩
  · refine marked.touched touches (fun _ _ => rfl) ?_ ?_ (.inl (.inl status)) ?_
    · exact fun other _ published => apart other (.inr published)
    · rw [status]
      decide
    · intro sent
      rw [status] at sent
      cases sent
  · have block : after.ring.metaBlk (shared.cursors.tail % blocks) =
        claimedBlock shared.ring (shared.cursors.tail % blocks) := by
      rw [claimed]
      exact setMetaBlk_self _ _ _
    rw [block]
    exact marked.clean _ fun other cell live => apart other live cell

/-- A try of a capture to claim a block publishes nothing, and what it claims was claimed
by no signal. -/
theorem waitNextEmptyMetaBlk_marked (accounting : Accounting modules blocks capacity slots shared)
    (marked : Marked blocks capacity slots shared senders) (several : 3 ≤ blocks)
    (nonempty : 1 ≤ modules) (addressable : slots * sizeofPacketMeta ≤ 2 ^ 32)
    (dataBlk : Option DataBlock) {capture : Capture} (empty : capture.holds = none)
    (result : Shared × Capture) (tried : waitNextEmptyMetaBlk dataBlk shared capture = result) :
    Marked blocks capacity slots result.1 senders ∧
      result.1.ring.packetMeta = shared.ring.packetMeta ∧
      ∀ number, result.2.holds = some number →
        senders number = .capture ∧ result.2.usedMetaInBlk = 1 := by
  rcases accounting.getEmptyMetaBlk_cases several nonempty addressable with
    decided | ⟨ring, taken, decided, isClaim, claimed, unclaimed, ofTaken, -, status, -⟩
  · rw [← tried]
    simp only [waitNextEmptyMetaBlk, decided]
    refine ⟨marked, trivial, fun number holds => ?_⟩
    rw [empty] at holds
    cases holds
  · subst isClaim
    have entered := (marked.claim accounting ofTaken claimed).1.write ofTaken status
      (enteredBlock dataBlk (taken.ring.metaBlk (shared.cursors.tail % blocks)))
    rw [← tried]
    simp only [waitNextEmptyMetaBlk, decided, ← claimed]
    refine ⟨⟨entered.clean, entered.within, entered.carries, entered.byCapture⟩, ?_, ?_⟩
    · rw [claimed]
      rfl
    · intro number holds
      obtain rfl := Option.some.inj holds
      exact ⟨marked.byCapture _ unclaimed, rfl⟩

/-- A signal has been entered in the block of a claim. -/
structure SignalEntered (modules blocks capacity slots ts number : Nat) (before after : Shared) :
    Prop where
  accounting : Accounting modules blocks capacity slots after
  leaves : Leaves blocks (some number) before after
  touches : Touches blocks capacity slots number before after
  claimed : after.status number = .claimed
  block : after.ring.metaBlk (number % blocks) =
    finalBlock (before.ring.metaBlk (number % blocks))
  stamped : after.ring.metaAt (slotAt capacity (number % blocks) 0) =
    (before.ring.metaAt (slotAt capacity (number % blocks) 0)).setSignal ts

/-- Entering a signal in a claimed block without a data block. -/
theorem enterSignal_ok (accounting : Accounting modules blocks capacity slots shared)
    (nonempty : 1 ≤ modules) (several : 3 ≤ blocks)
    (addressable : slots * sizeofPacketMeta ≤ 2 ^ 32) (ts : Nat)
    (claimed : shared.status number = .claimed)
    (clean : (shared.ring.metaBlk (number % blocks)).dataBlk = none) :
    SignalEntered modules blocks capacity slots ts number shared
      (enterSignal ts (number % blocks) shared) := by
  have usable : 0 < usableAt capacity slots (number % blocks) :=
    Nat.lt_of_lt_of_le Nat.zero_lt_one (Nat.le_max_left _ _)
  have slot : getMetaInBlk shared.ring 0 (shared.ring.metaBlk (number % blocks)) 0 =
      some (slotAt capacity (number % blocks) 0) :=
    accounting.sized.getMetaInBlk_eq addressable
      (accounting.ledger.represents.mapped 0 (by omega)) (Nat.mod_lt _ (by omega)) _
      (accounting.placed _ (.inl claimed)) usable (.inl (accounting.size_claimed claimed))
  generalize stamp : (shared.ring.metaAt (slotAt capacity (number % blocks) 0)).setSignal ts = record
  obtain ⟨ofStamped, leavesStamped⟩ :=
    accounting.setMetaAt (slotAt capacity (number % blocks) 0) record
  obtain ⟨ofFinal, leavesFinal⟩ := ofStamped.write claimed
    (finalBlock (shared.ring.metaBlk (number % blocks))) rfl rfl rfl
  have entered : enterSignal ts (number % blocks) shared =
      (shared.setMetaAt (slotAt capacity (number % blocks) 0) record).write (number % blocks)
        (finalBlock (shared.ring.metaBlk (number % blocks))) := by
    simp only [enterSignal, slot, stamp]
    exact asserted_eq _ ofFinal.asserted (by simp [clean])
  rw [entered]
  constructor
  case accounting => exact ofFinal
  case leaves =>
    exact ⟨fun other sent => leavesFinal.sent other (leavesStamped.sent other sent).1,
      fun other claimedBefore notOwn => leavesFinal.held other claimedBefore notOwn⟩
  case touches => exact (Touches.setMetaAt accounting.sized usable record).trans (.write _)
  case claimed => exact claimed
  case block => exact setMetaBlk_self _ _ _
  case stamped =>
    rw [stamp]
    exact metaAt_setMetaAt _ _ _

/-- The signal is published in a block that nobody else uses. -/
theorem sendSignal_ok (accounting : Accounting modules blocks capacity slots shared)
    (marked : Marked blocks capacity slots shared senders) (several : 3 ≤ blocks)
    (nonempty : 1 ≤ modules) (addressable : slots * sizeofPacketMeta ≤ 2 ^ 32) (ts : Nat)
    (sender : Sender) (sends : sender.sends ts) (after : Shared)
    (sent : sendSignal ts shared = some after) :
    Accounting modules blocks capacity slots after ∧ Leaves blocks none shared after ∧
      Touches blocks capacity slots shared.cursors.tail shared after ∧
      after.live shared.cursors.tail ∧
      Marked blocks capacity slots after (Function.update senders shared.cursors.tail sender) := by
  rcases accounting.getEmptyMetaBlk_cases several nonempty addressable with
    decided | ⟨ring, taken, decided, isClaim, claimed, unclaimed, ofTaken, leavesTaken, status, -⟩
  · simp only [sendSignal, decided] at sent
    cases sent
  · subst isClaim
    simp only [sendSignal, decided, ← claimed, Option.some.injEq] at sent
    have touchesTaken : Touches blocks capacity slots shared.cursors.tail shared taken := by
      rw [claimed]
      exact .claim
    obtain ⟨markedTaken, clean⟩ := marked.claim accounting ofTaken claimed
    have entered := enterSignal_ok ofTaken nonempty several addressable ts status clean
    generalize enterSignal ts (shared.cursors.tail % blocks) taken = final at sent entered
    obtain ⟨ofAfter, leavesAfter⟩ := entered.accounting.publish entered.claimed (Nat.le_refl 1)
    have touchesAfter := entered.touches.trans (.publish 1)
    have published : (final.publish shared.cursors.tail (shared.cursors.tail % blocks) 1).status
        shared.cursors.tail = .published := Function.update_self _ _ _
    rw [← sent]
    refine ⟨ofAfter, ?_, touchesTaken.trans touchesAfter, .inr published, ?_⟩
    · refine leavesTaken.trans (entered.leaves.trans leavesAfter fun _ own _ => own) ?_
      intro number isTail claimedBefore
      rw [← Option.some.inj isTail, unclaimed] at claimedBefore
      cases claimedBefore
    · refine markedTaken.touched touchesAfter ?_ ?_ ?_ (.inl (.inr published)) ?_
      · exact fun other different => Function.update_of_ne different _ _
      · exact fun other different sent => ofTaken.distinct (.inl status) (.inr sent) different
      · rw [published]
        decide
      · intro _
        rw [publish_contents, entered.block, Function.update_self]
        refine ⟨Nat.le_max_left _ _, .signal sender clean rfl rfl ?_ ?_⟩
        · exact (congrArg (fun record => sender.sends record.basicAttr.ts) entered.stamped).mpr sends
        · exact congrArg (fun record => record.basicAttr.pktLen) entered.stamped

end Operations

/-! ## The slots of a capture -/

/-- The claim a capture holds has been claimed and not published, and no more slots of it are in use
than there are. -/
theorem CaptureOk.claimed {blocks capacity slots number : Nat} {shared : Shared} {capture : Capture}
    (ok : CaptureOk blocks capacity slots shared capture) (holds : capture.holds = some number) :
    shared.status number = .claimed ∧
      capture.usedMetaInBlk ≤ usableAt capacity slots (number % blocks) := by
  cases ok with
  | idle used => cases holds
  | waits used dataBlk job same filling => cases holds
  | fills held used job isHeld positive usable filling =>
    obtain rfl := Option.some.inj holds
    exact ⟨isHeld.claimed, usable⟩

/-- The slots a capture was given and has not filled are slots of its block, and the first
slots of that block are filled otherwise. -/
structure Given (blocks capacity : Nat) (ring : Ring) (senders : Nat → Sender) (capture : Capture)
    (count : Nat) (unfilled : List Nat) : Prop where
  own : ∀ offset ∈ unfilled, ∃ number, capture.holds = some number ∧
    ∃ index < capture.usedMetaInBlk, offset = slotAt capacity (number % blocks) index
  byCapture : ∀ number, capture.holds = some number → senders number = .capture
  filled : ∀ number, capture.holds = some number → ∀ index < count,
    slotAt capacity (number % blocks) index ∈ unfilled ∨
      0 < (ring.metaAt (slotAt capacity (number % blocks) index)).basicAttr.pktLen

namespace Given

variable {modules blocks capacity slots count : Nat} {ring after : Ring} {senders : Nat → Sender}
  {capture : Capture} {unfilled : List Nat}

/-- A capture without a block has no slots that are still to be filled. -/
theorem empty (given : Given blocks capacity ring senders capture count unfilled)
    (idle : capture.holds = none) : unfilled = [] := by
  cases unfilled with
  | nil => rfl
  | cons offset rest =>
    obtain ⟨number, holds, -⟩ := given.own offset List.mem_cons_self
    rw [idle] at holds
    cases holds

/-- A capture that holds nothing has filled nothing that could be given away. -/
theorem of_idle (idle : capture.holds = none) :
    Given blocks capacity ring senders capture count [] where
  own _ listed := absurd listed List.not_mem_nil
  byCapture number holds := by
    rw [idle] at holds
    cases holds
  filled number holds := by
    rw [idle] at holds
    cases holds

/-- What a capture was given stays through steps that change neither its senders nor the slots it
has filled. -/
theorem kept {sendersThen : Nat → Sender}
    (given : Given blocks capacity ring senders capture count unfilled)
    (same : ∀ number, capture.holds = some number → sendersThen number = senders number ∧
      ∀ index < count, after.metaAt (slotAt capacity (number % blocks) index) =
        ring.metaAt (slotAt capacity (number % blocks) index)) :
    Given blocks capacity after sendersThen capture count unfilled where
  own := given.own
  byCapture number holds := (same number holds).1.trans (given.byCapture number holds)
  filled number holds index inside := by
    rw [(same number holds).2 index inside]
    exact given.filled number holds index inside

/-- The slots of the other captures' blocks are not touched. -/
theorem kept_apart {shared next : Shared} {number : Nat} {sendersThen : Nat → Sender}
    (given : Given blocks capacity shared.ring senders capture capture.usedMetaInBlk unfilled)
    (accounting : Accounting modules blocks capacity slots next)
    (ok : CaptureOk blocks capacity slots shared capture)
    (touches : Touches blocks capacity slots number shared next)
    (live : next.live number) (notOwn : capture.holds ≠ some number)
    (others : ∀ other, other ≠ number → sendersThen other = senders other) :
    Given blocks capacity next.ring sendersThen capture capture.usedMetaInBlk unfilled := by
  refine given.kept fun other holds => ?_
  obtain ⟨claimed, usable⟩ := ok.claimed holds
  have different : other ≠ number := fun same => notOwn (by rw [holds, same])
  refine ⟨others other different, fun index inside => ?_⟩
  refine touches.metas _ (accounting.distinct live (.inl ?_) different) index
    (inside.trans_le usable)
  rw [touches.status other different]
  exact claimed

end Given

section Captures

variable {modules blocks capacity slots : Nat} {shared : Shared} {senders : Nat → Sender}
  {unfilled : List Nat}

/-- What a try of a capture to get or to publish a block leaves. -/
structure Advanced (blocks capacity slots : Nat) (shared : Shared) (senders : Nat → Sender)
    (unfilled : List Nat) (count : Nat) (result : Shared × Capture) : Prop where
  marked : Marked blocks capacity slots result.1 senders
  metas : result.1.ring.packetMeta = shared.ring.packetMeta
  given : Given blocks capacity shared.ring senders result.2 count unfilled

/-- After a try to claim a block, no slot but the one just returned is to be filled. -/
theorem waitNextEmptyMetaBlk_advanced
    (accounting : Accounting modules blocks capacity slots shared)
    (marked : Marked blocks capacity slots shared senders) (several : 3 ≤ blocks)
    (nonempty : 1 ≤ modules) (addressable : slots * sizeofPacketMeta ≤ 2 ^ 32)
    (dataBlk : Option DataBlock) {capture : Capture} (empty : capture.holds = none)
    (result : Shared × Capture) (tried : waitNextEmptyMetaBlk dataBlk shared capture = result) :
    Advanced blocks capacity slots shared senders [] (result.2.usedMetaInBlk - 1) result := by
  obtain ⟨markedThen, metas, first⟩ := waitNextEmptyMetaBlk_marked accounting marked several
    nonempty addressable dataBlk empty result tried
  refine ⟨markedThen, metas, ?_, fun number holds => (first number holds).1, ?_⟩
  · exact fun _ listed => absurd listed List.not_mem_nil
  · intro number holds index inside
    rw [(first number holds).2] at inside
    exact absurd inside (Nat.not_lt_zero index)

/-- `DoneMetaBlk` of a filled block publishes it, marked with what the capture has filled. -/
theorem Marked.done (marked : Marked blocks capacity slots shared senders)
    (accounting : Accounting modules blocks capacity slots shared) {number used : Nat}
    {capture : Capture} (claimed : shared.status number = .claimed)
    (usable : used ≤ usableAt capacity slots (number % blocks)) (holds : capture.holds = some number)
    (given : Given blocks capacity shared.ring senders capture used []) :
    Marked blocks capacity slots (shared.publish number (number % blocks) used) senders := by
  refine marked.publish accounting claimed usable ?_
  rw [given.byCapture number holds]
  refine .packets fun index inside => ?_
  exact (given.filled number holds index inside).resolve_left List.not_mem_nil

/-- `GetMeta4PktBlk`, called by a capture that has filled its block if it is full. -/
theorem getMeta4PktBlk_advanced (accounting : Accounting modules blocks capacity slots shared)
    (marked : Marked blocks capacity slots shared senders) (several : 3 ≤ blocks)
    (nonempty : 1 ≤ modules) (addressable : slots * sizeofPacketMeta ≤ 2 ^ 32) {capture : Capture}
    {dataBlk : Option DataBlock} (ok : CaptureOk blocks capacity slots shared capture)
    (accepts : capture.accepts dataBlk = true)
    (given : Given blocks capacity shared.ring senders capture capture.usedMetaInBlk unfilled)
    (filled : isMetaBlkFull shared.ring capture = true → unfilled = [])
    (result : Shared × Capture)
    (called : getMeta4PktBlk dataBlk shared (capture.opened dataBlk) = result) :
    Advanced blocks capacity slots shared senders unfilled (result.2.usedMetaInBlk - 1) result := by
  cases ok with
  | idle used =>
    rw [given.empty rfl]
    have tried : waitNextEmptyMetaBlk dataBlk shared
        ⟨none, used, none, none, some ⟨addrOf dataBlk, [], []⟩⟩ = result := by
      simpa only [getMeta4PktBlk, Capture.opened, doneMetaBlk, true_or, ↓reduceIte,
        Option.getD_none] using called
    exact waitNextEmptyMetaBlk_advanced accounting marked several nonempty addressable dataBlk rfl
      result tried
  | waits used other job same filling => simp [Capture.accepts] at accepts
  | fills number used job held positive usable filling =>
    simp only [getMeta4PktBlk, Capture.opened, Option.getD_some, reduceCtorEq, false_or] at called
    by_cases full : isMetaBlkFull shared.ring
        ⟨some (number % blocks), used, none, some number, some job⟩ = true
    · rw [if_pos full, doneMetaBlk_eq positive] at called
      rw [filled full] at given ⊢
      obtain ⟨published, -⟩ := accounting.publish held.claimed positive
      have done := marked.done accounting held.claimed usable rfl given
      have advanced := waitNextEmptyMetaBlk_advanced published done several nonempty addressable
        dataBlk rfl result called
      exact ⟨advanced.marked, advanced.metas, advanced.given.kept fun _ _ => ⟨rfl, fun _ _ => rfl⟩⟩
    · rw [if_neg full] at called
      have bounded : used + 1 < 2 ^ 32 := by
        have most := accounting.sized.usable_le (number % blocks)
        have half := accounting.sized.capacity_le several
        simp only [sizeofPacketMeta] at addressable
        omega
      rw [← called]
      refine ⟨⟨marked.clean, marked.within, marked.carries, marked.byCapture⟩, rfl, ?_,
        given.byCapture, ?_⟩
      · intro offset listed
        obtain ⟨own, holds, index, inside, place⟩ := given.own offset listed
        refine ⟨own, holds, index, ?_, place⟩
        simp only [takeMeta, u32_of_lt bounded]
        exact Nat.lt_succ_of_lt inside
      · intro own holds index inside
        simp only [takeMeta, u32_of_lt bounded, Nat.add_sub_cancel] at inside
        exact given.filled own holds index inside

/-- `FinalMetaBlk`, called by a capture that has filled its block. -/
theorem finalMetaBlk_advanced (accounting : Accounting modules blocks capacity slots shared)
    (marked : Marked blocks capacity slots shared senders) {capture : Capture}
    (ok : CaptureOk blocks capacity slots shared capture) (returned : capture.waiting = none)
    (given : Given blocks capacity shared.ring senders capture capture.usedMetaInBlk [])
    (result : Shared × Capture) (called : finalMetaBlk shared capture = result) :
    Marked blocks capacity slots result.1 senders ∧
      result.1.ring.packetMeta = shared.ring.packetMeta ∧ result.2.holds = none := by
  cases ok with
  | idle used =>
    rw [← called]
    exact ⟨marked, rfl, rfl⟩
  | waits used other job same filling => cases returned
  | fills number used job held positive usable filling =>
    obtain ⟨written, -⟩ := accounting.write held.claimed
      (finalBlock (shared.ring.metaBlk (number % blocks))) rfl rfl rfl
    have markedFinal := marked.write accounting held.claimed
      (finalBlock (shared.ring.metaBlk (number % blocks)))
    have done := markedFinal.done written held.claimed usable rfl
      (given.kept fun _ _ => ⟨rfl, fun _ _ => rfl⟩)
    simp only [finalMetaBlk, doneMetaBlk_eq positive] at called
    rw [← called]
    exact ⟨done, rfl, rfl⟩

end Captures

end OpenTaker
