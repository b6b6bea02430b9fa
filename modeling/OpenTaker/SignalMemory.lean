import OpenTaker.SignalBlocks

/-!
# The meta slots under signals

What a published block says is spread over the block and its meta slots, and the slots
are used again without being cleared. While every slot has an address of its own, a step
of one party writes the block of its own claim and the slots of that block alone. So what
a published block carries stays until it is freed, and a block that no live claim has
taken has no data block.
-/

namespace OpenTaker

open CursorPipeline

/-! ## Slots and their addresses -/

section Addresses

variable (ring : Ring) (capacity : Nat)

/-- A slot reads back as it was written, with all fields of its meta. -/
@[simp] theorem metaAt_setMetaAt (offset : Nat) (record : PacketMeta) :
    (ring.setMetaAt offset record).metaAt offset = record := by
  simp [Ring.metaAt, Ring.setMetaAt]

/-- Slots of different blocks or indices are different memory, so that writing one leaves the other. -/
theorem metaAt_setMetaAt_slotAt {position index other otherIndex : Nat} (record : PacketMeta)
    (different : slotAt capacity position index ≠ slotAt capacity other otherIndex) :
    (ring.setMetaAt (slotAt capacity position index) record).metaAt
        (slotAt capacity other otherIndex) = ring.metaAt (slotAt capacity other otherIndex) := by
  apply Function.update_of_ne
  simp only [slotAt, sizeofPacketMeta] at different ⊢
  omega

end Addresses

/-- The sender sends a signal with such a time stamp. -/
def Sender.sends : Sender → Nat → Prop
  | .capture, _ => False
  | .stopSignal, ts => ts = 0
  | .timeoutSignal, ts => ts ≠ 0

/-- What the slots of a published block contain, by who claimed it. -/
inductive Carries (capacity : Nat) (ring : Ring) (position : Nat) (block : PktMetaBlk) :
    Sender → Prop where
  | packets (filled : ∀ index < block.size,
      0 < (ring.metaAt (slotAt capacity position index)).basicAttr.pktLen) :
      Carries capacity ring position block .capture
  | signal (sender : Sender) (dataBlk : block.dataBlk = none) (final : block.isFinal = true)
      (size : block.size = 1)
      (stamp : sender.sends (ring.metaAt (slotAt capacity position 0)).basicAttr.ts)
      (pktLen : (ring.metaAt (slotAt capacity position 0)).basicAttr.pktLen = 0) :
      Carries capacity ring position block sender

/-- A block carries the same while its slots are the same. -/
theorem Carries.kept {capacity position : Nat} {before after : Ring} {block : PktMetaBlk}
    {sender : Sender} (carries : Carries capacity before position block sender)
    (metas : ∀ index < block.size, after.metaAt (slotAt capacity position index) =
      before.metaAt (slotAt capacity position index)) :
    Carries capacity after position block sender := by
  cases carries with
  | packets filled =>
    refine .packets fun index inside => ?_
    rw [metas index inside]
    exact filled index inside
  | signal sender dataBlk final size stamp pktLen =>
    have first := metas 0 (by omega)
    refine .signal sender dataBlk final size ?_ ?_
    · rw [first]
      exact stamp
    · rw [first]
      exact pktLen

/-- What is known of the blocks and their slots between two steps. -/
structure Marked (blocks capacity slots : Nat) (shared : Shared) (senders : Nat → Sender) :
    Prop where
  /-- A block that no live claim has taken has no data block. -/
  clean : ∀ position, (∀ number, number % blocks = position → ¬ shared.live number) →
    (shared.ring.metaBlk position).dataBlk = none
  within : ∀ number, shared.status number = .published →
    (shared.contents number).size ≤ usableAt capacity slots (number % blocks)
  carries : ∀ number, shared.status number = .published →
    Carries capacity shared.ring (number % blocks) (shared.contents number) (senders number)
  byCapture : ∀ number, shared.status number = .unclaimed → senders number = .capture

/-- A step writes no block, no slot and no history but those of this claim. -/
structure Touches (blocks capacity slots number : Nat) (before after : Shared) : Prop where
  status : ∀ other, other ≠ number → after.status other = before.status other
  block : ∀ position, position ≠ number % blocks →
    after.ring.metaBlk position = before.ring.metaBlk position
  contents : ∀ other, other ≠ number → after.contents other = before.contents other
  metas : ∀ position, position ≠ number % blocks → ∀ index < usableAt capacity slots position,
    after.ring.metaAt (slotAt capacity position index) =
      before.ring.metaAt (slotAt capacity position index)

namespace Touches

variable {modules blocks capacity slots number : Nat} {before middle after shared : Shared}

/-- Steps for one claim add up to a step for that claim. -/
theorem trans (first : Touches blocks capacity slots number before middle)
    (second : Touches blocks capacity slots number middle after) :
    Touches blocks capacity slots number before after where
  status other different := (second.status other different).trans (first.status other different)
  block position different :=
    (second.block position different).trans (first.block position different)
  contents other different :=
    (second.contents other different).trans (first.contents other different)
  metas position different index usable :=
    (second.metas position different index usable).trans
      (first.metas position different index usable)

/-- A claim writes the block it takes, and no slot. -/
theorem claim : Touches blocks capacity slots shared.cursors.tail shared
    (shared.claim (shared.cursors.tail % blocks)
      (Represents.afterClaim shared.ring blocks shared.cursors)) where
  status _ different := Function.update_of_ne different _ _
  block _ different := setMetaBlk_other _ _ _ _ different
  contents _ _ := rfl
  metas _ _ _ _ := rfl

/-- Writing a block of its own is an affair of the claim alone. -/
theorem write (block : PktMetaBlk) :
    Touches blocks capacity slots number shared (shared.write (number % blocks) block) where
  status _ _ := rfl
  block _ different := setMetaBlk_other _ _ _ _ different
  contents _ _ := rfl
  metas _ _ _ _ := rfl

/-- Publishing writes the block of the claim, and the history. -/
theorem publish (size : Nat) :
    Touches blocks capacity slots number shared (shared.publish number (number % blocks) size) where
  status _ different := Function.update_of_ne different _ _
  block _ different := setMetaBlk_other _ _ _ _ different
  contents _ different := Function.update_of_ne different _ _
  metas _ _ _ _ := rfl

/-- Freeing writes the flags of the block that was claimed. -/
theorem free (place : shared.claims.getD number 0 = number % blocks) :
    Touches blocks capacity slots number shared (shared.free number) where
  status _ different := Function.update_of_ne different _ _
  block _ different := by
    simp only [Shared.free, place]
    exact setMetaBlk_other _ _ _ _ different
  contents _ _ := rfl
  metas _ _ _ _ := rfl

/-- Writing a slot inside of a block touches no slot of another one, as the usable slots of two
blocks do not meet. -/
theorem setMetaAt (sized : Sized blocks capacity slots shared.ring.global) {index : Nat}
    (usable : index < usableAt capacity slots (number % blocks)) (record : PacketMeta) :
    Touches blocks capacity slots number shared
      (shared.setMetaAt (slotAt capacity (number % blocks) index) record) where
  status _ _ := rfl
  block _ _ := rfl
  contents _ _ := rfl
  metas _ different _ inside := metaAt_setMetaAt_slotAt _ _ _ fun same =>
    different (sized.slotAt_distinct usable inside same).symm

end Touches

/-- A move writes the cursor of its module, or it is refused and writes nothing. -/
theorem move_ring (shared : Shared) (id count : Nat) :
    (shared.move id count).ring = shared.ring ∨
      (shared.move id count).ring = shared.ring.setBlkPtr id
        (u32 (shared.ring.blkPtr id + count) % shared.ring.global.metaBlkCount) := by
  simp only [Shared.move, move2NextMetaBlk]
  split
  · exact .inl rfl
  · split <;> split
    · exact .inr rfl
    · exact .inl rfl
    · exact .inr rfl
    · exact .inl rfl

/-- A move writes no block and no slot, so that what was published stays as it was. -/
theorem move_memory {shared : Shared} (id count : Nat) :
    (shared.move id count).ring.metaBlk = shared.ring.metaBlk ∧
      (shared.move id count).ring.packetMeta = shared.ring.packetMeta := by
  rcases move_ring shared id count with same | moved
  · rw [same]
    exact ⟨rfl, rfl⟩
  · rw [moved]
    exact ⟨rfl, rfl⟩

/-- A move of a module writes a cursor and no slot. -/
theorem metaAt_move {shared : Shared} (id count offset : Nat) :
    (shared.move id count).ring.metaAt offset = shared.ring.metaAt offset := by
  simp only [Ring.metaAt, (move_memory id count).2]

namespace Marked

variable {modules blocks capacity slots number : Nat} {before after shared : Shared}
  {senders sendersThen : Nat → Sender}

/-- A step that writes only the block and the slots of one claim keeps what the other
blocks carry. -/
theorem touched (marked : Marked blocks capacity slots before senders)
    (touches : Touches blocks capacity slots number before after)
    (others : ∀ other, other ≠ number → sendersThen other = senders other)
    (apart : ∀ other, other ≠ number → before.status other = .published →
      other % blocks ≠ number % blocks)
    (taken : after.status number ≠ .unclaimed)
    (own : after.live number ∨ (after.ring.metaBlk (number % blocks)).dataBlk = none)
    (sent : after.status number = .published →
      (after.contents number).size ≤ usableAt capacity slots (number % blocks) ∧
        Carries capacity after.ring (number % blocks) (after.contents number)
          (sendersThen number)) :
    Marked blocks capacity slots after sendersThen := by
  constructor
  case clean =>
    intro position free
    by_cases same : position = number % blocks
    · rcases own with live | none
      · exact absurd live (free number same.symm)
      · rw [same]
        exact none
    · rw [touches.block position same]
      refine marked.clean position fun other cell live => free other cell ?_
      rw [Shared.live, touches.status other (fun equal => same (by rw [← cell, equal]))]
      exact live
  case within =>
    intro other published
    by_cases same : other = number
    · subst same
      exact (sent published).1
    · rw [touches.status other same] at published
      rw [touches.contents other same]
      exact marked.within other published
  case carries =>
    intro other published
    by_cases same : other = number
    · subst same
      exact (sent published).2
    · rw [touches.status other same] at published
      rw [touches.contents other same, others other same]
      refine (marked.carries other published).kept fun index inside => ?_
      exact touches.metas _ (apart other same published) index
        (inside.trans_le (marked.within other published))
  case byCapture =>
    intro other unclaimed
    by_cases same : other = number
    · exact absurd (same ▸ unclaimed) taken
    · rw [touches.status other same] at unclaimed
      rw [others other same]
      exact marked.byCapture other unclaimed

/-- Publishing a block that carries what its sender promises. -/
theorem publish (marked : Marked blocks capacity slots shared senders)
    (accounting : Accounting modules blocks capacity slots shared)
    (claimed : shared.status number = .claimed) {size : Nat}
    (usable : size ≤ usableAt capacity slots (number % blocks))
    (carries : Carries capacity shared.ring (number % blocks)
      { shared.ring.metaBlk (number % blocks) with size := size } (senders number)) :
    Marked blocks capacity slots (shared.publish number (number % blocks) size) senders := by
  have published : (shared.publish number (number % blocks) size).status number = .published :=
    Function.update_self _ _ _
  refine marked.touched (.publish size) (fun _ _ => rfl) ?_ ?_ (.inl (.inr published)) ?_
  · exact fun other different sent => accounting.distinct (.inl claimed) (.inr sent) different
  · rw [published]
    decide
  · intro _
    rw [publish_contents]
    exact ⟨usable, carries.kept fun _ _ => rfl⟩

/-- Writing the block of a claim leaves what the others carry. -/
theorem write (marked : Marked blocks capacity slots shared senders)
    (accounting : Accounting modules blocks capacity slots shared)
    (claimed : shared.status number = .claimed) (block : PktMetaBlk) :
    Marked blocks capacity slots (shared.write (number % blocks) block) senders := by
  refine marked.touched (.write block) (fun _ _ => rfl) ?_ ?_ (.inl (.inl claimed)) ?_
  · exact fun other different sent => accounting.distinct (.inl claimed) (.inr sent) different
  · rw [Shared.write, claimed]
    decide
  · intro sent
    rw [Shared.write, claimed] at sent
    cases sent

/-- Filling a slot of the block of a claim. -/
theorem setMetaAt (marked : Marked blocks capacity slots shared senders)
    (accounting : Accounting modules blocks capacity slots shared)
    (claimed : shared.status number = .claimed) {index : Nat}
    (usable : index < usableAt capacity slots (number % blocks)) (record : PacketMeta) :
    Marked blocks capacity slots
      (shared.setMetaAt (slotAt capacity (number % blocks) index) record) senders := by
  refine marked.touched (.setMetaAt accounting.sized usable record) (fun _ _ => rfl) ?_ ?_
    (.inl (.inl claimed)) ?_
  · exact fun other different sent => accounting.distinct (.inl claimed) (.inr sent) different
  · rw [Shared.setMetaAt, claimed]
    decide
  · intro sent
    rw [Shared.setMetaAt, claimed] at sent
    cases sent

/-- Freeing a published block leaves what the others carry. -/
theorem free (marked : Marked blocks capacity slots shared senders)
    (accounting : Accounting modules blocks capacity slots shared)
    (published : shared.status number = .published) :
    Marked blocks capacity slots (shared.free number) senders := by
  have place : shared.claims.getD number 0 = number % blocks :=
    accounting.ledger.claims_getD number (by rw [published]; decide)
  have freed : (shared.free number).status number = .freed := Function.update_self _ _ _
  refine marked.touched (.free place) (fun _ _ => rfl) ?_ ?_ (.inr ?_) ?_
  · exact fun other different sent => accounting.distinct (.inr published) (.inr sent) different
  · rw [freed]
    decide
  · simp only [Shared.free, place, freeFullMetaBlk, setMetaBlk_self]
  · intro sent
    rw [freed] at sent
    cases sent

/-- Moving a cursor writes neither blocks nor slots, and so keeps what is marked in them. -/
theorem move (marked : Marked blocks capacity slots shared senders) (id count : Nat) :
    Marked blocks capacity slots (shared.move id count) senders := by
  constructor
  case clean =>
    rw [(move_memory id count).1]
    exact marked.clean
  case within => exact marked.within
  case carries =>
    exact fun number published =>
      (marked.carries number published).kept fun _ _ => metaAt_move id count _
  case byCapture => exact marked.byCapture

end Marked

end OpenTaker
