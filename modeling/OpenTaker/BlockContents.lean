import OpenTaker.BlockSlots
import OpenTaker.Delivery

/-!
# What a block contains between its claim and its freeing

The steps of the ring's parties write blocks and cursors, and no meta slot. A block that was
claimed and not freed is written only when it is published, so that its slots stay where they
are and what it was published with stays in it until it is freed. No module frees a block that
another module has not passed.
-/

namespace OpenTaker

open CursorPipeline CyclicPositions

/-- The claim has been made and its block has not been freed. -/
def Delivery.Live (state : Delivery) (number : Nat) : Prop :=
  state.status number = .claimed ∨ state.status number = .published

/-- What a step of the ring's parties leaves as it is. -/
structure Delivery.Keeps (blocks : Nat) (state next : Delivery) : Prop where
  packetMeta : next.ring.packetMeta = state.ring.packetMeta
  blkCapacity : next.ring.global.metaBlkCapacity = state.ring.global.metaBlkCapacity
  metaSize : next.ring.global.metaSize = state.ring.global.metaSize
  metaCount : next.ring.global.metaCount = state.ring.global.metaCount
  blockViewStart : ∀ id, (next.ring.global.moduleInfo id).blockViewStart =
    (state.ring.global.moduleInfo id).blockViewStart
  /-- The block of a live claim whose status stays. -/
  block : ∀ number, state.Live number → next.status number = state.status number →
    next.ring.metaBlk (number % blocks) = state.ring.metaBlk (number % blocks)

namespace Delivering

variable {modules blocks : Nat} {state next : Delivery}

/-- The state of a delivery has a ledger of its claims, which the lemmas about blocks are stated
with. -/
theorem ledger (delivering : Delivering modules blocks state) :
    Ledger modules blocks state.ring state.cursors state.claims state.status where
  represents := delivering.represents
  claimed := delivering.claimed
  passedReady id inside number passed := by
    have moved := delivering.moved id inside
    apply delivering.ready id inside
    simp only [Delivery.picked]
    omega
  flagged := delivering.flagged

/-- Two live claims have different blocks, since the ring hands a block out again only after it was
freed. -/
theorem live_distinct (delivering : Delivering modules blocks state) {number other : Nat}
    (live : state.Live number) (otherLive : state.Live other) (different : other ≠ number) :
    other % blocks ≠ number % blocks :=
  fun same => different (delivering.ledger.live_distinct other number otherLive live same)

/-- A block that is live has been claimed: its number is below the tail, which counts the claims. -/
theorem live_lt_tail (delivering : Delivering modules blocks state) {number : Nat}
    (live : state.Live number) : number < state.cursors.tail := by
  by_contra outside
  have unclaimed := (delivering.flagged.unclaimed number).mpr (by omega)
  rcases live with claimed | published
  · rw [unclaimed] at claimed
    cases claimed
  · rw [unclaimed] at published
    cases published

/-- A block that is freed was passed by every other module than module 0. -/
theorem freed_passed (delivering : Delivering modules blocks state) {id number : Nat}
    (inside : id < modules) (other : id ≠ 0) (freed : state.status number = .freed) :
    number < state.cursors.passed id := by
  have delivered := delivering.freed number freed
  have limited := delivering.limited 0 (by omega)
  have behind := delivering.represents.ordered.limit_last_le id inside other
  simp only [Delivery.picked] at limited
  omega

/-- What a module has received and not passed has been published and not freed. -/
theorem published_of_received (delivering : Delivering modules blocks state) {id number : Nat}
    (inside : id < modules) (other : id ≠ 0) (ahead : state.cursors.passed id ≤ number)
    (received : number < (state.received id).length) : state.status number = .published := by
  have picked : number < state.picked id := by
    simp only [Delivery.picked]
    omega
  refine (delivering.ready id inside number picked).resolve_right fun freed => ?_
  have passed := delivering.freed_passed inside other freed
  omega

/-- A claim writes the header of the tail block and moves the tail on, or it is refused and writes
nothing. -/
theorem claim_cases (delivering : Delivering modules blocks state) (several : 2 ≤ blocks)
    (nonempty : 1 ≤ modules) (stepped : state.step .claim = some next) :
    next = state ∨
      next = { state with
        ring := Represents.afterClaim state.ring blocks state.cursors
        cursors := state.cursors.append
        claims := state.claims ++ [state.cursors.tail % blocks]
        status := Function.update state.status state.cursors.tail .claimed } := by
  simp only [Delivery.step, delivering.represents.getEmptyMetaBlk_eq several nonempty] at stepped
  split at stepped
  · rename_i taken
    split at taken
    · cases taken
      exact .inr (Option.some.inj stepped).symm
    · cases taken
  · rename_i refused
    split at refused
    · cases refused
    · cases refused
      exact .inl (Option.some.inj stepped).symm

end Delivering

/-- A move over published blocks writes the cursor of its own module, or it is refused and writes
nothing. -/
theorem move2NextMetaBlk_ring (ring : Ring) (id count : Nat) :
    (move2NextMetaBlk ring id count).2 = ring ∨
      ∃ position, (move2NextMetaBlk ring id count).2 = ring.setBlkPtr id position := by
  simp only [move2NextMetaBlk]
  split
  · exact .inl rfl
  · split <;> split
    · exact .inr ⟨_, rfl⟩
    · exact .inl rfl
    · exact .inr ⟨_, rfl⟩
    · exact .inl rfl

/-- Moving a cursor moves no view, so that the addresses of packets stay what they were. -/
theorem setBlkPtr_blockViewStart (ring : Ring) (id other position : Nat) :
    ((ring.setBlkPtr id position).global.moduleInfo other).blockViewStart =
      (ring.global.moduleInfo other).blockViewStart := by
  by_cases same : other = id
  · subst same
    simp [Ring.setBlkPtr, Ring.setModuleInfo]
  · simp [Ring.setBlkPtr, Ring.setModuleInfo, same]

namespace Delivering

variable {modules blocks : Nat} {state next : Delivery}

/-- Writing the block of a live claim and its status keeps the other live blocks. -/
theorem keeps_of_write (delivering : Delivering modules blocks state) {number : Nat}
    (live : state.Live number) (block : PktMetaBlk) (after : BlkStatus)
    (changed : after ≠ state.status number) :
    state.Keeps blocks { state with
      ring := state.ring.setMetaBlk (number % blocks) block
      status := Function.update state.status number after } where
  packetMeta := rfl
  blkCapacity := rfl
  metaSize := rfl
  metaCount := rfl
  blockViewStart _ := rfl
  block other otherLive same := by
    have different : other ≠ number := by
      rintro rfl
      exact changed ((Function.update_self _ _ _).symm.trans same)
    exact setMetaBlk_other _ _ _ _ (delivering.live_distinct live otherLive different)

/-- Every step leaves the slots and the blocks of live claims as they are. -/
theorem keeps (delivering : Delivering modules blocks state) (several : 3 ≤ blocks)
    (nonempty : 1 ≤ modules) {label : DeliveryStep} (stepped : state.step label = some next) :
    state.Keeps blocks next := by
  cases label with
  | claim =>
    rcases delivering.claim_cases (by omega) nonempty stepped with rfl | rfl
    · exact ⟨rfl, rfl, rfl, rfl, fun _ => rfl, fun _ _ _ => rfl⟩
    · refine ⟨rfl, rfl, rfl, rfl, fun _ => rfl, fun number live same => ?_⟩
      -- Both claims are live after the step, and live claims have different blocks.
      have below := delivering.live_lt_tail live
      have after := delivering.claim several nonempty _ stepped
      have different : number ≠ state.cursors.tail := by omega
      exact setMetaBlk_other _ _ _ _ (after.live_distinct (.inl (Function.update_self _ _ _))
        (by simpa [Delivery.Live, Function.update_of_ne different] using live) different)
  | publish number size =>
    obtain ⟨⟨claimed, -, -⟩, rfl⟩ := Delivery.step_publish_iff.mp stepped
    rw [delivering.claims_getD number (by rw [claimed]; decide)]
    exact delivering.keeps_of_write (.inl claimed) _ _ (by rw [claimed]; decide)
  | receive id =>
    obtain ⟨-, rfl⟩ := Delivery.step_receive_iff.mp stepped
    exact ⟨rfl, rfl, rfl, rfl, fun _ => rfl, fun _ _ _ => rfl⟩
  | move id =>
    obtain ⟨-, rfl⟩ := Delivery.step_move_iff.mp stepped
    rcases move2NextMetaBlk_ring state.ring id 1 with same | ⟨position, moved⟩
    · simp only [same]
      exact ⟨rfl, rfl, rfl, rfl, fun _ => rfl, fun _ _ _ => rfl⟩
    · simp only [moved]
      exact ⟨rfl, rfl, rfl, rfl, fun other => setBlkPtr_blockViewStart _ _ _ _, fun _ _ _ => rfl⟩
  | free number =>
    obtain ⟨⟨delivered, published⟩, rfl⟩ := Delivery.step_free_iff.mp stepped
    have named : (state.received 0).getD number 0 = number % blocks := by
      rw [(delivering.reading 0 (by omega)).delivered]
      exact blocksFrom_getD blocks _ number delivered
    rw [named]
    exact delivering.keeps_of_write (.inr published) _ _ (by rw [published]; decide)

end Delivering

/-! ## Writes inside a block -/

namespace Delivering

variable {modules blocks : Nat} {state : Delivery}

/-- A live claim is published exactly when its block is not empty. -/
theorem size_live (delivering : Delivering modules blocks state) {number : Nat}
    (live : state.Live number) :
    (state.ring.metaBlk (number % blocks)).size ≠ 0 ↔ state.status number = .published :=
  delivering.flagged.flag number (delivering.live_lt_tail live) (delivering.flagged.live number live)

/-- Writing a block without a change of its size and position. -/
theorem touch (delivering : Delivering modules blocks state) (position : Nat) (block : PktMetaBlk)
    (size : block.size = (state.ring.metaBlk position).size)
    (place : block.blkPos = (state.ring.metaBlk position).blkPos) :
    Delivering modules blocks { state with ring := state.ring.setMetaBlk position block } where
  represents := delivering.represents.setMetaBlk position block
  claimed := delivering.claimed
  reading := delivering.reading
  moved := delivering.moved
  limited := delivering.limited
  ready := delivering.ready
  freed := delivering.freed
  flagged := delivering.flagged.touch position block size place

/-- Writing slots is no step of the ring's own: blocks, cursors and flags are as before. -/
theorem sameBlocks (delivering : Delivering modules blocks state) {ring : Ring}
    (global : ring.global = state.ring.global) (metaBlk : ring.metaBlk = state.ring.metaBlk) :
    Delivering modules blocks { state with ring := ring } where
  represents := by
    have represents := delivering.represents
    constructor
    case registered => exact global ▸ represents.registered
    case blockCount => exact global ▸ represents.blockCount
    case narrow => exact represents.narrow
    case mapped => exact global ▸ represents.mapped
    case stored =>
      intro id inside
      simp only [Ring.blkPtr, global]
      exact represents.stored id inside
    case storedTail => exact global ▸ represents.storedTail
    case ordered => exact represents.ordered
  claimed := delivering.claimed
  reading := delivering.reading
  moved := delivering.moved
  limited := delivering.limited
  ready := delivering.ready
  freed := delivering.freed
  flagged := by
    simp only [metaBlk]
    exact delivering.flagged

end Delivering

/-- The dimensions of the ring, and where the slots of each live block begin. -/
structure Located (blocks capacity slots : Nat) (state : Delivery) : Prop where
  sized : Sized blocks capacity slots state.ring.global
  offset : ∀ number, state.Live number →
    (state.ring.metaBlk (number % blocks)).offset = number % blocks * capacity

/-- At the start nothing is in any block, and the blocks stand where the sizes put them. -/
theorem located_start {blocks capacity slots : Nat} {ring : Ring}
    (sized : Sized blocks capacity slots ring.global) :
    Located blocks capacity slots (Delivery.start ring) where
  sized := sized
  offset _ live := by rcases live with impossible | impossible <;> cases impossible

namespace Located

variable {modules blocks capacity slots : Nat} {state next : Delivery}

/-- It is enough to look at the claims whose status has changed. -/
theorem of_keeps (located : Located blocks capacity slots state) (keeps : state.Keeps blocks next)
    (changed : ∀ number, next.Live number → next.status number ≠ state.status number →
      (next.ring.metaBlk (number % blocks)).offset = number % blocks * capacity) :
    Located blocks capacity slots next where
  sized := {
    blkCapacity := keeps.blkCapacity.trans located.sized.blkCapacity
    metaSize := keeps.metaSize.trans located.sized.metaSize
    mask := by rw [keeps.metaCount, located.sized.mask]
    positive := located.sized.positive
    covered := located.sized.covered }
  offset number live := by
    by_cases same : next.status number = state.status number
    · have before : state.Live number := by
        rw [Delivery.Live, same] at live
        exact live
      rw [keeps.block number before same]
      exact located.offset number before
    · exact changed number live same

/-- Each step leaves the blocks where they are, and the packets of those that are live. -/
theorem step (located : Located blocks capacity slots state)
    (delivering : Delivering modules blocks state) (several : 3 ≤ blocks) (nonempty : 1 ≤ modules)
    (addressable : slots * sizeofPacketMeta ≤ 2 ^ 32) {label : DeliveryStep}
    (stepped : state.step label = some next) : Located blocks capacity slots next := by
  refine located.of_keeps (delivering.keeps several nonempty stepped) fun number live different => ?_
  cases label with
  | claim =>
    rcases delivering.claim_cases (by omega) nonempty stepped with rfl | rfl
    · exact absurd rfl different
    · have isTail : number = state.cursors.tail := by
        by_contra other
        exact different (Function.update_of_ne other _ _)
      subst isTail
      simp only [Represents.afterClaim, setMetaBlk_self]
      exact located.sized.claimedBlock_offset addressable (Nat.mod_lt _ (by omega))
  | publish published size =>
    obtain ⟨⟨claimed, -, -⟩, rfl⟩ := Delivery.step_publish_iff.mp stepped
    have isPublished : number = published := by
      by_contra other
      exact different (Function.update_of_ne other _ _)
    subst isPublished
    simp only [delivering.claims_getD number (by rw [claimed]; decide), publishMetaBlk,
      setMetaBlk_self]
    exact located.offset number (.inl claimed)
  | receive id =>
    obtain ⟨-, rfl⟩ := Delivery.step_receive_iff.mp stepped
    exact absurd rfl different
  | move id =>
    obtain ⟨-, rfl⟩ := Delivery.step_move_iff.mp stepped
    exact absurd rfl different
  | free freed =>
    obtain ⟨-, rfl⟩ := Delivery.step_free_iff.mp stepped
    have isFreed : number = freed := by
      by_contra other
      exact different (Function.update_of_ne other _ _)
    subst isFreed
    rcases live with impossible | impossible <;> simp at impossible

/-- Writing a block without a change of where its slots begin. -/
theorem touch (located : Located blocks capacity slots state) (position : Nat) (block : PktMetaBlk)
    (offset : block.offset = (state.ring.metaBlk position).offset) :
    Located blocks capacity slots { state with ring := state.ring.setMetaBlk position block } where
  sized := located.sized
  offset number live := by
    by_cases same : number % blocks = position
    · subst same
      simp only [setMetaBlk_self, offset]
      exact located.offset number live
    · rw [setMetaBlk_other _ _ _ _ same]
      exact located.offset number live

/-- Steps that write slots and nothing else leave the blocks where they are. -/
theorem sameBlocks (located : Located blocks capacity slots state) {ring : Ring}
    (global : ring.global = state.ring.global) (metaBlk : ring.metaBlk = state.ring.metaBlk) :
    Located blocks capacity slots { state with ring := ring } where
  sized := by
    simp only [global]
    exact located.sized
  offset number live := by
    simp only [metaBlk]
    exact located.offset number live

/-- A capture uses the slots that its block has. -/
theorem usable (located : Located blocks capacity slots state) (several : 3 ≤ blocks)
    (addressable : slots * sizeofPacketMeta ≤ 2 ^ 32) {number : Nat} (live : state.Live number) :
    max 1 (getMetaBlkCapacity state.ring (state.ring.metaBlk (number % blocks))) =
      usableAt capacity slots (number % blocks) := by
  rw [located.sized.getMetaBlkCapacity_eq several addressable (Nat.mod_lt _ (by omega)) _
    (located.offset number live), usableAt]

/-- The slots of a live block lie at its position times the capacity, whatever was written in the
block meanwhile. -/
theorem getMetaInBlk_eq (located : Located blocks capacity slots state)
    (delivering : Delivering modules blocks state) (several : 3 ≤ blocks)
    (addressable : slots * sizeofPacketMeta ≤ 2 ^ 32) {id number index : Nat} (inside : id < modules)
    (live : state.Live number) (usable : index < usableAt capacity slots (number % blocks))
    (within : (state.ring.metaBlk (number % blocks)).size = 0 ∨
      index < (state.ring.metaBlk (number % blocks)).size) :
    getMetaInBlk state.ring id (state.ring.metaBlk (number % blocks)) index =
      some (slotAt capacity (number % blocks) index) :=
  located.sized.getMetaInBlk_eq addressable (delivering.represents.mapped id inside)
    (Nat.mod_lt _ (by omega)) _ (located.offset number live) usable within

end Located

end OpenTaker
