import OpenTaker.RingSizing
import OpenTaker.RingOrder

/-!
# The slots of a meta block

A claimed block with position `p` owns the meta slots from `p` times the block
capacity on, up to the capacity; the last block of the ring ends where the slots
end. A slot is returned as a byte offset in the meta view, and the source takes that
offset in 32 bits. While all slots lie below that bound, different blocks own
different slots.
-/

namespace OpenTaker

/-- The dimensions of a started ring: the blocks before the last one are full, and
the last one begins before the slots end. -/
structure Sized (blocks capacity slots : Nat) (global : Global) : Prop where
  blkCapacity : global.metaBlkCapacity = capacity
  metaSize : global.metaSize = sizeofPacketMeta
  mask : global.metaCount + 1 = slots
  positive : 1 ≤ capacity
  covered : (blocks - 1) * capacity < slots

/-- A ring with slots that was sized and started by the library has these dimensions. -/
theorem SizedBy.sized {call : InitCall} {ring : Ring} (sizedBy : SizedBy call ring)
    (wide : call.blockSize < 2 ^ 64)
    (refuses : ∀ region size, 2 ^ 63 ≤ size → call.create region size = none)
    (nonzero : getMetaCount ring ≠ 0) :
    Sized ring.global.metaBlkCount (initCapacity call.capacity) (getMetaCount ring)
      ring.global where
  blkCapacity := sizedBy.capacity
  metaSize := sizedBy.metaSize
  mask := by
    simp only [getMetaCount, u32] at nonzero ⊢
    have narrow : ring.global.metaCount < 2 ^ 32 := sizedBy.slotMask ▸ u32_lt _
    omega
  positive := initCapacity_pos call.capacity
  covered := by
    rcases sizedBy.slots wide refuses with ⟨low, count⟩ | ⟨-, count⟩
    · obtain ⟨slots, -⟩ := sizedBy.getMetaCount_of_pow _ (by omega) count
      have few : Nat.log2 (call.blockSize / averagePacketSize) % 32 + 1 ≤ 30 := by omega
      have bound := Nat.pow_le_pow_right Nat.two_pos few
      have counted := initMetaBlkCount_eq call.blockSize call.capacity
        (count ▸ Nat.two_pow_pos _) (count ▸ bound)
      rw [sizedBy.blockCount, counted, count, slots, Nat.add_sub_cancel]
      have quotient := Nat.div_mul_le_self
        (2 ^ (Nat.log2 (call.blockSize / averagePacketSize) % 32 + 1) - 1)
        (initCapacity call.capacity)
      have positive := Nat.two_pow_pos (Nat.log2 (call.blockSize / averagePacketSize) % 32 + 1)
      omega
    · exact absurd (sizedBy.getMetaCount_of_zero count) nonzero

/-- So every ring with slots that was set up, by any number of calls, and started is
one to which the accounting below applies. -/
theorem started_sized_of_setUp {calls : List InitCall} {opened ring : Ring}
    (possible : ∀ call ∈ calls, call.Possible)
    (ran : Runs.run setupStep Ring.zero calls = some opened)
    (works : startWork opened = some ring) (nonzero : getMetaCount ring ≠ 0) :
    1 ≤ ring.global.index ∧ Started ring.global.index ring.global.metaBlkCount ring ∧
      ∃ capacity, Sized ring.global.metaBlkCount capacity (getMetaCount ring) ring.global := by
  obtain ⟨nonempty, started⟩ := started_of_startWork (setUp_run calls opened ran) works
  obtain ⟨call, allowed, sizedBy⟩ := sizedBy_of_setUp possible ran works
  exact ⟨nonempty, started, _, sizedBy.sized allowed.wide allowed.refuses nonzero⟩

/-- A fresh ring has the dimensions it is given. -/
theorem freshRing_sized (modules blocks capacity slots : Nat) (positive : 1 ≤ capacity)
    (some : 1 ≤ slots) (covered : (blocks - 1) * capacity < slots) :
    Sized blocks capacity slots (freshRing modules blocks capacity slots).global where
  blkCapacity := rfl
  metaSize := rfl
  mask := Nat.sub_add_cancel some
  positive := positive
  covered := covered

/-- What `GetMetaBlkCapacity` answers for the block at a position: the capacity, and fewer slots at
the end of the pool. -/
def roomAt (capacity slots position : Nat) : Nat :=
  if slots - 1 < position * capacity + capacity then slots - 1 - position * capacity else capacity

/-- How many slots of the block a producer uses: a claimed block gives at least one. -/
def usableAt (capacity slots position : Nat) : Nat := max 1 (roomAt capacity slots position)

/-- The byte offset of a slot of the block at a position. -/
def slotAt (capacity position index : Nat) : Nat :=
  sizeofPacketMeta * (position * capacity + index)

namespace Sized

variable {blocks capacity slots : Nat} {ring : Ring}

/-- The first slot of a block is a slot of the pool, as a ring is sized so that each block begins
inside. -/
theorem offset_lt (sized : Sized blocks capacity slots ring.global) {position : Nat}
    (inside : position < blocks) : position * capacity < slots := by
  have before : position ≤ blocks - 1 := by omega
  have below := Nat.mul_le_mul_right capacity before
  exact below.trans_lt sized.covered

/-- With two blocks before the last one, a block has at most half of the slots. -/
theorem capacity_le (sized : Sized blocks capacity slots ring.global) (several : 3 ≤ blocks) :
    2 * capacity < slots := by
  have before : 2 ≤ blocks - 1 := by omega
  have below := Nat.mul_le_mul_right capacity before
  exact below.trans_lt sized.covered

/-- A block has at most its capacity of usable slots. -/
theorem usable_le (sized : Sized blocks capacity slots ring.global) (position : Nat) :
    usableAt capacity slots position ≤ capacity := by
  have positive := sized.positive
  simp only [usableAt, roomAt]
  split <;> omega

/-- The usable slots of a block are slots of the pool, also those of the last block, which is cut
off at the mask. -/
theorem index_lt (sized : Sized blocks capacity slots ring.global) {position index : Nat}
    (inside : position < blocks) (usable : index < usableAt capacity slots position) :
    position * capacity + index < slots := by
  have first := sized.offset_lt inside
  simp only [usableAt, roomAt] at usable
  split at usable <;> omega

/-- The slot offset a claim writes is not narrowed. -/
theorem claimedBlock_offset (sized : Sized blocks capacity slots ring.global)
    (addressable : slots * sizeofPacketMeta ≤ 2 ^ 32) {position : Nat} (inside : position < blocks) :
    (claimedBlock ring position).offset = position * capacity := by
  have first := sized.offset_lt inside
  simp only [sizeofPacketMeta] at addressable
  simp only [claimedBlock, sized.blkCapacity]
  exact u32_of_lt (by omega)

/-- The capacity that the source computes for a block is its room, for each block that stands where
the sizes put it. -/
theorem getMetaBlkCapacity_eq (sized : Sized blocks capacity slots ring.global)
    (several : 3 ≤ blocks) (addressable : slots * sizeofPacketMeta ≤ 2 ^ 32) {position : Nat}
    (inside : position < blocks) (block : PktMetaBlk)
    (placed : block.offset = position * capacity) :
    getMetaBlkCapacity ring block = roomAt capacity slots position := by
  have first := sized.offset_lt inside
  have small := sized.capacity_le several
  have mask : ring.global.metaCount = slots - 1 := Nat.eq_sub_of_add_eq sized.mask
  simp only [sizeofPacketMeta] at addressable
  simp only [getMetaBlkCapacity, placed, sized.blkCapacity, roomAt]
  rw [u32_of_lt (by omega), mask]
  split
  · simp only [u32]
    omega
  · rfl

/-- A usable index of an unpublished block, or an index within the size of a published
one, gives a slot of the block. -/
theorem getMetaInBlk_eq (sized : Sized blocks capacity slots ring.global)
    (addressable : slots * sizeofPacketMeta ≤ 2 ^ 32) {id position index : Nat}
    (mapped : (ring.global.moduleInfo id).mapped = true) (inside : position < blocks)
    (block : PktMetaBlk) (placed : block.offset = position * capacity)
    (usable : index < usableAt capacity slots position)
    (within : block.size = 0 ∨ index < block.size) :
    getMetaInBlk ring id block index = some (slotAt capacity position index) := by
  have present := sized.index_lt inside usable
  have bounded := sized.usable_le position
  simp only [sizeofPacketMeta] at addressable
  have narrowIndex : u32 (position * capacity + index) = position * capacity + index :=
    u32_of_lt (by omega)
  simp only [getMetaInBlk, mapped, placed, sized.blkCapacity, sized.metaSize, slotAt,
    sizeofPacketMeta, not_true_eq_false, ↓reduceIte, narrowIndex]
  rw [if_neg (by omega), if_neg (by omega), u32_of_lt (by omega)]

/-- Different blocks have different slots, because each one begins at a multiple of the capacity and
has at most so many. -/
theorem slotAt_distinct (sized : Sized blocks capacity slots ring.global)
    {position other index otherIndex : Nat}
    (usable : index < usableAt capacity slots position)
    (otherUsable : otherIndex < usableAt capacity slots other)
    (same : slotAt capacity position index = slotAt capacity other otherIndex) :
    position = other := by
  have bounded := sized.usable_le position
  have otherBounded := sized.usable_le other
  have positive := sized.positive
  have indices : position * capacity + index = other * capacity + otherIndex := by
    simp only [slotAt, sizeofPacketMeta] at same
    omega
  have inside : index < capacity := usable.trans_le bounded
  have otherInside : otherIndex < capacity := otherUsable.trans_le otherBounded
  have quotients := congrArg (· / capacity) indices
  simp only [Nat.mul_comm _ capacity, Nat.mul_add_div positive, Nat.div_eq_of_lt inside,
    Nat.div_eq_of_lt otherInside] at quotients
  simpa using quotients

end Sized

end OpenTaker
