import OpenTaker.BlockSlots

/-!
# The capacities of the meta blocks

`g_metaCount` is the number of slots less one, so that it masks a position.
`GetMetaBlkCapacity` takes it for the number of slots: it compares the end of a block with
the mask, and what is left to the mask is the capacity of the last block. The blocks lie in
a row, and the last slot of the ring belongs to none of them.
-/

namespace OpenTaker

/-- The offset that a claim gives the block at a position. -/
def blkOffset (ring : Ring) (position : Nat) : Nat := (claimedBlock ring position).offset

/-- What `GetMetaBlkCapacity` answers for the block that a claim makes at a position of the row. -/
def blkCapacityAt (ring : Ring) (position : Nat) : Nat :=
  getMetaBlkCapacity ring (claimedBlock ring position)

/-- The capacities of the first blocks of the row, added up: so many slots these blocks claim to
have. -/
def capacitySum (ring : Ring) (blocks : Nat) : Nat := ((List.range blocks).map (blkCapacityAt ring)).sum

/-- The blocks share out the slots: each has some, from where the one before it ends, and
together they have all. -/
structure BlocksTile (ring : Ring) : Prop where
  positive : ∀ position < getMetaBlkCount ring, 0 < blkCapacityAt ring position
  consecutive : ∀ position, position + 1 < getMetaBlkCount ring →
    blkOffset ring position + blkCapacityAt ring position = blkOffset ring (position + 1)
  disjoint : ∀ position other, position < other → other < getMetaBlkCount ring →
    blkOffset ring position + blkCapacityAt ring position ≤ blkOffset ring other
  total : capacitySum ring (getMetaBlkCount ring) = getMetaCount ring

/-- What the blocks of a ring with slots do: they lie in a row from slot 0 to the last slot
but one. -/
structure BlocksTileButOne (ring : Ring) : Prop where
  some : 0 < getMetaBlkCount ring
  positive : ∀ position < getMetaBlkCount ring, 0 < blkCapacityAt ring position ∨
    position + 1 = getMetaBlkCount ring ∧ ring.global.metaBlkCapacity ∣ getMetaCount ring - 1
  consecutive : ∀ position, position + 1 < getMetaBlkCount ring →
    blkOffset ring position + blkCapacityAt ring position = blkOffset ring (position + 1)
  disjoint : ∀ position other, position < other → other < getMetaBlkCount ring →
    blkOffset ring position + blkCapacityAt ring position ≤ blkOffset ring other
  total : capacitySum ring (getMetaBlkCount ring) + 1 = getMetaCount ring

/-- The capacities are added up from the first block on, so that the sum for one block more has its
capacity at the end. -/
theorem capacitySum_succ (ring : Ring) (blocks : Nat) :
    capacitySum ring (blocks + 1) = capacitySum ring blocks + blkCapacityAt ring blocks := by
  simp [capacitySum, List.range_succ]

/-- Where the first blocks are full they have one capacity each, and the sum is a product. -/
theorem capacitySum_full {ring : Ring} {blocks capacity : Nat}
    (full : ∀ position < blocks, blkCapacityAt ring position = capacity) :
    capacitySum ring blocks = blocks * capacity := by
  induction blocks with
  | zero => simp [capacitySum]
  | succ blocks inductionHypothesis =>
    have before := inductionHypothesis fun position inside => full position (by omega)
    rw [capacitySum_succ, before, full blocks (by omega), Nat.succ_mul]

/-- The blocks of a ring: all but the last are full, and the last one begins before the
slots end. -/
structure RowOfBlocks (blocks capacity slots : Nat) (ring : Ring) : Prop where
  blkCount : ring.global.metaBlkCount = blocks + 1
  blkCapacity : ring.global.metaBlkCapacity = capacity
  mask : ring.global.metaCount + 1 = slots
  positive : 0 < capacity
  begins : blocks * capacity < slots
  covering : slots ≤ blocks * capacity + capacity
  narrow : slots ≤ 2 ^ 30
  narrowCapacity : capacity < 2 ^ 32

namespace RowOfBlocks

variable {blocks capacity slots : Nat} {ring : Ring}

/-- The blocks before another one end before the slots do. -/
theorem end_le (blocks capacity : Nat) {position : Nat} (before : position < blocks) :
    position * capacity + capacity ≤ blocks * capacity := by
  have next := Nat.mul_le_mul_right capacity (Nat.succ_le_of_lt before)
  rwa [Nat.succ_mul] at next

/-- In a row of blocks each one begins where the one in front of it ends. -/
theorem blkOffset_eq (row : RowOfBlocks blocks capacity slots ring) {position : Nat}
    (inside : position ≤ blocks) : blkOffset ring position = position * capacity := by
  have below := Nat.mul_le_mul_right capacity inside
  have begins := row.begins
  have narrow := row.narrow
  simp only [blkOffset, claimedBlock, row.blkCapacity]
  exact u32_of_lt (by omega)

/-- All blocks but the last have the full capacity. -/
theorem full (row : RowOfBlocks blocks capacity slots ring) {position : Nat} (before : position < blocks) :
    blkCapacityAt ring position = capacity := by
  have offset : (claimedBlock ring position).offset = position * capacity :=
    row.blkOffset_eq (Nat.le_of_lt before)
  have ends := end_le blocks capacity before
  have begins := row.begins
  have narrow := row.narrow
  have mask := row.mask
  rw [blkCapacityAt, getMetaBlkCapacity, offset, row.blkCapacity, u32_of_lt (by omega), if_neg (by omega)]

/-- The last block ends at the mask, so that the last slot of the pool belongs to no block. -/
theorem last (row : RowOfBlocks blocks capacity slots ring) :
    blkCapacityAt ring blocks = slots - 1 - blocks * capacity := by
  have offset : (claimedBlock ring blocks).offset = blocks * capacity :=
    row.blkOffset_eq (Nat.le_refl blocks)
  have begins := row.begins
  have covering := row.covering
  have narrow := row.narrow
  have mask := row.mask
  have narrowCapacity := row.narrowCapacity
  have fits : blocks * capacity + capacity < 2 ^ 32 := by
    by_cases one : blocks = 0
    · rw [one]
      omega
    · have atLeast := Nat.mul_le_mul_right capacity (Nat.one_le_iff_ne_zero.mpr one)
      omega
  rw [blkCapacityAt, getMetaBlkCapacity, offset, row.blkCapacity, u32_of_lt fits, if_pos (by omega), u32]
  omega

/-- Together the blocks have one slot less than the ring counts, since the last capacity is taken
from the number stored. -/
theorem total (row : RowOfBlocks blocks capacity slots ring) :
    capacitySum ring (blocks + 1) + 1 = slots := by
  have begins := row.begins
  rw [capacitySum_succ, capacitySum_full fun position before => row.full before, row.last]
  omega

/-- The number of slots is one more than what the header stores. -/
theorem getMetaCount_eq (row : RowOfBlocks blocks capacity slots ring) : getMetaCount ring = slots := by
  have narrow := row.narrow
  rw [getMetaCount, row.mask, u32_of_lt (by omega)]

/-- The blocks leave out the last slot and no other. -/
theorem butOne (row : RowOfBlocks blocks capacity slots ring) : BlocksTileButOne ring := by
  have begins := row.begins
  have count : getMetaBlkCount ring = blocks + 1 := row.blkCount
  constructor
  case some => omega
  case positive =>
    intro position inside
    by_cases isLast : position = blocks
    · subst isLast
      rw [row.last, row.blkCapacity, row.getMetaCount_eq, count]
      by_cases whole : slots - 1 = position * capacity
      · exact .inr ⟨rfl, whole ▸ Nat.dvd_mul_left capacity position⟩
      · exact .inl (by omega)
    · rw [row.full (by omega)]
      exact .inl row.positive
  case consecutive =>
    intro position inside
    rw [row.full (by omega), row.blkOffset_eq (by omega), row.blkOffset_eq (by omega), Nat.succ_mul]
  case disjoint =>
    intro position other before inside
    have ends := Nat.mul_le_mul_right capacity (Nat.succ_le_of_lt before)
    rw [row.full (by omega), row.blkOffset_eq (by omega), row.blkOffset_eq (by omega)]
    rwa [Nat.succ_mul] at ends
  case total => rw [count, row.total, row.getMetaCount_eq]

end RowOfBlocks

/-- Blocks that have one slot less than there is do not share out the slots, so that the two
conditions exclude each other. -/
theorem BlocksTileButOne.not_tile {ring : Ring} (butOne : BlocksTileButOne ring) : ¬ BlocksTile ring := by
  intro tile
  have missing := butOne.total
  rw [tile.total] at missing
  omega

namespace SizedBy

variable {call : InitCall} {ring : Ring}

/-- A ring with slots has a row of blocks. -/
theorem rowOfBlocks (sizedBy : SizedBy call ring) (possible : call.Possible)
    (narrowCapacity : initCapacity call.capacity < 2 ^ 32) (nonzero : getMetaCount ring ≠ 0) :
    RowOfBlocks ((getMetaCount ring - 1) / initCapacity call.capacity) (initCapacity call.capacity)
      (getMetaCount ring) ring := by
  have positive := initCapacity_pos call.capacity
  rcases sizedBy.slots possible.wide possible.refuses with ⟨low, count⟩ | ⟨-, count⟩
  · obtain ⟨slots, -⟩ := sizedBy.getMetaCount_of_pow _ (by omega) count
    have few : Nat.log2 (call.blockSize / averagePacketSize) % 32 + 1 ≤ 30 := by omega
    have bound := Nat.pow_le_pow_right Nat.two_pos few
    have counted := initMetaBlkCount_eq call.blockSize call.capacity (count ▸ Nat.two_pow_pos _)
      (count ▸ bound)
    have quotient := Nat.div_add_mod (getMetaCount ring - 1) (initCapacity call.capacity)
    have remainder := Nat.mod_lt (getMetaCount ring - 1) positive
    rw [Nat.mul_comm] at quotient
    have sized := sizedBy.sized possible.wide possible.refuses nonzero
    exact {
      blkCount := by rw [sizedBy.blockCount, counted, count, slots]
      blkCapacity := sizedBy.capacity
      mask := sized.mask
      positive := positive
      begins := by omega
      covering := by omega
      narrow := slots ▸ bound
      narrowCapacity := narrowCapacity }
  · exact absurd (sizedBy.getMetaCount_of_zero count) nonzero

/-- Without slots each block would have a full capacity. -/
theorem not_tile_of_no_slots (sizedBy : SizedBy call ring) (zero : getMetaCount ring = 0)
    (blocks : getMetaBlkCount ring ≠ 0) : ¬ BlocksTile ring := by
  have positive := initCapacity_pos call.capacity
  have narrow : ring.global.metaCount < 2 ^ 32 := sizedBy.slotMask ▸ u32_lt _
  have full : ∀ position, blkCapacityAt ring position = initCapacity call.capacity := by
    intro position
    have below := u32_lt ((claimedBlock ring position).offset + initCapacity call.capacity)
    simp only [getMetaCount, u32] at zero
    rw [blkCapacityAt, getMetaBlkCapacity, sizedBy.capacity, if_neg (by omega)]
  intro tile
  obtain ⟨last, count⟩ := Nat.exists_eq_succ_of_ne_zero blocks
  have total := tile.total
  rw [count, capacitySum_succ, full, zero] at total
  omega

end SizedBy

/-! ## Any number of calls -/

/-- The capacity a call asks for fits its type. -/
theorem narrowCapacity_step (ring : Ring) (call : InitCall) (next : Ring)
    (narrow : ring.global.metaBlkCapacity < 2 ^ 32) (asked : call.capacity < 2 ^ 32)
    (stepped : setupStep ring call = some next) : next.global.metaBlkCapacity < 2 ^ 32 := by
  have opened : (openRing call ring).global.metaBlkCapacity < 2 ^ 32 := by
    have computed : initCapacity call.capacity < 2 ^ 32 := by
      simp only [initCapacity, defMetablockCapacity]
      split <;> omega
    simp only [openRing]
    by_cases reset : call.reset = true
    · simp only [reset, ↓reduceIte]
      split
      · exact computed
      · exact Nat.two_pow_pos 32
    · simp only [reset, Bool.false_eq_true, ↓reduceIte]
      split
      · exact computed
      · exact narrow
  obtain ⟨id, done⟩ := setupStep_done stepped
  cases done with
  | opens unnamed => exact opened
  | attaches named found done | registers named absent done =>
    rw [done.header]
    exact opened

/-- The blocks of a started ring share out its slots only when there are no blocks: where
there are slots, the last one belongs to no block. -/
theorem blocksTile_iff {calls : List InitCall} {opened ring : Ring}
    (possible : ∀ call ∈ calls, call.Possible) (capacities : ∀ call ∈ calls, call.capacity < 2 ^ 32)
    (ran : Runs.run setupStep Ring.zero calls = some opened) (works : startWork opened = some ring) :
    (BlocksTile ring ↔ getMetaBlkCount ring = 0) ∧
      (getMetaCount ring ≠ 0 → BlocksTileButOne ring) := by
  obtain ⟨call, allowed, sizedBy⟩ := sizedBy_of_setUp possible ran works
  have narrow : initCapacity call.capacity < 2 ^ 32 := by
    have kept : opened.global.metaBlkCapacity < 2 ^ 32 :=
      Runs.run_invariant_meets setupStep (fun _ call => call.capacity < 2 ^ 32)
        (fun ring => ring.global.metaBlkCapacity < 2 ^ 32) narrowCapacity_step Ring.zero opened calls
        (Nat.two_pow_pos 32) (Runs.meets_of_forall _ _ _ _ capacities) ran
    obtain ⟨-, metaSize, metaCount, rfl⟩ := startWork_some works
    rwa [← sizedBy.capacity]
  have butOne : getMetaCount ring ≠ 0 → BlocksTileButOne ring := fun nonzero =>
    (sizedBy.rowOfBlocks allowed narrow nonzero).butOne
  refine ⟨⟨fun tile => ?_, fun none => ?_⟩, butOne⟩
  · by_contra blocks
    by_cases zero : getMetaCount ring = 0
    · exact sizedBy.not_tile_of_no_slots zero blocks tile
    · exact (butOne zero).not_tile tile
  · have zero : getMetaCount ring = 0 := by
      by_contra nonzero
      have some := (butOne nonzero).some
      omega
    exact ⟨by omega, by omega, by omega, by rw [none, zero]; rfl⟩

/-- A block of one megabyte with the default capacity: its blocks would tile the slots only if there
were none. -/
theorem blocksTile_iff_megabyte :
    ∃ opened ring, Runs.run setupStep Ring.zero [sizingCall 1048576 0] = some opened ∧
      startWork opened = some ring ∧ (BlocksTile ring ↔ getMetaBlkCount ring = 0) := by
  obtain ⟨opened, ran, starts⟩ := (Option.any_eq_true _ _).mp
    (show (Runs.run setupStep Ring.zero [sizingCall 1048576 0]).any
      (fun opened => (startWork opened).isSome) = true by decide)
  obtain ⟨ring, works⟩ := Option.isSome_iff_exists.mp starts
  have possible : ∀ call ∈ [sizingCall 1048576 0], call.Possible := by
    intro call member
    obtain rfl := List.mem_singleton.mp member
    exact ⟨by decide, fun region size large => if_neg (by omega)⟩
  have capacities : ∀ call ∈ [sizingCall 1048576 0], call.capacity < 2 ^ 32 := by
    intro call member
    obtain rfl := List.mem_singleton.mp member
    decide
  exact ⟨opened, ring, ran, works, (blocksTile_iff possible capacities ran works).1⟩

/-- Two blocks share 16384 slots: the first has 10000 of them, and the second 6383. The last slot is
in no block, as the capacity is computed from the number stored. -/
theorem last_slot_in_no_block :
    ∃ opened ring, Runs.run setupStep Ring.zero [sizingCall 1048576 0] = some opened ∧
      startWork opened = some ring ∧ getMetaBlkCount ring = 2 ∧ getMetaCount ring = 16384 ∧
      blkCapacityAt ring 0 = 10000 ∧ blkCapacityAt ring 1 = 6383 ∧ ¬ BlocksTile ring := by
  obtain ⟨opened, ran, starts⟩ := (Option.any_eq_true _ _).mp
    (show (Runs.run setupStep Ring.zero [sizingCall 1048576 0]).any (fun opened =>
      (startWork opened).any fun ring => decide (getMetaBlkCount ring = 2 ∧
        getMetaCount ring = 16384 ∧ blkCapacityAt ring 0 = 10000 ∧ blkCapacityAt ring 1 = 6383)) = true by
      decide)
  obtain ⟨ring, works, checked⟩ := (Option.any_eq_true _ _).mp starts
  obtain ⟨blocks, slots, first, second⟩ := of_decide_eq_true checked
  refine ⟨opened, ring, ran, works, blocks, slots, first, second, fun tile => ?_⟩
  have total := tile.total
  rw [blocks, capacitySum_succ, capacitySum_succ, first, second, slots] at total
  simp [capacitySum] at total

end OpenTaker
