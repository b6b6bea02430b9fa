import OpenTaker.PacketMeta
import Mathlib.Logic.Function.Basic

/-!
# The packet ring

The shared header `Global_t`, the module table and the meta blocks, with the
operations of the ring library as the source computes them. Names are the
source's. A `u_int32` result of an addition or a product is taken modulo 2^32 by
`u32`, and a `u_int64` one by `u64`; stored fields are natural numbers.

Tables are functions of their index. The module table has `maxModuleCount`
entries and the block array as many blocks as were requested; a claim that reads a
block outside of the request is shown as a trap.

A mapped view is present or NULL. All modules of one ring map the same memory,
so the blocks and the meta slots are kept once, beside the header.
-/

namespace OpenTaker

/-- What a `u_int32` keeps of a number, in which all counters of the ring are kept. -/
def u32 (value : Nat) : Nat := value % 2 ^ 32

/-- What a `u_int64` keeps of a number, in which the sizes of the memories are reckoned. -/
def u64 (value : Nat) : Nat := value % 2 ^ 64

/-- One less in a `u_int64`, which wraps at zero as the unsigned arithmetic of the source does. -/
def u64Pred (value : Nat) : Nat := u64 (value + 2 ^ 64 - 1)

/-- The `int` with the bits of a `u_int32`, by which the difference of two counters gets its sign. -/
def i32 (value : Nat) : Int := if value < 2 ^ 31 then value else value - 2 ^ 32

/-- A value that fits in 32 bits is stored as it is. The conditions of the ring's lemmas are mostly
there to allow this. -/
theorem u32_of_lt {value : Nat} (small : value < 2 ^ 32) : u32 value = value :=
  Nat.mod_eq_of_lt small

/-- What is stored in 32 bits is below `2 ^ 32`, whatever was computed. -/
theorem u32_lt (value : Nat) : u32 value < 2 ^ 32 := Nat.mod_lt value (by decide)

/-- Subtracting one from a positive number of 64 bits does not wrap. -/
theorem u64Pred_eq {value : Nat} (positive : 0 < value) (small : value < 2 ^ 64) :
    u64Pred value = value - 1 := by
  simp only [u64Pred, u64]
  omega

/-- A value that fits in 64 bits is stored as it is. -/
theorem u64_of_lt {value : Nat} (small : value < 2 ^ 64) : u64 value = value :=
  Nat.mod_eq_of_lt small

/-- `PacketType_e`: how the data of a block was captured, by which its addresses are computed. -/
inductive PacketType where
  | unknown
  | pcap
  | napatech
  | accolade
deriving DecidableEq, Repr

/-- `PktMetaBlk_t`. A data block is known by its address. -/
structure PktMetaBlk where
  dataBlk : Option Nat
  /-- If this is the last meta block used by `dataBlk`. -/
  isFinal : Bool
  type : PacketType
  blkPos : Nat
  offset : Nat
  size : Nat
deriving DecidableEq, Repr

/-- `sizeof(PktMetaBlk_t)`: 28 bytes of fields, padded to the pointer's alignment. -/
def sizeofPktMetaBlk : Nat := 32

/-- A block of zero bytes, as the block memory starts. -/
def PktMetaBlk.zero : PktMetaBlk where
  dataBlk := none
  isFinal := false
  type := .unknown
  blkPos := 0
  offset := 0
  size := 0

/-- The most modules a ring can register, for which the header has entries. -/
def maxModuleCount : Nat := 20

/-- The size of a module name, its terminator included. -/
def maxModuleName : Nat := 20

/-- `DEF_METABLOCK_CAPACITY`, for a call that gives no capacity of its own. -/
def defMetablockCapacity : Nat := 10000

/-- `PAGE_SIZE`, by which the block memory is mapped with some room behind it. -/
def pageSize : Nat := 4096

/-- `ModuleInfo_t`. A name is its characters, zero bytes after the last. -/
structure ModuleInfo where
  blockViewStart : Option Nat
  metaViewStart : Option Nat
  metaBlkViewStart : Option Nat
  offset : Int
  blkPtr : Nat
  packetPtr : Nat
  moduleName : List UInt8

/-- A table entry of zero bytes: no name, no views, and cursors at zero. -/
def ModuleInfo.zero : ModuleInfo where
  blockViewStart := none
  metaViewStart := none
  metaBlkViewStart := none
  offset := 0
  blkPtr := 0
  packetPtr := 0
  moduleName := List.replicate maxModuleName 0

/-- `Global_t`, without the critical section and the column tables. -/
structure Global where
  blockSize : Nat
  metaPoolSize : Nat
  /-- The number of meta items less one, used as a mask. -/
  metaCount : Nat
  metaSize : Nat
  metaBlkCapacity : Nat
  /-- How many modules registered. -/
  index : Nat
  /-- The offset of the extended meta, zero without registered columns. -/
  offset : Nat
  metaBlkCount : Nat
  tailMetaBlk : Nat
  tailPacket : Nat
  stopped : Bool
  moduleInfo : Nat → ModuleInfo
  /-- The names kept in `g_moduleIndex`. -/
  moduleIndexName : Nat → List UInt8

/-- The header of zero bytes that `ResetTheRing` leaves, which counts no slots and no modules. -/
def Global.zero : Global where
  blockSize := 0
  metaPoolSize := 0
  metaCount := 0
  metaSize := 0
  metaBlkCapacity := 0
  index := 0
  offset := 0
  metaBlkCount := 0
  tailMetaBlk := 0
  tailPacket := 0
  stopped := false
  moduleInfo := fun _ => ModuleInfo.zero
  moduleIndexName := fun _ => List.replicate maxModuleName 0

/-- The shared memory of a ring: its header, meta blocks and meta slots. -/
structure Ring where
  global : Global
  metaBlk : Nat → PktMetaBlk
  packetMeta : Nat → PacketMeta

/-- Shared memory as it is first mapped, all of it zero. -/
def Ring.zero : Ring where
  global := Global.zero
  metaBlk := fun _ => PktMetaBlk.zero
  packetMeta := fun _ => PacketMeta.zero

/-! ## Updates of the shared memory -/

/-- Write one meta block, in a memory that all modules map. -/
def Ring.setMetaBlk (ring : Ring) (index : Nat) (block : PktMetaBlk) : Ring :=
  { ring with metaBlk := Function.update ring.metaBlk index block }

/-- Write one entry of the module table, and none of the others. -/
def Ring.setModuleInfo (ring : Ring) (id : Nat) (modInfo : ModuleInfo) : Ring :=
  { ring with global :=
    { ring.global with moduleInfo := Function.update ring.global.moduleInfo id modInfo } }

/-- Write `g_tailMetaBlk`, the number of the next block to be claimed. -/
def Ring.setTailMetaBlk (ring : Ring) (position : Nat) : Ring :=
  { ring with global := { ring.global with tailMetaBlk := position } }

/-- The cursor of a module, which stands at the next block that it has to pass. -/
def Ring.blkPtr (ring : Ring) (id : Nat) : Nat := (ring.global.moduleInfo id).blkPtr

/-- Write the cursor of a module, in its entry of the table. -/
def Ring.setBlkPtr (ring : Ring) (id position : Nat) : Ring :=
  ring.setModuleInfo id { ring.global.moduleInfo id with blkPtr := position }

/-- Both views that the operations check are mapped, without which they refuse the call. -/
def ModuleInfo.mapped (modInfo : ModuleInfo) : Bool :=
  modInfo.blockViewStart.isSome && modInfo.metaViewStart.isSome

section Updates

variable (ring : Ring) (index other position : Nat) (block : PktMetaBlk)

/-- The meta blocks stand in a memory of their own: writing one changes nothing in the header. -/
@[simp] theorem setMetaBlk_global : (ring.setMetaBlk index block).global = ring.global := rfl

/-- The block that was written is read back, whatever stood there before. -/
@[simp] theorem setMetaBlk_self : (ring.setMetaBlk index block).metaBlk index = block := by
  simp [Ring.setMetaBlk]

/-- The other blocks stay, which makes the steps of different blocks commute. -/
theorem setMetaBlk_other (distinct : other ≠ index) :
    (ring.setMetaBlk index block).metaBlk other = ring.metaBlk other := by
  simp [Ring.setMetaBlk, distinct]

/-- The cursor of a module reads back as it was set. -/
@[simp] theorem setBlkPtr_self : (ring.setBlkPtr index position).blkPtr index = position := by
  simp [Ring.setBlkPtr, Ring.setModuleInfo, Ring.blkPtr]

/-- The cursors of the other modules stay, as a module writes none but its own. -/
theorem setBlkPtr_other (distinct : other ≠ index) :
    (ring.setBlkPtr index position).blkPtr other = ring.blkPtr other := by
  simp [Ring.setBlkPtr, Ring.setModuleInfo, Ring.blkPtr, distinct]

/-- Moving a cursor unmaps no view, so that addresses stay good. -/
@[simp] theorem setBlkPtr_mapped :
    ((ring.setBlkPtr index position).global.moduleInfo other).mapped =
      (ring.global.moduleInfo other).mapped := by
  by_cases same : other = index
  · subst same
    simp [Ring.setBlkPtr, Ring.setModuleInfo, ModuleInfo.mapped]
  · simp [Ring.setBlkPtr, Ring.setModuleInfo, same]

end Updates

/-! ## Operations on the meta blocks -/

/-- `CheckModValid`: the id is that of a registered module. -/
def checkModValid (global : Global) (id : Nat) : Bool :=
  if maxModuleCount ≤ id then false else (global.moduleInfo id).mapped

/-- The `metaBlockSize` of `InitRing`, the bytes requested for the block array: the
product is narrowed to 32 bits. -/
def metaBlockSize (global : Global) : Nat := u32 (global.metaBlkCount * sizeofPktMetaBlk)

/-- Whether a block lies inside an array that was requested for so many blocks. -/
def blockInside (blkCount position : Nat) : Bool :=
  decide ((position + 1) * sizeofPktMetaBlk ≤ u32 (blkCount * sizeofPktMetaBlk))

/-- A block is inside of the array when its last byte is, by a length that the source computes in 32
bits. -/
theorem blockInside_iff (blkCount position : Nat) :
    blockInside blkCount position = true ↔ (position + 1) * 32 ≤ u32 (blkCount * 32) :=
  decide_eq_true_iff

/-- A block inside the request has a small position, since a request has 32 bits. -/
theorem lt_of_blockInside {blkCount position : Nat}
    (inside : blockInside blkCount position = true) : position + 1 < 2 ^ 27 := by
  have requested := u32_lt (blkCount * 32)
  rw [blockInside_iff] at inside
  omega

/-- When the product fits in 32 bits, the request holds every block. -/
theorem blockInside_of_lt {blkCount position : Nat}
    (fits : blkCount * sizeofPktMetaBlk < 2 ^ 32) (inside : position < blkCount) :
    blockInside blkCount position = true := by
  simp only [sizeofPktMetaBlk] at fits
  rw [blockInside_iff, u32_of_lt fits]
  omega

/-- `GetModuleInfo`: the entry of a valid module whose views are mapped. `none` is NULL. -/
def getModuleInfo (ring : Ring) (id : Nat) : Option ModuleInfo :=
  if checkModValid ring.global id then some (ring.global.moduleInfo id) else none

/-- `GetMetaCount`: the mask plus one, since the number stored is one less than the number of slots. -/
def getMetaCount (ring : Ring) : Nat := u32 (ring.global.metaCount + 1)

/-- `GetMetaBlkCount`: the number of meta blocks, as it was sized. -/
def getMetaBlkCount (ring : Ring) : Nat := ring.global.metaBlkCount

/-- `IsRingEmpty`. A ring without module 0 counts as empty. -/
def isRingEmpty (ring : Ring) : Bool :=
  match getModuleInfo ring 0 with
  | none => true
  | some modInfo => ring.global.tailMetaBlk % ring.global.metaBlkCount == modInfo.blkPtr

/-- The module whose cursor limits `id`: module 0 is also the S2D and depends on
the last one. -/
def depModId (global : Global) (id : Nat) : Nat := if id = 0 then global.index - 1 else id - 1

/-- The stored position a module may advance to: the tail for the first of the chain, the cursor of
the followed module for the others. -/
def limPtr (ring : Ring) (id : Nat) : Nat :=
  if id = 1 ∨ id = depModId ring.global id then
    ring.global.tailMetaBlk % ring.global.metaBlkCount
  else ring.blkPtr (depModId ring.global id)

/-- `Move2NextMetaBlk` for a count that is not negative. The result code is the
new cursor, -2 without the views and -3 when the limit is passed. -/
def move2NextMetaBlk (ring : Ring) (id count : Nat) : Int × Ring :=
  if ¬ (ring.global.moduleInfo id).mapped then (-2, ring)
  else
    let curPtr := ring.blkPtr id
    let lim := limPtr ring id
    let lim := if lim < curPtr then u32 (lim + getMetaBlkCount ring) else lim
    if u32 (curPtr + count) ≤ lim then
      let tmpCur := u32 (curPtr + count) % ring.global.metaBlkCount
      (i32 tmpCur, ring.setBlkPtr id tmpCur)
    else (-3, ring)

/-- `SAFE_DISTANCE`: the tail stops this far behind module 0, so that a full ring differs from an
empty one. -/
def safeDistance : Nat := 2

/-- How one pass of the `retry` body of `GetEmptyMetaBlk` ends. -/
inductive ClaimPass where
  /-- A remainder by zero, or a block outside the array that was requested. -/
  | trapped
  /-- Module 0 is not mapped: NULL, whatever `_wait` is. -/
  | noModule
  /-- The tail is at the safety distance of module 0. -/
  | full
  /-- The block at the tail has not been freed. -/
  | busy
  /-- The compare-and-swap found another tail. -/
  | lost
  /-- The block at the tail was taken. -/
  | claimed (position : Nat) (ring : Ring)

/-- The block at the tail, with the position and the slot offset written. -/
def claimedBlock (ring : Ring) (position : Nat) : PktMetaBlk :=
  { ring.metaBlk position with
    blkPos := position
    offset := u32 (position * ring.global.metaBlkCapacity) }

/-- One pass of `GetEmptyMetaBlk` with no other thread in between. -/
def claimPass (ring : Ring) : ClaimPass :=
  match getModuleInfo ring 0 with
  | none => .noModule
  | some modInfo =>
    let global := ring.global
    if global.metaBlkCount = 0 then .trapped
    else
      let tailPos := global.tailMetaBlk % global.metaBlkCount
      let nextPos := u32 (tailPos + 1) % global.metaBlkCount
      let checkPos := u32 (tailPos + safeDistance) % global.metaBlkCount
      let limitPtr := modInfo.blkPtr
      if checkPos = limitPtr then .full
      else if ¬ blockInside global.metaBlkCount tailPos then .trapped
      else if (ring.metaBlk tailPos).size ≠ 0 then .busy
      else if tailPos ≠ global.tailMetaBlk then .lost
      else .claimed tailPos ((ring.setTailMetaBlk nextPos).setMetaBlk tailPos (claimedBlock ring tailPos))

/-- What a pass that takes a block has found and written. -/
structure ClaimTaken (ring : Ring) (position : Nat) (after : Ring) : Prop where
  valid : getModuleInfo ring 0 = some (ring.global.moduleInfo 0)
  atTail : position = ring.global.tailMetaBlk % ring.global.metaBlkCount
  notFull : u32 (position + safeDistance) % ring.global.metaBlkCount ≠ ring.blkPtr 0
  inside : blockInside ring.global.metaBlkCount position = true
  empty : (ring.metaBlk position).size = 0
  current : position = ring.global.tailMetaBlk
  written : after =
    (ring.setTailMetaBlk (u32 (position + 1) % ring.global.metaBlkCount)).setMetaBlk position
      (claimedBlock ring position)

/-- What a claim has done when it has succeeded: it tested the room and the flag of the block, and
advanced the tail by one. -/
theorem claimPass_taken {ring after : Ring} {position : Nat}
    (claimed : claimPass ring = .claimed position after) : ClaimTaken ring position after := by
  simp only [claimPass] at claimed
  cases valid : getModuleInfo ring 0 with
  | none => simp [valid] at claimed
  | some modInfo =>
    have registered : modInfo = ring.global.moduleInfo 0 := by
      simp only [getModuleInfo] at valid
      split at valid <;> cases valid
      rfl
    subst registered
    simp only [valid] at claimed
    split at claimed
    · cases claimed
    split at claimed
    · cases claimed
    rename_i notFull
    split at claimed
    · cases claimed
    rename_i inside
    split at claimed
    · cases claimed
    rename_i empty
    split at claimed
    · cases claimed
    rename_i same
    cases claimed
    exact ⟨valid, rfl, notFull, not_not.mp inside, not_not.mp empty, not_not.mp same, rfl⟩

/-- `GetEmptyMetaBlk` with `_wait = false`: the claimed position, or `none` for
NULL. Outside of `claimed` the source returns NULL, traps or retries forever. -/
def getEmptyMetaBlk (ring : Ring) : Option Nat × Ring :=
  match claimPass ring with
  | .claimed position claimed => (some position, claimed)
  | _ => (none, ring)

/-- What the two assertions of `GetEmptyMetaBlk` require of the taken block. -/
def claimAsserts (ring : Ring) (position : Nat) : Bool :=
  ((ring.metaBlk position).blkPos == 0 || (ring.metaBlk position).blkPos == position) &&
  ((ring.metaBlk position).offset == 0 ||
    (ring.metaBlk position).offset == u32 (position * ring.global.metaBlkCapacity))

/-- Make a claimed block visible to the modules by giving it its size. -/
def publishMetaBlk (ring : Ring) (position size : Nat) : Ring :=
  ring.setMetaBlk position { ring.metaBlk position with size := size }

/-- `CProducerRing::FreeFullMetaBlk`: clear the size, the data block and the final mark, so that the
block can be claimed again. -/
def freeFullMetaBlk (ring : Ring) (position : Nat) : Ring :=
  ring.setMetaBlk position
    { ring.metaBlk position with isFinal := false, dataBlk := none, size := 0 }

/-- The loop of `GetNextMetaBlks`: collect ready blocks from the pick position
until the distance is used up or a block is not ready. -/
def pickMetaBlks (ring : Ring) : Nat → Nat → List Nat × Nat
  | 0, curPtr => ([], curPtr)
  | distance + 1, curPtr =>
      if (ring.metaBlk curPtr).size = 0 then ([], curPtr)
      else
        let (blocks, final) := pickMetaBlks ring distance ((curPtr + 1) % ring.global.metaBlkCount)
        (curPtr :: blocks, final)

/-- `GetNextMetaBlks`: the blocks appended to the list and the new pick position. -/
def getNextMetaBlks (ring : Ring) (id curPtr : Nat) : List Nat × Nat :=
  if ¬ (ring.global.moduleInfo id).mapped then ([], curPtr)
  else
    let lim := limPtr ring id
    let distance := if lim < curPtr then u32 (lim + getMetaBlkCount ring - curPtr) else lim - curPtr
    pickMetaBlks ring distance curPtr

/-- `GetMetaInBlk`: the byte offset of a slot in the meta view, or `none` for NULL.
The product is taken in 32 bits before it is added to the view's address. -/
def getMetaInBlk (ring : Ring) (id : Nat) (block : PktMetaBlk) (index : Nat) : Option Nat :=
  if 0 < block.size ∧ block.size ≤ index then none
  else if block.size = 0 ∧ ring.global.metaBlkCapacity ≤ index then none
  else if ¬ (ring.global.moduleInfo id).mapped then none
  else some (u32 (ring.global.metaSize * u32 (block.offset + index)))

/-- `GetMetaBlkCapacity`. The comparison and the difference use the mask. -/
def getMetaBlkCapacity (ring : Ring) (block : PktMetaBlk) : Nat :=
  if ring.global.metaCount < u32 (block.offset + ring.global.metaBlkCapacity) then
    u32 (ring.global.metaCount + 2 ^ 32 - block.offset)
  else ring.global.metaBlkCapacity

end OpenTaker
