import OpenTaker.Runs
import OpenTaker.FreeLists
import OpenTaker.PacketRing
import Mathlib.Data.List.Nodup
import Mathlib.Data.List.Perm.Basic

/-!
# Packet block pools

`PreparePktBlkPool` cuts the block memory of the ring into one slice for each producer and
makes each slice a `CFixBufferPool` of data blocks. The free blocks of a pool are threaded
through their first words, so that the pools rest on the memory of their slices and on what
the holders of blocks write.

The start of a slice is computed in 32 bits, and a pool hands out one block even when not a
single one fits. With slices of at least one block that all start below `2 ^ 32`, every
block that is handed out lies in the slice of its producer.
-/

namespace OpenTaker

open FreeLists

/-- `SECTOR_ALIGNMENT`, to which the size of a data block is rounded. -/
def sectorAlignment : Nat := 512

/-- The bytes of data in one block: one MiB. -/
def dataBlockDataSize : Nat := 2 ^ 20

/-- `sizeof(DataBlock_t)`: the header, padded to a sector, and the data. -/
def sizeofDataBlock : Nat := sectorAlignment + dataBlockDataSize

/-- `CFixBufferPool<DataBlock_t>`. An address is an offset in the block view. -/
structure FixBufferPool where
  bufAddr : Nat
  nextBlock : Option Nat
  bufCount : Nat

/-- A pool in front of `resetMem`, without a buffer and without a free block. -/
def FixBufferPool.empty : FixBufferPool := ⟨0, none, 0⟩

/-- The part of `DataBlockDesc_t` that is written when a block is handed out. -/
structure DataBlockDesc where
  id : Int
  captureId : Nat

/-- The pools of a `CProducerRing` and the block memory they are made of. -/
structure PktBlkPools where
  /-- `m_pktBlockPool` is not NULL. -/
  prepared : Bool
  pktBlkPoolNum : Nat
  pools : Nat → FixBufferPool
  /-- The pointers stored in the block memory, by their addresses. -/
  link : Nat → Option Nat
  dataDesc : Nat → DataBlockDesc
  pktBlkID : Int
  /-- The blocks that were handed out for each capture and not freed since. -/
  held : Nat → List Nat

namespace PktBlkPools

/-- What the constructor leaves, over any contents of the block memory. -/
def new (link : Nat → Option Nat) : PktBlkPools where
  prepared := false
  pktBlkPoolNum := 0
  pools := fun _ => .empty
  link := link
  dataDesc := fun _ => ⟨0, 0⟩
  pktBlkID := -1
  held := fun _ => []

/-- The loop of `init`, which links a block to so many following ones, and the NULL at the
end. -/
def initLinks : Nat → Nat → (Nat → Option Nat) → Nat → Option Nat
  | block, 0, link => Function.update link block none
  | block, following + 1, link =>
      initLinks (block + sizeofDataBlock) following
        (Function.update link block (some (block + sizeofDataBlock)))

/-- `resetMem` of one pool, over the slice of its capture. -/
def resetMem (state : PktBlkPools) (captureId mem count : Nat) : PktBlkPools :=
  { state with
    pools := Function.update state.pools captureId ⟨mem, some mem, count⟩
    link := initLinks mem (count - 1) state.link }

/-- The loop of `PreparePktBlkPool` over the first pools, each of which gets its slice of the
memory. -/
def resetPools (state : PktBlkPools) (poolSize : Nat) : Nat → PktBlkPools
  | 0 => state
  | captureId + 1 =>
      (state.resetPools poolSize captureId).resetMem captureId (u32 (captureId * poolSize))
        (poolSize / sizeofDataBlock)

/-- `PreparePktBlkPool`: one pool for each producer, over slices of the block memory that are
computed in 32 bits. -/
def preparePktBlkPool (state : PktBlkPools) (maxPrdcrNum poolSize : Nat) : PktBlkPools :=
  if state.prepared ∧ state.pktBlkPoolNum = maxPrdcrNum then state
  else
    resetPools
      { state with
        prepared := true
        pktBlkPoolNum := maxPrdcrNum
        pools := fun _ => .empty }
      poolSize maxPrdcrNum

/-- `tryGetBlock` of a pool, and what `GetNextEmptyPktBlk` and `WaitNextEmptyPktBlk` do with
the block: clear its descriptor, which holds the link, and number it. The latter tries
again as long as there is none. -/
def getEmptyPktBlk (state : PktBlkPools) (captureId : Nat) : Option Nat × PktBlkPools :=
  let pool := state.pools captureId
  match pool.nextBlock with
  | none => (none, state)
  | some block =>
      (some block,
        { state with
          pools := Function.update state.pools captureId { pool with nextBlock := state.link block }
          link := Function.update state.link block none
          dataDesc := Function.update state.dataDesc block ⟨state.pktBlkID + 1, captureId⟩
          pktBlkID := state.pktBlkID + 1 })

/-- `FreeFullPktBlk`, which is `release` of the pool: the block becomes the first of the free ones. -/
def freeFullPktBlk (state : PktBlkPools) (captureId block : Nat) : PktBlkPools :=
  let pool := state.pools captureId
  { state with
    pools := Function.update state.pools captureId { pool with nextBlock := some block }
    link := Function.update state.link block pool.nextBlock }

/-- The memory after the holder of a block has written into it: each pointer that does not
lie outside of the block may have changed. -/
def overwritten (link written : Nat → Option Nat) (block : Nat) : Nat → Option Nat :=
  fun address =>
    if address + 8 ≤ block ∨ block + sizeofDataBlock ≤ address then link address
    else written address

end PktBlkPools

/-- One call, or one try of a waiting call, or a write of a holder. -/
inductive PktBlkStep where
  | get (captureId : Nat)
  | free (captureId block : Nat)
  | write (captureId block : Nat) (written : Nat → Option Nat)

namespace PktBlkPools

/-- Perform one step. A capture has a pool, frees a block it holds, and writes only there. -/
def step (state : PktBlkPools) : PktBlkStep → Option PktBlkPools
  | .get captureId =>
      if captureId < state.pktBlkPoolNum then
        match state.getEmptyPktBlk captureId with
        | (none, same) => some same
        | (some block, after) =>
            some { after with
              held := Function.update after.held captureId (block :: after.held captureId) }
      else none
  | .free captureId block =>
      if block ∈ state.held captureId then
        let after := state.freeFullPktBlk captureId block
        some { after with
          held := Function.update after.held captureId ((after.held captureId).erase block) }
      else none
  | .write captureId block written =>
      if block ∈ state.held captureId then
        some { state with link := overwritten state.link written block }
      else none

/-- Every block that a capture holds lies in its slice of the block memory. -/
structure Sliced (poolSize blockSize : Nat) (state : PktBlkPools) : Prop where
  within : ∀ captureId, ∀ block ∈ state.held captureId,
    captureId * poolSize ≤ block ∧ block + sizeofDataBlock ≤ (captureId + 1) * poolSize
  apart : ∀ captureId other, captureId ≠ other →
    ∀ block ∈ state.held captureId, ∀ otherBlock ∈ state.held other,
      block + sizeofDataBlock ≤ otherBlock ∨ otherBlock + sizeofDataBlock ≤ block
  inside : ∀ captureId, ∀ block ∈ state.held captureId, block + sizeofDataBlock ≤ blockSize

/-! ## The blocks of a slice -/

/-- The address is that of a block of the slice. -/
def InSlice (poolSize captureId block : Nat) : Prop :=
  ∃ index < poolSize / sizeofDataBlock, block = captureId * poolSize + index * sizeofDataBlock

/-- The size of a data block with its header and the alignment, in bytes. -/
theorem sizeofDataBlock_eq : sizeofDataBlock = 1049088 := rfl

section Slices

variable {poolSize captureId block : Nat}

/-- What lies in the slice of a capture lies between its two bounds. The slices of two captures do
not meet. -/
theorem InSlice.within (inSlice : InSlice poolSize captureId block) :
    captureId * poolSize ≤ block ∧ block + sizeofDataBlock ≤ (captureId + 1) * poolSize := by
  obtain ⟨index, inside, rfl⟩ := inSlice
  refine ⟨Nat.le_add_right _ _, ?_⟩
  have fits : (index + 1) * sizeofDataBlock ≤ poolSize :=
    Nat.le_trans (Nat.mul_le_mul_right _ inside) (Nat.div_mul_le_self _ _)
  rw [Nat.add_mul, Nat.one_mul] at fits ⊢
  omega

/-- Two blocks, of one slice or of two, do not overlap. -/
theorem InSlice.apart {other otherBlock : Nat} (inSlice : InSlice poolSize captureId block)
    (otherInSlice : InSlice poolSize other otherBlock) (distinct : block ≠ otherBlock) :
    block + sizeofDataBlock ≤ otherBlock ∨ otherBlock + sizeofDataBlock ≤ block := by
  have within := inSlice.within
  have otherWithin := otherInSlice.within
  rcases Nat.lt_trichotomy captureId other with before | rfl | behind
  · left
    exact Nat.le_trans within.2 (Nat.le_trans (Nat.mul_le_mul_right poolSize before) otherWithin.1)
  · obtain ⟨index, -, rfl⟩ := inSlice
    obtain ⟨otherIndex, -, rfl⟩ := otherInSlice
    rcases Nat.lt_trichotomy index otherIndex with before | rfl | behind
    · have gap := Nat.mul_le_mul_right sizeofDataBlock before
      rw [Nat.succ_mul] at gap
      omega
    · exact absurd rfl distinct
    · have gap := Nat.mul_le_mul_right sizeofDataBlock behind
      rw [Nat.succ_mul] at gap
      omega
  · right
    exact Nat.le_trans otherWithin.2 (Nat.le_trans (Nat.mul_le_mul_right poolSize behind) within.1)

/-- A block lies in one slice only, as slices of one size follow one another. -/
theorem InSlice.unique {other : Nat} (inSlice : InSlice poolSize captureId block)
    (otherInSlice : InSlice poolSize other block) : captureId = other := by
  have within := inSlice.within
  have otherWithin := otherInSlice.within
  have size := sizeofDataBlock_eq
  rcases Nat.lt_trichotomy captureId other with before | same | behind
  · have order : (captureId + 1) * poolSize ≤ other * poolSize := Nat.mul_le_mul_right poolSize before
    omega
  · exact same
  · have order : (other + 1) * poolSize ≤ captureId * poolSize := Nat.mul_le_mul_right poolSize behind
    omega

end Slices

/-- The blocks of a pool that starts at an address. -/
def blocksAt : Nat → Nat → List Nat
  | _, 0 => []
  | mem, count + 1 => mem :: blocksAt (mem + sizeofDataBlock) count

/-- The blocks of a pool are those at its multiples of the block size. -/
theorem mem_blocksAt {mem count block : Nat} :
    block ∈ blocksAt mem count ↔ ∃ index < count, block = mem + index * sizeofDataBlock := by
  induction count generalizing mem with
  | zero => simp [blocksAt]
  | succ count inductionHypothesis =>
    rw [blocksAt, List.mem_cons, inductionHypothesis]
    constructor
    · rintro (first | ⟨index, inside, later⟩)
      · exact ⟨0, Nat.zero_lt_succ count, by rw [first, Nat.zero_mul, Nat.add_zero]⟩
      · refine ⟨index + 1, Nat.succ_lt_succ inside, ?_⟩
        rw [later, Nat.add_mul, Nat.one_mul, Nat.add_assoc, Nat.add_comm sizeofDataBlock]
    · rintro ⟨index, inside, at_index⟩
      cases index with
      | zero => exact .inl (by rw [at_index, Nat.zero_mul, Nat.add_zero])
      | succ index =>
        refine .inr ⟨index, Nat.lt_of_succ_lt_succ inside, ?_⟩
        rw [at_index, Nat.add_mul, Nat.one_mul, Nat.add_assoc, Nat.add_comm sizeofDataBlock]

/-- No block of a pool is one of those that follow it. -/
theorem not_mem_following (mem count : Nat) : mem ∉ blocksAt (mem + sizeofDataBlock) count := by
  have size := sizeofDataBlock_eq
  rw [mem_blocksAt]
  rintro ⟨index, -, same⟩
  omega

/-- No block is in a pool twice, as the addresses grow. -/
theorem blocksAt_nodup (mem count : Nat) : (blocksAt mem count).Nodup := by
  induction count generalizing mem with
  | zero => exact List.nodup_nil
  | succ count inductionHypothesis =>
    exact List.nodup_cons.mpr ⟨not_mem_following mem count, inductionHypothesis _⟩

/-- The blocks of a pool over a slice are those that lie inside of the slice. -/
theorem mem_blocksAt_slice {poolSize captureId block : Nat} :
    block ∈ blocksAt (captureId * poolSize) (poolSize / sizeofDataBlock) ↔
      InSlice poolSize captureId block := mem_blocksAt

/-- `init` writes the words of the pool's blocks only. -/
theorem initLinks_elsewhere {mem following address : Nat} {link : Nat → Option Nat}
    (elsewhere : address ∉ blocksAt mem (following + 1)) :
    initLinks mem following link address = link address := by
  induction following generalizing mem link with
  | zero =>
    rw [blocksAt, List.mem_cons, not_or] at elsewhere
    exact Function.update_of_ne elsewhere.1 _ _
  | succ following inductionHypothesis =>
    rw [blocksAt, List.mem_cons, not_or] at elsewhere
    rw [initLinks, inductionHypothesis elsewhere.2]
    exact Function.update_of_ne elsewhere.1 _ _

/-- `init` threads the free list through all blocks in their order. -/
theorem initLinks_chain (mem following : Nat) (link : Nat → Option Nat) :
    Chain (initLinks mem following link) (some mem) (blocksAt mem (following + 1)) := by
  induction following generalizing mem link with
  | zero => exact ⟨rfl, Function.update_self _ _ _⟩
  | succ following inductionHypothesis =>
    refine ⟨rfl, ?_⟩
    have first : initLinks mem (following + 1) link mem = some (mem + sizeofDataBlock) := by
      rw [initLinks, initLinks_elsewhere (not_mem_following mem _), Function.update_self]
    rw [first, initLinks]
    exact inductionHypothesis (mem + sizeofDataBlock) _

/-! ## The invariant -/

/-- Each pool has a free list, and its free blocks and those its capture holds are
different blocks of its slice. -/
structure Pooled (maxPrdcrNum poolSize : Nat) (state : PktBlkPools) : Prop where
  num : state.pktBlkPoolNum = maxPrdcrNum
  free : ∀ captureId < maxPrdcrNum, ∃ cells,
    Chain state.link (state.pools captureId).nextBlock cells ∧
      (cells ++ state.held captureId).Nodup ∧
      ∀ block ∈ cells ++ state.held captureId, InSlice poolSize captureId block
  unheld : ∀ captureId, maxPrdcrNum ≤ captureId → state.held captureId = []

namespace Pooled

variable {maxPrdcrNum poolSize captureId block : Nat} {state next : PktBlkPools}

/-- Blocks are held by captures that have a pool, which are fewer than the number of producers. -/
theorem lt_of_held (pooled : Pooled maxPrdcrNum poolSize state)
    (held : block ∈ state.held captureId) : captureId < maxPrdcrNum := by
  by_contra outside
  rw [pooled.unheld captureId (by omega)] at held
  cases held

/-- A block that is held lies in the slice of the capture that holds it. -/
theorem inSlice (pooled : Pooled maxPrdcrNum poolSize state)
    (held : block ∈ state.held captureId) : InSlice poolSize captureId block := by
  obtain ⟨cells, -, -, inSlice⟩ := pooled.free captureId (pooled.lt_of_held held)
  exact inSlice block (List.mem_append_right cells held)

/-- The blocks that are held lie in their slices. -/
theorem sliced (pooled : Pooled maxPrdcrNum poolSize state) {blockSize : Nat}
    (fits : maxPrdcrNum * poolSize ≤ blockSize) : Sliced poolSize blockSize state where
  within captureId block held := (pooled.inSlice held).within
  apart captureId other distinct block held otherBlock otherHeld := by
    apply (pooled.inSlice held).apart (pooled.inSlice otherHeld)
    rintro rfl
    exact distinct ((pooled.inSlice held).unique (pooled.inSlice otherHeld))
  inside captureId block held := by
    have within := (pooled.inSlice held).within.2
    have order : (captureId + 1) * poolSize ≤ maxPrdcrNum * poolSize :=
      Nat.mul_le_mul_right poolSize (pooled.lt_of_held held)
    omega

/-- What is said of the captures after a step of one of them: its own pool is checked, and
the words of the others are left alone. -/
theorem changed (pooled : Pooled maxPrdcrNum poolSize state) (num : next.pktBlkPoolNum = state.pktBlkPoolNum)
    (inside : captureId < maxPrdcrNum)
    (own : ∃ cells, Chain next.link (next.pools captureId).nextBlock cells ∧
      (cells ++ next.held captureId).Nodup ∧
      ∀ block ∈ cells ++ next.held captureId, InSlice poolSize captureId block)
    (pools : ∀ other, other ≠ captureId → next.pools other = state.pools other)
    (held : ∀ other, other ≠ captureId → next.held other = state.held other)
    (kept : ∀ other block, other ≠ captureId → InSlice poolSize other block →
      next.link block = state.link block) : Pooled maxPrdcrNum poolSize next where
  num := num.trans pooled.num
  free other otherInside := by
    by_cases same : other = captureId
    · exact same ▸ own
    · obtain ⟨cells, chain, distinct, inSlice⟩ := pooled.free other otherInside
      rw [pools other same, held other same]
      refine ⟨cells, chain.congr ?_, distinct, inSlice⟩
      exact fun cell member => kept other cell same (inSlice cell (List.mem_append_left _ member))
  unheld other outside := by
    have same : other ≠ captureId := by omega
    rw [held other same, pooled.unheld other outside]

/-- The word of a block is not one of another slice. -/
theorem update_kept (inSlice : InSlice poolSize captureId block) (link : Nat → Option Nat)
    (value : Option Nat) (other cell : Nat) (distinct : other ≠ captureId)
    (otherInSlice : InSlice poolSize other cell) :
    Function.update link block value cell = link cell := by
  apply Function.update_of_ne
  rintro rfl
  exact distinct (otherInSlice.unique inSlice)

/-- Getting a block moves it from the free list of its capture to the held ones. -/
theorem get (pooled : Pooled maxPrdcrNum poolSize state)
    (stepped : state.step (.get captureId) = some next) : Pooled maxPrdcrNum poolSize next := by
  simp only [step, Option.ite_none_right_eq_some] at stepped
  obtain ⟨registered, stepped⟩ := stepped
  have inside : captureId < maxPrdcrNum := pooled.num ▸ registered
  obtain ⟨cells, chain, distinct, inSlice⟩ := pooled.free captureId inside
  cases first : (state.pools captureId).nextBlock with
  | none =>
    simp only [getEmptyPktBlk, first, Option.some.injEq] at stepped
    exact stepped ▸ pooled
  | some block =>
    simp only [getEmptyPktBlk, first, Option.some.injEq] at stepped
    subst stepped
    rw [first] at chain
    obtain ⟨rest, rfl, -⟩ := chain_some.mp chain
    have absent : block ∉ rest ++ state.held captureId := (List.nodup_cons.mp distinct).1
    have notFree : block ∉ rest := fun member => absent (List.mem_append_left _ member)
    have moved : (rest ++ block :: state.held captureId).Perm
        (block :: rest ++ state.held captureId) := List.perm_middle
    apply pooled.changed _ inside
    · refine ⟨rest, ?_, ?_, ?_⟩
      · simp only [Function.update_self]
        exact chain.pop none notFree
      · simp only [Function.update_self]
        exact moved.nodup_iff.mpr distinct
      · simp only [Function.update_self]
        exact fun member found => inSlice member (moved.mem_iff.mp found)
    · exact fun other same => Function.update_of_ne same _ _
    · exact fun other same => Function.update_of_ne same _ _
    · exact update_kept (inSlice block List.mem_cons_self) state.link none
    · rfl

/-- Freeing a block moves it back to the list of the capture it came from. -/
theorem free' (pooled : Pooled maxPrdcrNum poolSize state)
    (stepped : state.step (.free captureId block) = some next) : Pooled maxPrdcrNum poolSize next := by
  simp only [step, Option.ite_none_right_eq_some, Option.some.injEq] at stepped
  obtain ⟨held, rfl⟩ := stepped
  have inside := pooled.lt_of_held held
  obtain ⟨cells, chain, distinct, inSlice⟩ := pooled.free captureId inside
  have moved : (block :: cells ++ (state.held captureId).erase block).Perm
      (cells ++ state.held captureId) :=
    List.perm_middle.symm.trans ((List.perm_cons_erase held).symm.append_left cells)
  have absent : block ∉ cells := fun member =>
    (List.nodup_append.mp distinct).2.2 block member block held rfl
  apply pooled.changed _ inside
  · refine ⟨block :: cells, ?_, ?_, ?_⟩
    · simp only [freeFullPktBlk, Function.update_self]
      exact chain.push absent
    · simp only [freeFullPktBlk, Function.update_self]
      exact moved.nodup_iff.mpr distinct
    · simp only [freeFullPktBlk, Function.update_self]
      exact fun member found => inSlice member (moved.mem_iff.mp found)
  · exact fun other same => Function.update_of_ne same _ _
  · exact fun other same => Function.update_of_ne same _ _
  · exact update_kept (pooled.inSlice held) state.link _
  · rfl

/-- The holder of a block writes into no other block. -/
theorem overwritten_kept {other cell : Nat} (inSlice : InSlice poolSize captureId block)
    (otherInSlice : InSlice poolSize other cell) (distinct : cell ≠ block)
    (link written : Nat → Option Nat) : overwritten link written block cell = link cell := by
  have size := sizeofDataBlock_eq
  have apart := inSlice.apart otherInSlice (Ne.symm distinct)
  simp only [overwritten]
  rw [if_pos (by omega)]

/-- Writing into a block that is held touches no link, since the block has left its list. -/
theorem write (pooled : Pooled maxPrdcrNum poolSize state) {written : Nat → Option Nat}
    (stepped : state.step (.write captureId block written) = some next) :
    Pooled maxPrdcrNum poolSize next := by
  simp only [step, Option.ite_none_right_eq_some, Option.some.injEq] at stepped
  obtain ⟨held, rfl⟩ := stepped
  have inside := pooled.lt_of_held held
  have holds := pooled.inSlice held
  obtain ⟨cells, chain, distinct, inSlice⟩ := pooled.free captureId inside
  apply pooled.changed _ inside
  · refine ⟨cells, chain.congr ?_, distinct, inSlice⟩
    intro cell member
    apply overwritten_kept holds (inSlice cell (List.mem_append_left _ member))
    exact (List.nodup_append.mp distinct).2.2 cell member block held
  · exact fun _ _ => rfl
  · exact fun _ _ => rfl
  · intro other cell same otherInSlice
    apply overwritten_kept holds otherInSlice
    rintro rfl
    exact same (otherInSlice.unique holds)
  · rfl

/-- Every step keeps the invariant: a get, a free, or a write by the holder of a block. -/
theorem step {label : PktBlkStep} (pooled : Pooled maxPrdcrNum poolSize state)
    (stepped : state.step label = some next) : Pooled maxPrdcrNum poolSize next := by
  cases label with
  | get captureId => exact pooled.get stepped
  | free captureId block => exact pooled.free' stepped
  | write captureId block written => exact pooled.write stepped

end Pooled

/-! ## Preparing the pools -/

/-- A call of `PreparePktBlkPool` on a new `CProducerRing`, over any block memory. -/
def afterPrepare (link : Nat → Option Nat) (maxPrdcrNum poolSize : Nat) : PktBlkPools :=
  (new link).preparePktBlkPool maxPrdcrNum poolSize

/-- The state of the loop of `PreparePktBlkPool` when it starts. -/
def pooling (link : Nat → Option Nat) (maxPrdcrNum : Nat) : PktBlkPools :=
  { new link with
    prepared := true
    pktBlkPoolNum := maxPrdcrNum
    pools := fun _ => .empty }

/-- After the preparation each of the captures has a pool over its slice, made one after the other
by `resetMem`. -/
theorem afterPrepare_eq (link : Nat → Option Nat) (maxPrdcrNum poolSize : Nat) :
    afterPrepare link maxPrdcrNum poolSize = (pooling link maxPrdcrNum).resetPools poolSize maxPrdcrNum := by
  have unprepared : ¬ ((new link).prepared = true ∧ (new link).pktBlkPoolNum = maxPrdcrNum) :=
    fun both => Bool.false_ne_true both.1
  rw [afterPrepare, preparePktBlkPool, if_neg unprepared]
  rfl

section Preparing

variable {link : Nat → Option Nat} {maxPrdcrNum poolSize : Nat}

/-- The loop touches the pools only, so that what captures hold and how many there are stays as it
was. -/
theorem resetPools_held (state : PktBlkPools) (poolSize count : Nat) :
    (state.resetPools poolSize count).held = state.held ∧
      (state.resetPools poolSize count).pktBlkPoolNum = state.pktBlkPoolNum := by
  induction count with
  | zero => exact ⟨rfl, rfl⟩
  | succ count inductionHypothesis => exact inductionHypothesis

/-- Every pool starts with a free block at the start that was computed for it, whether or
not a block fits. -/
theorem resetPools_nextBlock (state : PktBlkPools) (poolSize count captureId : Nat)
    (inside : captureId < count) :
    ((state.resetPools poolSize count).pools captureId).nextBlock =
      some (u32 (captureId * poolSize)) := by
  induction count with
  | zero => exact absurd inside (Nat.not_lt_zero _)
  | succ count inductionHypothesis =>
    simp only [resetPools, resetMem, Function.update_apply]
    split
    · rename_i last
      rw [last]
    · rename_i earlier
      exact inductionHypothesis (by omega)

/-- The loop threads the free list of every pool through its slice. -/
theorem resetPools_chain (state : PktBlkPools) (fits : sizeofDataBlock ≤ poolSize) (count : Nat)
    (addressable : ∀ captureId < count, captureId * poolSize < 2 ^ 32) :
    ∀ captureId < count,
      Chain (state.resetPools poolSize count).link
        ((state.resetPools poolSize count).pools captureId).nextBlock
        (blocksAt (captureId * poolSize) (poolSize / sizeofDataBlock)) := by
  have several : 1 ≤ poolSize / sizeofDataBlock :=
    (Nat.one_le_div_iff (by decide)).mpr fits
  induction count with
  | zero => exact fun captureId inside => absurd inside (Nat.not_lt_zero _)
  | succ count inductionHypothesis =>
    have earlier := inductionHypothesis fun captureId inside => addressable captureId (by omega)
    have start : u32 (count * poolSize) = count * poolSize :=
      u32_of_lt (addressable count (Nat.lt_succ_self _))
    have all : poolSize / sizeofDataBlock - 1 + 1 = poolSize / sizeofDataBlock := by omega
    intro captureId inside
    simp only [resetPools, resetMem, Function.update_apply, start]
    split
    · rename_i last
      have chain := initLinks_chain (count * poolSize) (poolSize / sizeofDataBlock - 1)
        (state.resetPools poolSize count).link
      rw [all] at chain
      exact last ▸ chain
    · rename_i before
      apply (earlier captureId (by omega)).congr
      intro block member
      apply initLinks_elsewhere
      rw [all, mem_blocksAt_slice]
      exact fun inLast => before ((mem_blocksAt_slice.mp member).unique inLast)

/-- Slices of at least one block that start below `2 ^ 32` are pooled. -/
theorem pooled_afterPrepare (good : maxPrdcrNum = 0 ∨
    sizeofDataBlock ≤ poolSize ∧ (maxPrdcrNum - 1) * poolSize < 2 ^ 32) :
    Pooled maxPrdcrNum poolSize (afterPrepare link maxPrdcrNum poolSize) := by
  rw [afterPrepare_eq]
  have untouched := resetPools_held (pooling link maxPrdcrNum) poolSize maxPrdcrNum
  have empty : ∀ captureId, (pooling link maxPrdcrNum).held captureId = [] := fun _ => rfl
  constructor
  case num => exact untouched.2
  case free =>
    intro captureId inside
    obtain ⟨fits, addressable⟩ := good.resolve_left (by omega)
    refine ⟨_, resetPools_chain _ fits maxPrdcrNum ?_ captureId inside, ?_, ?_⟩
    · intro other otherInside
      have order : other * poolSize ≤ (maxPrdcrNum - 1) * poolSize :=
        Nat.mul_le_mul_right poolSize (by omega)
      omega
    · rw [untouched.1, empty, List.append_nil]
      exact blocksAt_nodup _ _
    · rw [untouched.1, empty, List.append_nil]
      exact fun block member => mem_blocksAt_slice.mp member
  case unheld =>
    intro captureId _
    rw [untouched.1, empty]

/-- The first block that each capture is handed is at the start computed for its pool. -/
theorem get_afterPrepare (captureId : Nat) (inside : captureId < maxPrdcrNum) :
    ∃ after, (afterPrepare link maxPrdcrNum poolSize).step (.get captureId) = some after ∧
      u32 (captureId * poolSize) ∈ after.held captureId := by
  rw [afterPrepare_eq]
  have first := resetPools_nextBlock (pooling link maxPrdcrNum) poolSize maxPrdcrNum captureId inside
  have registered := (resetPools_held (pooling link maxPrdcrNum) poolSize maxPrdcrNum).2
  have inPools : captureId < ((pooling link maxPrdcrNum).resetPools poolSize maxPrdcrNum).pktBlkPoolNum :=
    registered.symm ▸ inside
  simp only [PktBlkPools.step, if_pos inPools, getEmptyPktBlk, first]
  exact ⟨_, rfl, by simp only [Function.update_self, List.mem_cons, true_or]⟩

end Preparing

/-- In every run every block that is handed out lies in the slice of its capture exactly
when there are no producers, or the slices hold a block and start below `2 ^ 32`. -/
theorem sliced_iff (link : Nat → Option Nat) (maxPrdcrNum poolSize blockSize : Nat)
    (fits : maxPrdcrNum * poolSize ≤ blockSize) :
    (∀ labels, Runs.Throughout step (Sliced poolSize blockSize)
        (afterPrepare link maxPrdcrNum poolSize) labels) ↔
      maxPrdcrNum = 0 ∨
        sizeofDataBlock ≤ poolSize ∧ (maxPrdcrNum - 1) * poolSize < 2 ^ 32 := by
  constructor
  · intro always
    have first : ∀ captureId < maxPrdcrNum,
        captureId * poolSize ≤ u32 (captureId * poolSize) ∧
          u32 (captureId * poolSize) + sizeofDataBlock ≤ (captureId + 1) * poolSize := by
      intro captureId inside
      obtain ⟨after, stepped, held⟩ := get_afterPrepare captureId inside
      have sliced : Sliced poolSize blockSize after := (always [.get captureId]).2 after stepped
      exact sliced.within captureId _ held
    by_cases none : maxPrdcrNum = 0
    · exact .inl none
    · refine .inr ⟨?_, ?_⟩
      · have atStart := (first 0 (by omega)).2
        rw [Nat.zero_mul, Nat.zero_add, Nat.one_mul, u32_of_lt (by decide)] at atStart
        omega
      · exact Nat.lt_of_le_of_lt (first (maxPrdcrNum - 1) (by omega)).1 (u32_lt _)
  · intro good labels
    apply Runs.throughout_of_meets step (fun _ _ => True) (Pooled maxPrdcrNum poolSize)
    · exact fun _ pooled => pooled.sliced fits
    · exact fun _ _ _ pooled _ stepped => pooled.step stepped
    · exact pooled_afterPrepare good
    · exact Runs.meets_of_forall step (fun _ => True) _ labels (fun _ _ => trivial)

/-- Two producers with slices of two blocks each. The sizes are far below 32 bits, so that the
slices do not meet. -/
theorem sliced_two_producers :
    Runs.Throughout step (Sliced 2098176 4196352) (afterPrepare (fun _ => none) 2 2098176)
      [.get 0, .get 1, .get 1, .free 1 2098176] :=
  (sliced_iff (fun _ => none) 2 2098176 4196352 (by decide)).mpr (.inr (by decide)) _

/-- With five slices of 1 GB the last one starts at the first one's start, and with slices
of a page the block handed out reaches into the following slices and past the memory. -/
theorem overlapping_slices :
    5 * 2 ^ 30 ≤ 5368709120 ∧
      (∃ after, Runs.run step (afterPrepare (fun _ => none) 5 (2 ^ 30)) [.get 0, .get 4] = some after ∧
        0 ∈ after.held 0 ∧ 0 ∈ after.held 4 ∧ ¬ Sliced (2 ^ 30) 5368709120 after) ∧
      2 * 4096 ≤ 8192 ∧
      ∃ after, Runs.run step (afterPrepare (fun _ => none) 2 4096) [.get 0] = some after ∧
        0 ∈ after.held 0 ∧ ¬ Sliced 4096 8192 after := by
  refine ⟨by decide, ⟨_, rfl, by decide, by decide, ?_⟩, by decide, _, rfl, by decide, ?_⟩
  · intro sliced
    have within := (sliced.within 4 0 (by decide)).1
    exact absurd within (by decide)
  · intro sliced
    have within := (sliced.within 0 0 (by decide)).2
    exact absurd within (by decide)

end PktBlkPools

end OpenTaker
