import OpenTaker.Runs
import OpenTaker.FreeLists
import OpenTaker.ByteMemory
import OpenTaker.PacketBlockPools
import Mathlib.Data.List.Nodup
import Mathlib.Data.List.Perm.Basic
import Mathlib.Data.List.Range

/-!
# Pools of fixed size buffers

A `CFixBufferPool` threads its free blocks through their first bytes. The holder of a block
may write over all of its bytes, the link included, and the link is written again when the
block comes back. The bytes of the blocks that nobody holds are left alone.

So the blocks that are held and those that are free are all the time the blocks of the
buffer, each of them once, as long as a block has room for the link and the buffer stays with
the pool. A pool that has allocated a buffer once deletes its buffer at the next `resetMem`,
also when that buffer was given to it since: `m_allocate` is never cleared.
-/

namespace OpenTaker

open FreeLists ByteMemory

/-- The size of a `T*` on a 64-bit machine, which is what a link takes at the start of a free block. -/
def sizeofPointer : Nat := 8

/-- `CFixBufferPool<T>`, and the memory its addresses point into. NULL is zero. -/
structure CFixBufferPool where
  bufAddr : Nat
  nextBlock : Nat
  bufCount : Nat
  allocate : Bool
  memory : Memory
  /-- The arrays that `new T[]` has made and nobody has deleted, with their lengths, by their
  addresses. Those of the callers are among them. -/
  arrays : Nat → Option Nat

/-- A call of one of the two overloads of `resetMem`: with a buffer of the caller, or with a count
of blocks that are then allocated. -/
inductive ResetMem where
  | given (mem : Nat)
  /-- `new T[_count]` returns the address, and its constructors leave the memory so. -/
  | allocated (mem : Nat) (constructed : Memory)

/-- The first address of the buffer, the caller's or the one that `new T[]` returns. -/
def ResetMem.mem : ResetMem → Nat
  | given mem => mem
  | allocated mem _ => mem

/-- An array that is no longer there: its address, and how many objects it had. -/
structure DeletedArray where
  addr : Nat
  length : Nat
deriving DecidableEq

/-- No array: it starts nowhere and has no bytes, so that it contains none. -/
def DeletedArray.empty : DeletedArray := ⟨0, 0⟩

/-- The byte was one of the array's. Whoever is given it by the next `new` may write to it. -/
def DeletedArray.contains (sizeofT : Nat) (deleted : DeletedArray) (byte : Nat) : Prop :=
  deleted.addr ≤ byte ∧ byte < deleted.addr + deleted.length * sizeofT

/-- Whether a byte belongs to a deleted array is a comparison of numbers, so that example pools can
be evaluated. -/
instance (sizeofT : Nat) (deleted : DeletedArray) (byte : Nat) :
    Decidable (deleted.contains sizeofT byte) :=
  inferInstanceAs (Decidable (_ ∧ _))

namespace CFixBufferPool

/-- Read `((Block_t*)block)->m_next`, the link in the first eight bytes of a free block. -/
def readNext (memory : Memory) (block : Nat) : Nat := readWord memory block sizeofPointer

/-- Write `((Block_t*)block)->m_next`, over whatever the last holder has left in these bytes. -/
def writeNext (memory : Memory) (block next : Nat) : Memory :=
  writeWord memory block next sizeofPointer

/-- The loop of `init` with so many blocks left from `i` on, and the NULL after it. -/
def initLoop (sizeofT bufAddr : Nat) : Nat → Nat → Nat → Memory → Memory
  | block, _, 0, memory => writeNext memory block 0
  | block, i, left + 1, memory =>
      let linked := writeNext memory block (bufAddr + i * sizeofT)
      initLoop sizeofT bufAddr (readNext linked block) (i + 1) left linked

/-- `init`: each block but the last gets the link to the next one, and the list starts with the
first. The last link is left to the loop's end, which writes NULL. -/
def init (sizeofT : Nat) (pool : CFixBufferPool) : CFixBufferPool :=
  if pool.bufAddr = 0 then pool
  else
    { pool with
      memory := initLoop sizeofT pool.bufAddr pool.bufAddr 1 (pool.bufCount - 1) pool.memory
      nextBlock := pool.bufAddr }

/-- The constructor without arguments: no buffer, an empty list, and nothing allocated. -/
def new (memory : Memory) (arrays : Nat → Option Nat) : CFixBufferPool where
  bufAddr := 0
  nextBlock := 0
  bufCount := 0
  allocate := false
  memory := memory
  arrays := arrays

/-- `if (m_allocate && m_bufAddr) delete[] m_bufAddr`, and what it deletes. To delete what is no
array of `new T[]`, or no longer one, is undefined. -/
def deleteBuffer (pool : CFixBufferPool) : Option (CFixBufferPool × DeletedArray) :=
  if pool.allocate = true ∧ pool.bufAddr ≠ 0 then
    (pool.arrays pool.bufAddr).map fun length =>
      ({ pool with arrays := Function.update pool.arrays pool.bufAddr none }, ⟨pool.bufAddr, length⟩)
  else some (pool, .empty)

/-- Both `resetMem`, with the array that was deleted and not given out again: `new` comes after
the `delete[]` and may return the same memory. -/
def resetMem (sizeofT : Nat) (pool : CFixBufferPool) (count : Int) :
    ResetMem → Option (CFixBufferPool × DeletedArray)
  | .given mem =>
      if mem = 0 ∨ count < 0 then some (pool, .empty)
      else
        pool.deleteBuffer.map fun (pool, deleted) =>
          (init sizeofT { pool with bufAddr := mem, bufCount := count.toNat }, deleted)
  | .allocated mem constructed =>
      if count > 0 then
        pool.deleteBuffer.map fun (pool, _) =>
          (init sizeofT
            { pool with
              bufAddr := mem
              bufCount := count.toNat
              allocate := true
              memory := constructed
              arrays := Function.update pool.arrays mem (some count.toNat) }, .empty)
      else some (pool, .empty)

/-- `tryGetBlock`, which holds the lock for its whole body: unlink the first free block, or return
NULL. -/
def tryGetBlock (pool : CFixBufferPool) : Nat × CFixBufferPool :=
  let block := pool.nextBlock
  if pool.nextBlock = 0 then (block, pool)
  else (block, { pool with nextBlock := readNext pool.memory pool.nextBlock })

/-- `release`, which holds the lock for its whole body: link the block in front of the list, after a
test of its address. -/
def release (pool : CFixBufferPool) (block : Nat) : Bool × CFixBufferPool :=
  if block = 0 then (false, pool)
  else
    (block ≠ 0,
      { pool with memory := writeNext pool.memory block pool.nextBlock, nextBlock := block })

end CFixBufferPool

/-- A pool in use: the blocks that were got from it and not released since, and the array that the
last `resetMem` deleted. -/
structure UsedPool where
  pool : CFixBufferPool
  held : List Nat
  deleted : DeletedArray

/-- One call, or any writes of the program between two calls. -/
inductive BufferStep where
  | tryGetBlock
  | release (block : Nat)
  | write (written : Memory)

namespace UsedPool

/-- A pool after a `resetMem`, of which nothing is held yet. -/
def reset (sizeofT : Nat) (pool : CFixBufferPool) (count : Int) (call : ResetMem) : Option UsedPool :=
  (pool.resetMem sizeofT count call).map fun (pool, deleted) => ⟨pool, [], deleted⟩

/-- Nobody but the pool may write to the byte: it is of the buffer, of no block that is held, and
of nothing that was deleted. -/
def Protects (sizeofT : Nat) (state : UsedPool) (byte : Nat) : Prop :=
  (state.pool.bufAddr ≤ byte ∧ byte < state.pool.bufAddr + state.pool.bufCount * sizeofT) ∧
    (∀ block ∈ state.held, byte < block ∨ block + sizeofT ≤ byte) ∧
    ¬ state.deleted.contains sizeofT byte

/-- Which bytes the others may not write can be decided too, as `overwritten` asks for it at each
byte. -/
instance (sizeofT : Nat) (state : UsedPool) (byte : Nat) : Decidable (state.Protects sizeofT byte) :=
  inferInstanceAs (Decidable (_ ∧ _ ∧ _))

/-- The memory after writes of the holders and of the rest of the program. -/
def overwritten (sizeofT : Nat) (state : UsedPool) (written : Memory) : Memory := fun byte =>
  if state.Protects sizeofT byte then state.pool.memory byte else written byte

/-- Perform one step. Only a block that is held is released. -/
def step (sizeofT : Nat) (state : UsedPool) : BufferStep → Option UsedPool
  | .tryGetBlock =>
      let (block, pool) := state.pool.tryGetBlock
      some { state with pool := pool, held := if block = 0 then state.held else block :: state.held }
  | .release block =>
      if block ∈ state.held then
        some { state with pool := (state.pool.release block).2, held := state.held.erase block }
      else none
  | .write written =>
      some { state with pool := { state.pool with memory := overwritten sizeofT state written } }

end UsedPool

/-! ## The free list in the blocks -/

/-- A pointer that may be NULL, read from its number. -/
def pointer (address : Nat) : Option Nat := if address = 0 then none else some address

/-- The links that the blocks hold in their first bytes. -/
def links (memory : Memory) (block : Nat) : Option Nat := pointer (CFixBufferPool.readNext memory block)

/-- The blocks of a buffer, from its first address on, one for each object that it has room for. -/
def blocksOf (sizeofT mem count : Nat) : List Nat := List.range' mem count sizeofT

/-- The blocks of the buffer are those that are free, which are the ones that are reached
from `m_nextBlock`, and those that are held. -/
structure Conserved (sizeofT mem count : Nat) (free : List Nat) (state : UsedPool) : Prop where
  reached : Chain (links state.pool.memory) (pointer state.pool.nextBlock) free
  disjoint : free.Disjoint state.held
  freeNodup : free.Nodup
  heldNodup : state.held.Nodup
  all : ∀ block, block ∈ free ∨ block ∈ state.held ↔ block ∈ blocksOf sizeofT mem count
  /-- `tryGetBlock` returns NULL when all blocks are held and only then. -/
  exhausted : state.pool.tryGetBlock.1 = 0 ↔ state.held.length = count

/-- Zero is the NULL pointer, which ends the list. -/
@[simp] theorem pointer_zero : pointer 0 = none := rfl

/-- Any other number is the address of a block. -/
theorem pointer_of_ne {address : Nat} (notNull : address ≠ 0) : pointer address = some address :=
  if_neg notNull

section Blocks

variable {sizeofT mem count block other : Nat}

/-- The blocks of a buffer stand at the multiples of their size, the first one at its start. -/
theorem mem_blocksOf : block ∈ blocksOf sizeofT mem count ↔ ∃ i < count, block = mem + sizeofT * i :=
  List.mem_range'

/-- A block lies inside of the buffer: it begins at the buffer or behind and ends in front of its
end. -/
theorem within_of_mem (member : block ∈ blocksOf sizeofT mem count) :
    mem ≤ block ∧ block + sizeofT ≤ mem + count * sizeofT := by
  obtain ⟨i, below, rfl⟩ := mem_blocksOf.mp member
  have order : sizeofT * (i + 1) ≤ count * sizeofT := by
    rw [Nat.mul_comm count]
    exact Nat.mul_le_mul_left sizeofT below
  rw [Nat.mul_add, Nat.mul_one] at order
  omega

/-- Two different blocks do not overlap in their links, when a block has room for one. -/
theorem apart_of_ne (member : block ∈ blocksOf sizeofT mem count)
    (otherMember : other ∈ blocksOf sizeofT mem count) (distinct : block ≠ other) :
    block + sizeofT ≤ other ∨ other + sizeofT ≤ block := by
  obtain ⟨i, -, rfl⟩ := mem_blocksOf.mp member
  obtain ⟨j, -, rfl⟩ := mem_blocksOf.mp otherMember
  rcases Nat.lt_trichotomy i j with before | rfl | behind
  · have gap := Nat.mul_le_mul_left sizeofT before
    rw [Nat.succ_eq_add_one, Nat.mul_add, Nat.mul_one] at gap
    omega
  · exact absurd rfl distinct
  · have gap := Nat.mul_le_mul_left sizeofT behind
    rw [Nat.succ_eq_add_one, Nat.mul_add, Nat.mul_one] at gap
    omega

/-- No block is named twice, as a size with room for a link is positive. -/
theorem blocksOf_nodup (room : sizeofPointer ≤ sizeofT) : (blocksOf sizeofT mem count).Nodup :=
  List.nodup_range' sizeofT (Nat.lt_of_lt_of_le (by decide) room)

end Blocks

namespace CFixBufferPool

variable {sizeofT mem count block next other i left : Nat} {memory : Memory}

/-- The link of a block is read as it was written. -/
theorem readNext_writeNext (fits : next < 2 ^ 64) :
    readNext (writeNext memory block next) block = next :=
  readWord_writeWord (Nat.lt_of_lt_of_le fits (by decide))

/-- Writing the link of one block leaves the links of the others as they were, since blocks do not
overlap and each has room for its link. -/
theorem readNext_writeNext_of_ne (room : sizeofPointer ≤ sizeofT)
    (apart : block + sizeofT ≤ other ∨ other + sizeofT ≤ block) :
    readNext (writeNext memory block next) other = readNext memory other :=
  readWord_writeWord_elsewhere (by omega)

/-- Where blocks do not overlap, writing the link of one updates the links at that block. -/
theorem links_writeNext (room : sizeofPointer ≤ sizeofT) (fits : next < 2 ^ 64)
    (apart : other ≠ block → block + sizeofT ≤ other ∨ other + sizeofT ≤ block) :
    links (writeNext memory block next) other =
      Function.update (links memory) block (pointer next) other := by
  by_cases same : other = block
  · rw [same, Function.update_self, links, readNext_writeNext fits]
  · rw [Function.update_of_ne same, links, readNext_writeNext_of_ne room (apart same), links]

/-! ## The loop of `init` -/

/-- One round of the loop goes on with the next block. -/
theorem initLoop_succ {bufAddr : Nat} (at_i : block + sizeofT = bufAddr + i * sizeofT)
    (fits : block + sizeofT < 2 ^ 64) :
    initLoop sizeofT bufAddr block i (left + 1) memory =
      initLoop sizeofT bufAddr (block + sizeofT) (i + 1) left
        (writeNext memory block (block + sizeofT)) := by
  rw [initLoop, ← at_i, readNext_writeNext fits]

/-- The loop writes links from its block on only. -/
theorem links_initLoop {bufAddr : Nat} (room : sizeofPointer ≤ sizeofT)
    (at_i : block + sizeofT = bufAddr + i * sizeofT)
    (fits : block + (left + 1) * sizeofT ≤ 2 ^ 64) (before : other + sizeofT ≤ block) :
    links (initLoop sizeofT bufAddr block i left memory) other = links memory other := by
  have size : 8 ≤ sizeofT := room
  induction left generalizing block i memory with
  | zero =>
    rw [initLoop, links_writeNext room (by decide) (fun _ => .inr before)]
    exact Function.update_of_ne (by omega) _ _
  | succ left inductionHypothesis =>
    rw [Nat.add_mul (left + 1), Nat.one_mul] at fits
    have some : sizeofT ≤ (left + 1) * sizeofT := Nat.le_mul_of_pos_left _ (Nat.succ_pos left)
    rw [initLoop_succ at_i (by omega), inductionHypothesis _ (by omega) (by omega),
      links_writeNext room (by omega) (fun _ => .inr before)]
    · exact Function.update_of_ne (by omega) _ _
    · rw [Nat.add_mul, Nat.one_mul]
      omega

/-- The loop threads the list through the blocks in their order. -/
theorem chain_initLoop {bufAddr : Nat} (room : sizeofPointer ≤ sizeofT)
    (at_i : block + sizeofT = bufAddr + i * sizeofT)
    (fits : block + (left + 1) * sizeofT ≤ 2 ^ 64) :
    Chain (links (initLoop sizeofT bufAddr block i left memory)) (some block)
      (blocksOf sizeofT block (left + 1)) := by
  have size : 8 ≤ sizeofT := room
  induction left generalizing block i memory with
  | zero =>
    refine ⟨rfl, ?_⟩
    rw [initLoop, links_writeNext room (by decide) (absurd rfl), Function.update_self]
    rfl
  | succ left inductionHypothesis =>
    rw [Nat.add_mul (left + 1), Nat.one_mul] at fits
    have some : sizeofT ≤ (left + 1) * sizeofT := Nat.le_mul_of_pos_left _ (Nat.succ_pos left)
    have following : block + sizeofT + sizeofT = bufAddr + (i + 1) * sizeofT := by
      rw [Nat.add_mul, Nat.one_mul]
      omega
    refine ⟨rfl, ?_⟩
    rw [initLoop_succ at_i (by omega)]
    rw [links_initLoop room following (by omega) (Nat.le_refl _),
      links_writeNext room (by omega) (absurd rfl), Function.update_self,
      pointer_of_ne (by omega)]
    exact inductionHypothesis following (by omega)

end CFixBufferPool

/-! ## The pool in use -/

/-- No link of a block lies in the array: what is written there leaves the list alone. -/
def ApartFrom (sizeofT mem count : Nat) (deleted : DeletedArray) : Prop :=
  ∀ block ∈ blocksOf sizeofT mem count, ∀ byte, block ≤ byte → byte < block + sizeofPointer →
    ¬ deleted.contains sizeofT byte

/-- Where nothing was deleted, the buffer is apart from it. -/
theorem apartFrom_empty (sizeofT mem count : Nat) : ApartFrom sizeofT mem count .empty :=
  fun _ _ _ _ _ contained => by
    have below := contained.2
    rw [DeletedArray.empty, Nat.zero_mul] at below
    exact Nat.not_lt_zero _ below

/-- The free blocks and those that are held are the blocks of the buffer, in some order, and
nothing that was deleted is of their links. -/
structure Pooled (sizeofT mem count : Nat) (state : UsedPool) : Prop where
  bufAddr : state.pool.bufAddr = mem
  bufCount : state.pool.bufCount = count
  apart : ApartFrom sizeofT mem count state.deleted
  blocks : ∃ free, Chain (links state.pool.memory) (pointer state.pool.nextBlock) free ∧
    (free ++ state.held).Perm (blocksOf sizeofT mem count)

namespace Pooled

variable {sizeofT mem count block : Nat} {free : List Nat} {state next : UsedPool}

/-- The head of the list is NULL or one of its blocks. -/
theorem nextBlock_mem (chain : Chain (links state.pool.memory) (pointer state.pool.nextBlock) free)
    (notNull : state.pool.nextBlock ≠ 0) : ∃ rest, free = state.pool.nextBlock :: rest ∧
      Chain (links state.pool.memory) (links state.pool.memory state.pool.nextBlock) rest := by
  rw [pointer_of_ne notNull] at chain
  exact chain_some.mp chain

/-- Without a free block the head is NULL, and only then. -/
theorem nextBlock_eq_zero (chain : Chain (links state.pool.memory) (pointer state.pool.nextBlock) free) :
    state.pool.nextBlock = 0 ↔ free = [] := by
  constructor
  · intro null
    cases free with
    | nil => rfl
    | cons first rest =>
      rw [null] at chain
      exact absurd chain.1 (by simp)
  · rintro rfl
    by_contra notNull
    obtain ⟨rest, impossible, -⟩ := nextBlock_mem chain notNull
    cases impossible

/-- What is said of the pool follows from the order of its blocks. -/
theorem conserved (room : sizeofPointer ≤ sizeofT) (pooled : Pooled sizeofT mem count state) :
    ∃ free, Conserved sizeofT mem count free state := by
  obtain ⟨free, chain, perm⟩ := pooled.blocks
  have nodup : (free ++ state.held).Nodup := perm.nodup_iff.mpr (blocksOf_nodup room)
  have length : free.length + state.held.length = count := by
    rw [← List.length_append, perm.length_eq, blocksOf, List.length_range']
  refine ⟨free, chain, ?_, ?_, ?_, ?_, ?_⟩
  · exact List.disjoint_of_nodup_append nodup
  · exact nodup.of_append_left
  · exact nodup.of_append_right
  · intro block
    rw [← perm.mem_iff, List.mem_append]
  · have null : state.pool.tryGetBlock.1 = state.pool.nextBlock := by
      unfold CFixBufferPool.tryGetBlock
      split <;> rfl
    rw [null, nextBlock_eq_zero chain, ← List.length_eq_zero_iff]
    omega

/-- A block that is got is no longer free but held. -/
theorem tryGetBlock (pooled : Pooled sizeofT mem count state)
    (stepped : state.step sizeofT .tryGetBlock = some next) : Pooled sizeofT mem count next := by
  by_cases null : state.pool.nextBlock = 0
  · simp only [UsedPool.step, CFixBufferPool.tryGetBlock, if_pos null, Option.some.injEq] at stepped
    exact stepped ▸ pooled
  · simp only [UsedPool.step, CFixBufferPool.tryGetBlock, if_neg null, Option.some.injEq] at stepped
    subst stepped
    obtain ⟨free, chain, perm⟩ := pooled.blocks
    obtain ⟨rest, rfl, following⟩ := nextBlock_mem chain null
    exact ⟨pooled.bufAddr, pooled.bufCount, pooled.apart, rest, following, List.perm_middle.trans perm⟩

/-- A block that is released is no longer held but free, and the first to be got again. -/
theorem release (room : sizeofPointer ≤ sizeofT) (notNull : mem ≠ 0)
    (inSpace : mem + count * sizeofT ≤ 2 ^ 64) (pooled : Pooled sizeofT mem count state)
    (stepped : state.step sizeofT (.release block) = some next) : Pooled sizeofT mem count next := by
  by_cases held : block ∈ state.held
  · obtain ⟨free, chain, perm⟩ := pooled.blocks
    have member : ∀ cell ∈ free ++ state.held, cell ∈ blocksOf sizeofT mem count :=
      fun _ => perm.mem_iff.mp
    have blockMember := member block (List.mem_append_right free held)
    have absent : block ∉ free := by
      have nodup : (free ++ state.held).Nodup := perm.nodup_iff.mpr (blocksOf_nodup room)
      exact fun isFree => List.disjoint_of_nodup_append nodup isFree held
    have positive : block ≠ 0 := by
      have within := (within_of_mem blockMember).1
      omega
    have fits : state.pool.nextBlock < 2 ^ 64 := by
      by_cases null : state.pool.nextBlock = 0
      · omega
      · obtain ⟨rest, isHead, -⟩ := nextBlock_mem chain null
        have within := (within_of_mem (member state.pool.nextBlock (by simp [isHead]))).2
        have size : 8 ≤ sizeofT := room
        omega
    simp only [UsedPool.step, if_pos held, CFixBufferPool.release, if_neg positive,
      Option.some.injEq] at stepped
    subst stepped
    refine ⟨pooled.bufAddr, pooled.bufCount, pooled.apart, block :: free, ?_, ?_⟩
    · rw [pointer_of_ne positive]
      apply (chain.push absent).congr
      intro cell found
      apply CFixBufferPool.links_writeNext room fits
      intro distinct
      have isFree : cell ∈ free := (List.mem_cons.mp found).resolve_left distinct
      exact apart_of_ne blockMember (member cell (List.mem_append_left _ isFree)) distinct.symm
    · have back : (block :: (free ++ state.held.erase block)).Perm (free ++ state.held) :=
        List.perm_middle.symm.trans (.append_left free (List.perm_cons_erase held).symm)
      exact back.trans perm
  · simp only [UsedPool.step, if_neg held] at stepped
    cases stepped

/-- Writes to what is held, and outside of the buffer, leave the links of the free blocks
alone. -/
theorem write (room : sizeofPointer ≤ sizeofT) {written : Memory}
    (pooled : Pooled sizeofT mem count state)
    (stepped : state.step sizeofT (.write written) = some next) : Pooled sizeofT mem count next := by
  obtain ⟨free, chain, perm⟩ := pooled.blocks
  simp only [UsedPool.step, Option.some.injEq] at stepped
  subst stepped
  refine ⟨pooled.bufAddr, pooled.bufCount, pooled.apart, free, ?_, perm⟩
  apply chain.congr
  intro cell isFree
  have cellMember : cell ∈ blocksOf sizeofT mem count :=
    perm.mem_iff.mp (List.mem_append_left _ isFree)
  have within := within_of_mem cellMember
  have size : 8 ≤ sizeofT := room
  have kept : readWord (state.overwritten sizeofT written) cell sizeofPointer =
      readWord state.pool.memory cell sizeofPointer := by
    apply readWord_congr
    intro byte above below
    have inCell : byte < cell + 8 := below
    have ofBuffer : state.pool.bufAddr ≤ byte ∧
        byte < state.pool.bufAddr + state.pool.bufCount * sizeofT := by
      rw [pooled.bufAddr, pooled.bufCount]
      omega
    refine if_pos ⟨ofBuffer, ?_, pooled.apart cell cellMember byte above below⟩
    intro block held
    have distinct : cell ≠ block := by
      have nodup : (free ++ state.held).Nodup := perm.nodup_iff.mpr (blocksOf_nodup room)
      rintro rfl
      exact List.disjoint_of_nodup_append nodup isFree held
    have apart := apart_of_ne cellMember (perm.mem_iff.mp (List.mem_append_right _ held)) distinct
    omega
  exact congrArg pointer kept

/-- Each step keeps the order of the blocks: an allocation takes the first free one out, and a
release puts its block back in front. -/
theorem step (room : sizeofPointer ≤ sizeofT) (notNull : mem ≠ 0)
    (inSpace : mem + count * sizeofT ≤ 2 ^ 64) {label : BufferStep}
    (pooled : Pooled sizeofT mem count state)
    (stepped : state.step sizeofT label = some next) : Pooled sizeofT mem count next := by
  cases label with
  | tryGetBlock => exact pooled.tryGetBlock stepped
  | release block => exact pooled.release room notNull inSpace stepped
  | write written => exact pooled.write room stepped

end Pooled

namespace CFixBufferPool

variable {sizeofT mem count : Nat}

/-- `init` makes all blocks of a buffer free, one linked to the next, whatever the buffer held in
front of it. -/
theorem pooled_init (room : sizeofPointer ≤ sizeofT) (positive : 0 < count) (notNull : mem ≠ 0)
    (inSpace : mem + count * sizeofT ≤ 2 ^ 64) {pool : CFixBufferPool} (bufAddr : pool.bufAddr = mem)
    (bufCount : pool.bufCount = count) {deleted : DeletedArray}
    (apart : ApartFrom sizeofT mem count deleted) :
    Pooled sizeofT mem count ⟨pool.init sizeofT, [], deleted⟩ := by
  have last : count - 1 + 1 = count := Nat.sub_add_cancel positive
  rw [init, if_neg (bufAddr ▸ notNull), bufAddr, bufCount]
  refine ⟨rfl, rfl, apart, blocksOf sizeofT mem count, ?_, ?_⟩
  · have chain : Chain (links (initLoop sizeofT mem mem 1 (count - 1) pool.memory)) (some mem)
        (blocksOf sizeofT mem (count - 1 + 1)) :=
      chain_initLoop room (by rw [Nat.one_mul]) (by rw [last]; exact inSpace)
    rw [pointer_of_ne notNull]
    rwa [last] at chain
  · rw [List.append_nil]

/-- What a `resetMem` deletes is an array, and has no byte of the links of the new buffer. A buffer
that `new` returns is no longer deleted, whatever it was before. -/
def DeletesOther (sizeofT : Nat) (pool : CFixBufferPool) (count : Int) (call : ResetMem) : Prop :=
  pool.allocate = true → pool.bufAddr ≠ 0 → ∃ length, pool.arrays pool.bufAddr = some length ∧
    ∀ mem, call = .given mem → ApartFrom sizeofT mem count.toNat ⟨pool.bufAddr, length⟩

/-- What `delete[]` does where it is defined: the buffer is an array that `new[]` has given, and
afterwards it is no longer one. -/
theorem deleteBuffer_eq_some {pool after : CFixBufferPool} {deleted : DeletedArray} :
    pool.deleteBuffer = some (after, deleted) ↔
      (pool.allocate = true ∧ pool.bufAddr ≠ 0 ∧ ∃ length, pool.arrays pool.bufAddr = some length ∧
        after = { pool with arrays := Function.update pool.arrays pool.bufAddr none } ∧
        deleted = ⟨pool.bufAddr, length⟩) ∨
      (¬ (pool.allocate = true ∧ pool.bufAddr ≠ 0) ∧ after = pool ∧ deleted = .empty) := by
  rw [deleteBuffer]
  split
  · rename_i deletes
    simp only [Option.map_eq_some_iff, Prod.mk.injEq, deletes, not_true_eq_false, false_and, or_false, ne_eq,
      not_false_eq_true, true_and]
    exact exists_congr fun length => and_congr_right fun _ => and_congr eq_comm eq_comm
  · rename_i keeps
    have never : ¬ (pool.allocate = true ∧ pool.bufAddr ≠ 0 ∧
        ∃ length, pool.arrays pool.bufAddr = some length ∧
          after = { pool with arrays := Function.update pool.arrays pool.bufAddr none } ∧
          deleted = ⟨pool.bufAddr, length⟩) := fun deletes => keeps ⟨deletes.1, deletes.2.1⟩
    rw [or_iff_right never, Option.some.injEq, Prod.mk.injEq]
    exact ⟨fun same => ⟨keeps, same.1.symm, same.2.symm⟩, fun same => ⟨same.2.1.symm, same.2.2.symm⟩⟩

/-- A call with a buffer of at least one block, where it is defined, makes the pool that `init`
leaves, with what was deleted of it. -/
theorem reset_eq_some {pool : CFixBufferPool} {count : Int} (positive : 1 ≤ count) {call : ResetMem}
    (notNull : call.mem ≠ 0) {state : UsedPool} :
    UsedPool.reset sizeofT pool count call = some state ↔ ∃ cleared deleted,
      pool.deleteBuffer = some (cleared, deleted) ∧
        match call with
        | .given mem => state =
            ⟨init sizeofT { cleared with bufAddr := mem, bufCount := count.toNat }, [], deleted⟩
        | .allocated mem constructed => state =
            ⟨init sizeofT
              { cleared with
                bufAddr := mem
                bufCount := count.toNat
                allocate := true
                memory := constructed
                arrays := Function.update cleared.arrays mem (some count.toNat) }, [], .empty⟩ := by
  cases call with
  | given mem =>
    have valid : ¬ (mem = 0 ∨ count < 0) := by
      rintro (null | negative)
      · exact notNull null
      · omega
    simp only [UsedPool.reset, resetMem, if_neg valid, Option.map_map, Option.map_eq_some_iff,
      Function.comp_apply, Prod.exists, @eq_comm _ state]
  | allocated mem constructed =>
    have filled : count > 0 := by omega
    simp only [UsedPool.reset, resetMem, if_pos filled, Option.map_map, Option.map_eq_some_iff,
      Function.comp_apply, Prod.exists, @eq_comm _ state]

/-- Each `resetMem` makes all blocks free that deletes nothing of them, whatever the pool was. -/
theorem pooled_reset (room : sizeofPointer ≤ sizeofT) {pool : CFixBufferPool} {count : Int}
    (positive : 1 ≤ count) {call : ResetMem} (notNull : call.mem ≠ 0)
    (inSpace : call.mem + count.toNat * sizeofT ≤ 2 ^ 64) (other : pool.DeletesOther sizeofT count call) :
    ∃ state, UsedPool.reset sizeofT pool count call = some state ∧
      Pooled sizeofT call.mem count.toNat state := by
  have filled : 0 < count.toNat := by omega
  obtain ⟨cleared, deleted, deletes, apart⟩ : ∃ cleared deleted,
      pool.deleteBuffer = some (cleared, deleted) ∧
        ∀ mem, call = .given mem → ApartFrom sizeofT mem count.toNat deleted := by
    by_cases allocated : pool.allocate = true ∧ pool.bufAddr ≠ 0
    · obtain ⟨length, isArray, apart⟩ := other allocated.1 allocated.2
      exact ⟨_, _, deleteBuffer_eq_some.mpr
        (.inl ⟨allocated.1, allocated.2, length, isArray, rfl, rfl⟩), apart⟩
    · exact ⟨pool, .empty, deleteBuffer_eq_some.mpr (.inr ⟨allocated, rfl, rfl⟩),
        fun mem _ => apartFrom_empty sizeofT mem count.toNat⟩
  cases call with
  | given mem =>
    exact ⟨_, (reset_eq_some positive notNull).mpr ⟨cleared, deleted, deletes, rfl⟩,
      pooled_init room filled notNull inSpace rfl rfl (apart mem rfl)⟩
  | allocated mem constructed =>
    exact ⟨_, (reset_eq_some positive notNull).mpr ⟨cleared, deleted, deletes, rfl⟩,
      pooled_init room filled notNull inSpace rfl rfl (apartFrom_empty sizeofT mem count.toNat)⟩

/-- What a `resetMem` leaves of the pool: the buffer, and nothing held. -/
theorem reset_buffer {pool : CFixBufferPool} {count : Int} (positive : 1 ≤ count) {call : ResetMem}
    (notNull : call.mem ≠ 0) {state : UsedPool}
    (reached : UsedPool.reset sizeofT pool count call = some state) :
    state.pool.bufAddr = call.mem ∧ state.pool.bufCount = count.toNat ∧ state.held = [] := by
  obtain ⟨cleared, deleted, -, isState⟩ := (reset_eq_some positive notNull).mp reached
  cases call with
  | given mem =>
    simp only at isState
    rw [isState, init]
    split <;> exact ⟨rfl, rfl, rfl⟩
  | allocated mem constructed =>
    simp only at isState
    rw [isState, init]
    split <;> exact ⟨rfl, rfl, rfl⟩

end CFixBufferPool

namespace UsedPool

variable {sizeofT mem count block byte : Nat} {state : UsedPool}

/-- A `resetMem` is defined, and in every run of gets, releases and writes after it the free and the
held blocks are those of the buffer. -/
def KeepsBlocks (sizeofT : Nat) (pool : CFixBufferPool) (count : Int) (call : ResetMem) : Prop :=
  ∃ state, reset sizeofT pool count call = some state ∧
    ∀ labels final, Runs.run (step sizeofT) state labels = some final →
      ∃ free, Conserved sizeofT call.mem count.toNat free final

/-- Links that differ in the words of the blocks differ as links, NULL included. -/
theorem links_inj {memory other : Memory} (same : links other block = links memory block) :
    CFixBufferPool.readNext other block = CFixBufferPool.readNext memory block := by
  simp only [links, pointer] at same
  split at same <;> split at same <;> simp_all

/-- When a byte of one link may be written by others, two values written there cannot both
leave a list of all the blocks: the one link tells the two values apart, and the others do not. -/
theorem not_conserved_of_exposed (exposed : ¬ state.Protects sizeofT byte) (notHeld : state.held = [])
    (member : block ∈ blocksOf sizeofT mem count)
    (above : block ≤ byte) (below : byte < block + sizeofPointer)
    (others : ∀ other ∈ blocksOf sizeofT mem count, other ≠ block →
      byte < other ∨ other + sizeofPointer ≤ byte) :
    ∃ labels final, Runs.run (step sizeofT) state labels = some final ∧
      ¬ ∃ free, Conserved sizeofT mem count free final := by
  by_contra conserves
  push Not at conserves
  have stored (value : UInt8) : ∃ free, Conserved sizeofT mem count free
      { state with pool := { state.pool with memory := Function.update state.pool.memory byte value } } := by
    refine conserves [.write (Function.update state.pool.memory byte value)] _ ?_
    have memory : state.overwritten sizeofT (Function.update state.pool.memory byte value) =
        Function.update state.pool.memory byte value := by
      funext place
      rw [overwritten]
      split
      · rename_i protects
        rw [Function.update_of_ne]
        rintro rfl
        exact exposed protects
      · rfl
    rw [Runs.run, step, memory]
    rfl
  obtain ⟨first, firstKept⟩ := stored 0
  obtain ⟨second, secondKept⟩ := stored 1
  have members {free : List Nat} {written : UsedPool} (kept : Conserved sizeofT mem count free written)
      (nothing : written.held = []) (found : Nat) :
      found ∈ free ↔ found ∈ blocksOf sizeofT mem count := by
    rw [← kept.all found, nothing]
    simp
  have same : ∀ found ∈ first, found ∈ second := fun found inFirst =>
    (members secondKept notHeld found).mpr ((members firstKept notHeld found).mp inFirst)
  have perm : first.Perm second := (List.perm_ext_iff_of_nodup firstKept.freeNodup
    secondKept.freeNodup).mpr fun found =>
      (members firstKept notHeld found).trans (members secondKept notHeld found).symm
  refine firstKept.reached.broken secondKept.reached ((members firstKept notHeld block).mpr member) ?_ ?_
    firstKept.freeNodup perm.length_eq.symm same
  · intro found inFirst different
    have apart := others found ((members firstKept notHeld found).mp inFirst) different
    refine congrArg pointer (ByteMemory.readWord_congr fun place start stop => ?_)
    dsimp only
    rw [Function.update_of_ne (by omega), Function.update_of_ne (by omega)]
  · intro equal
    exact ByteMemory.readWord_update_ne (by decide) above below (links_inj equal.symm)

/-- Blocks that are smaller than a link lose it: the link of the last one goes beyond the buffer. -/
theorem KeepsBlocks.room {pool : CFixBufferPool} {count : Int} {call : ResetMem}
    (keeps : KeepsBlocks sizeofT pool count call) (sized : 0 < sizeofT) (positive : 1 ≤ count)
    (notNull : call.mem ≠ 0) : sizeofPointer ≤ sizeofT := by
  by_contra small
  obtain ⟨state, reached, conserves⟩ := keeps
  obtain ⟨bufAddr, bufCount, notHeld⟩ := CFixBufferPool.reset_buffer positive notNull reached
  obtain ⟨before, isCount⟩ : ∃ before, count.toNat = before + 1 := ⟨count.toNat - 1, by omega⟩
  have size : sizeofT < 8 := Nat.not_le.mp small
  have total : (before + 1) * sizeofT = sizeofT * before + sizeofT := by
    rw [Nat.mul_comm, Nat.mul_succ]
  have last : call.mem + sizeofT * before ∈ blocksOf sizeofT call.mem count.toNat :=
    mem_blocksOf.mpr ⟨before, by omega, rfl⟩
  have exposed : ¬ state.Protects sizeofT (call.mem + sizeofT * before + 7) := by
    rintro ⟨⟨-, inside⟩, -⟩
    rw [bufAddr, bufCount, isCount, total] at inside
    omega
  have others : ∀ other ∈ blocksOf sizeofT call.mem count.toNat, other ≠ call.mem + sizeofT * before →
      call.mem + sizeofT * before + 7 < other ∨
        other + sizeofPointer ≤ call.mem + sizeofT * before + 7 := by
    intro other isBlock different
    obtain ⟨place, below, rfl⟩ := mem_blocksOf.mp isBlock
    have earlier : place + 1 ≤ before := by
      by_contra later
      obtain rfl : place = before := by omega
      exact different rfl
    have gap := Nat.mul_le_mul_left sizeofT earlier
    rw [Nat.mul_succ] at gap
    simp only [sizeofPointer]
    omega
  obtain ⟨labels, final, ran, broken⟩ := not_conserved_of_exposed exposed notHeld last (by omega)
    (by simp only [sizeofPointer]; omega) others
  exact broken (conserves labels final ran)

/-- A call that deletes links of its own buffer, or what is no array, does not keep the blocks. -/
theorem KeepsBlocks.deletesOther {pool : CFixBufferPool} {count : Int} {call : ResetMem}
    (keeps : KeepsBlocks sizeofT pool count call) (room : sizeofPointer ≤ sizeofT) (positive : 1 ≤ count)
    (notNull : call.mem ≠ 0) : pool.DeletesOther sizeofT count call := by
  intro allocated hasBuffer
  obtain ⟨state, reached, conserves⟩ := keeps
  obtain ⟨-, -, notHeld⟩ := CFixBufferPool.reset_buffer positive notNull reached
  obtain ⟨cleared, deleted, deletes, isState⟩ := (CFixBufferPool.reset_eq_some positive notNull).mp reached
  rcases CFixBufferPool.deleteBuffer_eq_some.mp deletes with
    ⟨-, -, length, isArray, -, isDeleted⟩ | ⟨keeps, -⟩
  · refine ⟨length, isArray, fun mem isGiven block member byte above below contained => ?_⟩
    subst isGiven
    simp only at isState
    have exposed : ¬ state.Protects sizeofT byte := by
      rintro ⟨-, -, kept⟩
      rw [isState, isDeleted] at kept
      exact kept contained
    have others : ∀ other ∈ blocksOf sizeofT mem count.toNat, other ≠ block →
        byte < other ∨ other + sizeofPointer ≤ byte := by
      intro other isBlock different
      have apart := apart_of_ne member isBlock (Ne.symm different)
      simp only [sizeofPointer] at room below ⊢
      omega
    obtain ⟨labels, final, ran, broken⟩ := not_conserved_of_exposed exposed notHeld member above below others
    exact broken (conserves labels final ran)
  · exact absurd ⟨allocated, hasBuffer⟩ keeps

/-- In every run of gets, releases and writes after a `resetMem`, whatever the pool was before, the
free and the held blocks are those of the buffer, each of them once, and NULL is returned just when
all are held: this is so if and only if a block has room for a link, and the call deletes an array
that has no byte of the links, if it deletes anything. -/
theorem blocks_conserved_iff (sizeofT : Nat) (pool : CFixBufferPool) (count : Int) (call : ResetMem)
    (sized : 0 < sizeofT) (positive : 1 ≤ count) (notNull : call.mem ≠ 0)
    (inSpace : call.mem + count.toNat * sizeofT ≤ 2 ^ 64) :
    KeepsBlocks sizeofT pool count call ↔
      sizeofPointer ≤ sizeofT ∧ pool.DeletesOther sizeofT count call := by
  constructor
  · intro keeps
    have room := keeps.room sized positive notNull
    exact ⟨room, keeps.deletesOther room positive notNull⟩
  · rintro ⟨room, other⟩
    obtain ⟨state, reached, pooled⟩ := CFixBufferPool.pooled_reset room positive notNull inSpace other
    refine ⟨state, reached, fun labels final ran => ?_⟩
    apply Pooled.conserved room
    apply Runs.run_invariant (step sizeofT) (Pooled sizeofT call.mem count.toNat) _ state final labels pooled ran
    exact fun _ _ _ pooled stepped => pooled.step room notNull inSpace stepped

/-- Two data blocks, as in the pools of the packet ring: both are got, the first one's
holder writes over it, and after its release it is got again. -/
theorem blocks_conserved_data_blocks :
    KeepsBlocks sizeofDataBlock (.new (fun _ => 205) fun _ => none) 2 (.given 4096) ∧
      ((reset sizeofDataBlock (.new (fun _ => 205) fun _ => none) 2 (.given 4096)).bind fun state =>
        Runs.run (step sizeofDataBlock) state
          [.tryGetBlock, .tryGetBlock, .write (fun _ => 255), .release 4096, .tryGetBlock]).map
            UsedPool.held = some [4096, 1053184] := by
  refine ⟨(blocks_conserved_iff sizeofDataBlock (.new (fun _ => 205) fun _ => none) 2 (.given 4096)
    (by decide) (by decide) (by decide) (by decide)).mpr ⟨by decide, ?_⟩, by decide +kernel⟩
  intro allocated
  cases allocated

/-- A pool that has allocated a buffer of one object and was then given an array of two that its
caller had made. -/
def reused : Option CFixBufferPool := do
  let (own, _) ← CFixBufferPool.resetMem 8 (.new (fun _ => 0) fun addr => if addr = 8192 then some 2 else none) 1
    (.allocated 4096 fun _ => 0)
  let (given, _) ← CFixBufferPool.resetMem 8 own 2 (.given 8192)
  some given

/-- When it is given the same array once more, it deletes it first, and makes its list in memory
that the next `new` may give to others. -/
theorem given_array_deleted : ∃ pool, reused = some pool ∧ ¬ KeepsBlocks 8 pool 2 (.given 8192) := by
  refine ⟨_, rfl, fun keeps => ?_⟩
  obtain ⟨length, isArray, apart⟩ := keeps.deletesOther (by decide) (by decide) (by decide) rfl (by decide)
  obtain rfl : 2 = length := Option.some.inj isArray
  exact apart 8192 rfl 8192 (by decide) 8192 (by decide) (by decide) ⟨by decide, by decide⟩

end UsedPool

end OpenTaker
