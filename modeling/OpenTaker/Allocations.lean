import OpenTaker.CStrings
import Mathlib.Logic.Function.Basic

/-!
# Allocated memory

Memory that is allocated and freed block by block. A pointer is NULL, points to memory that
the program does not allocate here, or points into a block; through it a string is read up to
its zero byte, or so many bytes. Reading a block that is not allocated is undefined.
-/

namespace OpenTaker

open CStrings

/-- The blocks that are allocated, by the numbers that they were given. -/
structure Allocations where
  blocks : Nat → Option (List UInt8)
  /-- How many blocks have been allocated so far. -/
  count : Nat
  fresh : ∀ address, count ≤ address → blocks address = none

/-- A pointer as the code gets one: NULL, bytes that belong to somebody else, or a place inside of
an allocated block. -/
inductive Pointer where
  | null
  /-- To bytes elsewhere; as a string they end with a zero byte. -/
  | outside (bytes : List UInt8)
  | inside (address offset : Nat)
deriving DecidableEq

namespace Allocations

/-- A memory in which nothing has been allocated: each address is still to be given out. -/
def empty : Allocations := ⟨fun _ => none, 0, fun _ _ => rfl⟩

/-- Allocate a block with this content, at the next address, which has not been used before. -/
def alloc (memory : Allocations) (content : List UInt8) : Allocations where
  blocks := Function.update memory.blocks memory.count (some content)
  count := memory.count + 1
  fresh := by
    intro address later
    rw [Function.update_of_ne (by omega)]
    exact memory.fresh address (by omega)

/-- Free a block that is allocated; NULL may be freed, too. -/
def free (memory : Allocations) : Option Nat → Option Allocations
  | none => some memory
  | some address =>
      if (memory.blocks address).isSome then
        some {
          blocks := Function.update memory.blocks address none
          count := memory.count
          fresh := by
            intro other later
            by_cases same : other = address
            · rw [same, Function.update_self]
            · rw [Function.update_of_ne same]
              exact memory.fresh other later }
      else none

/-- The string at a pointer, up to its terminator. It can be read only where a terminator stands
inside of the block. -/
def readString (memory : Allocations) : Pointer → Option (List UInt8)
  | .null => none
  | .outside bytes => some (cString bytes)
  | .inside address offset =>
      (memory.blocks address).bind fun content =>
        if 0 ∈ content.drop offset then some (cString (content.drop offset)) else none

/-- So many bytes at a pointer, all of which must lie in the block or in the bytes that it points
to. -/
def readBytes (memory : Allocations) (length : Nat) : Pointer → Option (List UInt8)
  | .null => none
  | .outside bytes => if length ≤ bytes.length then some (bytes.take length) else none
  | .inside address offset =>
      (memory.blocks address).bind fun content =>
        if offset + length ≤ content.length then some ((content.drop offset).take length) else none

variable {memory other : Allocations} {content : List UInt8} {address : Nat} {pointer : Pointer}

/-- What is allocated has an address below the count, by which the next address is fresh. -/
theorem lt_count (allocated : memory.blocks address = some content) : address < memory.count := by
  by_contra later
  rw [memory.fresh address (by omega)] at allocated
  cases allocated

/-- The block that was allocated holds what it was filled with. -/
@[simp] theorem alloc_new (memory : Allocations) (content : List UInt8) :
    (memory.alloc content).blocks memory.count = some content := Function.update_self ..

/-- Allocating touches no block that was there before: the new one stands at an address that was not
in use. -/
theorem alloc_old (new : List UInt8) (allocated : memory.blocks address = some content) :
    (memory.alloc new).blocks address = some content := by
  have before := lt_count allocated
  exact (Function.update_of_ne (by omega) ..).trans allocated

/-- A block is freed alone: it must be there, and all others stay as they were. -/
theorem free_some (allocated : memory.blocks address = some content) :
    ∃ freed, memory.free (some address) = some freed ∧ freed.blocks address = none ∧
      (∀ other ≠ address, freed.blocks other = memory.blocks other) ∧ freed.count = memory.count := by
  rw [free, if_pos (by rw [allocated]; rfl)]
  exact ⟨_, rfl, Function.update_self .., fun other different => Function.update_of_ne different .., rfl⟩

/-- What is read depends on the block that the pointer points into. -/
theorem readString_congr
    (same : ∀ address offset, pointer = .inside address offset → other.blocks address = memory.blocks address) :
    other.readString pointer = memory.readString pointer := by
  cases pointer with
  | inside address offset => rw [readString, readString, same address offset rfl]
  | null | outside => rfl

/-- What can be read through a pointer depends on the block it points into, and on no other. -/
theorem readBytes_congr (length : Nat)
    (same : ∀ address offset, pointer = .inside address offset → other.blocks address = memory.blocks address) :
    other.readBytes length pointer = memory.readBytes length pointer := by
  cases pointer with
  | inside address offset => rw [readBytes, readBytes, same address offset rfl]
  | null | outside => rfl

/-- A read that succeeds gives as many bytes as were asked for. -/
theorem length_readBytes {length : Nat} (reads : memory.readBytes length pointer = some content) :
    content.length = length := by
  cases pointer with
  | null => cases reads
  | outside bytes =>
    rw [readBytes] at reads
    split at reads
    case isTrue enough =>
      cases reads
      exact List.length_take_of_le enough
    case isFalse => cases reads
  | inside address offset =>
    obtain ⟨block, allocated, reads⟩ := Option.bind_eq_some_iff.mp reads
    split at reads
    case isTrue enough =>
      cases reads
      rw [List.length_take, List.length_drop]
      omega
    case isFalse => cases reads

end Allocations

end OpenTaker
