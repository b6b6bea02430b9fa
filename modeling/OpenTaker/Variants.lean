import OpenTaker.Runs
import OpenTaker.PacketRing
import OpenTaker.Allocations

/-!
# Variants

A `Variant` is a type tag and a union. Strings and blocks are copied into memory of its own,
which `clear` frees before they are replaced. `clear` also zeroes the union, but it does not
reset the tag: whoever calls it inside of the class sets the tag afterwards, and a caller from
outside is left with a string or a block whose pointer is NULL.

The text and the buffer that are assigned are read after `clear`. An assignment of another
variant tests whether it is the same one; an assignment of a pointer cannot.
-/

namespace OpenTaker

open CStrings

/-- `VarType_e`, the types a variant can have, by which its value is read and freed. -/
inductive VarType where
  | null
  | char
  | byte
  | i16
  | u16
  | i32
  | u32
  | i64
  | u64
  | string
  | block
deriving DecidableEq

/-- The union, by the member that was written last; the numbers are their bits. -/
inductive VarValue where
  | zeroed
  | cValue (value : UInt8)
  | byValue (value : UInt8)
  | i16Value (value : UInt16)
  | i32Value (value : UInt32)
  | i64Value (value : UInt64)
  | strValue (pointer : Option Nat)
  | blkValue (size : UInt32) (buf : Option Nat)
deriving DecidableEq

namespace VarValue

/-! A member is read when it was written last or all bytes are zero. -/

/-- The value as a char or a byte, which share their member of the union. The bytes of a cleared
union read as zero. -/
def readByte : VarValue → Option UInt8
  | .zeroed => some 0
  | .cValue value | .byValue value => some value
  | _ => none

/-- The value as a number of 16 bits, if one was stored last or all bytes are zero. -/
def readI16 : VarValue → Option UInt16
  | .zeroed => some 0
  | .i16Value value => some value
  | _ => none

/-- The value as a number of 32 bits, if one was stored last or all bytes are zero. -/
def readI32 : VarValue → Option UInt32
  | .zeroed => some 0
  | .i32Value value => some value
  | _ => none

/-- The value as a number of 64 bits, if one was stored last or all bytes are zero. -/
def readI64 : VarValue → Option UInt64
  | .zeroed => some 0
  | .i64Value value => some value
  | _ => none

/-- The value as a pointer to a string. Reading a member that was not written is undefined, and
gives nothing here. -/
def readStr : VarValue → Option (Option Nat)
  | .zeroed => some none
  | .strValue pointer => some pointer
  | _ => none

/-- The value as a size and a buffer, which are zero and NULL in zeroed storage. -/
def readBlk : VarValue → Option (UInt32 × Option Nat)
  | .zeroed => some (0, none)
  | .blkValue size buf => some (size, buf)
  | _ => none

end VarValue

/-- A `Variant`: its type, and the union with the member that was written last. -/
structure Variant where
  type : VarType
  value : VarValue
deriving DecidableEq

/-- A number that is assigned, by the overload of `operator=` that takes it. -/
inductive Scalar where
  | tchar (value : UInt8)
  | byte (value : UInt8)
  | int16 (value : UInt16)
  | u_int16 (value : UInt16)
  | int32 (value : UInt32)
  | u_int32 (value : UInt32)
  | int64 (value : UInt64)
  | u_int64 (value : UInt64)
deriving DecidableEq

namespace Variant

/-- `Variant()`, which is also what zeroed storage holds: the type of no value. -/
def new : Variant := ⟨.null, .zeroed⟩

/-- `operator=` of a number: the type, and the member of the union that belongs to it. -/
def ofScalar : Scalar → Variant
  | .tchar value => ⟨.char, .cValue value⟩
  | .byte value => ⟨.byte, .byValue value⟩
  | .int16 value => ⟨.i16, .i16Value value⟩
  | .u_int16 value => ⟨.u16, .i16Value value⟩
  | .int32 value => ⟨.i32, .i32Value value⟩
  | .u_int32 value => ⟨.u32, .i32Value value⟩
  | .int64 value => ⟨.i64, .i64Value value⟩
  | .u_int64 value => ⟨.u64, .i64Value value⟩

end Variant

/-- A pointer that was allocated, or NULL, to its first byte. -/
def Pointer.ofAddress : Option Nat → Pointer
  | none => .null
  | some address => .inside address 0

namespace Allocations

/-- `size()`: by the type, and for a string with its terminator. -/
def size (memory : Allocations) (variant : Variant) : Option Nat :=
  match variant.type with
  | .null => some 0
  | .string => do
      let pointer ← variant.value.readStr
      let text ← memory.readString (.ofAddress pointer)
      some (u32 text.length)
  | .block => variant.value.readBlk.map (fun (size, _) => size.toNat)
  | .char | .byte => some 1
  | .i16 | .u16 => some 2
  | .i32 | .u32 => some 4
  | .i64 | .u64 => some 8

/-- Both are read and equal; where one of them cannot be read the comparison is undefined. -/
def same {α : Type} [DecidableEq α] (first second : Option α) : Option Bool := do
  let firstValue ← first
  let secondValue ← second
  some (firstValue == secondValue)

/-- `operator==`: the types first, and then the members that belong to the type. -/
def eq (memory : Allocations) (first second : Variant) : Option Bool :=
  if first.type ≠ second.type then some false
  else
    match first.type with
    | .null => some true
    | .string =>
        same (first.value.readStr.bind (memory.readString ∘ .ofAddress))
          (second.value.readStr.bind (memory.readString ∘ .ofAddress))
    | .block => do
        let (firstSize, firstBuf) ← first.value.readBlk
        let (secondSize, secondBuf) ← second.value.readBlk
        if firstSize ≠ secondSize then some false
        else
          same (memory.readBytes firstSize.toNat (.ofAddress firstBuf))
            (memory.readBytes firstSize.toNat (.ofAddress secondBuf))
    | .char | .byte => same first.value.readByte second.value.readByte
    | .i16 | .u16 => same first.value.readI16 second.value.readI16
    | .i32 | .u32 => same first.value.readI32 second.value.readI32
    | .i64 | .u64 => same first.value.readI64 second.value.readI64

end Allocations

/-- The variants of a program and the memory they use. -/
structure VariantHeap where
  memory : Allocations
  variants : Nat → Option Variant

/-- An operation on a variant. The constructors work on zeroed storage. -/
inductive VariantStep where
  | new (variant : Nat)
  | newScalar (variant : Nat) (scalar : Scalar)
  | newString (variant : Nat) (str : Pointer)
  | newBlock (variant : Nat) (buf : Pointer) (len : UInt32)
  | newCopy (variant source : Nat)
  | assign (variant source : Nat)
  | assignScalar (variant : Nat) (scalar : Scalar)
  | assignString (variant : Nat) (str : Pointer)
  | setValue (variant : Nat) (buf : Pointer) (len : UInt32)
  | clear (variant : Nat)
  | destroy (variant : Nat)
deriving DecidableEq

namespace VariantHeap

/-- A heap without blocks and without variants, with which a run begins. -/
def empty : VariantHeap := ⟨.empty, fun _ => none⟩

/-- Store a variant under its name, in place of the one that was there. -/
def put (heap : VariantHeap) (name : Nat) (variant : Variant) : VariantHeap :=
  { heap with variants := Function.update heap.variants name (some variant) }

/-- Zeroed storage for a variant, as its constructors begin. -/
def construct (heap : VariantHeap) (name : Nat) : VariantHeap := heap.put name .new

/-- Allocate memory with this content, for a variant that is to own it. -/
def alloc (heap : VariantHeap) (content : List UInt8) : VariantHeap :=
  { heap with memory := heap.memory.alloc content }

/-- `clear`. The value is zeroed and the tag is left as it is, which later readers find. -/
def clear (heap : VariantHeap) (name : Nat) : Option VariantHeap := do
  let variant ← heap.variants name
  let memory ←
    match variant.type with
    | .string => variant.value.readStr.bind heap.memory.free
    | .block => variant.value.readBlk.bind (fun (_, buf) => heap.memory.free buf)
    | _ => some heap.memory
  some ({ heap with memory := memory }.put name { variant with value := .zeroed })

/-- `m_value.strValue = strdup(…)`, with the tag of a string. -/
def putString (heap : VariantHeap) (name : Nat) (text : List UInt8) : VariantHeap :=
  (heap.alloc (text ++ [0])).put name ⟨.string, .strValue (some heap.memory.count)⟩

/-- `m_value.blkValue` with a copy of the bytes, with the tag of a block. -/
def putBlock (heap : VariantHeap) (name : Nat) (size : UInt32) (bytes : List UInt8) : VariantHeap :=
  (heap.alloc bytes).put name ⟨.block, .blkValue size (some heap.memory.count)⟩

/-- `operator=(const Variant&)`: `clear`, `memcpy` of the whole variant, and a deep copy. -/
def assign (heap : VariantHeap) (name source : Nat) : Option VariantHeap :=
  if name = source then some heap
  else do
    let cleared ← heap.clear name
    let variant ← cleared.variants source
    match variant.type with
    | .string => do
        let pointer ← variant.value.readStr
        let text ← cleared.memory.readString (.ofAddress pointer)
        some (cleared.putString name text)
    | .block => do
        let (size, buf) ← variant.value.readBlk
        let bytes ← cleared.memory.readBytes size.toNat (.ofAddress buf)
        some (cleared.putBlock name size bytes)
    | _ => some (cleared.put name variant)

/-- `operator=` of a number, which does not clear, so that a block that was owned is lost. -/
def assignScalar (heap : VariantHeap) (name : Nat) (scalar : Scalar) : VariantHeap :=
  heap.put name (.ofScalar scalar)

/-- `operator=(const tchar*)`: free what was there, and copy the string, or stay empty for NULL. -/
def assignString (heap : VariantHeap) (name : Nat) (str : Pointer) : Option VariantHeap := do
  let cleared ← heap.clear name
  if str = .null then
    let variant ← cleared.variants name
    some (cleared.put name { variant with type := .null })
  else
    let text ← cleared.memory.readString str
    some (cleared.putString name text)

/-- `setValue`: free what was there, and copy so many bytes. -/
def setValue (heap : VariantHeap) (name : Nat) (buf : Pointer) (len : UInt32) : Option VariantHeap := do
  let cleared ← heap.clear name
  if buf = .null then
    let variant ← cleared.variants name
    some (cleared.put name { variant with type := .null })
  else
    let bytes ← cleared.memory.readBytes len.toNat buf
    some (cleared.putBlock name len bytes)

/-- `~Variant`: free what it owns, and end the name. -/
def destroy (heap : VariantHeap) (name : Nat) : Option VariantHeap :=
  (heap.clear name).map fun cleared =>
    { cleared with variants := Function.update cleared.variants name none }

/-- Perform one operation on the heap, if it is defined there. -/
def step (heap : VariantHeap) : VariantStep → Option VariantHeap
  | .new name => some (heap.construct name)
  | .newScalar name scalar => some ((heap.construct name).assignScalar name scalar)
  | .newString name str => (heap.construct name).assignString name str
  | .newBlock name buf len => (heap.construct name).setValue name buf len
  | .newCopy name source => (heap.construct name).assign name source
  | .assign name source => heap.assign name source
  | .assignScalar name scalar => some (heap.assignScalar name scalar)
  | .assignString name str => heap.assignString name str
  | .setValue name buf len => heap.setValue name buf len
  | .clear name => heap.clear name
  | .destroy name => heap.destroy name

end VariantHeap

end OpenTaker
