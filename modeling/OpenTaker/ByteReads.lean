import Mathlib.Algebra.Group.Nat.Defs
import Mathlib.Data.List.Basic
import Mathlib.Tactic.Common

/-!
# Reading a byte string

A program reads bytes and little-endian words at offsets of a byte string, and stops
with a fault at the first read that is out of range. What a computation needs to
complete is found read by read: each one adds that its bytes are inside.

Fields in network order are read as little-endian words and swapped. The bytes that an
encoding puts at an offset are what is read there.
-/

namespace OpenTaker.ByteReads

/-- Why a computation stopped without a result. The decoder of the source has no such end: it would
go on with what memory holds. -/
inductive Fault where
  /-- It read a byte outside of the string. -/
  | outOfRange (offset : Nat)
  /-- A loop never ends. -/
  | diverges
deriving DecidableEq, Repr

variable {α β : Type} {bytes : List UInt8}

/-- The computation returns a result, so that all of its reads were inside of the bytes it was
given. -/
def Completes (computation : Except Fault α) : Prop := ∃ result, computation = .ok result

/-- A computation that has its result completes. The rules of `Completes` are simp lemmas, so that
the reads of a decoder turn into bounds. -/
@[simp] theorem completes_ok (result : α) : Completes (.ok result : Except Fault α) := ⟨result, rfl⟩

/-- The same for `pure`, in which the branches of the decoder end when they have nothing left to
read. -/
@[simp] theorem completes_pure (result : α) : Completes (pure result : Except Fault α) :=
  ⟨result, rfl⟩

/-- A fault is no result: a branch that leaves its bytes turns its whole side of the condition to
`False`. -/
@[simp] theorem completes_error (fault : Fault) : ¬ Completes (.error fault : Except Fault α) := by
  rintro ⟨result, impossible⟩
  cases impossible

/-- What follows a result continues with it: binding a computation that did not fault is applying
the rest to its value. -/
theorem ok_bind (result : α) (next : α → Except Fault β) : (.ok result >>= next) = next result :=
  rfl

/-- A computation in two parts completes when the first returns what the second
completes from. -/
theorem completes_bind (first : Except Fault α) (next : α → Except Fault β) :
    Completes (first >>= next) ↔ ∃ result, first = .ok result ∧ Completes (next result) := by
  cases first with
  | error fault =>
    constructor
    · rintro ⟨result, impossible⟩
      cases impossible
    · rintro ⟨result, impossible, -⟩
      cases impossible
  | ok value =>
    constructor
    · exact fun completes => ⟨value, rfl, completes⟩
    · rintro ⟨result, same, completes⟩
      cases same
      exact completes

/-- A result of a computation in two parts passes through a result of the first. -/
theorem bind_eq_ok (first : Except Fault α) (next : α → Except Fault β) (final : β) :
    (first >>= next) = .ok final ↔ ∃ result, first = .ok result ∧ next result = .ok final := by
  cases first with
  | error fault =>
    constructor
    · intro impossible
      cases impossible
    · rintro ⟨result, impossible, -⟩
      cases impossible
  | ok value =>
    constructor
    · exact fun returned => ⟨value, rfl, returned⟩
    · rintro ⟨result, same, returned⟩
      cases same
      exact returned

/-- A branch completes as the side that is taken does, which keeps the condition of the source
beside the bounds of its two sides. -/
theorem completes_ite (condition : Prop) [Decidable condition] (first second : Except Fault α) :
    Completes (if condition then first else second) ↔
      (condition → Completes first) ∧ (¬ condition → Completes second) := by
  by_cases holds : condition <;> simp [holds]

/-! ## Reads -/

/-- The byte at an offset of a capture, as a number. It is zero outside, where no read of the
decoder is allowed to stand. -/
def byteAt (bytes : List UInt8) (offset : Nat) : Nat := (bytes.getD offset 0).toNat

/-- The 16-bit word at an offset, the lower byte first, as the machine reads it from the packet. -/
def halfAt (bytes : List UInt8) (offset : Nat) : Nat :=
  byteAt bytes offset + 256 * byteAt bytes (offset + 1)

/-- The 32-bit word at an offset, the lower half first, as the machine reads it from the packet. -/
def wordAt (bytes : List UInt8) (offset : Nat) : Nat :=
  halfAt bytes offset + 65536 * halfAt bytes (offset + 2)

/-- Read the byte at an offset, or fault where the offset stands behind the end of the capture. -/
def readByte (bytes : List UInt8) (offset : Nat) : Except Fault Nat :=
  match bytes[offset]? with
  | some byte => .ok byte.toNat
  | none => .error (.outOfRange offset)

/-- Read a 16-bit word as a little-endian machine does, which is why the constants of the decoder
are written the other way round. -/
def readU16 (bytes : List UInt8) (offset : Nat) : Except Fault Nat := do
  let low ← readByte bytes offset
  let high ← readByte bytes (offset + 1)
  pure (low + 256 * high)

/-- Read a 32-bit word in the same way, with the first byte at the low end. -/
def readU32 (bytes : List UInt8) (offset : Nat) : Except Fault Nat := do
  let low ← readU16 bytes offset
  let high ← readU16 bytes (offset + 2)
  pure (low + 65536 * high)

/-- A read inside of the packet gives the byte that stands there. With the next lemma it says all
that a single read can do. -/
theorem readByte_inside {offset : Nat} (inside : offset < bytes.length) :
    readByte bytes offset = .ok (byteAt bytes offset) := by
  simp [readByte, byteAt, inside]

/-- A read behind the last byte faults, and the fault carries its offset, as the bounds of the
decoder are told from it. -/
theorem readByte_outside {offset : Nat} (outside : bytes.length ≤ offset) :
    readByte bytes offset = .error (.outOfRange offset) := by
  simp [readByte, outside]

/-- What a successful read says of the packet: its offset was inside, and the result is that byte
and no other. -/
theorem readByte_eq_ok (offset value : Nat) :
    readByte bytes offset = .ok value ↔ offset < bytes.length ∧ byteAt bytes offset = value := by
  by_cases inside : offset < bytes.length
  · rw [readByte_inside inside]
    simp [inside]
  · rw [readByte_outside (by omega)]
    simp [inside]

/-- Two bytes are read in the order of a little-endian machine, and both have to be inside of the
packet. -/
theorem readU16_eq_ok (offset value : Nat) :
    readU16 bytes offset = .ok value ↔
      offset + 2 ≤ bytes.length ∧ halfAt bytes offset = value := by
  simp only [readU16, bind_eq_ok, readByte_eq_ok, halfAt]
  constructor
  · rintro ⟨low, ⟨-, rfl⟩, high, ⟨inside, rfl⟩, same⟩
    exact ⟨by omega, Except.ok.inj same⟩
  · rintro ⟨inside, rfl⟩
    exact ⟨_, ⟨by omega, rfl⟩, _, ⟨by omega, rfl⟩, rfl⟩

/-- Four bytes likewise. A word that reaches over the end of the packet faults, even when its first
bytes are there. -/
theorem readU32_eq_ok (offset value : Nat) :
    readU32 bytes offset = .ok value ↔
      offset + 4 ≤ bytes.length ∧ wordAt bytes offset = value := by
  simp only [readU32, bind_eq_ok, readU16_eq_ok, wordAt]
  constructor
  · rintro ⟨low, ⟨-, rfl⟩, high, ⟨inside, rfl⟩, same⟩
    exact ⟨by omega, Except.ok.inj same⟩
  · rintro ⟨inside, rfl⟩
    exact ⟨_, ⟨by omega, rfl⟩, _, ⟨by omega, rfl⟩, rfl⟩

/-- A result of a computation that begins with a read is one of the rest, from the byte
that is read. -/
theorem readByte_bind (offset : Nat) (next : Nat → Except Fault α) (final : α) :
    (readByte bytes offset >>= next) = .ok final ↔
      offset < bytes.length ∧ next (byteAt bytes offset) = .ok final := by
  simp only [bind_eq_ok, readByte_eq_ok]
  constructor
  · rintro ⟨value, ⟨inside, rfl⟩, returned⟩
    exact ⟨inside, returned⟩
  · rintro ⟨inside, returned⟩
    exact ⟨_, ⟨inside, rfl⟩, returned⟩

/-- A run that goes on behind a read of two bytes comes to an end just if the bytes are there and
the rest does; so reads are peeled off one by one. -/
theorem readU16_bind (offset : Nat) (next : Nat → Except Fault α) (final : α) :
    (readU16 bytes offset >>= next) = .ok final ↔
      offset + 2 ≤ bytes.length ∧ next (halfAt bytes offset) = .ok final := by
  simp only [bind_eq_ok, readU16_eq_ok]
  constructor
  · rintro ⟨value, ⟨inside, rfl⟩, returned⟩
    exact ⟨inside, returned⟩
  · rintro ⟨inside, returned⟩
    exact ⟨_, ⟨inside, rfl⟩, returned⟩

/-- The rule for a word of four bytes, by which the addresses of the IP headers are peeled off. -/
theorem readU32_bind (offset : Nat) (next : Nat → Except Fault α) (final : α) :
    (readU32 bytes offset >>= next) = .ok final ↔
      offset + 4 ≤ bytes.length ∧ next (wordAt bytes offset) = .ok final := by
  simp only [bind_eq_ok, readU32_eq_ok]
  constructor
  · rintro ⟨value, ⟨inside, rfl⟩, returned⟩
    exact ⟨inside, returned⟩
  · rintro ⟨inside, returned⟩
    exact ⟨_, ⟨inside, rfl⟩, returned⟩

/-- A computation that begins with a read completes when the byte is inside and the
rest completes. -/
@[simp] theorem completes_readByte (offset : Nat) (next : Nat → Except Fault α) :
    Completes (readByte bytes offset >>= next) ↔
      offset < bytes.length ∧ Completes (next (byteAt bytes offset)) := by
  simp only [completes_bind, readByte_eq_ok]
  constructor
  · rintro ⟨value, ⟨inside, rfl⟩, completes⟩
    exact ⟨inside, completes⟩
  · rintro ⟨inside, completes⟩
    exact ⟨_, ⟨inside, rfl⟩, completes⟩

/-- As a simp lemma it leaves the bound of the read and the rest of the run on the value, without a
case for the fault. -/
@[simp] theorem completes_readU16 (offset : Nat) (next : Nat → Except Fault α) :
    Completes (readU16 bytes offset >>= next) ↔
      offset + 2 ≤ bytes.length ∧ Completes (next (halfAt bytes offset)) := by
  simp only [completes_bind, readU16_eq_ok]
  constructor
  · rintro ⟨value, ⟨inside, rfl⟩, completes⟩
    exact ⟨inside, completes⟩
  · rintro ⟨inside, completes⟩
    exact ⟨_, ⟨inside, rfl⟩, completes⟩

/-- The bound of a word, and the rest of the run on its value. -/
@[simp] theorem completes_readU32 (offset : Nat) (next : Nat → Except Fault α) :
    Completes (readU32 bytes offset >>= next) ↔
      offset + 4 ≤ bytes.length ∧ Completes (next (wordAt bytes offset)) := by
  simp only [completes_bind, readU32_eq_ok]
  constructor
  · rintro ⟨value, ⟨inside, rfl⟩, completes⟩
    exact ⟨inside, completes⟩
  · rintro ⟨inside, completes⟩
    exact ⟨_, ⟨inside, rfl⟩, completes⟩

/-! ## Computations without endless loops -/

/-- The computation returns a result or reads out of range. -/
def Ends (computation : Except Fault α) : Prop := computation ≠ .error .diverges

/-- A result that is there has ended. `Ends` is weaker than `Completes`: a fault ends a run too, and
only the endless walk does not. -/
theorem ends_pure (result : α) : Ends (pure result : Except Fault α) := by
  intro impossible
  cases impossible

/-- A sequence ends if its first part does and the second does on every result of the first, which
may be a fault. -/
theorem ends_bind {first : Except Fault α} {next : α → Except Fault β} (ends : Ends first)
    (nextEnds : ∀ result, first = .ok result → Ends (next result)) : Ends (first >>= next) := by
  cases first with
  | error fault =>
    intro same
    cases same
    exact ends rfl
  | ok result => exact nextEnds result rfl

/-- Both sides of a branch must end, whichever is taken, so that no condition of the decoder has to
be followed. -/
theorem ends_ite {condition : Prop} [Decidable condition] {first second : Except Fault α}
    (firstEnds : Ends first) (secondEnds : Ends second) :
    Ends (if condition then first else second) := by
  split
  · exact firstEnds
  · exact secondEnds

/-- A single read always ends, inside of the packet or with its fault. -/
theorem ends_readByte (offset : Nat) : Ends (readByte bytes offset) := by
  intro impossible
  simp only [readByte] at impossible
  split at impossible <;> cases impossible

/-- So does a read of two bytes, which is made of two single ones. -/
theorem ends_readU16 (offset : Nat) : Ends (readU16 bytes offset) :=
  ends_bind (ends_readByte offset) fun _ _ =>
    ends_bind (ends_readByte (offset + 1)) fun _ _ => ends_pure _

/-- And a read of four bytes. Endless walks of the decoder thus come from its loops alone. -/
theorem ends_readU32 (offset : Nat) : Ends (readU32 bytes offset) :=
  ends_bind (ends_readU16 offset) fun _ _ =>
    ends_bind (ends_readU16 (offset + 2)) fun _ _ => ends_pure _

/-- A computation that ends and never reads out of range completes. -/
theorem completes_iff_of_ends {computation : Except Fault α} (ends : Ends computation) :
    Completes computation ↔ ∀ offset, computation ≠ .error (.outOfRange offset) := by
  constructor
  · rintro ⟨result, returned⟩ offset fault
    rw [returned] at fault
    cases fault
  · intro inside
    cases computation with
    | ok result => exact completes_ok result
    | error fault =>
      cases fault with
      | outOfRange offset => exact absurd rfl (inside offset)
      | diverges => exact absurd rfl ends

/-! ## More bytes behind -/

/-- What the first computation returns the second one returns too. So runs on more bytes are compared
with runs on fewer: a read that was out of range may go on, all others see the same. -/
def Extends (first second : Except Fault α) : Prop := ∀ result, first = .ok result → second = .ok result

/-- Parts that read nothing are the same in both runs. -/
theorem Extends.refl (computation : Except Fault α) : Extends computation computation := fun _ same => same

/-- Two parts are extended one after the other: the second one only has to be for what the first
returned in both runs. -/
theorem Extends.bind {first second : Except Fault α} {next after : α → Except Fault β}
    (start : Extends first second) (further : ∀ result, Extends (next result) (after result)) :
    Extends (first >>= next) (second >>= after) := by
  intro final returned
  obtain ⟨result, isFirst, isNext⟩ := (bind_eq_ok first next final).mp returned
  exact (bind_eq_ok second after final).mpr ⟨result, start result isFirst, further result final isNext⟩

/-- A test that does not read goes the same way in both runs. -/
theorem Extends.ite {condition : Prop} [Decidable condition] {first second other more : Except Fault α}
    (holds : Extends first second) (fails : Extends other more) :
    Extends (if condition then first else other) (if condition then second else more) := by
  split
  · exact holds
  · exact fails

/-- A byte that was there is there with more bytes behind. -/
theorem readByte_extends (bytes more : List UInt8) (offset : Nat) :
    Extends (readByte bytes offset) (readByte (bytes ++ more) offset) := by
  intro value read
  obtain ⟨inside, rfl⟩ := (readByte_eq_ok offset value).mp read
  rw [readByte, List.getElem?_append_left inside]
  exact read

/-- Bytes that stand behind the packet change no read of two bytes that was inside of it. -/
theorem readU16_extends (bytes more : List UInt8) (offset : Nat) :
    Extends (readU16 bytes offset) (readU16 (bytes ++ more) offset) :=
  (readByte_extends bytes more offset).bind fun _ =>
    (readByte_extends bytes more (offset + 1)).bind fun _ => .refl _

/-- Nor do they change a word that was inside. A word that reached over the end may be read now,
which `Extends` leaves open. -/
theorem readU32_extends (bytes more : List UInt8) (offset : Nat) :
    Extends (readU32 bytes offset) (readU32 (bytes ++ more) offset) :=
  (readU16_extends bytes more offset).bind fun _ =>
    (readU16_extends bytes more (offset + 2)).bind fun _ => .refl _

/-! ## Two runs -/

/-- Two computations stop with the same fault or return related results. -/
def Alike (related : α → β → Prop) : Except Fault α → Except Fault β → Prop
  | .ok first, .ok second => related first second
  | .error first, .error second => first = second
  | _, _ => False

/-- Two branches that end are alike just if their results are related, as the simp set meets them behind
a chain of reads of the same packet. -/
@[simp] theorem alike_pure (related : α → β → Prop) (first : α) (second : β) :
    Alike related (pure first) (pure second) ↔ related first second := Iff.rfl

/-- Two computations that begin alike and continue differently are alike just if their continuations
are, wherever the beginning comes to a result. -/
theorem alike_bind {γ : Type} (related : α → β → Prop) (start : Except Fault γ)
    (first : γ → Except Fault α) (second : γ → Except Fault β) :
    Alike related (start >>= first) (start >>= second) ↔
      ∀ result, start = .ok result → Alike related (first result) (second result) := by
  cases start with
  | error fault =>
    constructor
    · intro _ result impossible
      cases impossible
    · exact fun _ => rfl
  | ok value =>
    constructor
    · rintro alike result same
      cases same
      exact alike
    · exact fun alike => alike value rfl

/-- Two results that are completed in the end are related as they are then. -/
theorem alike_map {γ δ : Type} (related : γ → δ → Prop) (first : Except Fault α)
    (second : Except Fault β) (firstDone : α → γ) (secondDone : β → δ) :
    Alike related (first >>= fun result => pure (firstDone result))
        (second >>= fun result => pure (secondDone result)) ↔
      Alike (fun firstResult secondResult =>
        related (firstDone firstResult) (secondDone secondResult)) first second := by
  cases first <;> cases second <;> rfl

/-- Two runs that read the same byte first need to be alike only where the byte is there, and then
on the one value both have seen. -/
@[simp] theorem alike_readByte (related : α → β → Prop) (offset : Nat)
    (first : Nat → Except Fault α) (second : Nat → Except Fault β) :
    Alike related (readByte bytes offset >>= first) (readByte bytes offset >>= second) ↔
      (offset < bytes.length →
        Alike related (first (byteAt bytes offset)) (second (byteAt bytes offset))) := by
  simp only [alike_bind, readByte_eq_ok]
  constructor
  · exact fun alike inside => alike _ ⟨inside, rfl⟩
  · rintro alike result ⟨inside, rfl⟩
    exact alike inside

/-- The rule for two bytes. The faults are the same on both sides, so that no case for them is left. -/
@[simp] theorem alike_readU16 (related : α → β → Prop) (offset : Nat)
    (first : Nat → Except Fault α) (second : Nat → Except Fault β) :
    Alike related (readU16 bytes offset >>= first) (readU16 bytes offset >>= second) ↔
      (offset + 2 ≤ bytes.length →
        Alike related (first (halfAt bytes offset)) (second (halfAt bytes offset))) := by
  simp only [alike_bind, readU16_eq_ok]
  constructor
  · exact fun alike inside => alike _ ⟨inside, rfl⟩
  · rintro alike result ⟨inside, rfl⟩
    exact alike inside

/-- The rule for a word of four bytes, with the one value that both runs go on with. -/
@[simp] theorem alike_readU32 (related : α → β → Prop) (offset : Nat)
    (first : Nat → Except Fault α) (second : Nat → Except Fault β) :
    Alike related (readU32 bytes offset >>= first) (readU32 bytes offset >>= second) ↔
      (offset + 4 ≤ bytes.length →
        Alike related (first (wordAt bytes offset)) (second (wordAt bytes offset))) := by
  simp only [alike_bind, readU32_eq_ok]
  constructor
  · exact fun alike inside => alike _ ⟨inside, rfl⟩
  · rintro alike result ⟨inside, rfl⟩
    exact alike inside

/-! ## Network order -/

/-- Swap the bytes of a 16-bit word, which turns the order of the network into that of the machine. -/
def ntohs (value : Nat) : Nat := value % 256 * 256 + value / 256 % 256

/-- Swap the bytes of a 32-bit word: each half is swapped, and the halves change places. -/
def ntohl (value : Nat) : Nat := ntohs value * 65536 + ntohs (value / 65536)

/-- The result of `ntohs` fits in 16 bits, whatever the argument: the source has an unsigned short
there. -/
theorem ntohs_lt (value : Nat) : ntohs value < 65536 := by
  simp only [ntohs]
  omega

/-- On two bytes `ntohs` is the exchange of the low and the high one, the form in which header
fields are compared. -/
theorem ntohs_bytes {low high : Nat} (lowByte : low < 256) (highByte : high < 256) :
    ntohs (low * 256 + high) = high * 256 + low := by
  simp only [ntohs]
  omega

/-- Twice exchanged is unchanged, on a value of 16 bits; so a port can be moved from one side of an
equation to the other. -/
theorem ntohs_ntohs {value : Nat} (small : value < 65536) : ntohs (ntohs value) = value := by
  have swapped : ntohs value = value % 256 * 256 + value / 256 := by
    simp only [ntohs]
    omega
  rw [swapped, ntohs_bytes (by omega) (by omega)]
  omega

/-- Different fields give different values, which the tests of the decoder against constants rest
on. -/
theorem ntohs_inj {first second : Nat} (firstSmall : first < 65536) (secondSmall : second < 65536)
    (same : ntohs first = ntohs second) : first = second := by
  rw [← ntohs_ntohs firstSmall, same, ntohs_ntohs secondSmall]

/-- Only the low 16 bits enter, as the argument is an unsigned short in the source. -/
theorem ntohs_mod (value : Nat) : ntohs (value % 65536) = ntohs value := by
  simp only [ntohs]
  omega

/-- The four bytes of a word come back in their order, as those of a half do. -/
theorem ntohl_ntohl {value : Nat} (small : value < 2 ^ 32) : ntohl (ntohl value) = value := by
  have low := ntohs_lt value
  have high := ntohs_lt (value / 65536)
  have lower : ntohs (ntohl value) = value / 65536 := by
    have rest : ntohl value % 65536 = ntohs (value / 65536) := by
      simp only [ntohl]
      omega
    rw [← ntohs_mod, rest, ntohs_ntohs (by omega)]
  have upper : ntohs (ntohl value / 65536) = value % 65536 := by
    have quotient : ntohl value / 65536 = ntohs (value % 65536) := by
      rw [ntohs_mod]
      simp only [ntohl]
      omega
    rw [quotient, ntohs_ntohs (Nat.mod_lt _ (by decide))]
  rw [ntohl, lower, upper]
  omega

/-- A 16-bit value in network order, as the encoders write it: the high byte first. -/
def be16 (value : UInt16) : List UInt8 :=
  [UInt8.ofNat (value.toNat / 256), UInt8.ofNat value.toNat]

/-- A 32-bit value in network order, from its highest byte to its lowest. -/
def be32 (value : UInt32) : List UInt8 :=
  [UInt8.ofNat (value.toNat / 16777216), UInt8.ofNat (value.toNat / 65536),
    UInt8.ofNat (value.toNat / 256), UInt8.ofNat value.toNat]

/-- A field of 16 bits is two bytes long in a frame. The offsets of the fields behind it come from
these lengths. -/
@[simp] theorem be16_length (value : UInt16) : (be16 value).length = 2 := rfl

/-- A field of 32 bits is four bytes long in a frame. -/
@[simp] theorem be32_length (value : UInt32) : (be32 value).length = 4 := rfl

/-! ## Bytes at an offset -/

/-- The string continues with the part from the offset on. -/
def HasAt (bytes : List UInt8) (offset : Nat) (part : List UInt8) : Prop :=
  part <+: bytes.drop offset

namespace HasAt

variable {offset : Nat} {part rest : List UInt8}

/-- Two parts in a row stand at their own offsets. -/
theorem append (hasAt : HasAt bytes offset (part ++ rest)) :
    HasAt bytes offset part ∧ HasAt bytes (offset + part.length) rest := by
  refine ⟨(List.prefix_append part rest).trans hasAt, ?_⟩
  obtain ⟨tail, split⟩ := hasAt
  refine ⟨tail, ?_⟩
  rw [← List.drop_drop, ← split, List.append_assoc, List.drop_left]

/-- A byte of the part is read at its place. -/
theorem readByte (hasAt : HasAt bytes offset part) (index : Nat) (byte : UInt8)
    (listed : part[index]? = some byte) : readByte bytes (offset + index) = .ok byte.toNat := by
  obtain ⟨tail, split⟩ := hasAt
  have found : bytes[offset + index]? = some byte := by
    rw [← List.getElem?_drop, ← split, List.getElem?_append_left, listed]
    exact (List.getElem?_eq_some_iff.mp listed).1
  simp only [ByteReads.readByte, found]

/-- Inside of the part the string has the bytes of the part. -/
theorem byteAt (hasAt : HasAt bytes offset part) (index : Nat) (inside : index < part.length) :
    offset + index < bytes.length ∧ byteAt bytes (offset + index) = byteAt part index := by
  have listed : part[index]? = some part[index] := List.getElem?_eq_getElem inside
  obtain ⟨within, same⟩ := (readByte_eq_ok _ _).mp (hasAt.readByte index _ listed)
  refine ⟨within, same.trans ?_⟩
  simp [ByteReads.byteAt, inside]

/-- A part that is not empty lies inside of the packet to its last byte; an empty one may stand at
any offset. -/
theorem length_le (hasAt : HasAt bytes offset part) (some : 0 < part.length) :
    offset + part.length ≤ bytes.length := by
  obtain ⟨inside, -⟩ := hasAt.byteAt (part.length - 1) (by omega)
  omega

/-- A word of the part is read at its place. -/
theorem readWord (hasAt : HasAt bytes offset part) (index : Nat) (inside : index + 4 ≤ part.length) :
    ByteReads.readU32 bytes (offset + index) = .ok (wordAt part index) := by
  obtain ⟨-, first⟩ := hasAt.byteAt index (by omega)
  obtain ⟨-, second⟩ := hasAt.byteAt (index + 1) (by omega)
  obtain ⟨-, third⟩ := hasAt.byteAt (index + 2) (by omega)
  obtain ⟨within, fourth⟩ := hasAt.byteAt (index + 3) (by omega)
  simp only [readU32_eq_ok, wordAt, halfAt, Nat.add_assoc, Nat.reduceAdd] at *
  exact ⟨by omega, by rw [first, second, third, fourth]⟩

/-- A value in network order is read with its bytes swapped. -/
theorem readU16 {value : UInt16} (hasAt : HasAt bytes offset (be16 value)) :
    readU16 bytes offset = .ok (ntohs value.toNat) := by
  have small : value.toNat < 65536 := value.toNat_lt
  have low := hasAt.readByte 0 _ rfl
  have high := hasAt.readByte 1 _ rfl
  simp only [Nat.add_zero] at low
  simp only [ByteReads.readU16, low, high, bind, Except.bind, pure, Except.pure, ntohs,
    UInt8.toNat_ofNat', Except.ok.injEq]
  omega

/-- A big-endian word that stands in the packet is read by the decoder as its value after `ntohl`,
as it reads on a little-endian machine. -/
theorem readU32 {value : UInt32} (hasAt : HasAt bytes offset (be32 value)) :
    readU32 bytes offset = .ok (ntohl value.toNat) := by
  have small : value.toNat < 4294967296 := value.toNat_lt
  have first := hasAt.readByte 0 _ rfl
  have second := hasAt.readByte 1 _ rfl
  have third := hasAt.readByte 2 _ rfl
  have fourth := hasAt.readByte 3 _ rfl
  simp only [Nat.add_zero] at first
  simp only [ByteReads.readU32, ByteReads.readU16, Nat.add_assoc, Nat.reduceAdd, first, second,
    third, fourth, bind, Except.bind, pure, Except.pure, ntohl, ntohs, UInt8.toNat_ofNat',
    Except.ok.injEq]
  omega

end HasAt

end OpenTaker.ByteReads
