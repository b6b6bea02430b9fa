import Mathlib.Algebra.Group.Nat.Defs
import Mathlib.Logic.Function.Basic
import Mathlib.Tactic.Common

/-!
# Words in a byte memory

A memory is a function from addresses to bytes. A little-endian word of some bytes is read
back as it was written, and a read depends on its own bytes only, so that a write elsewhere
leaves it alone.

A word is taken modulo its width by a write, as a store of the machine does.
-/

namespace OpenTaker.ByteMemory

/-- Memory as a byte for each address. Words are read from it and written to it with the low byte
first. -/
abbrev Memory := Nat → UInt8

/-- The word of so many bytes at an address, the low byte first. -/
def readWord (memory : Memory) : Nat → Nat → Nat
  | _, 0 => 0
  | address, width + 1 =>
      (memory address).toNat + 256 * readWord memory (address + 1) width

/-- Store the low bytes of a value at an address, the low byte first. -/
def writeWord (memory : Memory) : Nat → Nat → Nat → Memory
  | _, _, 0 => memory
  | address, value, width + 1 =>
      writeWord (Function.update memory address (UInt8.ofNat value)) (address + 1) (value / 256) width

variable {memory other : Memory} {address value width : Nat}

/-- A word depends on its own bytes only, so that memories which agree on these have the same word
there. -/
theorem readWord_congr
    (same : ∀ byte, address ≤ byte → byte < address + width → other byte = memory byte) :
    readWord other address width = readWord memory address width := by
  induction width generalizing address with
  | zero => rfl
  | succ width inductionHypothesis =>
    have first : other address = memory address := same address (Nat.le_refl _) (by omega)
    have rest : readWord other (address + 1) width = readWord memory (address + 1) width := by
      apply inductionHypothesis
      intro byte above below
      exact same byte (by omega) (by omega)
    rw [readWord, readWord, first, rest]

/-- A write leaves the bytes outside of its word alone. -/
theorem writeWord_elsewhere {byte : Nat} (elsewhere : byte < address ∨ address + width ≤ byte) :
    writeWord memory address value width byte = memory byte := by
  induction width generalizing memory address value with
  | zero => rfl
  | succ width inductionHypothesis =>
    rw [writeWord, inductionHypothesis (by omega)]
    exact Function.update_of_ne (by omega) _ _

/-- A word tells the values of each of its bytes apart. -/
theorem readWord_update_ne {byte : Nat} {low high : UInt8} (differ : low ≠ high)
    (above : address ≤ byte) (below : byte < address + width) :
    readWord (Function.update memory byte low) address width ≠
      readWord (Function.update memory byte high) address width := by
  induction width generalizing address with
  | zero => omega
  | succ width inductionHypothesis =>
    have bounded : ∀ value : UInt8, value.toNat < 256 := UInt8.toNat_lt
    rw [readWord, readWord]
    by_cases first : address = byte
    · subst first
      have rest : readWord (Function.update memory address low) (address + 1) width =
          readWord (Function.update memory address high) (address + 1) width := by
        apply readWord_congr
        intro later behind _
        rw [Function.update_of_ne (by omega), Function.update_of_ne (by omega)]
      rw [Function.update_self, Function.update_self, rest]
      intro same
      exact differ (UInt8.toNat_inj.mp (Nat.add_right_cancel same))
    · have further := @inductionHypothesis (address + 1) (by omega) (by omega)
      rw [Function.update_of_ne first, Function.update_of_ne first]
      omega

/-- A value that fits into the width is read back as it was written, lowest byte first. -/
theorem readWord_writeWord (fits : value < 256 ^ width) :
    readWord (writeWord memory address value width) address width = value := by
  induction width generalizing memory address value with
  | zero =>
    rw [Nat.pow_zero] at fits
    exact (Nat.lt_one_iff.mp fits).symm
  | succ width inductionHypothesis =>
    have high : value / 256 < 256 ^ width := by
      rw [Nat.pow_succ, Nat.mul_comm] at fits
      exact Nat.div_lt_of_lt_mul fits
    have low : writeWord (Function.update memory address (UInt8.ofNat value)) (address + 1)
        (value / 256) width address = UInt8.ofNat value := by
      rw [writeWord_elsewhere (by omega), Function.update_self]
    have byte : (UInt8.ofNat value).toNat = value % 256 := by simp
    rw [writeWord, readWord, inductionHypothesis high, low, byte]
    exact Nat.mod_add_div value 256

/-- A word that no byte is written of stays. -/
theorem readWord_writeWord_elsewhere {written size : Nat}
    (apart : address + width ≤ written ∨ written + size ≤ address) :
    readWord (writeWord memory written value size) address width = readWord memory address width := by
  apply readWord_congr
  intro byte above below
  exact writeWord_elsewhere (by omega)

end OpenTaker.ByteMemory
