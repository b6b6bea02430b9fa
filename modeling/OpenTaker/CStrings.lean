import Mathlib.Data.List.Lex
import Mathlib.Tactic.Common

/-!
# Strings that end at a zero byte

`strcmp` compares the bytes up to the first zero byte and nothing after it. Its sign is the
lexicographic order of these parts, taken as lists of unsigned bytes.
-/

namespace OpenTaker.CStrings

/-- The string that a memory shows: the bytes in front of the first zero byte, or all of them where
there is none. -/
def cString (bytes : List UInt8) : List UInt8 := bytes.takeWhile (· ≠ 0)

/-- `strcmp`: the difference of the first bytes that differ, or zero when the strings end
before. -/
def strcmp : List UInt8 → List UInt8 → Int
  | [], [] => 0
  | [], second :: _ => 0 - second.toNat
  | first :: _, [] => first.toNat
  | first :: rest, second :: following =>
      if first ≠ second then (first.toNat : Int) - second.toNat
      else if first = 0 then 0
      else strcmp rest following

variable {byte : UInt8} {bytes first second : List UInt8}

/-- Memory that ends has no string behind it. The texts of the models end with their terminators. -/
@[simp] theorem cString_nil : cString [] = [] := rfl

/-- A terminator ends the string, whatever stands behind it. -/
@[simp] theorem cString_zero : cString (0 :: bytes) = [] := rfl

/-- A byte that is not zero belongs to the string, and the string goes on behind it. -/
theorem cString_cons (notZero : byte ≠ 0) : cString (byte :: bytes) = byte :: cString bytes := by
  simp [cString, notZero]

/-- A byte that is no terminator is positive as a number, by which strings of different lengths are
ordered. -/
theorem toNat_pos (notZero : byte ≠ 0) : 0 < byte.toNat := by
  have distinct : byte.toNat ≠ (0 : UInt8).toNat := fun same => notZero (UInt8.toNat_inj.mp same)
  exact Nat.pos_of_ne_zero distinct

/-- The values of the bytes of a string, which are compared as numbers. -/
def values (bytes : List UInt8) : List Nat := (cString bytes).map UInt8.toNat

/-- The values of two strings agree just if the strings do, so that comparing numbers is comparing
strings. -/
theorem values_inj : values first = values second ↔ cString first = cString second :=
  List.map_inj_right (fun _ _ => UInt8.toNat_inj.mp)

/-- The values of a string with a first byte, for the induction over the bytes. -/
theorem values_cons (notZero : byte ≠ 0) : values (byte :: bytes) = byte.toNat :: values bytes := by
  rw [values, cString_cons notZero, List.map_cons, values]

/-- A memory without bytes has no values. -/
@[simp] theorem values_nil : values [] = [] := rfl

/-- Nor has a memory that begins with the terminator. -/
@[simp] theorem values_zero : values (0 :: bytes) = [] := rfl

/-- What stands behind a zero byte does not belong to the string. -/
theorem cString_append_zero (bytes rest : List UInt8) : cString (bytes ++ 0 :: rest) = cString bytes := by
  induction bytes with
  | nil => rfl
  | cons byte bytes inductionHypothesis =>
    by_cases zero : byte = 0
    · rw [zero, List.cons_append, cString_zero, cString_zero]
    · rw [List.cons_append, cString_cons zero, cString_cons zero, inductionHypothesis]

/-- The values of a string do not depend on what stands behind its terminator. -/
theorem values_append_zero (bytes rest : List UInt8) : values (bytes ++ 0 :: rest) = values bytes := by
  rw [values, cString_append_zero, values]

/-- The sign of `strcmp` is the order of the two strings. -/
theorem strcmp_sign (first second : List UInt8) :
    (strcmp first second < 0 ↔ values first < values second) ∧
      (strcmp first second = 0 ↔ values first = values second) := by
  induction first, second using strcmp.induct with
  | case1 => simp [strcmp]
  | case2 second following =>
    by_cases zero : second = 0
    · simp [strcmp, zero]
    · have positive := toNat_pos zero
      rw [strcmp, values_cons zero]
      simp
      omega
  | case3 first rest =>
    by_cases zero : first = 0
    · simp [strcmp, zero]
    · have positive := toNat_pos zero
      rw [strcmp, values_cons zero]
      simp
      omega
  | case4 first rest second following distinct =>
    have values_ne : first.toNat ≠ second.toNat := fun same => distinct (UInt8.toNat_inj.mp same)
    rw [strcmp, if_pos distinct]
    by_cases zero : first = 0
    · have notZero : second ≠ 0 := fun same => distinct (zero.trans same.symm)
      have positive := toNat_pos notZero
      simp [zero, values_cons notZero]
      omega
    · by_cases secondZero : second = 0
      · have positive := toNat_pos zero
        simp [secondZero, values_cons zero]
        omega
      · rw [values_cons zero, values_cons secondZero, List.cons_lt_cons_iff, List.cons.injEq]
        omega
  | case5 rest second following same =>
    rw [strcmp, if_neg same, if_pos rfl, ← not_not.mp same]
    simp
  | case6 first rest second following same notZero inductionHypothesis =>
    have equal : first = second := not_not.mp same
    rw [strcmp, if_neg same, if_neg notZero, ← equal, values_cons notZero, values_cons notZero,
      List.cons_lt_cons_iff, List.cons.injEq, inductionHypothesis.1, inductionHypothesis.2]
    simp

end OpenTaker.CStrings
