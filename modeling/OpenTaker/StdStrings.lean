import Mathlib.Data.List.Basic
import Mathlib.Algebra.Group.Nat.Defs
import Mathlib.Algebra.Order.Group.Int
import Mathlib.Algebra.Group.Int.Defs
import Mathlib.Tactic.Common

/-!
# The string class

`CStdString` is a `std::string` with the functions of a `CString` beside it, which take and
return positions as `int`. `GetAt` is a checked access: outside of the string it throws.
-/

namespace OpenTaker

/-- The characters of a string, without the terminator that the string keeps behind them. -/
abbrev Chars := List Char

/-- `static_cast<int>` of a `size_t`: the low 32 bits, read as a signed number. -/
@[irreducible] def toInt (size : Nat) : Int := Int.bmod size 4294967296

/-- A size below `2 ^ 31` is kept by the conversion to int. -/
theorem toInt_of_lt {size : Nat} (small : size < 2 ^ 31) : toInt size = size := by
  unfold toInt
  apply Int.bmod_eq_of_le
  · omega
  · omega

/-- What is converted is an int, whatever the size was. -/
theorem toInt_lt (size : Nat) : toInt size < 2 ^ 31 := by
  unfold toInt
  have bound := @Int.bmod_lt size 4294967296 (by decide)
  omega

/-- The least size that does not fit becomes negative. -/
theorem toInt_two_pow : toInt 2147483648 = -2147483648 := by
  unfold toInt
  decide

/-- An `int` holds exactly the sizes below `2^31`. Others come back with another value. -/
theorem toInt_eq_iff {size : Nat} : toInt size = size ↔ size < 2 ^ 31 := by
  constructor
  · intro same
    have bound := toInt_lt size
    omega
  · exact toInt_of_lt

/-- The sizes that do not fit into an `int` but into 32 bits become negative. -/
theorem toInt_neg {size : Nat} (large : 2 ^ 31 ≤ size) (bound : size < 2 ^ 32) : toInt size < 0 := by
  unfold toInt
  have negative := Int.bmod_neg size 4294967296 (by omega)
  omega

/-- The result of an addition or a subtraction of `int`. What does not fit is undefined. -/
def checked (value : Int) : Option Int := if -2 ^ 31 ≤ value ∧ value < 2 ^ 31 then some value else none

/-- A number in the range of int passes the check, with which the models refuse an overflow. -/
theorem checked_eq {value : Int} (lower : -2 ^ 31 ≤ value) (upper : value < 2 ^ 31) :
    checked value = some value := if_pos ⟨lower, upper⟩

namespace CStdString

/-- `substr`: so many characters from a position on, or fewer at the end. -/
def substr (src : Chars) (pos count : Nat) : Chars := (src.drop pos).take count

/-- `find_first_of`: the first position, from a given one on, at which one of the characters stands. -/
def findFirstOf (src : Chars) (delim : List Char) (pos : Nat) : Option Nat :=
  (List.range' pos (src.length - pos)).find? (fun found => decide (src.getD found '\x00' ∈ delim))

/-- `find`. A string of no length is found everywhere, also at the end. -/
def find (src : Chars) (delim : Chars) (pos : Nat) : Option Nat :=
  (List.range' pos (src.length + 1 - pos)).find? (fun found => delim.isPrefixOf (src.drop found))

/-- `GetAt`. A negative position is converted to one that is behind every string. -/
def getAt (path : Chars) (idx : Int) : Option Char := if 0 ≤ idx then path[idx.toNat]? else none

/-- `Mid` with a first position and a count, neither of which is taken below zero, in ints whose sum
must not overflow. -/
def midCount (path : Chars) (first count : Int) : Option Chars := do
  let first := max first 0
  let count := max count 0
  let size := toInt path.length
  let stop ← checked (first + count)
  let count := if stop > size then size - first else count
  if first > size then some [] else some (substr path first.toNat count.toNat)

/-- `Mid` with a first position, which `substr` is asked for up to the end. -/
def mid (path : Chars) (first : Int) : Option Chars := do
  let count ← checked (toInt path.length - first)
  midCount path first count

/-- `find_last_of` for one character: the last position at which it stands. -/
def findLastOf (char : Char) : Chars → Option Nat
  | [] => none
  | first :: rest =>
      match findLastOf char rest with
      | some found => some (found + 1)
      | none => if first = char then some 0 else none

/-- `ReverseFind`: that position as an int, and -1 where there is none. -/
def reverseFind (path : Chars) (char : Char) : Int :=
  match findLastOf char path with
  | some found => toInt found
  | none => -1

variable {path name : Chars} {char : Char} {found : Nat}

/-- No position is found just if the character does not occur. -/
theorem findLastOf_eq_none : findLastOf char path = none ↔ char ∉ path := by
  induction path with
  | nil => simp [findLastOf]
  | cons first rest inductionHypothesis =>
    rw [findLastOf, List.mem_cons, not_or, ← inductionHypothesis]
    cases later : findLastOf char rest with
    | some found => simp
    | none => simp [eq_comm]

/-- Behind what is found the character does not occur. -/
theorem findLastOf_append (dir : Chars) (absent : char ∉ name) :
    findLastOf char (dir ++ char :: name) = some dir.length := by
  induction dir with
  | nil =>
    rw [List.nil_append, findLastOf, findLastOf_eq_none.mpr absent]
    exact if_pos rfl
  | cons first rest inductionHypothesis =>
    rw [List.cons_append, findLastOf, inductionHypothesis]
    rfl

/-- A character that does not occur in the end of a text is found in the beginning. -/
theorem findLastOf_append_left (dir : Chars) (absent : char ∉ name) :
    findLastOf char (dir ++ name) = findLastOf char dir := by
  induction dir with
  | nil => exact findLastOf_eq_none.mpr absent
  | cons first rest inductionHypothesis => rw [List.cons_append, findLastOf, findLastOf, inductionHypothesis]

/-- A position that is found is inside of the text. -/
theorem findLastOf_lt (search : findLastOf char path = some found) : found < path.length := by
  induction path generalizing found with
  | nil => cases search
  | cons first rest inductionHypothesis =>
    rw [findLastOf] at search
    rw [List.length_cons]
    cases later : findLastOf char rest with
    | some other =>
      rw [later] at search
      have bound := inductionHypothesis later
      have same := Option.some.inj search
      omega
    | none =>
      simp only [later, Option.ite_none_right_eq_some, Option.some.injEq] at search
      omega

/-- What is cut out is no longer than the size as an `int` says. -/
theorem length_midCount {part : Chars} {first count : Int} (cut : midCount path first count = some part) :
    (part.length : Int) ≤ max (toInt path.length) 0 := by
  simp only [midCount, Option.bind_eq_bind, Option.bind_eq_some_iff] at cut
  obtain ⟨stop, isStop, cut⟩ := cut
  have sum : stop = max first 0 + max count 0 := by
    rw [checked, Option.ite_none_right_eq_some] at isStop
    exact (Option.some.inj isStop.2).symm
  split at cut
  · obtain rfl := Option.some.inj cut
    exact le_max_right _ _
  · obtain rfl := Option.some.inj cut
    rw [substr, List.length_take]
    split <;> omega

/-- A part of a string whose size fits is the part that was asked for. -/
theorem midCount_eq {first count : Nat} (small : path.length < 2 ^ 31) (inside : first + count ≤ path.length) :
    midCount path first count = some (substr path first count) := by
  have size := toInt_of_lt small
  have sum : checked (max (first : Int) 0 + max (count : Int) 0) = some (first + count : Int) := by
    rw [max_eq_left (by omega), max_eq_left (by omega)]
    exact checked_eq (by omega) (by omega)
  simp only [midCount, sum, Option.bind_eq_bind, Option.bind_some, size]
  rw [if_neg (by omega), if_neg (by omega), max_eq_left (by omega), max_eq_left (by omega), Int.toNat_natCast,
    Int.toNat_natCast]

/-- The rest of a string whose size fits is all from the position on. -/
theorem mid_eq {first : Nat} (small : path.length < 2 ^ 31) (inside : first ≤ path.length) :
    mid path first = some (path.drop first) := by
  have count : checked (toInt path.length - first) = some ((path.length - first : Nat) : Int) := by
    rw [toInt_of_lt small, ← Int.ofNat_sub inside]
    exact checked_eq (by omega) (by omega)
  rw [mid, count, Option.bind_eq_bind, Option.bind_some, midCount_eq small (by omega), substr,
    List.take_of_length_le (Nat.le_of_eq List.length_drop)]

end CStdString

end OpenTaker
