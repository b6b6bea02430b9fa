import OpenTaker.AddressText

/-!
# Bytes as hexadecimal text

`Bin2Str` prints two digits for each byte, `AtoX` reads one byte back, and `XtoI` a number of
up to eight. All three use the same digits. But the prefix that `XtoI` asks for is not that of
a hexadecimal number: it wants an `f` where the `x` stands, and gives 0 for anything else.

A text is the list of its characters before the terminator.
-/

namespace OpenTaker

open AddressText

/-- The table of `Bin2Str`, with the digits in the case asked for. -/
def hexTable (upperCase : Bool) : List Char :=
  if upperCase then ['0', '1', '2', '3', '4', '5', '6', '7', '8', '9', 'A', 'B', 'C', 'D', 'E', 'F']
  else ['0', '1', '2', '3', '4', '5', '6', '7', '8', '9', 'a', 'b', 'c', 'd', 'e', 'f']

/-- A character of the table, which has sixteen of them. -/
def hexChar (upperCase : Bool) (digit : Nat) : Char := (hexTable upperCase).getD digit '0'

/-- `Bin2Str`: two digits for each byte, the high one first. -/
def bin2Str (bytes : List UInt8) (upperCase : Bool) : Text :=
  bytes.flatMap (fun byte : UInt8 =>
    [hexChar upperCase (byte >>> 4).toNat, hexChar upperCase (byte &&& 0x0f).toNat])

/-- `GetXValue`: the value of a hexadecimal digit, and minus one for any other character. -/
def getXValue (x : Char) : Int :=
  match x with
  | 'F' | 'f' => 15
  | 'E' | 'e' => 14
  | 'D' | 'd' => 13
  | 'C' | 'c' => 12
  | 'B' | 'b' => 11
  | 'A' | 'a' => 10
  | '9' | '8' | '7' | '6' | '5' | '4' | '3' | '2' | '1' | '0' => (x.toNat : Int) - '0'.toNat
  | _ => -1

/-- `AtoX`: the value of at most two digits, shifted in one after the other; a longer text gives
zero, and so does NULL, which is `none`. -/
def atoX : Option Text → UInt8
  | none => 0
  | some xcode =>
      if xcode.length > 2 then 0
      else xcode.foldl (fun value x => value <<< 4 + UInt8.ofInt (getXValue x)) 0

/-- `XtoI`: zero unless the text begins with `0F` or `0f`, where `0x` was meant; then the number of
the digits behind it. `none` is NULL. -/
def xtoI : Option Text → UInt64
  | some (first :: second :: third :: rest) =>
      if first ≠ '0' ∨ (second ≠ 'F' ∧ second ≠ 'f') then 0
      else (third :: rest).foldl (fun value x => (value <<< 4) ||| UInt64.ofInt (getXValue x)) 0
  | _ => 0

/-- The big-endian number of bytes, as a text shows it. -/
def beNumber (bytes : List UInt8) : Nat := bytes.foldl (fun value byte => value * 256 + byte.toNat) 0

/-- The consecutive groups of two characters, by which a text of digits is cut into bytes. -/
def hexGroups : Text → List Text
  | first :: second :: rest => [first, second] :: hexGroups rest
  | _ => []

/-! ## Digits -/

/-- `GetXValue` reads a digit back that was written in either case. -/
theorem getXValue_hexChar (upperCase : Bool) {digit : Nat} (below : digit < 16) :
    getXValue (hexChar upperCase digit) = digit := by
  have known : ∀ upperCase : Bool, ∀ digit < 16, getXValue (hexChar upperCase digit) = digit := by decide
  exact known upperCase digit below

/-- `GetXValue` knows just the hexadecimal digits, in both cases. -/
theorem getXValue_eq (x : Char) :
    getXValue x = match digitOf 16 x with | some digit => (digit : Int) | none => -1 := by
  by_cases ascii : x.toNat < 128
  · have known : ∀ code < 128, getXValue (Char.ofNat code) =
        match digitOf 16 (Char.ofNat code) with | some digit => (digit : Int) | none => -1 := by decide +kernel
    have same := known x.toNat ascii
    rwa [Char.ofNat_toNat] at same
  · have outside : ∀ last : Char, last.toNat < 128 → ¬ x ≤ last := by
      intro last small below
      exact ascii (lt_of_le_of_lt below small)
    have noDigit : digitOf 16 x = none := by
      simp only [digitOf, outside '9' (by decide), outside 'F' (by decide), outside 'f' (by decide),
        and_false, if_false]
      rfl
    rw [noDigit]
    unfold getXValue
    split <;> first | rfl | exact absurd (by decide) ascii

/-- The two digits of each byte, by which what is written and what is read are compared. -/
def nibbles (bytes : List UInt8) : List Nat := bytes.flatMap (fun byte => [byte.toNat / 16, byte.toNat % 16])

/-- The halves of bytes are digits below sixteen, so that each of them has a character. -/
theorem nibbles_below (bytes : List UInt8) : ∀ digit ∈ nibbles bytes, digit < 16 := by
  intro digit member
  obtain ⟨byte, -, among⟩ := List.mem_flatMap.mp member
  have bound := byte.toNat_lt
  simp only [List.mem_cons, List.not_mem_nil, or_false] at among
  omega

/-- `Bin2Str` writes the two digits of each byte, the high one first. -/
theorem bin2Str_eq (bytes : List UInt8) (upperCase : Bool) :
    bin2Str bytes upperCase = (nibbles bytes).map (hexChar upperCase) := by
  simp only [bin2Str, nibbles, List.map_flatMap]
  congr 1
  funext byte
  have high : (byte >>> 4).toNat = byte.toNat / 16 := by
    simp [UInt8.toNat_shiftRight, Nat.shiftRight_eq_div_pow]
  have low : (byte &&& 0x0f).toNat = byte.toNat % 16 := by
    rw [UInt8.toNat_and]
    exact Nat.and_two_pow_sub_one_eq_mod byte.toNat 4
  rw [high, low]
  rfl

/-! ## One byte -/

/-- `AtoX` of two digits is their value, the first one counting sixteen times. -/
theorem atoX_two (first second : Char) : atoX (some [first, second]) =
    UInt8.ofInt (getXValue first) <<< 4 + UInt8.ofInt (getXValue second) := by
  simp [atoX]

/-- `AtoX` reads two digits back as their byte, in either case of the letters. -/
theorem atoX_byte (byte : UInt8) (upperCase : Bool) :
    atoX (some [hexChar upperCase (byte.toNat / 16), hexChar upperCase (byte.toNat % 16)]) = byte := by
  have bound := byte.toNat_lt
  rw [atoX_two, getXValue_hexChar upperCase (by omega), getXValue_hexChar upperCase (by omega)]
  have known : ∀ code < 256, UInt8.ofInt ((code / 16 : Nat) : Int) <<< 4 +
      UInt8.ofInt ((code % 16 : Nat) : Int) = UInt8.ofNat code := by decide +kernel
  rw [known byte.toNat bound, UInt8.ofNat_toNat]

/-- `AtoX` reads back the bytes that `Bin2Str` prints, group by group and in either case of the
letters. -/
theorem atoX_bin2Str (bytes : List UInt8) (upperCase : Bool) :
    (hexGroups (bin2Str bytes upperCase)).map (fun group => atoX (some group)) = bytes := by
  rw [bin2Str_eq]
  induction bytes with
  | nil => rfl
  | cons byte rest inductionHypothesis =>
    simp only [nibbles, List.flatMap_cons, List.map_cons, List.cons_append, List.nil_append, hexGroups,
      atoX_byte] at inductionHypothesis ⊢
    rw [inductionHypothesis]

/-! ## Numbers -/

/-- A loop that appends digits to a machine word, as long as the number fits. -/
theorem foldl_positional {α : Type} {base : Nat} (positive : 0 < base) (digit : α → Nat)
    (append : UInt64 → α → UInt64)
    (appends : ∀ value item, digit item < base → (value.toNat + 1) * base ≤ 2 ^ 64 →
      (append value item).toNat = value.toNat * base + digit item)
    (items : List α) (below : ∀ item ∈ items, digit item < base) (value : UInt64)
    (fits : (value.toNat + 1) * base ^ items.length ≤ 2 ^ 64) :
    (items.foldl append value).toNat =
      (items.map digit).foldl (fun number digit => number * base + digit) value.toNat := by
  induction items generalizing value with
  | nil => rfl
  | cons item rest inductionHypothesis =>
    obtain ⟨here, later⟩ := List.forall_mem_cons.mp below
    rw [List.length_cons, Nat.pow_succ', ← Nat.mul_assoc] at fits
    have room : (value.toNat + 1) * base ≤ 2 ^ 64 :=
      le_trans (Nat.le_mul_of_pos_right _ (Nat.pow_pos positive)) fits
    have appended := appends value item here room
    have next : (append value item).toNat + 1 ≤ (value.toNat + 1) * base := by
      rw [appended, Nat.add_mul, Nat.one_mul]
      omega
    rw [List.foldl_cons, List.map_cons, List.foldl_cons, ← appended]
    apply inductionHypothesis later
    exact le_trans (Nat.mul_le_mul_right _ next) fits

/-- One round of the loop of `XtoI` multiplies by sixteen and adds the digit, as long as this fits
into 64 bits. -/
theorem shift_digit (value : UInt64) {digit : Nat} (below : digit < 16)
    (fits : (value.toNat + 1) * 16 ≤ 2 ^ 64) :
    ((value <<< 4) ||| UInt64.ofInt digit).toNat = value.toNat * 16 + digit := by
  have small : (UInt64.ofInt digit).toNat = digit := by
    rw [UInt64.ofInt]
    simp
    omega
  have shifted : (value <<< 4).toNat = value.toNat <<< 4 := by
    rw [UInt64.toNat_shiftLeft]
    apply Nat.mod_eq_of_lt
    simp only [Nat.shiftLeft_eq]
    simp
    omega
  rw [UInt64.toNat_or, small, shifted, ← Nat.shiftLeft_add_eq_or_of_lt (by omega), Nat.shiftLeft_eq]

/-- The loop of `XtoI` over the characters of digits. -/
theorem foldl_digits (upperCase : Bool) (digits : List Nat) (below : ∀ digit ∈ digits, digit < 16)
    (fits : 16 ^ digits.length ≤ 2 ^ 64) :
    ((digits.map (hexChar upperCase)).foldl
        (fun (value : UInt64) x => (value <<< 4) ||| UInt64.ofInt (getXValue x)) 0).toNat =
      digits.foldl (fun value digit => value * 16 + digit) 0 := by
  rw [List.foldl_map]
  have read := foldl_positional (by decide : 0 < 16) id
    (fun value digit => (value <<< 4) ||| UInt64.ofInt (getXValue (hexChar upperCase digit)))
    (by
      intro value digit (small : digit < 16) room
      rw [getXValue_hexChar upperCase small]
      exact shift_digit value small room)
    digits below 0 (by simpa using fits)
  rwa [List.map_id] at read

/-- The value of the digits is that of the bytes, as two digits make one byte. -/
theorem foldl_nibbles (bytes : List UInt8) (value : Nat) :
    (nibbles bytes).foldl (fun value digit => value * 16 + digit) value =
      bytes.foldl (fun value byte => value * 256 + byte.toNat) value := by
  induction bytes generalizing value with
  | nil => rfl
  | cons byte rest inductionHypothesis =>
    have two : (value * 16 + byte.toNat / 16) * 16 + byte.toNat % 16 = value * 256 + byte.toNat := by omega
    simp only [nibbles, List.flatMap_cons, List.cons_append, List.nil_append,
      List.foldl_cons] at inductionHypothesis ⊢
    rw [two, inductionHypothesis]

/-- There are two digits for each byte, which is what the size of the buffers is reckoned with. -/
theorem length_nibbles (bytes : List UInt8) : (nibbles bytes).length = 2 * bytes.length := by
  induction bytes with
  | nil => rfl
  | cons byte rest inductionHypothesis =>
    simp only [nibbles, List.flatMap_cons, List.length_append, List.length_cons] at inductionHypothesis ⊢
    simp only [inductionHypothesis, List.length_nil]
    omega

/-- Behind the prefix that `XtoI` asks for, it reads the number. -/
theorem xtoI_behind_f (bytes : List UInt8) (upperCase : Bool) (some : bytes ≠ []) (short : bytes.length ≤ 8)
    {mark : Char} (isF : mark = 'F' ∨ mark = 'f') :
    (xtoI (Option.some ('0' :: mark :: bin2Str bytes upperCase))).toNat = beNumber bytes := by
  have marked : ¬ ('0' ≠ '0' ∨ (mark ≠ 'F' ∧ mark ≠ 'f')) := by
    rcases isF with rfl | rfl <;> decide
  have fits : 16 ^ (nibbles bytes).length ≤ 16 ^ 16 := by
    apply Nat.pow_le_pow_right (by decide)
    rw [length_nibbles]
    omega
  have read := foldl_digits upperCase (nibbles bytes) (nibbles_below bytes) fits
  rw [foldl_nibbles] at read
  rw [bin2Str_eq]
  cases digits : (nibbles bytes).map (hexChar upperCase) with
  | nil =>
    have length := congrArg List.length digits
    rw [List.length_map, length_nibbles, List.length_nil] at length
    exact absurd (List.length_eq_zero_iff.mp (by omega)) some
  | cons third rest =>
    rw [xtoI, if_neg marked, ← digits]
    exact read

/-- Behind `0x` it reads nothing, since the prefix is tested for the letter F. -/
theorem xtoI_behind_x (rest : Text) : xtoI (some ('0' :: 'x' :: rest)) = 0 := by
  cases rest with
  | nil => rfl
  | cons third rest =>
    rw [xtoI, if_pos]
    decide

/-- The number is zero just when all bytes are. -/
theorem beNumber_eq_zero (bytes : List UInt8) : beNumber bytes = 0 ↔ ∀ byte ∈ bytes, byte = 0 := by
  have general : ∀ value, bytes.foldl (fun value byte => value * 256 + byte.toNat) value = 0 ↔
      value = 0 ∧ ∀ byte ∈ bytes, byte = 0 := by
    induction bytes with
    | nil => simp
    | cons byte rest inductionHypothesis =>
      intro value
      have zero : byte.toNat = 0 ↔ byte = 0 := by
        rw [← UInt8.toNat_inj]
        rfl
      have both : value * 256 + byte.toNat = 0 ↔ value = 0 ∧ byte.toNat = 0 := by omega
      rw [List.foldl_cons, inductionHypothesis, List.forall_mem_cons, ← zero, both, and_assoc]
  simpa [beNumber] using general 0

/-- The text of the bytes is read back, as a number behind `0x` and byte by byte. -/
structure HexRoundTrip (bytes : List UInt8) (upperCase : Bool) : Prop where
  number : bytes ≠ [] → bytes.length ≤ 8 →
    (xtoI (some ('0' :: 'x' :: bin2Str bytes upperCase))).toNat = beNumber bytes
  groups : (hexGroups (bin2Str bytes upperCase)).map (fun group => atoX (some group)) = bytes

/-- It is read back just when the number is zero or too long for `XtoI`, since the prefix `0x` is
not the one that `XtoI` asks for. -/
theorem hexRoundTrip_iff (bytes : List UInt8) (upperCase : Bool) :
    HexRoundTrip bytes upperCase ↔ (bytes.length ≤ 8 → ∀ byte ∈ bytes, byte = 0) := by
  constructor
  · intro back short
    by_cases none : bytes = []
    · simp [none]
    · have number := back.number none short
      rw [xtoI_behind_x] at number
      exact (beNumber_eq_zero bytes).mp number.symm
  · intro zeros
    refine ⟨fun some short => ?_, atoX_bin2Str bytes upperCase⟩
    rw [xtoI_behind_x, (beNumber_eq_zero bytes).mpr (zeros short)]
    rfl

/-- `0x0102` is read as 0, and `0f0102` as 258. The prefix is tested for the letter of the digit
fifteen. -/
theorem prefix_refused :
    xtoI (some ('0' :: 'x' :: bin2Str [1, 2] false)) = 0 ∧ beNumber [1, 2] = 258 ∧
      xtoI (some ('0' :: 'f' :: bin2Str [1, 2] false)) = 258 ∧ ¬ HexRoundTrip [1, 2] false := by
  refine ⟨by decide, by decide, by decide, ?_⟩
  intro back
  exact absurd (back.number (by decide) (by decide)) (by decide)

end OpenTaker
