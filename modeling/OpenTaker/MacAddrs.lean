import OpenTaker.HexText
import OpenTaker.InetAddrText

/-!
# Reading MAC addresses

`GetMacAddr` splits a text at colons and dashes and wants six pieces. `StrSplit` drops empty
pieces, so delimiters may be repeated and may stand at the ends; `AtoX` gives 0 for a long
piece, and adds -1 for a character that is no digit. Nothing of this is refused: every text
with six pieces that are not empty is an address.
-/

namespace OpenTaker

open AddressText

/-- `GetMacAddr`: the number of the six bytes in a text. `none` is NULL, which gives zero. -/
def getMacAddr : Option Text → UInt64
  | none => UInt64.ofInt (-1)
  | some mac =>
      let values := strSplit mac [':', '-']
      if values.length ≠ 6 then UInt64.ofInt (-1)
      else values.foldl (fun macAddr value => (macAddr <<< 8) + (atoX (some value)).toUInt64) 0

/-- A colon or a dash, at which the text is cut. -/
def isMacDelim (char : Char) : Bool := decide (char ∈ [':', '-'])

/-- A group of one or two hexadecimal digits, and its value. -/
def MacGroup (group : Text) (value : Nat) : Prop :=
  group ≠ [] ∧ group.length ≤ 2 ∧ readNumber 16 group = some value

/-- The text of a MAC address: six groups between single delimiters. -/
def MacText (text : Text) (values : List Nat) : Prop :=
  values.length = 6 ∧ ∃ groups, Separated isMacDelim text groups ∧ List.Forall₂ MacGroup groups values

/-- The number with these bytes, the most significant first. -/
def macNumber (values : List Nat) : Nat := values.foldl (fun number value => number * 256 + value) 0

/-- What is accepted is a MAC address, and it is read as its number. -/
structure MacParsed (text : Text) : Prop where
  accepted : getMacAddr (some text) ≠ UInt64.ofInt (-1) ↔ ∃ values, MacText text values
  value : ∀ values, MacText text values → (getMacAddr (some text)).toNat = macNumber values

/-- Six parts of the text are not empty, but some part is, or one of them is no group. -/
def MacGarbled (text : Text) : Prop :=
  ((text.splitOnP isMacDelim).filter (· ≠ [])).length = 6 ∧
    ∃ part ∈ text.splitOnP isMacDelim, ∀ value, ¬ MacGroup part value

/-! ## Groups -/

/-- A single hexadecimal digit is read as itself, as a group of a MAC address may have one digit
only. -/
theorem readNumber_one (char : Char) : readNumber 16 [char] = digitOf 16 char := by
  simp [readNumber]

/-- Two digits are read as the high and the low half of a byte. -/
theorem readNumber_two {first second : Char} {value : Nat} (read : readNumber 16 [first, second] = some value) :
    ∃ high low, digitOf 16 first = some high ∧ digitOf 16 second = some low ∧ value = high * 16 + low := by
  obtain ⟨digits, digitsRead, rfl⟩ := Option.map_eq_some_iff.mp read
  have each := mapM_eq_some.mp digitsRead
  rw [List.reverse_cons, List.reverse_singleton, List.singleton_append, List.forall₂_cons_left_iff] at each
  obtain ⟨low, others, lowDigit, each, rfl⟩ := each
  rw [List.forall₂_cons_left_iff] at each
  obtain ⟨high, nothing, highDigit, each, rfl⟩ := each
  rw [List.forall₂_nil_left_iff] at each
  subst each
  refine ⟨high, low, highDigit, lowDigit, ?_⟩
  simp only [Nat.ofDigits_cons, Nat.ofDigits_nil]
  omega

/-- A hexadecimal digit is below sixteen, so that two of them fit in a byte. -/
theorem digitOf_below {char : Char} {digit : Nat} (isDigit : digitOf 16 char = some digit) : digit < 16 := by
  simp only [digitOf, Option.filter_eq_some_iff, decide_eq_true_eq] at isDigit
  exact isDigit.2

/-- `AtoX` reads a group of one or two digits as its value. -/
theorem atoX_group {group : Text} {value : Nat} (isGroup : MacGroup group value) :
    (atoX (some group)).toNat = value ∧ value < 256 := by
  obtain ⟨some, short, read⟩ := isGroup
  match group, some, short with
  | [char], _, _ =>
    rw [readNumber_one] at read
    have below := digitOf_below read
    have known : ∀ digit < 16, ((0 : UInt8) <<< 4 + UInt8.ofInt ((digit : Nat) : Int)).toNat = digit := by
      decide
    refine ⟨?_, by omega⟩
    simp only [atoX, List.length_singleton, List.foldl_cons, List.foldl_nil, getXValue_eq, read]
    exact known value below
  | [first, second], _, _ =>
    obtain ⟨high, low, highDigit, lowDigit, rfl⟩ := readNumber_two read
    have highBelow := digitOf_below highDigit
    have lowBelow := digitOf_below lowDigit
    have known : ∀ high < 16, ∀ low < 16, (UInt8.ofInt ((high : Nat) : Int) <<< 4 +
        UInt8.ofInt ((low : Nat) : Int)).toNat = high * 16 + low := by decide +kernel
    refine ⟨?_, by omega⟩
    rw [atoX_two, getXValue_eq, getXValue_eq, highDigit, lowDigit]
    exact known high highBelow low lowBelow

/-- A delimiter is no digit, so that a group ends where it stands. -/
theorem digitOf_delim {char : Char} (delimiter : isMacDelim char = true) : digitOf 16 char = none := by
  simp only [isMacDelim, List.mem_cons, List.not_mem_nil, or_false, decide_eq_true_eq] at delimiter
  rcases delimiter with rfl | rfl <;> rfl

/-! ## The number -/

/-- Shifting a byte in multiplies by 256 and adds, as long as nothing is shifted out of the 64 bits. -/
theorem shift_byte (value : UInt64) (byte : UInt8) (fits : (value.toNat + 1) * 256 ≤ 2 ^ 64) :
    ((value <<< 8) + byte.toUInt64).toNat = value.toNat * 256 + byte.toNat := by
  have bound := byte.toNat_lt
  rw [UInt64.toNat_add, UInt64.toNat_shiftLeft, UInt8.toNat_toUInt64]
  simp only [Nat.shiftLeft_eq]
  simp
  omega

/-- So many bytes make a number of so many bytes. -/
theorem foldl_bound (values : List Nat) (below : ∀ value ∈ values, value < 256) (number : Nat) :
    values.foldl (fun number value => number * 256 + value) number < (number + 1) * 256 ^ values.length := by
  induction values generalizing number with
  | nil => simp
  | cons value rest inductionHypothesis =>
    obtain ⟨here, later⟩ := List.forall_mem_cons.mp below
    refine lt_of_lt_of_le (inductionHypothesis later (number * 256 + value)) ?_
    rw [List.length_cons, Nat.pow_succ', ← Nat.mul_assoc]
    exact Nat.mul_le_mul_right _ (show number * 256 + value + 1 ≤ (number + 1) * 256 by omega)

/-- What six pieces are read as, whether they are groups or not. -/
theorem getMacAddr_six {mac : Text} (six : (strSplit mac [':', '-']).length = 6) :
    (getMacAddr (some mac)).toNat =
      macNumber ((strSplit mac [':', '-']).map (fun piece => (atoX (some piece)).toNat)) := by
  rw [getMacAddr, if_neg (not_not.mpr six)]
  apply foldl_positional (by decide : 0 < 256)
  · exact fun value piece _ room => shift_byte value (atoX (some piece)) room
  · exact fun piece _ => (atoX (some piece)).toNat_lt
  · rw [six]
    decide

/-- Only such texts are accepted, and all of them are. -/
theorem getMacAddr_accepts (mac : Text) :
    getMacAddr (some mac) ≠ UInt64.ofInt (-1) ↔ (strSplit mac [':', '-']).length = 6 := by
  constructor
  · intro accepted
    by_contra other
    exact accepted (if_pos other)
  · intro six same
    have number := getMacAddr_six six
    rw [same] at number
    have bound := foldl_bound ((strSplit mac [':', '-']).map (fun piece => (atoX (some piece)).toNat))
      (by
        intro value member
        obtain ⟨piece, -, rfl⟩ := List.mem_map.mp member
        exact (atoX (some piece)).toNat_lt) 0
    rw [List.length_map, six] at bound
    rw [← macNumber, ← number] at bound
    exact absurd bound (by decide)

/-! ## The grammar -/

/-- `StrSplit` cuts at both delimiters of a MAC address, and drops empty groups. -/
theorem strSplit_mac (mac : Text) :
    strSplit mac [':', '-'] = (mac.splitOnP isMacDelim).filter (· ≠ []) := strSplit_eq mac [':', '-']

/-- A text shows a MAC address just if it has six groups of one or two hexadecimal digits. -/
theorem macText_iff {text : Text} {values : List Nat} :
    MacText text values ↔ values.length = 6 ∧ List.Forall₂ MacGroup (text.splitOnP isMacDelim) values := by
  refine and_congr_right fun six => ⟨?_, fun groups => ⟨_, separated_splitOnP isMacDelim text, groups⟩⟩
  rintro ⟨groups, separated, values⟩
  exact separated_iff.mp separated ▸ values

/-- No group of a MAC address is dropped by the cutting, because none is empty. -/
theorem filter_groups {parts : List Text} (groups : ∀ part ∈ parts, ∃ value, MacGroup part value) :
    parts.filter (· ≠ []) = parts := by
  rw [List.filter_eq_self]
  intro part member
  obtain ⟨value, isGroup⟩ := groups part member
  simpa using isGroup.1

/-- The pieces of a MAC address are its groups. -/
theorem MacText.pieces {text : Text} {values : List Nat} (isMac : MacText text values) :
    (strSplit text [':', '-']).length = 6 ∧
      (strSplit text [':', '-']).map (fun piece => (atoX (some piece)).toNat) = values := by
  obtain ⟨six, groups⟩ := macText_iff.mp isMac
  rw [strSplit_mac, filter_groups fun part => related_of_mem groups]
  refine ⟨groups.length_eq.trans six, ?_⟩
  rw [← List.forall₂_eq_eq_eq, List.forall₂_map_left_iff]
  exact groups.imp fun _ _ isGroup => (atoX_group isGroup).1

/-- A text of six groups is read as the number whose bytes they are, the first group the highest. -/
theorem getMacAddr_macText {text : Text} {values : List Nat} (isMac : MacText text values) :
    (getMacAddr (some text)).toNat = macNumber values := by
  obtain ⟨six, read⟩ := isMac.pieces
  rw [getMacAddr_six six, read]

/-- The parser accepts a text as it should just when the text is not garbled. -/
theorem macParsed_iff (text : Text) : MacParsed text ↔ ¬ MacGarbled text := by
  constructor
  · rintro parsed ⟨six, part, member, noGroup⟩
    rw [← strSplit_mac] at six
    obtain ⟨values, isMac⟩ := parsed.accepted.mp ((getMacAddr_accepts text).mpr six)
    obtain ⟨value, isGroup⟩ := related_of_mem (macText_iff.mp isMac).2 member
    exact noGroup value isGroup
  · intro clean
    refine ⟨⟨fun accepted => ?_, ?_⟩, fun values => getMacAddr_macText⟩
    · have six := (getMacAddr_accepts text).mp accepted
      rw [strSplit_mac] at six
      have groups : ∀ part ∈ text.splitOnP isMacDelim, ∃ value, MacGroup part value := by
        intro part member
        by_contra noGroup
        exact clean ⟨six, part, member, not_exists.mp noGroup⟩
      rw [filter_groups groups] at six
      refine ⟨(text.splitOnP isMacDelim).map fun part => (atoX (some part)).toNat, macText_iff.mpr ⟨?_, ?_⟩⟩
      · rw [List.length_map, six]
      · rw [List.forall₂_map_right_iff, List.forall₂_same]
        intro part member
        obtain ⟨value, isGroup⟩ := groups part member
        exact (atoX_group isGroup).1 ▸ isGroup
    · rintro ⟨values, isMac⟩
      exact (getMacAddr_accepts text).mpr isMac.pieces.1

/-! ## Printed addresses -/

/-- A digit that was written in either case is read back. -/
theorem digitOf_hexChar (upperCase : Bool) {digit : Nat} (below : digit < 16) :
    digitOf 16 (hexChar upperCase digit) = some digit := by
  have known : ∀ upperCase : Bool, ∀ digit < 16, digitOf 16 (hexChar upperCase digit) = some digit := by
    decide
  exact known upperCase digit below

/-- A byte is printed as a group of two digits, which is read back as the byte. -/
theorem macGroup_bin2Str (byte : UInt8) (upperCase : Bool) : MacGroup (bin2Str [byte] upperCase) byte.toNat := by
  have bound := byte.toNat_lt
  have text : bin2Str [byte] upperCase =
      [hexChar upperCase (byte.toNat / 16), hexChar upperCase (byte.toNat % 16)] := bin2Str_eq [byte] upperCase
  rw [text]
  refine ⟨List.cons_ne_nil _ _, le_refl _, ?_⟩
  simp [readNumber, digitOf_hexChar upperCase (show byte.toNat / 16 < 16 by omega),
    digitOf_hexChar upperCase (show byte.toNat % 16 < 16 by omega), Nat.ofDigits_cons]
  omega

/-- No delimiter stands in a group, as all its characters are digits. -/
theorem MacGroup.plain {group : Text} {value : Nat} (isGroup : MacGroup group value) :
    ∀ char ∈ group, isMacDelim char = false := by
  intro char member
  obtain ⟨digits, digitsRead, -⟩ := Option.map_eq_some_iff.mp isGroup.2.2
  obtain ⟨digit, isDigit⟩ := related_of_mem (mapM_eq_some.mp digitsRead) (List.mem_reverse.mpr member)
  by_contra delimiter
  rw [digitOf_delim (Bool.not_eq_false _ ▸ delimiter)] at isDigit
  cases isDigit

/-- Six bytes printed with colons between them are the text of a MAC address, whatever the case of
the letters. -/
theorem macText_join {bytes : List UInt8} (six : bytes.length = 6) (upperCase : Bool) :
    MacText (join ':' (bytes.map fun byte => bin2Str [byte] upperCase)) (bytes.map UInt8.toNat) := by
  refine ⟨by rw [List.length_map, six], _, separated_join (by decide) ?_ ?_, ?_⟩
  · rw [Ne, List.map_eq_nil_iff]
    rintro rfl
    cases six
  · intro part member
    obtain ⟨byte, -, rfl⟩ := List.mem_map.mp member
    exact (macGroup_bin2Str byte upperCase).plain
  · rw [List.forall₂_map_left_iff, List.forall₂_map_right_iff, List.forall₂_same]
    exact fun byte _ => macGroup_bin2Str byte upperCase

/-- The number made by shifting is that of the bytes in the order of the network. -/
theorem macNumber_bytes (bytes : List UInt8) : macNumber (bytes.map UInt8.toNat) = beNumber bytes := by
  rw [macNumber, beNumber, List.foldl_map]

/-- A text is parsed as a MAC address should be just when it is not garbled, and six bytes
that are printed are read back. -/
theorem getMacAddr_iff (text : Text) (b1 b2 b3 b4 b5 b6 : UInt8) (upperCase : Bool) :
    (MacParsed text ↔ ¬ MacGarbled text) ∧
      (getMacAddr (some (join ':' ([b1, b2, b3, b4, b5, b6].map fun byte => bin2Str [byte] upperCase)))).toNat =
        beNumber [b1, b2, b3, b4, b5, b6] := by
  refine ⟨macParsed_iff text, ?_⟩
  rw [← macNumber_bytes]
  exact getMacAddr_macText (macText_join rfl upperCase)

/-- `0g:0:0:0:0:0` is read as `ff:0:0:0:0:0`, and `:1::2-3-4-5-6` as `1-2-3-4-5-6`: neither the
digits nor the delimiters are tested. -/
theorem garbled_accepted :
    getMacAddr (some ['0', 'g', ':', '0', ':', '0', ':', '0', ':', '0', ':', '0']) = 0xff0000000000 ∧
      ¬ MacParsed ['0', 'g', ':', '0', ':', '0', ':', '0', ':', '0', ':', '0'] ∧
      getMacAddr (some [':', '1', ':', ':', '2', '-', '3', '-', '4', '-', '5', '-', '6']) = 0x010203040506 ∧
      ¬ MacParsed [':', '1', ':', ':', '2', '-', '3', '-', '4', '-', '5', '-', '6'] := by
  refine ⟨by decide +kernel, ?_, by decide +kernel, ?_⟩
  · rw [macParsed_iff, not_not]
    refine ⟨by decide +kernel, ['0', 'g'], by decide +kernel, ?_⟩
    rintro value ⟨-, -, read⟩
    cases read
  · rw [macParsed_iff, not_not]
    refine ⟨by decide +kernel, [], by decide +kernel, ?_⟩
    rintro value ⟨some, -, -⟩
    exact some rfl

end OpenTaker
