import Mathlib.Data.Nat.Digits.Lemmas
import Mathlib.Data.List.Forall2
import Mathlib.Tactic.Common

/-!
# Texts of internet addresses

Numerals in a base up to sixteen, dotted decimal IPv4 addresses, and the text form of IPv6
addresses: groups of one to four hexadecimal digits between colons, a run of zero groups as
two colons once, and the last two groups as a dotted decimal address.

The grammar of the last one is a relation between texts and groups. A reader decides it: it
looks for the first two colons, and cuts the text at colons before and behind them.
-/

namespace OpenTaker.AddressText

/-- A text, as the list of its characters. The library of C has pointers here; the terminator is
added where one is written. -/
abbrev Text := List Char

/-! ## Numerals -/

/-- The digit of a value below sixteen, in upper case. -/
def digitChar (digit : Nat) : Char :=
  if digit < 10 then Char.ofNat (48 + digit) else Char.ofNat (55 + digit)

/-- The value of a digit, in upper or lower case, below the base. -/
def digitOf (base : Nat) (char : Char) : Option Nat :=
  let value :=
    if '0' ≤ char ∧ char ≤ '9' then some (char.toNat - 48)
    else if 'A' ≤ char ∧ char ≤ 'F' then some (char.toNat - 55)
    else if 'a' ≤ char ∧ char ≤ 'f' then some (char.toNat - 87)
    else none
  value.filter (· < base)

/-- The numeral of a number to a base, most significant digit first and without leading zeros, as
`%u` and `%x` print it. -/
def numeral (base number : Nat) : Text :=
  if number = 0 then ['0'] else ((Nat.digits base number).map digitChar).reverse

/-- The number of a numeral; the empty text has the value zero. -/
def readNumber (base : Nat) (text : Text) : Option Nat :=
  (text.reverse.mapM (digitOf base)).map (Nat.ofDigits base)

/-- Reading the character of a digit gives the digit back, in every base up to sixteen: the converse
of `digitChar`. -/
theorem digitOf_digitChar {base digit : Nat} (small : base ≤ 16) (below : digit < base) :
    digitOf base (digitChar digit) = some digit := by
  have known : ∀ digit < 16, digitOf 16 (digitChar digit) = some digit := by decide
  have value := known digit (by omega)
  simp only [digitOf, Option.filter_eq_some_iff, decide_eq_true_eq] at value ⊢
  exact ⟨value.1, below⟩

/-- The character of zero is a digit in each base, which is why leading zeros are read at all. -/
theorem digitOf_zero {base : Nat} (positive : 0 < base) (small : base ≤ 16) :
    digitOf base '0' = some 0 := by
  have char : digitChar 0 = '0' := by decide
  rw [← char, digitOf_digitChar small positive]

/-- Each character of a numeral is a digit to its base, so that no separator of an address occurs in
it. -/
theorem digitOf_of_mem {base number : Nat} {char : Char} (some : 1 < base) (small : base ≤ 16)
    (member : char ∈ numeral base number) : ∃ digit, digitOf base char = Option.some digit := by
  by_cases zero : number = 0
  · rw [numeral, if_pos zero, List.mem_singleton] at member
    exact ⟨0, member ▸ digitOf_zero (by omega) small⟩
  · rw [numeral, if_neg zero, List.mem_reverse, List.mem_map] at member
    obtain ⟨digit, listed, rfl⟩ := member
    exact ⟨digit, digitOf_digitChar small (Nat.digits_lt_base some listed)⟩

/-- All digits of a numeral are read back together, by which its value comes from the list of them. -/
theorem mapM_digitOf {base : Nat} (small : base ≤ 16) {digits : List Nat}
    (below : ∀ digit ∈ digits, digit < base) :
    (digits.map digitChar).mapM (digitOf base) = some digits := by
  induction digits with
  | nil => rfl
  | cons digit rest inductionHypothesis =>
    obtain ⟨here, later⟩ := List.forall_mem_cons.mp below
    simp [digitOf_digitChar small here, inductionHypothesis later]

/-- A numeral is read as the number it was written for: printing a group and reading it back changes
nothing. -/
theorem readNumber_numeral {base : Nat} (some : 1 < base) (small : base ≤ 16) (number : Nat) :
    readNumber base (numeral base number) = Option.some number := by
  by_cases zero : number = 0
  · simp [readNumber, numeral, zero, digitOf_zero (by omega : 0 < base) small]
  · rw [readNumber, numeral, if_neg zero, List.reverse_reverse,
      mapM_digitOf small (fun _ => Nat.digits_lt_base some), Option.map_some, Nat.ofDigits_digits]

/-- A numeral has a digit at least, that of zero too. The parsers refuse an empty piece, so that
this decides between the two. -/
theorem numeral_ne_nil (base number : Nat) : numeral base number ≠ [] := by
  unfold numeral
  split
  · exact List.cons_ne_nil _ _
  · rename_i positive
    simpa [Nat.digits_ne_nil_iff_ne_zero] using positive

/-- A number below a power of the base has so many digits. -/
theorem numeral_length {base number width : Nat} (some : 1 < base) (positive : 0 < width)
    (fits : number < base ^ width) : (numeral base number).length ≤ width := by
  unfold numeral
  split
  · exact positive
  · rw [List.length_reverse, List.length_map]
    exact (Nat.digits_length_le_iff some number).mpr fits

/-! ## Cutting at a separator -/

/-- The pieces of an address with the separator between them, none in front and none behind. -/
def join (separator : Char) (pieces : List Text) : Text := [separator].intercalate pieces

/-- Nothing joined is nothing, and no separator is written. -/
@[simp] theorem join_nil (separator : Char) : join separator [] = [] := rfl

/-- A single piece stands alone. A separator is written between two pieces only. -/
@[simp] theorem join_singleton (separator : Char) (piece : Text) : join separator [piece] = piece :=
  List.intercalate_singleton

/-- The rule by which `join` is unfolded: a separator behind each piece that another one follows. -/
@[simp] theorem join_cons_cons (separator : Char) (piece next : Text) (rest : List Text) :
    join separator (piece :: next :: rest) = piece ++ separator :: join separator (next :: rest) := by
  simp [join, List.intercalate_cons_cons]

/-- A piece added at the end is separated from those before, if there are any; the induction of the
parsers runs from this side. -/
theorem join_concat {separator : Char} {pieces : List Text} (some : pieces ≠ []) (piece : Text) :
    join separator (pieces ++ [piece]) = join separator pieces ++ separator :: piece := by
  induction pieces with
  | nil => exact absurd rfl some
  | cons first rest inductionHypothesis =>
    cases rest with
    | nil => simp
    | cons next rest =>
      have following := inductionHypothesis (List.cons_ne_nil _ _)
      simp only [List.cons_append, join_cons_cons, List.append_assoc] at following ⊢
      rw [following]

/-- Reading each piece gives what each of them is read as. -/
theorem mapM_eq_some {α : Type} {read : α → Option Nat} {pieces : List α} {values : List Nat} :
    pieces.mapM read = some values ↔ List.Forall₂ (fun piece value => read piece = some value) pieces values := by
  induction pieces generalizing values with
  | nil =>
    cases values <;> simp
  | cons piece rest inductionHypothesis =>
    cases values with
    | nil => simp [Option.bind_eq_some_iff]
    | cons value others => simp [Option.bind_eq_some_iff, ← inductionHypothesis]

/-! ## Dotted decimal addresses -/

/-- One part of a dotted decimal address: at most three digits, no leading zero, a byte. -/
def parseOctet (piece : Text) : Option Nat :=
  if piece = [] ∨ 3 < piece.length ∨ (piece.head? = some '0' ∧ piece.length ≠ 1) then none
  else (readNumber 10 piece).filter (· < 256)

/-- The four bytes of a dotted decimal address: four pieces, each of which is an octet, or nothing. -/
def parse4 (text : Text) : Option (List Nat) :=
  let pieces := text.splitOn '.'
  if pieces.length = 4 then pieces.mapM parseOctet else none

/-- The text of an address with its octets in decimal, as `inet_ntoa` writes it and as the last
piece of an IPv6 text may have it. -/
def dotted (octets : List Nat) : Text := join '.' (octets.map (numeral 10))

/-- Each octet is read back from its decimal text. There are 256 of them, and all are tried. -/
theorem parseOctet_numeral : ∀ octet < 256, parseOctet (numeral 10 octet) = some octet := by
  decide +kernel

/-- The point is no digit in any base, so that it always ends a number. -/
theorem digitOf_dot (base : Nat) : digitOf base '.' = none := rfl

/-- Neither is the colon, by which the pieces of an IPv6 text are kept apart. -/
theorem digitOf_colon (base : Nat) : digitOf base ':' = none := rfl

/-- What is no digit does not occur in a numeral. -/
theorem not_mem_numeral {base number : Nat} {char : Char} (some : 1 < base) (small : base ≤ 16)
    (noDigit : digitOf base char = none) : char ∉ numeral base number := by
  intro member
  obtain ⟨digit, isDigit⟩ := digitOf_of_mem some small member
  rw [noDigit] at isDigit
  cases isDigit

/-- A dotted decimal address is read as its bytes. -/
theorem parse4_dotted {octets : List Nat} (four : octets.length = 4) (bytes : ∀ octet ∈ octets, octet < 256) :
    parse4 (dotted octets) = some octets := by
  have pieces : (dotted octets).splitOn '.' = octets.map (numeral 10) := by
    apply List.splitOn_intercalate
    · simp only [List.mem_map, forall_exists_index, and_imp, forall_apply_eq_imp_iff₂]
      exact fun octet _ => not_mem_numeral (by decide) (by decide) (digitOf_dot 10)
    · rw [Ne, List.map_eq_nil_iff]
      rintro rfl
      cases four
  simp only [parse4, pieces, List.length_map, four, if_true]
  rw [mapM_eq_some, List.forall₂_map_left_iff, List.forall₂_same]
  exact fun octet member => parseOctet_numeral octet (bytes octet member)

/-! ## The grammar of IPv6 addresses -/

/-- A group of an IPv6 address: one to four hexadecimal digits, which name a 16-bit number. -/
def parseGroup (piece : Text) : Option Nat :=
  if piece = [] ∨ 4 < piece.length then none else readNumber 16 piece

/-- Pieces that denote groups, of which the last may be a dotted decimal address, which has
two of them. -/
inductive Pieces : List Text → List Nat → Prop where
  | nil : Pieces [] []
  | dotted {piece : Text} {b1 b2 b3 b4 : Nat} :
      parse4 piece = some [b1, b2, b3, b4] → Pieces [piece] [b1 * 256 + b2, b3 * 256 + b4]
  | cons {piece : Text} {group : Nat} {rest : List Text} {groups : List Nat} :
      parseGroup piece = some group → Pieces rest groups → Pieces (piece :: rest) (group :: groups)

/-- The text denotes the groups: all eight of them, or those before and behind two colons,
which stand for at least one zero group. -/
inductive Denotes : Text → List Nat → Prop where
  | full {pieces : List Text} {groups : List Nat} :
      Pieces pieces groups → groups.length = 8 → Denotes (join ':' pieces) groups
  | compact {head rest : List Text} {first last : List Nat} :
      List.Forall₂ (fun piece group => parseGroup piece = some group) head first →
        Pieces rest last → first.length + last.length < 8 →
        Denotes (join ':' head ++ ':' :: ':' :: join ':' rest)
          (first ++ List.replicate (8 - first.length - last.length) 0 ++ last)

/-! ## The reader -/

/-- What stands before and behind the first two colons in a row. -/
def splitCompact : Text → Option (Text × Text)
  | [] => none
  | char :: rest =>
      if char = ':' ∧ rest.head? = some ':' then some ([], rest.tail)
      else (splitCompact rest).map (fun (before, behind) => (char :: before, behind))

/-- The pieces of a text; the empty text has none. -/
def piecesOf (text : Text) : List Text := if text = [] then [] else text.splitOn ':'

/-- The groups of the pieces between colons. An address in decimal may stand in the last piece only,
and gives two groups. -/
def parsePieces : List Text → Option (List Nat)
  | [] => some []
  | piece :: rest =>
      if rest = [] ∧ '.' ∈ piece then
        match parse4 piece with
        | some [b1, b2, b3, b4] => some [b1 * 256 + b2, b3 * 256 + b4]
        | _ => none
      else do
        let group ← parseGroup piece
        let groups ← parsePieces rest
        some (group :: groups)

/-- The eight groups of an IPv6 address: all of them written out, or some left out where `::`
stands, which stands for one zero group at least. -/
def parse6 (text : Text) : Option (List Nat) :=
  match splitCompact text with
  | none => (parsePieces (piecesOf text)).filter (·.length = 8)
  | some (before, behind) => do
      let first ← (piecesOf before).mapM parseGroup
      let last ← parsePieces (piecesOf behind)
      if first.length + last.length < 8 then
        some (first ++ List.replicate (8 - first.length - last.length) 0 ++ last)
      else none

/-! ### Two colons in a row -/

section Compact

variable {text before behind : Text} {piece : Text} {pieces : List Text} {char : Char}

/-- The leftmost pair of colons at the very start leaves nothing in front of it. -/
theorem splitCompact_pair (behind : Text) : splitCompact (':' :: ':' :: behind) = some ([], behind) := by
  simp [splitCompact]

/-- A character that starts no pair of colons goes to the part in front, and the search goes on
behind it. -/
theorem splitCompact_skip (noPair : ¬ (char = ':' ∧ text.head? = some ':')) :
    splitCompact (char :: text) = (splitCompact text).map (fun (before, behind) => (char :: before, behind)) := by
  rw [splitCompact, if_neg noPair]

/-- The parts in front of `::` and behind it are those of the text: put together again they give it
back. -/
theorem splitCompact_eq_some (split : splitCompact text = some (before, behind)) :
    text = before ++ ':' :: ':' :: behind := by
  induction text generalizing before with
  | nil => cases split
  | cons char rest inductionHypothesis =>
    by_cases pair : char = ':' ∧ rest.head? = some ':'
    · obtain ⟨rfl, first⟩ := pair
      obtain ⟨following, rfl⟩ := List.head?_eq_some_iff.mp first
      rw [splitCompact_pair] at split
      cases split
      rfl
    · rw [splitCompact_skip pair, Option.map_eq_some_iff] at split
      obtain ⟨⟨first, last⟩, found, same⟩ := split
      cases same
      rw [inductionHypothesis found, List.cons_append]

/-- A text in which two colons stand is split. -/
theorem splitCompact_ne_none (before behind : Text) :
    splitCompact (before ++ ':' :: ':' :: behind) ≠ none := by
  induction before with
  | nil =>
    rw [List.nil_append, splitCompact_pair]
    exact Option.some_ne_none _
  | cons char rest inductionHypothesis =>
    rw [List.cons_append]
    by_cases pair : char = ':' ∧ (rest ++ ':' :: ':' :: behind).head? = some ':'
    · rw [splitCompact, if_pos pair]
      exact Option.some_ne_none _
    · rw [splitCompact_skip pair, Ne, Option.map_eq_none_iff]
      exact inductionHypothesis

/-- Without two colons before a colon, those at it are the first. -/
theorem splitCompact_append (apart : splitCompact (before ++ [':']) = none) (behind : Text) :
    splitCompact (before ++ ':' :: ':' :: behind) = some (before, behind) := by
  induction before with
  | nil => exact splitCompact_pair behind
  | cons char rest inductionHypothesis =>
    have pair : ¬ (char = ':' ∧ (rest ++ [':']).head? = some ':') := by
      intro pair
      rw [List.cons_append, splitCompact, if_pos pair] at apart
      cases apart
    have samePair : ¬ (char = ':' ∧ (rest ++ ':' :: ':' :: behind).head? = some ':') := by
      cases rest <;> exact pair
    rw [List.cons_append, splitCompact_skip pair, Option.map_eq_none_iff] at apart
    rw [List.cons_append, splitCompact_skip samePair, inductionHypothesis apart]
    rfl

/-- When nothing behind the first two colons makes such a pair again, no other pair stands
in the text. -/
theorem splitCompact_unique {otherBefore otherBehind : Text}
    (split : splitCompact text = some (before, behind))
    (apart : splitCompact (':' :: behind) = none)
    (other : text = otherBefore ++ ':' :: ':' :: otherBehind) : otherBefore = before := by
  induction text generalizing before otherBefore with
  | nil => cases split
  | cons char rest inductionHypothesis =>
    by_cases pair : char = ':' ∧ rest.head? = some ':'
    · obtain ⟨rfl, first⟩ := pair
      obtain ⟨following, rfl⟩ := List.head?_eq_some_iff.mp first
      rw [splitCompact_pair] at split
      cases split
      cases otherBefore with
      | nil => rfl
      | cons otherChar otherRest =>
        obtain ⟨-, tail⟩ := List.cons.inj other
        rw [tail] at apart
        exact absurd apart (splitCompact_ne_none otherRest otherBehind)
    · rw [splitCompact_skip pair, Option.map_eq_some_iff] at split
      obtain ⟨⟨first, last⟩, found, same⟩ := split
      cases same
      cases otherBefore with
      | nil =>
        cases other
        exact absurd ⟨rfl, rfl⟩ pair
      | cons otherChar otherRest =>
        obtain ⟨rfl, tail⟩ := List.cons.inj other
        rw [inductionHypothesis found tail]

/-- A piece between colons. It is not empty, as an empty one would be half of a pair of colons, and
has no colon of its own. -/
def IsPiece (piece : Text) : Prop := piece ≠ [] ∧ ':' ∉ piece

/-- A piece has no part in a pair of colons. -/
theorem splitCompact_piece (isPiece : ':' ∉ piece) :
    splitCompact (piece ++ text) = (splitCompact text).map (fun (before, behind) => (piece ++ before, behind)) := by
  induction piece with
  | nil => simp
  | cons char rest inductionHypothesis =>
    rw [List.mem_cons, not_or] at isPiece
    rw [List.cons_append, splitCompact_skip (fun pair => isPiece.1 pair.1.symm),
      inductionHypothesis isPiece.2, Option.map_map]
    rfl

/-- A part of a text without two colons in a row has none. -/
theorem splitCompact_infix (first last : Text) (apart : splitCompact (first ++ text ++ last) = none) :
    splitCompact text = none := by
  cases split : splitCompact text with
  | none => rfl
  | some parts =>
    rw [splitCompact_eq_some split] at apart
    have found := splitCompact_ne_none (first ++ parts.1) (parts.2 ++ last)
    simp only [List.append_assoc, List.cons_append] at apart found
    exact absurd apart found

/-- A colon and a piece have no part in a pair of colons. -/
theorem splitCompact_colon_piece (isPiece : IsPiece piece) (apart : splitCompact text = none) :
    splitCompact (':' :: (piece ++ text)) = none := by
  obtain ⟨char, rest, rfl⟩ := List.exists_cons_of_ne_nil isPiece.1
  have noColon : char ≠ ':' := fun same => isPiece.2 (by rw [same]; exact List.mem_cons_self)
  rw [splitCompact_skip (by simp [noColon]), splitCompact_piece isPiece.2, apart]
  rfl

/-- Joined pieces contain no pair of colons, also with colons around them. -/
theorem splitCompact_join (some : pieces ≠ []) (arePieces : ∀ piece ∈ pieces, IsPiece piece) :
    splitCompact (':' :: (join ':' pieces ++ [':'])) = none := by
  induction pieces with
  | nil => exact absurd rfl some
  | cons piece rest inductionHypothesis =>
    obtain ⟨isPiece, others⟩ := List.forall_mem_cons.mp arePieces
    cases rest with
    | nil =>
      rw [join_singleton]
      exact splitCompact_colon_piece isPiece rfl
    | cons next rest =>
      rw [join_cons_cons, List.append_assoc]
      exact splitCompact_colon_piece isPiece (inductionHypothesis (List.cons_ne_nil _ _) others)

/-- A single colon behind the last piece makes no pair, since a piece neither is empty nor has a
colon. -/
theorem splitCompact_join_before (arePieces : ∀ piece ∈ pieces, IsPiece piece) :
    splitCompact (join ':' pieces ++ [':']) = none := by
  by_cases none : pieces = []
  · rw [none]
    rfl
  · have around := splitCompact_join none arePieces
    apply splitCompact_infix [':'] []
    simpa using around

/-- Nor does a single colon in front of the first piece, for the same reason. -/
theorem splitCompact_join_behind (arePieces : ∀ piece ∈ pieces, IsPiece piece) :
    splitCompact (':' :: join ':' pieces) = none := by
  by_cases none : pieces = []
  · rw [none]
    rfl
  · have around := splitCompact_join none arePieces
    apply splitCompact_infix [] [':']
    simpa using around

end Compact

/-! ### Pieces -/

section Pieces

variable {text : Text} {piece : Text} {pieces : List Text} {groups : List Nat} {group : Nat}

/-- A member of one list has its partner in the other, when the lists are related place by place. -/
theorem related_of_mem {α β : Type} {relates : α → β → Prop} {firsts : List α} {seconds : List β}
    (related : List.Forall₂ relates firsts seconds) {first : α} (member : first ∈ firsts) :
    ∃ second, relates first second := by
  induction related with
  | nil => cases member
  | cons here _ inductionHypothesis =>
    rcases List.mem_cons.mp member with rfl | later
    · exact ⟨_, here⟩
    · exact inductionHypothesis later

/-- Each character of a text that is read as a number is a digit to the base, for one that is not
ends the reading. -/
theorem digit_of_readNumber {base number : Nat} (read : readNumber base text = some number)
    {char : Char} (member : char ∈ text) : ∃ digit, digitOf base char = some digit := by
  rw [readNumber, Option.map_eq_some_iff] at read
  obtain ⟨digits, listed, -⟩ := read
  exact related_of_mem (mapM_eq_some.mp listed) (List.mem_reverse.mpr member)

/-- A group is a piece and no dotted decimal address. -/
theorem isPiece_of_group (isGroup : parseGroup piece = some group) : IsPiece piece ∧ '.' ∉ piece := by
  unfold parseGroup at isGroup
  split at isGroup
  · cases isGroup
  · rename_i sized
    refine ⟨⟨fun empty => sized (.inl empty), ?_⟩, ?_⟩
    · intro member
      obtain ⟨digit, impossible⟩ := digit_of_readNumber isGroup member
      cases impossible
    · intro member
      obtain ⟨digit, impossible⟩ := digit_of_readNumber isGroup member
      cases impossible

/-- What stands in a joined text is a separator or comes from one of the pieces, so that a property
of the pieces passes to the text. -/
theorem mem_join {separator char : Char} (member : char ∈ join separator pieces) :
    char = separator ∨ ∃ piece ∈ pieces, char ∈ piece := by
  induction pieces with
  | nil => cases member
  | cons piece rest inductionHypothesis =>
    cases rest with
    | nil =>
      rw [join_singleton] at member
      exact .inr ⟨piece, List.mem_cons_self, member⟩
    | cons next rest =>
      rw [join_cons_cons, List.mem_append, List.mem_cons] at member
      rcases member with here | isSeparator | later
      · exact .inr ⟨piece, List.mem_cons_self, here⟩
      · exact .inl isSeparator
      · rcases inductionHypothesis later with isSeparator | ⟨other, listed, inOther⟩
        · exact .inl isSeparator
        · exact .inr ⟨other, List.mem_cons_of_mem _ listed, inOther⟩

/-- A dotted decimal address is a piece with a dot. -/
theorem isPiece_of_dotted {octets : List Nat} (isAddress : parse4 piece = some octets) :
    IsPiece piece ∧ '.' ∈ piece := by
  simp only [parse4] at isAddress
  split at isAddress
  · rename_i four
    have dot : '.' ∈ piece := by
      by_contra absent
      rw [List.splitOn_eq_singleton absent] at four
      cases four
    refine ⟨⟨fun empty => ?_, fun colon => ?_⟩, dot⟩
    · rw [empty] at dot
      cases dot
    · have joined : join '.' (piece.splitOn '.') = piece := List.intercalate_splitOn '.'
      rw [← joined] at colon
      rcases mem_join colon with impossible | ⟨part, listed, inPart⟩
      · cases impossible
      · obtain ⟨octet, read⟩ := related_of_mem (mapM_eq_some.mp isAddress) listed
        unfold parseOctet at read
        split at read
        · cases read
        · obtain ⟨digit, impossible⟩ := digit_of_readNumber (Option.filter_eq_some_iff.mp read).1 inPart
          cases impossible
  · cases isAddress

/-- What denotes groups consists of pieces: none is empty and none has a colon, which the splitting
of the text relies on. -/
theorem Pieces.isPiece (denotes : Pieces pieces groups) : ∀ piece ∈ pieces, IsPiece piece := by
  induction denotes with
  | nil => exact fun _ member => by cases member
  | dotted isAddress => simpa using (isPiece_of_dotted isAddress).1
  | cons isGroup _ inductionHypothesis =>
    exact List.forall_mem_cons.mpr ⟨(isPiece_of_group isGroup).1, inductionHypothesis⟩

/-- The reader of pieces finds the groups they denote. -/
theorem parsePieces_iff : parsePieces pieces = some groups ↔ Pieces pieces groups := by
  constructor
  · intro parsed
    induction pieces generalizing groups with
    | nil =>
      cases parsed
      exact .nil
    | cons piece rest inductionHypothesis =>
      unfold parsePieces at parsed
      split at parsed
      · rename_i last
        split at parsed
        · rename_i isAddress
          cases parsed
          exact last.1 ▸ .dotted isAddress
        · cases parsed
      · simp only [Option.bind_eq_bind, Option.bind_eq_some_iff, Option.some.injEq] at parsed
        obtain ⟨group, isGroup, others, following, rfl⟩ := parsed
        exact .cons isGroup (inductionHypothesis following)
  · intro denotes
    induction denotes with
    | nil => rfl
    | dotted isAddress =>
      simp only [parsePieces, (isPiece_of_dotted isAddress).2, and_self, if_true, isAddress]
    | cons isGroup _ inductionHypothesis =>
      simp [parsePieces, (isPiece_of_group isGroup).2, isGroup, inductionHypothesis]

/-- The pieces between colons, joined with colons, are the text again, for every text. -/
theorem join_piecesOf (text : Text) : join ':' (piecesOf text) = text := by
  unfold piecesOf
  split
  · rename_i empty
    rw [empty, join_nil]
  · exact List.intercalate_splitOn ':'

/-- Pieces give an empty text only when there are none, as each has a character. -/
theorem join_eq_nil (arePieces : ∀ piece ∈ pieces, IsPiece piece) : join ':' pieces = [] ↔ pieces = [] := by
  cases pieces with
  | nil => simp
  | cons piece rest =>
    have notEmpty := (arePieces piece List.mem_cons_self).1
    cases rest <;> simp [notEmpty]

/-- Pieces that are joined do not begin with a colon, as the first of them is not empty and has none
inside. -/
theorem join_head (arePieces : ∀ piece ∈ pieces, IsPiece piece) : (join ':' pieces).head? ≠ some ':' := by
  cases pieces with
  | nil => simp
  | cons piece rest =>
    obtain ⟨notEmpty, noColon⟩ := arePieces piece List.mem_cons_self
    obtain ⟨char, others, rfl⟩ := List.exists_cons_of_ne_nil notEmpty
    have distinct : char ≠ ':' := fun same => noColon (by rw [same]; exact List.mem_cons_self)
    cases rest <;> simpa using distinct

/-- Pieces come back from the text they were joined to. With `join_piecesOf` the two are inverse to
each other. -/
theorem piecesOf_join (arePieces : ∀ piece ∈ pieces, IsPiece piece) :
    piecesOf (join ':' pieces) = pieces := by
  unfold piecesOf
  split
  · rename_i empty
    exact ((join_eq_nil arePieces).mp empty).symm
  · rename_i notEmpty
    apply List.splitOn_intercalate ':' (fun piece member => (arePieces piece member).2)
    exact fun empty => notEmpty ((join_eq_nil arePieces).mpr empty)

/-- A piece that is read as a group has a digit and no colon. -/
theorem isPiece_of_groups
    (denote : List.Forall₂ (fun piece group => parseGroup piece = some group) pieces groups) :
    ∀ piece ∈ pieces, IsPiece piece := by
  intro piece member
  obtain ⟨group, isGroup⟩ := related_of_mem denote member
  exact (isPiece_of_group isGroup).1

/-- The reader accepts the texts of the grammar and finds the groups that they denote. -/
theorem parse6_iff : parse6 text = some groups ↔ Denotes text groups := by
  constructor
  · intro parsed
    unfold parse6 at parsed
    split at parsed
    · obtain ⟨found, eight⟩ := Option.filter_eq_some_iff.mp parsed
      rw [← join_piecesOf text]
      exact .full (parsePieces_iff.mp found) (by simpa using eight)
    · rename_i before behind split
      simp only [Option.bind_eq_bind, Option.bind_eq_some_iff] at parsed
      obtain ⟨first, readFirst, last, readLast, parsed⟩ := parsed
      split at parsed
      · rename_i fewer
        cases parsed
        rw [splitCompact_eq_some split, ← join_piecesOf before, ← join_piecesOf behind]
        exact .compact (mapM_eq_some.mp readFirst) (parsePieces_iff.mp readLast) fewer
      · cases parsed
  · intro denotes
    cases denotes with
    | @full pieces _ found eight =>
      have apart : splitCompact (join ':' pieces) = none :=
        splitCompact_infix [':'] [] (by simpa using splitCompact_join_behind found.isPiece)
      simp only [parse6, apart, piecesOf_join found.isPiece, parsePieces_iff.mpr found]
      simp [eight]
    | compact readFirst readLast fewer =>
      have apart := splitCompact_join_before (isPiece_of_groups readFirst)
      simp only [parse6, splitCompact_append apart, piecesOf_join (isPiece_of_groups readFirst),
        piecesOf_join readLast.isPiece, mapM_eq_some.mpr readFirst, parsePieces_iff.mpr readLast,
        Option.bind_eq_bind, Option.bind_some, if_pos fewer]

/-- An address in decimal counts for two groups, so that the groups are one more than the pieces at
most. -/
theorem Pieces.length_le (denotes : Pieces pieces groups) : groups.length ≤ pieces.length + 1 := by
  induction denotes with
  | nil => exact Nat.zero_le _
  | dotted => exact Nat.le_refl _
  | cons _ _ inductionHypothesis => exact Nat.succ_le_succ inductionHypothesis

/-- Every text of the grammar has a colon, with `::` and without, so that it is not taken for a
dotted decimal one. -/
theorem Denotes.colon_mem (denotes : Denotes text groups) : ':' ∈ text := by
  cases denotes with
  | @full pieces _ found eight =>
    have several := found.length_le
    match pieces, several with
    | [], several => simp [eight] at several
    | [_], several => simp [eight] at several
    | _ :: _ :: _, _ => simp
  | compact _ _ _ => simp

/-- Two colons in a row stand at most at one place of the text. -/
theorem Denotes.compact_unique (denotes : Denotes text groups) {before behind otherBefore otherBehind : Text}
    (first : text = before ++ ':' :: ':' :: behind)
    (second : text = otherBefore ++ ':' :: ':' :: otherBehind) : before = otherBefore := by
  cases denotes with
  | @full pieces _ found _ =>
    have apart : splitCompact (join ':' pieces) = none :=
      splitCompact_infix [':'] [] (by simpa using splitCompact_join_behind found.isPiece)
    rw [first] at apart
    exact absurd apart (splitCompact_ne_none before behind)
  | @compact _ rest _ _ readFirst readLast _ =>
    have split := splitCompact_append (splitCompact_join_before (isPiece_of_groups readFirst)) (join ':' rest)
    have apart := splitCompact_join_behind readLast.isPiece
    exact (splitCompact_unique split apart first).trans (splitCompact_unique split apart second).symm

/-- A number of so many digits is below that power of the base. -/
theorem readNumber_lt {base number : Nat} (large : 1 < base) (read : readNumber base text = some number) :
    number < base ^ text.length := by
  rw [readNumber, Option.map_eq_some_iff] at read
  obtain ⟨digits, listed, rfl⟩ := read
  have related := mapM_eq_some.mp listed
  have length : digits.length = text.length := by
    rw [← related.length_eq, List.length_reverse]
  rw [← length]
  apply Nat.ofDigits_lt_base_pow_length large
  intro digit member
  obtain ⟨char, isDigit⟩ := related_of_mem related.flip member
  exact of_decide_eq_true (Option.filter_eq_some_iff.mp isDigit).2

/-- A group has four digits at most, so that it fits in 16 bits. -/
theorem group_lt (isGroup : parseGroup piece = some group) : group < 65536 := by
  unfold parseGroup at isGroup
  split at isGroup
  · cases isGroup
  · rename_i sized
    have digits : piece.length ≤ 4 := by
      by_contra long
      exact sized (.inr (by omega))
    have bound : group < 16 ^ piece.length := readNumber_lt (by decide) isGroup
    have power : 16 ^ piece.length ≤ 16 ^ 4 := Nat.pow_le_pow_right (by decide) digits
    omega

/-- An octet that `parse4` takes is below 256, since it refuses larger numbers and not only longer
texts. -/
theorem octets_lt {octets : List Nat} (isAddress : parse4 piece = some octets) :
    ∀ octet ∈ octets, octet < 256 := by
  simp only [parse4] at isAddress
  split at isAddress
  · intro octet member
    obtain ⟨part, read⟩ := related_of_mem (mapM_eq_some.mp isAddress).flip member
    unfold parseOctet at read
    split at read
    · cases read
    · exact of_decide_eq_true (Option.filter_eq_some_iff.mp read).2
  · cases isAddress

/-- Whatever the pieces are, the groups they denote fit in 16 bits each; so the address fits in its
128 bits. -/
theorem Pieces.small (denotes : Pieces pieces groups) : ∀ group ∈ groups, group < 65536 := by
  induction denotes with
  | nil => exact fun _ member => by cases member
  | dotted isAddress =>
    have bytes := octets_lt isAddress
    simp only [List.forall_mem_cons] at bytes ⊢
    refine ⟨by omega, by omega, ?_⟩
    exact fun _ member => by cases member
  | cons isGroup _ inductionHypothesis =>
    exact List.forall_mem_cons.mpr ⟨group_lt isGroup, inductionHypothesis⟩

/-- What a text denotes are eight groups of sixteen bits. -/
theorem Denotes.eight (denotes : Denotes text groups) :
    groups.length = 8 ∧ ∀ group ∈ groups, group < 65536 := by
  cases denotes with
  | full found eight => exact ⟨eight, found.small⟩
  | compact readFirst readLast fewer =>
    refine ⟨by simp only [List.length_append, List.length_replicate]; omega, ?_⟩
    intro group member
    simp only [List.mem_append, List.mem_replicate] at member
    rcases member with (first | ⟨-, zero⟩) | last
    · obtain ⟨piece, isGroup⟩ := related_of_mem readFirst.flip first
      exact group_lt isGroup
    · omega
    · exact readLast.small group last

/-- One more piece without a dot is one more group, which the pieces before take part in as
they did: none of them is a dotted decimal address. -/
theorem Pieces.concat (denotes : Pieces pieces groups) {next : Text} {all : List Nat}
    (noDot : '.' ∉ next) (longer : Pieces (pieces ++ [next]) all) :
    ∃ group, all = groups ++ [group] ∧
      ∀ piece rest, pieces = piece :: rest →
        ∃ first others, parseGroup piece = some first ∧ groups = first :: others := by
  induction denotes generalizing all with
  | nil =>
    cases longer with
    | dotted isAddress => exact absurd (isPiece_of_dotted isAddress).2 noDot
    | cons isGroup following =>
      cases following
      exact ⟨_, rfl, fun _ _ impossible => by cases impossible⟩
  | dotted isAddress =>
    cases longer with
    | cons isGroup _ => exact absurd (isPiece_of_dotted isAddress).2 (isPiece_of_group isGroup).2
  | @cons piece group rest groups isGroup _ inductionHypothesis =>
    generalize pieces : piece :: rest ++ [next] = longPieces at longer
    cases longer with
    | nil => cases pieces
    | dotted isAddress => simp at pieces
    | cons sameGroup following =>
      cases pieces
      obtain ⟨last, same, -⟩ := inductionHypothesis following
      have equal := Option.some.inj (isGroup.symm.trans sameGroup)
      refine ⟨last, by rw [same, equal]; rfl, ?_⟩
      rintro _ _ ⟨⟩
      exact ⟨group, groups, isGroup, rfl⟩

end Pieces

/-! ## Parts between separators -/

section Separators

variable {isSeparator : Char → Bool} {text : Text} {parts : List Text}

/-- The text is these parts with one separator between each two of them. -/
inductive Separated (isSeparator : Char → Bool) : Text → List Text → Prop where
  | last {part : Text} : (∀ char ∈ part, isSeparator char = false) → Separated isSeparator part [part]
  | cons {part rest : Text} {separator : Char} {parts : List Text} :
      (∀ char ∈ part, isSeparator char = false) → isSeparator separator = true →
        Separated isSeparator rest parts → Separated isSeparator (part ++ separator :: rest) (part :: parts)

/-- The pieces that `splitOnP` gives are those between the separators: it cuts a text at each of
them and nowhere else. -/
theorem separated_splitOnP (isSeparator : Char → Bool) (text : Text) :
    Separated isSeparator text (text.splitOnP isSeparator) := by
  induction text with
  | nil => exact .last (List.forall_mem_nil _)
  | cons char rest inductionHypothesis =>
    rw [List.splitOnP_cons_eq_if_modifyHead]
    by_cases separates : isSeparator char = true
    · rw [if_pos separates]
      exact .cons (List.forall_mem_nil _) separates inductionHypothesis
    · have plain : isSeparator char = false := Bool.eq_false_iff.mpr separates
      rw [if_neg separates]
      generalize rest.splitOnP isSeparator = parts at inductionHypothesis
      cases inductionHypothesis with
      | last others => exact .last (List.forall_mem_cons.mpr ⟨plain, others⟩)
      | cons others later following =>
        exact .cons (List.forall_mem_cons.mpr ⟨plain, others⟩) later following

/-- The parts of a text between its separators are those that `splitOnP` gives, so that the relation
determines them. -/
theorem separated_iff : Separated isSeparator text parts ↔ text.splitOnP isSeparator = parts := by
  constructor
  · intro separated
    induction separated with
    | last plain => exact List.splitOnP_eq_singleton plain
    | cons plain separates _ inductionHypothesis =>
      rw [List.splitOnP_append_cons _ _ separates, List.splitOnP_eq_singleton plain, inductionHypothesis,
        List.singleton_append]
  · rintro rfl
    exact separated_splitOnP isSeparator text

/-- Parts without separators are the parts of their joined text, if there is one at all. -/
theorem separated_join {separator : Char} (separates : isSeparator separator = true) (some : parts ≠ [])
    (plain : ∀ part ∈ parts, ∀ char ∈ part, isSeparator char = false) :
    Separated isSeparator (join separator parts) parts := by
  induction parts with
  | nil => exact absurd rfl some
  | cons part rest inductionHypothesis =>
    obtain ⟨here, later⟩ := List.forall_mem_cons.mp plain
    cases rest with
    | nil =>
      rw [join_singleton]
      exact .last here
    | cons next rest =>
      rw [join_cons_cons]
      exact .cons here separates (inductionHypothesis (List.cons_ne_nil _ _) later)

end Separators

end OpenTaker.AddressText
