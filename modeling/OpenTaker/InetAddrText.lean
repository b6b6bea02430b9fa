import OpenTaker.NetUtil
import Mathlib.Data.List.TakeWhile

/-!
# Addresses with ports as text

`toString` prints an address, a colon and the port for both families. `makeAddr` cuts the
text at its colons to tell the families apart, and takes the port from an IPv4 text only: an
IPv6 text is handed to `inet_pton` with the port at its end.

So an IPv4 address comes back from its text, and an IPv6 address never does: with the port
its text is not an address, or it is another one.
-/

namespace OpenTaker

open ByteReads AddressText

/-! ## Library functions -/

/-- `isspace` in the C locale: the blank, and the five control characters that count as white space. -/
def isSpace (char : Char) : Bool := char = ' ' ∨ 9 ≤ char.toNat ∧ char.toNat ≤ 13

/-- `atoi`: spaces, a sign and the digits that follow. -/
def atoi (text : Text) : Int :=
  let trimmed := text.dropWhile isSpace
  let unsigned := if trimmed.head? = some '-' ∨ trimmed.head? = some '+' then trimmed.tail else trimmed
  let digits := unsigned.takeWhile (fun char => (digitOf 10 char).isSome)
  let value := (readNumber 10 digits).getD 0
  if trimmed.head? = some '-' then - (value : Int) else value

/-- `inet_ntoa`: the four bytes in decimal, with points between them. -/
def inetNtoa (addr : InAddr) : Text := dotted (addr.bytes.map UInt8.toNat)

/-- `StrSplit`: the pieces between the delimiters that are not empty, from the characters
since the last delimiter on. -/
def strSplitFrom (delim : List Char) : Text → Text → List Text
  | piece, [] => if piece ≠ [] then [piece] else []
  | piece, char :: rest =>
      if char ∈ delim then
        (if piece ≠ [] then [piece] else []) ++ strSplitFrom delim [] rest
      else strSplitFrom delim (piece ++ [char]) rest

/-- `StrSplit` on a text, as the address parser uses it: the pieces between delimiters, without the
empty ones. -/
def strSplit (src : Text) (delim : List Char) : List Text := strSplitFrom delim [] src

/-- The loop is the `splitOnP` of the library with the piece so far in front, so that its lemmas
apply. -/
theorem strSplitFrom_eq (delim : List Char) (piece src : Text) :
    strSplitFrom delim piece src =
      (List.splitOnPPrepend (fun char => decide (char ∈ delim)) src piece.reverse).filter (· ≠ []) := by
  induction src generalizing piece with
  | nil => by_cases empty : piece = [] <;> simp [strSplitFrom, empty]
  | cons char rest inductionHypothesis =>
    rw [strSplitFrom, List.splitOnPPrepend_cons_eq_if]
    by_cases delimiter : char ∈ delim
    · rw [if_pos delimiter, if_pos (decide_eq_true delimiter), inductionHypothesis]
      by_cases empty : piece = [] <;> simp [empty]
    · rw [if_neg delimiter, if_neg (by simpa using delimiter), inductionHypothesis, List.reverse_append]
      rfl

/-- `StrSplit` drops the empty parts between the delimiters, so that a text with two colons in a row
has no part for them. -/
theorem strSplit_eq (src : Text) (delim : List Char) :
    strSplit src delim = (src.splitOnP (fun char => decide (char ∈ delim))).filter (· ≠ []) :=
  strSplitFrom_eq delim [] src

/-- Pieces with a colon between them are split into these. -/
theorem strSplit_join {pieces : List Text} (some : pieces ≠ []) (arePieces : ∀ piece ∈ pieces, IsPiece piece) :
    strSplit (join ':' pieces) [':'] = pieces := by
  have plain : ∀ piece ∈ pieces, ∀ char ∈ piece, decide (char ∈ [':']) = false := by
    intro piece member char isChar
    rw [decide_eq_false_iff_not, List.mem_singleton]
    rintro rfl
    exact (arePieces piece member).2 isChar
  rw [strSplit_eq, separated_iff.mp (separated_join (by decide) some plain), List.filter_eq_self]
  exact fun piece member => by simpa using (arePieces piece member).1

namespace CInetAddr

/-- `sin_addr`, the four bytes at offset four of the storage, behind the family and the port. -/
def sinAddr (address : CInetAddr) : InAddr :=
  ⟨address.storage.getD 4 0, address.storage.getD 5 0, address.storage.getD 6 0,
    address.storage.getD 7 0⟩

/-- `sin6_addr`, the sixteen bytes at offset eight of the storage, behind the family, the port and
the flow. -/
def sin6Addr (address : CInetAddr) : In6Addr where
  bytes := (address.storage.drop 8).take 16
  size := by simp [address.size, sizeofSockaddrStorage]

/-- `toString`, with what `inet_ntop` prints as a parameter, and the port behind a colon. -/
def toString (inetNtop6 : In6Addr → Text) (address : CInetAddr) : Text :=
  if address.family = AF_INET then
    inetNtoa address.sinAddr ++ ':' :: numeral 10 (ntohs address.sinPort)
  else if address.family = AF_INET6 then
    inetNtop6 address.sin6Addr ++ ':' :: numeral 10 (ntohs address.sinPort)
  else "Invalid address".toList

/-- `makeAddr`. A text of colons only has no first piece, which is undefined. -/
def makeAddr (address : CInetAddr) (text : Text) : Option (Int × CInetAddr) :=
  let v := strSplit text [':']
  if (splitCompact text).isSome ∨ v.length > 2 then
    match inetPton6 text with
    | some addr6 => some (0, (address.setFamily 10).setSin6Addr addr6)
    | none => some (0, address)
  else
    match v with
    | [] => none
    | host :: rest =>
        match inetPton4 host with
        | some addr4 =>
            let named := (address.setFamily 2).setSinAddr addr4
            match rest with
            | [port] => some (0, named.setPort (UInt16.ofInt (atoi port)))
            | _ => some (0, named)
        | none => some (0, address)

/-- The text of an address makes an address that is equal to it. -/
def RoundTrips (inetNtop6 : In6Addr → Text) (address : CInetAddr) : Prop :=
  ∃ made, new.makeAddr (address.toString inetNtop6) = some (0, made) ∧ made.eq address = true

/-! ## IPv6 addresses do not come back -/

/-- `inet_ntop` prints texts that `inet_pton` reads back, and two colons stand for a whole
run of zero groups: no zero group follows them. -/
structure Canonical (inetNtop6 : In6Addr → Text) : Prop where
  inverse : ∀ addr, inetPton6 (inetNtop6 addr) = some addr
  wholeRun : ∀ addr before behind, inetNtop6 addr = before ++ ':' :: ':' :: behind →
    ∀ piece ∈ (piecesOf behind).head?, parseGroup piece ≠ some 0

/-- A piece behind the text of an address makes another address of it, or none. -/
theorem denotes_port {text port : Text} {groups : List Nat} (denotes : Denotes text groups)
    (isPiece : IsPiece port) (noDot : '.' ∉ port)
    (wholeRun : ∀ before behind, text = before ++ ':' :: ':' :: behind →
      ∀ piece ∈ (piecesOf behind).head?, parseGroup piece ≠ some 0) :
    ¬ Denotes (text ++ ':' :: port) groups := by
  intro ported
  have eight := denotes.eight.1
  have parsed := parse6_iff.mpr ported
  cases denotes with
  | @full pieces _ found _ =>
    have someText : pieces ≠ [] := by
      rintro rfl
      cases found
      cases eight
    have arePieces : ∀ piece ∈ pieces ++ [port], IsPiece piece := by
      intro piece member
      rcases List.mem_append.mp member with before | last
      · exact found.isPiece piece before
      · exact List.mem_singleton.mp last ▸ isPiece
    have apart : splitCompact (join ':' (pieces ++ [port])) = none :=
      splitCompact_infix [':'] [] (by simpa using splitCompact_join_behind arePieces)
    rw [← join_concat someText] at parsed
    simp only [parse6, apart, piecesOf_join arePieces, Option.filter_eq_some_iff] at parsed
    obtain ⟨group, longer, -⟩ := found.concat noDot (parsePieces_iff.mp parsed.1)
    have length := congrArg List.length longer
    rw [List.length_append, List.length_singleton] at length
    omega
  | @compact head rest first last readFirst readLast fewer =>
    have split := splitCompact_append (splitCompact_join_before (isPiece_of_groups readFirst))
      (join ':' rest ++ ':' :: port)
    rw [List.append_assoc, List.cons_append, List.cons_append] at parsed
    simp only [parse6, split, piecesOf_join (isPiece_of_groups readFirst),
      mapM_eq_some.mpr readFirst, Option.bind_eq_bind, Option.bind_some,
      Option.bind_eq_some_iff] at parsed
    obtain ⟨behind, readBehind, parsed⟩ := parsed
    split at parsed
    · rename_i fewerBehind
      have same := Option.some.inj parsed
      by_cases none : rest = []
      · have found := (parsePieces_iff.mp readBehind).isPiece
        apply join_head found
        rw [join_piecesOf, none]
        rfl
      · have arePieces : ∀ piece ∈ rest ++ [port], IsPiece piece := by
          intro piece member
          rcases List.mem_append.mp member with before | last
          · exact readLast.isPiece piece before
          · exact List.mem_singleton.mp last ▸ isPiece
        rw [← join_concat none, piecesOf_join arePieces, parsePieces_iff] at readBehind
        obtain ⟨group, rfl, leading⟩ := readLast.concat noDot readBehind
        obtain ⟨piece, others, rfl⟩ := List.exists_cons_of_ne_nil none
        obtain ⟨firstGroup, otherGroups, isGroup, rfl⟩ := leading piece others rfl
        -- one zero less stands before the groups, and one group more behind them
        have shorter : 8 - first.length - (firstGroup :: otherGroups).length =
            8 - first.length - ((firstGroup :: otherGroups) ++ [group]).length + 1 := by
          simp only [List.length_append, List.length_singleton] at fewerBehind ⊢
          omega
        rw [shorter, List.replicate_succ', List.append_assoc, List.append_assoc, List.append_assoc,
          List.append_cancel_left_eq, List.append_cancel_left_eq] at same
        have zero : firstGroup = 0 := (List.cons.inj same).1
        refine wholeRun (join ':' head) (join ':' (piece :: others)) rfl piece ?_ (zero ▸ isGroup)
        rw [piecesOf_join readLast.isPiece]
        rfl
    · cases parsed

/-- A decimal numeral has a digit, no colon and no point, so that it is a piece by itself. -/
theorem isPiece_numeral (number : Nat) : IsPiece (numeral 10 number) ∧ '.' ∉ numeral 10 number :=
  ⟨⟨numeral_ne_nil 10 number, not_mem_numeral (by decide) (by decide) (digitOf_colon 10)⟩,
    not_mem_numeral (by decide) (by decide) (digitOf_dot 10)⟩

/-- The address that was stored is read back, behind the family. -/
theorem sin6Addr_of_stored (addr : In6Addr) : ((new.setFamily 10).setSin6Addr addr).sin6Addr = addr := by
  have stored : ((new.setFamily 10).setSin6Addr addr).storage =
      [10, 0, 0, 0, 0, 0, 0, 0] ++ addr.bytes ++ List.replicate 104 0 := by
    simp only [setSin6Addr, store, addr.size]
    rfl
  simp only [sin6Addr, stored, List.append_assoc]
  congr 1
  exact List.take_left' addr.size

/-- The sixteen bytes of an IPv6 address that was built are the ones it was built with. -/
theorem sin6Addr_inet6 (addr : In6Addr) (port : UInt16) : (inet6 addr port).sin6Addr = addr := by
  have bytes : (inet6 addr port).sin6Addr.bytes = addr.bytes := s6Addr_inet6 addr port
  cases addr
  exact In6Addr.mk.injEq .. |>.mpr bytes

/-- The string constructor leaves the zeros or builds an address. -/
theorem built_makeAddr {text : Text} {code : Int} {made : CInetAddr}
    (returned : new.makeAddr text = some (code, made)) : made = new ∨ made.Built := by
  have portless : ∀ addr6 : In6Addr, (new.setFamily 10).setSin6Addr addr6 = inet6 addr6 0 := by
    intro addr6
    have storage : ((new.setFamily 10).setSin6Addr addr6).storage = (inet6 addr6 0).storage := by
      rw [inet6_storage]
      simp only [setSin6Addr, store, addr6.size]
      rfl
    rwa [← eq_iff, eq, decide_eq_true_eq]
  simp only [makeAddr] at returned
  split at returned
  · split at returned
    · rename_i addr6 _
      cases returned
      exact .inr (.inr ⟨addr6, 0, portless addr6⟩)
    · cases returned
      exact .inl rfl
  · split at returned
    · cases returned
    · split at returned
      · rename_i addr4 _
        split at returned
        · cases returned
          exact .inr (.inl ⟨addr4, _, rfl⟩)
        · cases returned
          exact .inr (.inl ⟨addr4, 0, rfl⟩)
      · cases returned
        exact .inl rfl

/-- With the port at its end the text of an IPv6 address makes another address. -/
theorem inet6_not_roundTrips {inetNtop6 : In6Addr → Text} (canonical : Canonical inetNtop6)
    (addr : In6Addr) (port : UInt16) : ¬ RoundTrips inetNtop6 (inet6 addr port) := by
  rintro ⟨made, returned, equal⟩
  have same : made = inet6 addr port := eq_iff.mp equal
  have isV6 : made.family = AF_INET6 := same ▸ family_inet6 addr port
  generalize number : ntohs (inet6 addr port).sinPort = portNumber at *
  have text : (inet6 addr port).toString inetNtop6 = inetNtop6 addr ++ ':' :: numeral 10 portNumber := by
    rw [CInetAddr.toString, family_inet6, if_neg (by decide), if_pos rfl, sin6Addr_inet6, number]
  rw [text] at returned
  simp only [makeAddr] at returned
  split at returned
  · split at returned
    · rename_i addr6 read
      cases returned
      have sameAddr : addr6 = addr := by rw [← sin6Addr_of_stored addr6, same, sin6Addr_inet6]
      have denotes := inetPton6_iff.mp (canonical.inverse addr)
      have port := isPiece_numeral portNumber
      exact denotes_port denotes port.1 port.2 (canonical.wholeRun addr)
        (inetPton6_iff.mp (sameAddr ▸ read))
    · cases returned
      exact absurd isV6 (by decide)
  · split at returned
    · cases returned
    · split at returned
      · split at returned
        · cases returned
          exact absurd (isV6.symm.trans rfl : AF_INET6 = AF_INET) (by decide)
        · cases returned
          exact absurd (isV6.symm.trans rfl : AF_INET6 = AF_INET) (by decide)
      · cases returned
        exact absurd isV6 (by decide)

/-! ## IPv4 addresses come back -/

/-- Two pieces with a colon between them are split into just these two. -/
theorem strSplit_two {first second : Text} (firstPiece : IsPiece first) (secondPiece : IsPiece second) :
    strSplit (first ++ ':' :: second) [':'] = [first, second] := by
  have split := strSplit_join (List.cons_ne_nil first [second])
    (List.forall_mem_cons.mpr ⟨firstPiece, by simpa using secondPiece⟩)
  rwa [join_cons_cons, join_singleton] at split

/-- A digit of any base has a character of at least `'0'`, behind all white space and signs. -/
theorem digit_toNat {base : Nat} {char : Char} {digit : Nat} (isDigit : digitOf base char = some digit) :
    48 ≤ char.toNat := by
  have order : ∀ first : Char, 48 ≤ first.toNat → first ≤ char → 48 ≤ char.toNat :=
    fun first low above => Nat.le_trans low above
  simp only [digitOf, Option.filter_eq_some_iff] at isDigit
  obtain ⟨value, -⟩ := isDigit
  split at value
  · rename_i range
    exact order '0' (by decide) range.1
  · split at value
    · rename_i range
      exact order 'A' (by decide) range.1
    · split at value
      · rename_i range
        exact order 'a' (by decide) range.1
      · cases value

/-- A decimal digit is no white space and no sign, so that `atoi` begins with it. -/
theorem not_isSpace_of_digit {char : Char} {digit : Nat} (isDigit : digitOf 10 char = some digit) :
    isSpace char = false ∧ char ≠ '-' ∧ char ≠ '+' := by
  have large := digit_toNat isDigit
  refine ⟨?_, ?_, ?_⟩
  · have space : ' '.toNat = 32 := rfl
    simp only [isSpace, decide_eq_false_iff_not]
    rintro (rfl | range)
    · omega
    · omega
  · rintro rfl
    cases isDigit
  · rintro rfl
    cases isDigit

/-- `atoi` reads digits as their number, and stops at the first character that is none. -/
theorem atoi_digits {text : Text} {number : Nat} (notEmpty : text ≠ [])
    (read : readNumber 10 text = some number) :
    atoi text = number := by
  obtain ⟨values, valuesRead, -⟩ := Option.map_eq_some_iff.mp read
  have digits : ∀ char ∈ text, ∃ digit, digitOf 10 char = some digit := by
    intro char member
    exact related_of_mem (mapM_eq_some.mp valuesRead) (List.mem_reverse.mpr member)
  have all : text.takeWhile (fun char => (digitOf 10 char).isSome) = text := by
    rw [List.takeWhile_eq_self_iff]
    intro char member
    obtain ⟨digit, isDigit⟩ := digits char member
    rw [isDigit]
    rfl
  obtain ⟨char, rest, cons⟩ := List.exists_cons_of_ne_nil notEmpty
  obtain ⟨digit, isDigit⟩ := digits char (by rw [cons]; exact List.mem_cons_self)
  obtain ⟨noSpace, noMinus, noPlus⟩ := not_isSpace_of_digit isDigit
  have trimmed : text.dropWhile isSpace = text := by
    rw [cons, List.dropWhile_cons, noSpace]
    rfl
  have head : text.head? = some char := by rw [cons, List.head?_cons]
  simp only [atoi, trimmed, head, Option.some.injEq, noMinus, noPlus, or_self, if_false, all, read,
    Option.getD_some]

/-- `atoi` reads a numeral back. Numbers that are too large for an int are left to the callers. -/
theorem atoi_numeral (number : Nat) : atoi (numeral 10 number) = number :=
  atoi_digits (numeral_ne_nil 10 number) (readNumber_numeral (by decide : 1 < 10) (by decide) number)

/-- The text of an IPv4 address is parsed to its four bytes. -/
theorem parse4_inetNtoa (addr : InAddr) : parse4 (inetNtoa addr) = some (addr.bytes.map UInt8.toNat) := by
  apply parse4_dotted
  · rfl
  · intro octet member
    obtain ⟨byte, -, rfl⟩ := List.mem_map.mp member
    exact byte.toNat_lt

/-- `inet_pton` reads back what `inet_ntoa` has printed, for all addresses. -/
theorem inetPton4_inetNtoa (addr : InAddr) : inetPton4 (inetNtoa addr) = some addr := by
  simp only [inetPton4, parse4_inetNtoa, InAddr.bytes, List.map_cons, List.map_nil, UInt8.ofNat_toNat]

/-- The address and the port are the two pieces of the text, and both are read back. -/
theorem inet_roundTrips (inetNtop6 : In6Addr → Text) (addr : InAddr) (port : UInt16) :
    RoundTrips inetNtop6 (inet addr port) := by
  have number : ntohs (inet addr port).sinPort = port.toNat := ntohs_be16 port
  have text : (inet addr port).toString inetNtop6 = inetNtoa addr ++ ':' :: numeral 10 port.toNat := by
    rw [CInetAddr.toString, if_pos (family_inet addr port), number]
    rfl
  have host : IsPiece (inetNtoa addr) := (isPiece_of_dotted (parse4_inetNtoa addr)).1
  have portPiece := (isPiece_numeral port.toNat).1
  have apart : splitCompact (inetNtoa addr ++ ':' :: numeral 10 port.toNat) = none := by
    have behind := splitCompact_colon_piece portPiece (rfl : splitCompact [] = none)
    rw [List.append_nil] at behind
    rw [splitCompact_piece host.2, behind]
    rfl
  have portBack : UInt16.ofInt (atoi (numeral 10 port.toNat)) = port := by
    have small : port.toNat < 65536 := port.toNat_lt
    apply UInt16.toNat_inj.mp
    rw [atoi_numeral, UInt16.ofInt]
    simp
    omega
  refine ⟨inet addr port, ?_, eq_iff.mpr rfl⟩
  rw [text]
  simp [makeAddr, apart, strSplit_two host portPiece, inetPton4_inetNtoa, portBack, inet]

/-- The text of an address makes an equal address just for the IPv4 addresses. A port behind an IPv6
address is read as its last group. -/
theorem roundTrips_iff (inetNtop6 : In6Addr → Text) (canonical : Canonical inetNtop6)
    (address : CInetAddr) (built : address.Built) :
    RoundTrips inetNtop6 address ↔ address.family = AF_INET := by
  rcases built with ⟨addr, port, rfl⟩ | ⟨addr, port, rfl⟩
  · exact iff_of_true (inet_roundTrips inetNtop6 addr port) (family_inet addr port)
  · refine iff_of_false (inet6_not_roundTrips canonical addr port) ?_
    rw [family_inet6]
    decide

/-- All eight groups of an address, as they are printed when no run of zero groups is long
enough to be left out. -/
def uncompressed (addr : In6Addr) : Text := hexText (groupsOf addr)

/-- Printing all groups is a canonical way of printing, so that the results about such printing are
about something. -/
theorem canonical_uncompressed : Canonical uncompressed := by
  have groups : ∀ addr : In6Addr, (groupsOf addr).length = 8 ∧ ∀ group ∈ groupsOf addr, group < 65536 := by
    intro addr
    have even : addr.bytes.length = 2 * 8 := addr.size
    exact (groupBytes_pairs even).2
  have pieces : ∀ addr : In6Addr, Pieces ((groupsOf addr).map (numeral 16)) (groupsOf addr) :=
    fun addr => pieces_numerals (groups addr).2
  constructor
  · exact fun addr => inetPton6_iff.mpr (.full (pieces addr) (groups addr).1)
  · intro addr before behind text
    have apart : splitCompact (uncompressed addr) = none :=
      splitCompact_infix [':'] [] (by simpa [uncompressed, hexText] using splitCompact_join_behind (pieces addr).isPiece)
    rw [text] at apart
    exact absurd apart (splitCompact_ne_none before behind)

/-- The addresses 1:2:3:4:5:6:7:8 and 17.18.19.20, on the two sides of the equivalence. -/
theorem roundTrips_iff_sample :
    RoundTrips uncompressed (inet ⟨17, 18, 19, 20⟩ 134) ∧
      ¬ RoundTrips uncompressed (inet6 ⟨[0, 1, 0, 2, 0, 3, 0, 4, 0, 5, 0, 6, 0, 7, 0, 8], rfl⟩ 134) := by
  constructor
  · exact (roundTrips_iff uncompressed canonical_uncompressed _ (.inl ⟨_, _, rfl⟩)).mpr rfl
  · intro returns
    have isInet := (roundTrips_iff uncompressed canonical_uncompressed _ (.inr ⟨_, _, rfl⟩)).mp returns
    exact absurd isInet (by decide +kernel)

/-- The text `::1:80` of `::1` with port 80 is read as the address `::1:80` with port 0, since
nothing tells the port from a group. -/
theorem loopback6_not_back :
    inetPton6 [':', ':', '1'] = some loopback6 ∧
      (inet6 loopback6 80).toString (fun _ => [':', ':', '1']) = [':', ':', '1', ':', '8', '0'] ∧
      new.makeAddr [':', ':', '1', ':', '8', '0'] =
        some (0, inet6 ⟨List.replicate 12 0 ++ [0, 1, 0, 128], rfl⟩ 0) ∧
      ¬ RoundTrips (fun _ => [':', ':', '1']) (inet6 loopback6 80) := by
  have text : (inet6 loopback6 80).toString (fun _ => [':', ':', '1']) = [':', ':', '1', ':', '8', '0'] := by
    decide +kernel
  have read : new.makeAddr [':', ':', '1', ':', '8', '0'] =
      some (0, inet6 ⟨List.replicate 12 0 ++ [0, 1, 0, 128], rfl⟩ 0) := by
    decide +kernel
  refine ⟨by decide +kernel, text, read, ?_⟩
  rintro ⟨made, returned, equal⟩
  rw [text, read] at returned
  cases returned
  exact absurd equal (by decide +kernel)

end CInetAddr

end OpenTaker
