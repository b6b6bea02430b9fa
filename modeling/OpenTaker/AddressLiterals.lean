import OpenTaker.InetAddrText

/-!
# Texts that are no address

`makeAddr` is to refuse a text that is neither an IPv6 address nor an IPv4 address with or
without a port. It does not: when `inet_pton` fails, it leaves the object alone and returns 0
as well, and whatever stands behind the last colon of an IPv4 text is a port to `atoi`. A
text of colons only has no first piece to look at.
-/

namespace OpenTaker

open ByteReads AddressText

/-- What a valid text names: an address of one of the two families, with the port that an IPv4 text
may have behind a colon. -/
inductive NamedAddr where
  | v6 (addr : In6Addr)
  | v4 (addr : InAddr) (port : Option Nat)

/-- The valid texts: an IPv6 address, or an IPv4 address with or without a decimal port. -/
inductive Names : Text → NamedAddr → Prop where
  | v6 {text : Text} {addr : In6Addr} (literal : inetPton6 text = some addr) : Names text (.v6 addr)
  | v4 {text : Text} {addr : InAddr} (literal : inetPton4 text = some addr) : Names text (.v4 addr none)
  | v4Port {host digits : Text} {addr : InAddr} {port : Nat} (literal : inetPton4 host = some addr)
      (notEmpty : digits ≠ []) (decimal : readNumber 10 digits = some port) (small : port < 65536) :
      Names (host ++ ':' :: digits) (.v4 addr (some port))

namespace CInetAddr

/-- The object holds the address, and the port if there is one. -/
def Holds (address : CInetAddr) : NamedAddr → Prop
  | .v6 addr => address.family = AF_INET6 ∧ address.sin6Addr = addr
  | .v4 addr port =>
      address.family = AF_INET ∧ address.sinAddr = addr ∧ ∀ number, port = some number → address.port = number

/-- `CInetAddr(const char*)`, which throws when `makeAddr` returns anything but zero. -/
def ofString (text : Text) : Option (Except String CInetAddr) :=
  (new.makeAddr text).map fun (code, made) => if 0 ≠ code then .error "Fail" else .ok made

/-- Valid texts are stored, and all others are refused. -/
structure MakesChecked (address : CInetAddr) (text : Text) : Prop where
  stores : ∀ named, Names text named → ∃ made, address.makeAddr text = some (0, made) ∧ made.Holds named
  refuses : (∀ named, ¬ Names text named) → ∃ code, address.makeAddr text = some (code, address) ∧ code ≠ 0
  constructs : ∀ named, Names text named → ∃ made, ofString text = some (.ok made) ∧ made.Holds named
  throws : (∀ named, ¬ Names text named) → ofString text = some (.error "Fail")

/-! ## Fields -/

/-- A byte after a store: inside of the part that was stored it is a byte of that part, and
elsewhere the byte from before. -/
theorem store_getElem? (address : CInetAddr) (offset : Nat) (part : List UInt8)
    (fits : offset + part.length ≤ sizeofSockaddrStorage) (i : Nat) :
    (address.store offset part fits).storage[i]? =
      if offset ≤ i ∧ i < offset + part.length then part[i - offset]? else address.storage[i]? := by
  have size := address.size
  have start : min offset address.storage.length = offset := by omega
  simp only [store, List.getElem?_append, List.length_append, List.length_take, List.getElem?_take,
    List.getElem?_drop, start]
  by_cases before : i < offset
  · have inside : i < offset + part.length := by omega
    simp only [before, inside, Nat.not_le_of_lt before, if_true, false_and, if_false]
  · by_cases there : i < offset + part.length
    · simp only [before, there, Nat.le_of_not_lt before, if_true, if_false, and_self]
    · have same : offset + part.length + (i - (offset + part.length)) = i := by omega
      simp only [there, and_false, if_false, same]

/-- A byte of the storage after the family has been written. The four writes of an address come with
one such lemma each, from which their fields are read. -/
theorem setFamily_getElem? (address : CInetAddr) (value : UInt8) (i : Nat) :
    (address.setFamily value).storage[i]? = if 0 ≤ i ∧ i < 0 + 2 then [value, 0][i - 0]? else address.storage[i]? :=
  store_getElem? ..

/-- A byte of the storage after the port has been written: its own two bytes, and the others as
before. -/
theorem setPort_getElem? (address : CInetAddr) (port : UInt16) (i : Nat) :
    (address.setPort port).storage[i]? = if 2 ≤ i ∧ i < 2 + 2 then (be16 port)[i - 2]? else address.storage[i]? :=
  store_getElem? ..

/-- A byte of the storage after an IPv4 address has been written, at offset four. -/
theorem setSinAddr_getElem? (address : CInetAddr) (addr : InAddr) (i : Nat) :
    (address.setSinAddr addr).storage[i]? =
      if 4 ≤ i ∧ i < 4 + 4 then addr.bytes[i - 4]? else address.storage[i]? :=
  store_getElem? ..

/-- The bytes in front of an IPv6 address stay. The family and the port are among them. -/
theorem setSin6Addr_getElem? (address : CInetAddr) (addr : In6Addr) {i : Nat} (before : i < 8) :
    (address.setSin6Addr addr).storage[i]? = address.storage[i]? :=
  (store_getElem? ..).trans (if_neg (by omega))

/-- The fields after they are stored, and after others are. -/
theorem family_setSinAddr (address : CInetAddr) (addr : InAddr) :
    ((address.setFamily 2).setSinAddr addr).family = AF_INET := by
  simp [family, halfAt, byteAt, setSinAddr_getElem?, setFamily_getElem?, AF_INET]

/-- Writing an IPv6 address behind its family leaves the family. -/
theorem family_setSin6Addr (address : CInetAddr) (addr : In6Addr) :
    ((address.setFamily 10).setSin6Addr addr).family = AF_INET6 := by
  simp [family, halfAt, byteAt, setSin6Addr_getElem?, setFamily_getElem?, AF_INET6]

/-- Writing the port leaves the family, in whichever order the source does the two. -/
theorem family_setPort (address : CInetAddr) (port : UInt16) : (address.setPort port).family = address.family := by
  simp [family, halfAt, byteAt, setPort_getElem?]

/-- The IPv4 address that was written is the one that is read. -/
theorem sinAddr_setSinAddr (address : CInetAddr) (addr : InAddr) : (address.setSinAddr addr).sinAddr = addr := by
  simp [sinAddr, setSinAddr_getElem?, InAddr.bytes]

/-- Writing the port leaves the IPv4 address, which stands behind it. -/
theorem sinAddr_setPort (address : CInetAddr) (port : UInt16) :
    (address.setPort port).sinAddr = address.sinAddr := by
  simp [sinAddr, setPort_getElem?]

/-- The port that was written is the one that is read, in the order of the network. -/
theorem sinPort_setPort (address : CInetAddr) (port : UInt16) :
    (address.setPort port).sinPort = halfAt (be16 port) 0 := by
  simp [sinPort, halfAt, byteAt, setPort_getElem?]

/-- The IPv6 address that was written is the one that is read, all sixteen bytes of it. -/
theorem sin6Addr_setSin6Addr (address : CInetAddr) (addr : In6Addr) :
    (address.setSin6Addr addr).sin6Addr = addr := by
  have size := address.size
  have bytes : (address.setSin6Addr addr).sin6Addr.bytes = addr.bytes := by
    simp only [sin6Addr, setSin6Addr, store, List.append_assoc]
    rw [List.drop_left' (by rw [List.length_take, size]; rfl)]
    exact List.take_left' addr.size
  cases addr
  exact In6Addr.mk.injEq .. |>.mpr bytes

/-! ## Valid texts -/

variable {address : CInetAddr} {text : Text}

/-- Pieces with single colons between them have no pair of colons, so that nothing is compressed in
their text. -/
theorem splitCompact_pieces {pieces : List Text} (arePieces : ∀ piece ∈ pieces, IsPiece piece) :
    splitCompact (join ':' pieces) = none :=
  splitCompact_infix [] [':'] (splitCompact_join_before arePieces)

/-- An IPv4 address in decimal has a character and no colon; a port behind it is cut off at the only
colon there is. -/
theorem isPiece_of_literal {addr : InAddr} (literal : inetPton4 text = some addr) : IsPiece text := by
  rw [inetPton4] at literal
  split at literal
  · rename_i parsed
    exact (isPiece_of_dotted parsed).1
  · cases literal

/-- A text that is not empty and is read as a decimal port is a piece without a separator, as every
digit differs from a colon. -/
theorem isPiece_of_decimal {port : Nat} (notEmpty : text ≠ []) (decimal : readNumber 10 text = some port) :
    IsPiece text := by
  refine ⟨notEmpty, fun colon => ?_⟩
  obtain ⟨values, valuesRead, -⟩ := Option.map_eq_some_iff.mp decimal
  obtain ⟨digit, isDigit⟩ := related_of_mem (mapM_eq_some.mp valuesRead) (List.mem_reverse.mpr colon)
  cases isDigit

/-- Pieces of which there are at most two are taken for an IPv4 address. -/
theorem makeAddr_pieces (address : CInetAddr) {host : Text} {rest : List Text} {addr : InAddr} (short : rest.length ≤ 1)
    (arePieces : ∀ piece ∈ host :: rest, IsPiece piece) (literal : inetPton4 host = some addr) :
    address.makeAddr (join ':' (host :: rest)) =
      some (0, rest.head?.elim ((address.setFamily 2).setSinAddr addr)
        fun port => ((address.setFamily 2).setSinAddr addr).setPort (UInt16.ofInt (atoi port))) := by
  have apart := splitCompact_pieces arePieces
  have split := strSplit_join (List.cons_ne_nil host rest) arePieces
  have few : ¬ (host :: rest).length > 2 := by
    rw [List.length_cons]
    omega
  simp only [makeAddr, split, apart, Option.isSome_none, Bool.false_eq_true, few, or_self, if_false, literal]
  rcases rest with _ | ⟨port, _ | ⟨other, others⟩⟩
  · rfl
  · rfl
  · simp only [List.length_cons] at short
    omega

/-- The texts of IPv6 addresses are taken for such. -/
theorem makeAddr_v6 {addr : In6Addr} (literal : inetPton6 text = some addr) :
    address.makeAddr text = some (0, (address.setFamily 10).setSin6Addr addr) := by
  have isV6 : (splitCompact text).isSome ∨ (strSplit text [':']).length > 2 := by
    have denotes := inetPton6_iff.mp literal
    generalize groupsOf addr = groups at denotes
    cases denotes with
    | @full pieces _ found eight =>
      have several := found.length_le
      have notEmpty : pieces ≠ [] := by
        rintro rfl
        simp only [List.length_nil] at several
        omega
      right
      rw [strSplit_join notEmpty found.isPiece]
      omega
    | compact => exact .inl (Option.isSome_iff_ne_none.mpr (splitCompact_ne_none _ _))
  simp only [makeAddr, isV6, if_true, literal]

/-- A valid text is stored: `makeAddr` returns zero, and the object holds the address and the port
that the text names. -/
theorem makeAddr_named (address : CInetAddr) {named : NamedAddr} (names : Names text named) :
    ∃ made, address.makeAddr text = some (0, made) ∧ made.Holds named := by
  cases names with
  | v6 literal =>
    exact ⟨_, makeAddr_v6 literal, family_setSin6Addr .., sin6Addr_setSin6Addr ..⟩
  | @v4 text addr literal =>
    have isPiece : ∀ piece ∈ [text], IsPiece piece := by simpa using isPiece_of_literal literal
    have makes := makeAddr_pieces address (Nat.zero_le _) isPiece literal
    rw [join_singleton] at makes
    refine ⟨_, makes, family_setSinAddr .., sinAddr_setSinAddr .., ?_⟩
    intro number impossible
    cases impossible
  | @v4Port host digits addr port literal notEmpty decimal small =>
    have arePieces : ∀ piece ∈ [host, digits], IsPiece piece := by
      simpa using ⟨isPiece_of_literal literal, isPiece_of_decimal notEmpty decimal⟩
    have makes := makeAddr_pieces address (le_refl _) arePieces literal
    rw [join_cons_cons, join_singleton, List.head?_cons, Option.elim_some] at makes
    refine ⟨_, makes, ?_, ?_, ?_⟩
    · rw [family_setPort, family_setSinAddr]
    · rw [sinAddr_setPort, sinAddr_setSinAddr]
    · rintro number ⟨⟩
      rw [CInetAddr.port, if_pos (by rw [family_setPort, family_setSinAddr]), sinPort_setPort, ntohs_be16,
        atoi_digits notEmpty decimal]
      simp [UInt16.ofInt]
      omega

/-! ## All texts -/

/-- Whatever the text is, the code is 0, if one is returned. -/
theorem makeAddr_code {code : Int} {made : CInetAddr} (returned : address.makeAddr text = some (code, made)) :
    code = 0 := by
  simp only [makeAddr] at returned
  split at returned
  · split at returned <;> cases returned <;> rfl
  · split at returned
    · cases returned
    · split at returned
      · split at returned <;> cases returned <;> rfl
      · cases returned
        rfl

/-- Only the valid texts are treated as they should be: they are stored, and every other one is
accepted with a code of zero as well. -/
theorem makesChecked_iff (address : CInetAddr) (text : Text) :
    MakesChecked address text ↔ ∃ named, Names text named := by
  constructor
  · intro checked
    by_contra invalid
    obtain ⟨code, returned, notZero⟩ := checked.refuses (not_exists.mp invalid)
    exact notZero (makeAddr_code returned)
  · rintro ⟨named, names⟩
    refine ⟨fun _ => makeAddr_named address, fun invalid => absurd names (invalid named), fun other otherNames => ?_,
      fun invalid => absurd names (invalid named)⟩
    obtain ⟨made, makes, holds⟩ := makeAddr_named new otherNames
    exact ⟨made, by rw [ofString, makes]; rfl, holds⟩

/-- The text of the failing input names no address of either family, with a port or without one. -/
theorem abc_invalid (named : NamedAddr) : ¬ Names ['a', 'b', 'c'] named := by
  intro names
  have no6 : inetPton6 ['a', 'b', 'c'] = none := by decide +kernel
  have no4 : inetPton4 ['a', 'b', 'c'] = none := by decide +kernel
  generalize same : ['a', 'b', 'c'] = text at names no6 no4
  cases names with
  | v6 literal => cases no6.symm.trans literal
  | v4 literal => cases no4.symm.trans literal
  | v4Port =>
    have colon : ':' ∈ ['a', 'b', 'c'] := by
      rw [same]
      simp
    exact absurd colon (by decide)

/-- The text `abc` is no address: 0 is returned for it, and the constructor does not throw. For
the empty text nothing is returned. -/
theorem abc_accepted :
    new.makeAddr ['a', 'b', 'c'] = some (0, new) ∧ ofString ['a', 'b', 'c'] = some (.ok new) ∧
      ¬ MakesChecked new ['a', 'b', 'c'] ∧ new.makeAddr [] = none := by
  have returned : new.makeAddr ['a', 'b', 'c'] = some (0, new) := by decide +kernel
  refine ⟨returned, by rw [ofString, returned]; rfl, fun checked => ?_, by decide +kernel⟩
  obtain ⟨code, found, notZero⟩ := checked.refuses abc_invalid
  exact notZero (makeAddr_code found)

end CInetAddr

end OpenTaker
