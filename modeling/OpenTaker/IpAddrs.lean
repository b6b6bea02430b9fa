import OpenTaker.NetUtil

/-!
# Addresses of both families

`GetIpAddr` stores an IPv6 address as it is, and an IPv4 address as a number of the host in
the first word of the same sixteen bytes. Nothing else tells the families apart. So every
IPv4 address is stored as one IPv6 address is, too: its bytes in reverse order before twelve
zeros. `Addr2Str` knows IPv4 addresses only in their mapped form, which this is not.
-/

namespace OpenTaker

open AddressText

/-- An address of either family, as a text may denote it. -/
inductive IpAddress where
  | v4 (addr : InAddr)
  | v6 (addr : In6Addr)
deriving DecidableEq

/-- The address that a text denotes, if it is valid. -/
def denoted (text : Text) : Option IpAddress :=
  if ':' ∈ text then (inetPton6 text).map .v6 else (inetPton4 text).map .v4

/-- The IPv4-mapped IPv6 address, in the form that the network knows, which is not what the source
stores. -/
def InAddr.mapped (addr : InAddr) : In6Addr := ⟨IP4_MAP_PRE ++ addr.bytes, rfl⟩

/-- The bytes of an IPv4 address in the order of the machine, filled up with zeros, are as many as
those of an IPv6 address. -/
theorem hostBytes_length (addr : InAddr) :
    ([addr.b4, addr.b3, addr.b2, addr.b1] ++ List.replicate 12 0).length = 16 := rfl

/-- The same bytes in reverse order, before zeros: the value that the source stores for an IPv4
address. -/
def InAddr.hostOrder (addr : InAddr) : In6Addr :=
  ⟨[addr.b4, addr.b3, addr.b2, addr.b1] ++ List.replicate 12 0, hostBytes_length addr⟩

/-- Two addresses of which one is an IPv4 address and the other is an IPv6 address made of it. -/
def PairedBy (form : InAddr → In6Addr) (first second : IpAddress) : Prop :=
  ∃ addr, first = .v4 addr ∧ second = .v6 (form addr) ∨ first = .v6 (form addr) ∧ second = .v4 addr

/-- An IPv4 address is the same as its mapped form. -/
def SameAddress (first second : IpAddress) : Prop := first = second ∨ PairedBy InAddr.mapped first second

/-- What is stored for the text is printed as a text of the same address. -/
def PrintsBack (text : Text) : Prop :=
  ∃ printed again address, addr2Str (getIpAddr text) = some printed ∧ denoted printed = some again ∧
    denoted text = some address ∧ SameAddress again address

/-- The address is one of IPv4, the family of which the claim speaks. -/
def IpAddress.IsV4 (address : IpAddress) : Prop := ∃ addr, address = .v4 addr

/-- The two texts are told apart, and an IPv4 text is printed back. -/
structure FamiliesApart (first second : Text) (address other : IpAddress) : Prop where
  separate : getIpAddr first = getIpAddr second → SameAddress address other
  firstBack : address.IsV4 → PrintsBack first
  secondBack : other.IsV4 → PrintsBack second

/-! ## What is stored -/

/-- The sixteen bytes of an address as the source stores them: those of IPv4 come first and the
other way round. -/
def IpAddress.stored : IpAddress → NetIn6Addr
  | .v4 addr => addr.hostOrder
  | .v6 addr => addr

variable {text first second : Text} {address other : IpAddress}

/-- A text that denotes an address is stored as the source stores it. -/
theorem getIpAddr_denoted (valid : denoted text = some address) : getIpAddr text = address.stored := by
  rw [denoted] at valid
  rw [getIpAddr]
  split_ifs at valid ⊢ with colon
  · obtain ⟨addr, read, rfl⟩ := Option.map_eq_some_iff.mp valid
    rw [read, IpAddress.stored]
  · obtain ⟨addr, read, rfl⟩ := Option.map_eq_some_iff.mp valid
    rw [read, IpAddress.stored, InAddr.hostOrder]

/-- In the order of the machine, too, different addresses are different numbers. -/
theorem hostOrder_inj {addr otherAddr : InAddr} (same : addr.hostOrder = otherAddr.hostOrder) :
    addr = otherAddr := by
  have bytes := congrArg In6Addr.bytes same
  simp only [InAddr.hostOrder, List.append_cancel_right_eq, List.cons.injEq, and_true] at bytes
  cases addr
  cases otherAddr
  simp_all

/-- No mapped address is stored for an IPv4 address. -/
theorem hostOrder_ne_mapped (addr otherAddr : InAddr) : addr.hostOrder ≠ otherAddr.mapped := by
  intro same
  have tenth := congrArg (fun addr => addr.bytes[10]?) same
  cases tenth

/-- Two addresses are stored alike when they are equal, or one is the other in host order. -/
theorem stored_eq_iff :
    address.stored = other.stored ↔ address = other ∨ PairedBy InAddr.hostOrder address other := by
  constructor
  · intro same
    cases address with
    | v4 addr =>
      cases other with
      | v4 otherAddr => exact .inl (congrArg _ (hostOrder_inj same))
      | v6 otherAddr => exact .inr ⟨addr, .inl ⟨rfl, congrArg _ same.symm⟩⟩
    | v6 addr =>
      cases other with
      | v4 otherAddr => exact .inr ⟨otherAddr, .inr ⟨congrArg _ same, rfl⟩⟩
      | v6 otherAddr => exact .inl (congrArg _ same)
  · rintro (rfl | ⟨addr, ⟨rfl, rfl⟩ | ⟨rfl, rfl⟩⟩) <;> rfl

/-- Such a pair is not the same address, since the address in host order is not the mapped one. -/
theorem not_same_of_paired (paired : PairedBy InAddr.hostOrder address other) :
    ¬ SameAddress address other := by
  obtain ⟨addr, ⟨rfl, rfl⟩ | ⟨rfl, rfl⟩⟩ := paired
  · rintro (same | ⟨otherAddr, ⟨_, same⟩ | ⟨same, _⟩⟩)
    · cases same
    · exact hostOrder_ne_mapped _ _ (IpAddress.v6.inj same)
    · cases same
  · rintro (same | ⟨otherAddr, ⟨same, _⟩ | ⟨same, _⟩⟩)
    · cases same
    · cases same
    · exact hostOrder_ne_mapped _ _ (IpAddress.v6.inj same)

/-- Two texts are told apart unless one is the other in host order. -/
theorem separate_iff (firstValid : denoted first = some address) (secondValid : denoted second = some other) :
    (getIpAddr first = getIpAddr second → SameAddress address other) ↔
      ¬ PairedBy InAddr.hostOrder address other := by
  rw [getIpAddr_denoted firstValid, getIpAddr_denoted secondValid, stored_eq_iff]
  constructor
  · exact fun separate paired => not_same_of_paired paired (separate (.inr paired))
  · rintro apart (equal | paired)
    · exact .inl equal
    · exact absurd paired apart

/-- No IPv4 text is printed back, because the stored bytes are not those of a mapped address. -/
theorem not_printsBack {addr : InAddr} (valid : denoted text = some (.v4 addr)) : ¬ PrintsBack text := by
  rintro ⟨printed, again, found, prints, readsBack, denotes, same⟩
  obtain ⟨shown, isShown, -, shownDenotes⟩ := addr2Str_denotes (getIpAddr text)
  cases isShown.symm.trans prints
  have read := inetPton6_of_denotes shownDenotes
  rw [denoted, if_pos shownDenotes.colon_mem, read] at readsBack
  cases valid.symm.trans denotes
  cases readsBack
  rw [getIpAddr_denoted valid] at same
  exact not_same_of_paired ⟨addr, .inr ⟨rfl, rfl⟩⟩ same

/-- The families are told apart just when both texts are IPv6 texts; two texts by themselves
are stored alike and are not the same just when one is an IPv4 text, and the other the IPv6
text of its bytes in host order. -/
theorem familiesApart_iff (first second : Text) (address other : IpAddress)
    (firstValid : denoted first = some address) (secondValid : denoted second = some other) :
    (FamiliesApart first second address other ↔ ¬ address.IsV4 ∧ ¬ other.IsV4) ∧
      ((getIpAddr first = getIpAddr second → SameAddress address other) ↔
        ¬ PairedBy InAddr.hostOrder address other) := by
  refine ⟨⟨fun apart => ⟨?_, ?_⟩, fun neither => ?_⟩, separate_iff firstValid secondValid⟩
  · rintro ⟨addr, rfl⟩
    exact not_printsBack firstValid (apart.firstBack ⟨addr, rfl⟩)
  · rintro ⟨addr, rfl⟩
    exact not_printsBack secondValid (apart.secondBack ⟨addr, rfl⟩)
  · refine ⟨(separate_iff firstValid secondValid).mpr ?_, fun isV4 => absurd isV4 neither.1,
      fun isV4 => absurd isV4 neither.2⟩
    rintro ⟨addr, ⟨rfl, -⟩ | ⟨-, rfl⟩⟩
    · exact neither.1 ⟨addr, rfl⟩
    · exact neither.2 ⟨addr, rfl⟩

/-- The texts `::1` and `0.0.0.1`, which are stored as the same bytes. -/
theorem familiesApart_iff_one :
    (FamiliesApart [':', ':', '1'] ['0', '.', '0', '.', '0', '.', '1']
        (.v6 CInetAddr.loopback6) (.v4 ⟨0, 0, 0, 1⟩) ↔
      ¬ IpAddress.IsV4 (.v6 CInetAddr.loopback6) ∧ ¬ IpAddress.IsV4 (.v4 ⟨0, 0, 0, 1⟩)) ∧
    ((getIpAddr [':', ':', '1'] = getIpAddr ['0', '.', '0', '.', '0', '.', '1'] →
        SameAddress (.v6 CInetAddr.loopback6) (.v4 ⟨0, 0, 0, 1⟩)) ↔
      ¬ PairedBy InAddr.hostOrder (.v6 CInetAddr.loopback6) (.v4 ⟨0, 0, 0, 1⟩)) :=
  familiesApart_iff _ _ _ _ (by decide +kernel) (by decide +kernel)

/-- The texts `0.0.0.1` and `100::` are stored alike, and what is stored is printed as the latter:
the bytes of IPv4 are put in front, in the order of the machine. -/
theorem families_confused :
    denoted ['0', '.', '0', '.', '0', '.', '1'] = some (.v4 ⟨0, 0, 0, 1⟩) ∧
      denoted ['1', '0', '0', ':', ':'] = some (.v6 ⟨1 :: List.replicate 15 0, rfl⟩) ∧
      getIpAddr ['0', '.', '0', '.', '0', '.', '1'] = getIpAddr ['1', '0', '0', ':', ':'] ∧
      ¬ SameAddress (.v4 ⟨0, 0, 0, 1⟩) (.v6 ⟨1 :: List.replicate 15 0, rfl⟩) ∧
      addr2Str (getIpAddr ['0', '.', '0', '.', '0', '.', '1']) = some ['1', '0', '0', ':', ':', '0'] ∧
      ¬ PrintsBack ['0', '.', '0', '.', '0', '.', '1'] := by
  have valid : denoted ['0', '.', '0', '.', '0', '.', '1'] = some (.v4 ⟨0, 0, 0, 1⟩) := by decide +kernel
  refine ⟨valid, by decide +kernel, by decide +kernel, ?_, by decide +kernel, not_printsBack valid⟩
  exact not_same_of_paired ⟨⟨0, 0, 0, 1⟩, .inl ⟨rfl, rfl⟩⟩

end OpenTaker
