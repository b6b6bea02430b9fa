import OpenTaker.ByteReads
import OpenTaker.CStrings
import Mathlib.Data.Prod.Lex

/-!
# Internet addresses as keys

A `CInetAddr` is a `sockaddr_storage` that begins with a `sockaddr_in` or a `sockaddr_in6`.
Two of them are equal when all bytes are. They are ordered by family, address and port, but
the address of the second family is compared by `strcmp`, which ends at the first zero byte
of both.

So the order is that of a key which is smaller than the address, and two addresses are
incomparable without being equal where the keys agree: below the same family and port, they
differ only behind a zero byte.
-/

namespace OpenTaker

open ByteReads CStrings

/-- `sizeof(sockaddr_storage)`. The comparisons of the source run over all of its bytes, those that
no family uses too. -/
def sizeofSockaddrStorage : Nat := 128

/-- `AF_INET`, with the value it has on Linux, which orders it in front of `AF_INET6`. -/
def AF_INET : Nat := 2

/-- `AF_INET6`, with the value it has on Linux, behind that of `AF_INET`. -/
def AF_INET6 : Nat := 10

/-- `in_addr`: the bytes of an IPv4 address in network order. -/
structure InAddr where
  b1 : UInt8
  b2 : UInt8
  b3 : UInt8
  b4 : UInt8
deriving DecidableEq, Repr

namespace InAddr

/-- The four bytes of an address, in the order of the network, as they stand in the storage. -/
def bytes (addr : InAddr) : List UInt8 := [addr.b1, addr.b2, addr.b3, addr.b4]

/-- `htonl` of a value, stored as `s_addr`: the bytes of the value from the highest to the lowest. -/
def ofHost (value : UInt32) : InAddr where
  b1 := UInt8.ofNat (value.toNat / 16777216)
  b2 := UInt8.ofNat (value.toNat / 65536)
  b3 := UInt8.ofNat (value.toNat / 256)
  b4 := UInt8.ofNat value.toNat

end InAddr

/-- `in6_addr`: the bytes of an IPv6 address in network order. -/
structure In6Addr where
  bytes : List UInt8
  size : bytes.length = 16
deriving DecidableEq

/-- The storage of a `CInetAddr`: all 128 bytes, as the comparisons go over every one of them. -/
structure CInetAddr where
  storage : List UInt8
  size : storage.length = sizeofSockaddrStorage
deriving DecidableEq

namespace CInetAddr

/-- Store bytes at an offset; the bytes around them stay. -/
def store (address : CInetAddr) (offset : Nat) (part : List UInt8)
    (fits : offset + part.length ≤ sizeofSockaddrStorage) : CInetAddr where
  storage := address.storage.take offset ++ part ++ address.storage.drop (offset + part.length)
  size := by
    have size := address.size
    simp
    omega

/-- `ss_family`, `sin_family` and `sin6_family`, which are the same two bytes. -/
def family (address : CInetAddr) : Nat := halfAt address.storage 0

/-- The port field of both families, as the machine reads it. -/
def sinPort (address : CInetAddr) : Nat := halfAt address.storage 2

/-- `sin_addr.s_addr`, as the machine reads it: the bytes of the network with the first one at the
low end. -/
def sAddr (address : CInetAddr) : Nat := wordAt address.storage 4

/-- The storage from `sin6_addr.s6_addr` on, which a string comparison reads up to its first zero. -/
def fromS6Addr (address : CInetAddr) : List UInt8 := address.storage.drop 8

/-- The family is a value of 16 bits in the first two bytes, which a little-endian machine writes
with the low byte first. -/
def setFamily (address : CInetAddr) (value : UInt8) : CInetAddr :=
  address.store 0 [value, 0] (by simp [sizeofSockaddrStorage])

/-- Store a port, given in host order, in network order. -/
def setPort (address : CInetAddr) (port : UInt16) : CInetAddr :=
  address.store 2 (be16 port) (by simp [sizeofSockaddrStorage])

/-- `sin_addr` of an IPv4 address stands behind the port, at offset four. -/
def setSinAddr (address : CInetAddr) (addr : InAddr) : CInetAddr :=
  address.store 4 addr.bytes (by simp [InAddr.bytes, sizeofSockaddrStorage])

/-- `sin6_addr` stands behind the port and the flow information, at offset eight. -/
def setSin6Addr (address : CInetAddr) (addr : In6Addr) : CInetAddr :=
  address.store 8 addr.bytes (by simp [addr.size, sizeofSockaddrStorage])

/-- `CInetAddr()`: all bytes zero, so that it has no family. -/
def new : CInetAddr := ⟨List.replicate sizeofSockaddrStorage 0, List.length_replicate⟩

/-- `CInetAddr(const in_addr&)`: an IPv4 address with port zero, over storage that has been cleared. -/
def ofInAddr (addr : InAddr) : CInetAddr := ((new.setFamily 2).setSinAddr addr).setPort 0

/-- `CInetAddr(u_int32)`: an IPv4 address from a number in the order of the machine. -/
def ofUInt32 (addr : UInt32) : CInetAddr := ((new.setFamily 2).setSinAddr (.ofHost addr)).setPort 0

/-- `port()`: the port in the order of the machine, which both families have at the same place. -/
def port (address : CInetAddr) : Int :=
  if address.family = AF_INET then ntohs address.sinPort
  else if address.family = AF_INET6 then ntohs address.sinPort
  else -1

/-- `operator==`: `memcmp` of the whole objects, so that bytes count which the family does not use. -/
def eq (first second : CInetAddr) : Bool := first.storage = second.storage

/-- `operator<`: by family, by address, and by port. The addresses of IPv6 are compared as C
strings. -/
def lt (first second : CInetAddr) : Bool :=
  if first.eq second then false
  else if first.family > second.family then false
  else if first.family < second.family then true
  else if first.family = AF_INET then
    first.sAddr < second.sAddr ∨ first.sAddr = second.sAddr ∧ first.port < second.port
  else
    strcmp first.fromS6Addr second.fromS6Addr < 0 ∨
      strcmp first.fromS6Addr second.fromS6Addr = 0 ∧ first.port < second.port

/-! ## The addresses that are built -/

/-- An IPv4 address with a port, over storage of zeros, as the constructors and `makeAddr` build it. -/
def inet (addr : InAddr) (port : UInt16) : CInetAddr := ((new.setFamily 2).setSinAddr addr).setPort port

/-- An IPv6 address with a port, over storage of zeros, as the constructors and `makeAddr` build it. -/
def inet6 (addr : In6Addr) (port : UInt16) : CInetAddr :=
  ((new.setFamily 10).setSin6Addr addr).setPort port

/-- An IPv4 or IPv6 address with any bytes and any port. -/
def Built (address : CInetAddr) : Prop :=
  (∃ addr port, address = inet addr port) ∨ ∃ addr port, address = inet6 addr port

/-- An address made of four bytes is one that a constructor has built: all bytes behind them are
zero. -/
theorem built_ofInAddr (addr : InAddr) : (ofInAddr addr).Built := .inl ⟨addr, 0, rfl⟩

/-- So is one made of a number, which goes the same way after the number has been cut into bytes. -/
theorem built_ofUInt32 (addr : UInt32) : (ofUInt32 addr).Built := .inl ⟨.ofHost addr, 0, rfl⟩

/-- All bytes of a built IPv4 address. Equality and order of two of them are decided on this list. -/
theorem inet_storage (addr : InAddr) (port : UInt16) :
    (inet addr port).storage = [2, 0] ++ be16 port ++ addr.bytes ++ List.replicate 120 0 := rfl

/-- All bytes of a built IPv6 address, with zeros for the flow information and for the scope. -/
theorem inet6_storage (addr : In6Addr) (port : UInt16) :
    (inet6 addr port).storage =
      [10, 0] ++ be16 port ++ List.replicate 4 0 ++ addr.bytes ++ List.replicate 104 0 := by
  have stored : ((new.setFamily 10).setSin6Addr addr).storage =
      [10, 0, 0, 0, 0, 0, 0, 0] ++ addr.bytes ++ List.replicate 104 0 := by
    simp only [setSin6Addr, store, addr.size]
    rfl
  simp only [inet6, setPort, store, stored]
  rfl

section Fields

variable (addr : InAddr) (addr6 : In6Addr) (port : UInt16)

/-- The family of an IPv4 address reads back as it was written. -/
@[simp] theorem family_inet : (inet addr port).family = AF_INET := rfl

/-- The family of an IPv6 address reads back as well. -/
@[simp] theorem family_inet6 : (inet6 addr6 port).family = AF_INET6 := by
  rw [family, inet6_storage]
  rfl

/-- A port is read as it was stored: the two changes of the byte order cancel each other. -/
theorem ntohs_be16 : ntohs (halfAt (be16 port) 0) = port.toNat := by
  have small : port.toNat < 65536 := port.toNat_lt
  have bytes : halfAt (be16 port) 0 = port.toNat % 256 * 256 + port.toNat / 256 % 256 := by
    simp [halfAt, byteAt, be16]
    omega
  rw [bytes, ntohs_bytes (Nat.mod_lt _ (by decide)) (Nat.mod_lt _ (by decide))]
  omega

/-- The port of an IPv4 address is read in the order of the network, as it was written. -/
@[simp] theorem port_inet : (inet addr port).port = port.toNat := by
  rw [CInetAddr.port, if_pos (family_inet addr port)]
  exact congrArg Nat.cast (ntohs_be16 port)

/-- The port of an IPv6 address stands at the same place as that of an IPv4 address. -/
@[simp] theorem port_inet6 : (inet6 addr6 port).port = port.toNat := by
  have field : (inet6 addr6 port).sinPort = halfAt (be16 port) 0 := by
    rw [sinPort, inet6_storage]
    rfl
  rw [CInetAddr.port, family_inet6, if_neg (by decide), if_pos rfl, field, ntohs_be16]

/-- The number that `operator<` compares: the bytes as a little-endian machine reads them, with the
first one at the low end. -/
theorem sAddr_inet : (inet addr port).sAddr =
    addr.b1.toNat + 256 * addr.b2.toNat + 65536 * (addr.b3.toNat + 256 * addr.b4.toNat) := rfl

/-- Comparing IPv6 addresses reads on behind the sixteen bytes, up to the end of the storage, which
is zero in a built address. -/
theorem fromS6Addr_inet6 :
    (inet6 addr6 port).fromS6Addr = addr6.bytes ++ List.replicate 104 0 := by
  rw [fromS6Addr, inet6_storage]
  rfl

/-- The value of `s_addr` has the four bytes, so that addresses with one value are the same address. -/
theorem inAddr_of_sAddr {first second : InAddr} {firstPort secondPort : UInt16}
    (same : (inet first firstPort).sAddr = (inet second secondPort).sAddr) : first = second := by
  rw [sAddr_inet, sAddr_inet] at same
  have bound : ∀ byte : UInt8, byte.toNat < 256 := fun byte => byte.toNat_lt
  have first1 := bound first.b1
  have first2 := bound first.b2
  have first3 := bound first.b3
  have second1 := bound second.b1
  have second2 := bound second.b2
  have second3 := bound second.b3
  have b1 : first.b1 = second.b1 := UInt8.toNat_inj.mp (by omega)
  have b2 : first.b2 = second.b2 := UInt8.toNat_inj.mp (by omega)
  have b3 : first.b3 = second.b3 := UInt8.toNat_inj.mp (by omega)
  have b4 : first.b4 = second.b4 := UInt8.toNat_inj.mp (by omega)
  cases first
  cases second
  simp_all

end Fields

/-! ## The order of the keys -/

/-- What the order depends on for the address of each family. -/
def addressKey (address : CInetAddr) : List Nat :=
  if address.family = AF_INET then [address.sAddr] else values address.fromS6Addr

/-- Family, address and port, in the lexicographic order, where of an IPv6 address only the bytes in
front of the first zero are looked at. -/
def key (address : CInetAddr) : ℕ ×ₗ (List ℕ ×ₗ ℤ) :=
  toLex (address.family, toLex (address.addressKey, address.port))

variable {first second third : CInetAddr}

/-- `operator==` compares all bytes, so that it is equality of the storages. -/
theorem eq_iff : first.eq second = true ↔ first = second := by
  cases first
  cases second
  simp [eq]

/-- `operator<` is the order of the keys, and so irreflexive and transitive as that is. -/
theorem lt_iff : first.lt second = true ↔ first.key < second.key := by
  by_cases same : first = second
  · subst same
    simp [lt, eq]
  · have different : ¬ first.eq second = true := mt eq_iff.mp same
    rw [lt, if_neg different, key, key, Prod.Lex.toLex_lt_toLex, Prod.Lex.toLex_lt_toLex]
    rcases Nat.lt_trichotomy first.family second.family with below | equal | above
    · simp [below, Nat.lt_asymm below]
    · have isInet : second.family = AF_INET ↔ first.family = AF_INET := by rw [equal]
      simp only [equal, gt_iff_lt, Nat.lt_irrefl, if_false, false_or, true_and, addressKey]
      by_cases inet : second.family = AF_INET
      · simp [inet, List.cons_lt_cons_iff]
      · have sign := strcmp_sign first.fromS6Addr second.fromS6Addr
        simp [inet, sign.1, sign.2]
    · simp [above, Nat.lt_asymm above, Nat.ne_of_gt above]

/-- Exactly one of the three comparisons holds, and the order is transitive. -/
def Lawful (first second third : CInetAddr) : Prop :=
  ((first.lt second = true ∧ second.lt first = false ∧ first.eq second = false) ∨
      (first.lt second = false ∧ second.lt first = true ∧ first.eq second = false) ∨
      (first.lt second = false ∧ second.lt first = false ∧ first.eq second = true)) ∧
    (first.lt second = true → second.lt third = true → first.lt third = true)

/-- The bytes of the IPv6 address, without those of the storage behind them. -/
def s6Addr (address : CInetAddr) : List UInt8 := address.fromS6Addr.take 16

/-- Two IPv6 addresses with the same port that agree up to a zero byte of both and differ
behind it. -/
def DifferBehindZero (first second : CInetAddr) : Prop :=
  first.family = AF_INET6 ∧ second.family = AF_INET6 ∧ first.port = second.port ∧
    first.s6Addr ≠ second.s6Addr ∧ cString first.s6Addr = cString second.s6Addr

/-- The two addresses are compared byte by byte, so that the condition can be evaluated on examples. -/
instance : Decidable (DifferBehindZero first second) := by
  unfold DifferBehindZero
  infer_instance

/-- The laws fail just where two addresses have the same key. -/
theorem lawful_iff_key :
    Lawful first second third ↔ (first.key = second.key → first = second) := by
  have ordered := lt_trichotomy first.key second.key
  simp only [Lawful, ← Bool.not_eq_true, lt_iff, eq_iff]
  constructor
  · rintro ⟨one, -⟩ same
    simpa [same] using one
  · intro separated
    refine ⟨?_, lt_trans⟩
    rcases ordered with below | equal | above
    · refine .inl ⟨below, lt_asymm below, ?_⟩
      rintro rfl
      exact lt_irrefl _ below
    · simp [separated equal]
    · refine .inr (.inl ⟨lt_asymm above, above, ?_⟩)
      rintro rfl
      exact lt_irrefl _ above

/-- The bytes of a built IPv6 address are those it was built from. -/
theorem s6Addr_inet6 (addr : In6Addr) (port : UInt16) : (inet6 addr port).s6Addr = addr.bytes := by
  rw [s6Addr, fromS6Addr_inet6, List.take_left' addr.size]

/-- The storage behind an IPv6 address that was built is zero, so that the comparison of strings
sees the bytes of the address alone. -/
theorem addressKey_inet6 (addr : In6Addr) (port : UInt16) :
    (inet6 addr port).addressKey = values addr.bytes := by
  rw [addressKey, family_inet6, if_neg (by decide), fromS6Addr_inet6]
  exact values_append_zero addr.bytes _

/-- The key of an IPv4 address by which it is ordered is one number. -/
theorem addressKey_inet (addr : InAddr) (port : UInt16) :
    (inet addr port).addressKey = [(inet addr port).sAddr] := by
  rw [addressKey, if_pos (family_inet addr port)]

/-- Two keys agree just if family, address and port do; this is what the order of the source can
tell apart. -/
theorem key_eq_iff : first.key = second.key ↔
    first.family = second.family ∧ first.addressKey = second.addressKey ∧ first.port = second.port := by
  simp [key, Prod.ext_iff]

/-- An IPv4 address is known by its key, since its four bytes are compared as a number and not as a
string. -/
theorem eq_of_key_inet {addr otherAddr : InAddr} {port otherPort : UInt16}
    (same : (inet addr port).key = (inet otherAddr otherPort).key) :
    inet addr port = inet otherAddr otherPort := by
  obtain ⟨-, sameAddress, samePort⟩ := key_eq_iff.mp same
  rw [addressKey_inet, addressKey_inet] at sameAddress
  rw [port_inet, port_inet] at samePort
  have addrs : addr = otherAddr := inAddr_of_sAddr (List.cons.inj sameAddress).1
  have ports : port = otherPort := UInt16.toNat_inj.mp (Int.ofNat.inj samePort)
  rw [addrs, ports]

/-- An IPv6 address is known by its key but for the bytes behind a zero byte. -/
theorem key_inet6_iff {addr otherAddr : In6Addr} {port otherPort : UInt16} :
    (inet6 addr port).key = (inet6 otherAddr otherPort).key ↔
      inet6 addr port = inet6 otherAddr otherPort ∨
        DifferBehindZero (inet6 addr port) (inet6 otherAddr otherPort) := by
  rw [key_eq_iff, addressKey_inet6, addressKey_inet6, values_inj, DifferBehindZero,
    s6Addr_inet6, s6Addr_inet6]
  simp only [family_inet6, true_and]
  constructor
  · rintro ⟨sameString, samePort⟩
    by_cases sameBytes : addr.bytes = otherAddr.bytes
    · left
      rw [port_inet6, port_inet6] at samePort
      have ports : port = otherPort := UInt16.toNat_inj.mp (Int.ofNat.inj samePort)
      have addrs : addr = otherAddr := by
        cases addr
        cases otherAddr
        simp_all
      rw [addrs, ports]
    · exact .inr ⟨samePort, sameBytes, sameString⟩
  · rintro (equal | ⟨samePort, -, sameString⟩)
    · have bytes := congrArg s6Addr equal
      rw [s6Addr_inet6, s6Addr_inet6] at bytes
      exact ⟨congrArg cString bytes, congrArg CInetAddr.port equal⟩
    · exact ⟨sameString, samePort⟩

/-- The addresses that are built obey the laws of a key just where they do not differ behind a zero
byte. Equality looks at all bytes and the order at C strings. -/
theorem lawful_iff (first second third : CInetAddr) (firstBuilt : first.Built)
    (secondBuilt : second.Built) :
    Lawful first second third ↔ ¬ DifferBehindZero first second := by
  rw [lawful_iff_key]
  rcases firstBuilt with ⟨addr, port, rfl⟩ | ⟨addr, port, rfl⟩ <;>
    rcases secondBuilt with ⟨otherAddr, otherPort, rfl⟩ | ⟨otherAddr, otherPort, rfl⟩
  · simpa [DifferBehindZero, AF_INET, AF_INET6] using eq_of_key_inet
  · simp [DifferBehindZero, AF_INET, AF_INET6, key_eq_iff]
  · simp [DifferBehindZero, AF_INET, AF_INET6, key_eq_iff]
  · rw [key_inet6_iff]
    constructor
    · intro separated differ
      have equal := separated (.inr differ)
      exact differ.2.2.2.1 (congrArg s6Addr equal)
    · rintro apart (equal | differ)
      · exact equal
      · exact absurd differ apart

/-- The loopback address `::1`, whose bytes begin with zeros, as a C string that is empty. -/
def loopback6 : In6Addr := ⟨List.replicate 15 0 ++ [1], rfl⟩

/-- An IPv4 address is below `::1` in the order, since the families are compared first. -/
theorem lawful_inet_loopback6 :
    Lawful (inet ⟨127, 0, 0, 1⟩ 80) (inet6 loopback6 80) (inet6 loopback6 443) :=
  (lawful_iff _ _ _ (.inl ⟨_, _, rfl⟩) (.inr ⟨_, _, rfl⟩)).mpr (by decide +kernel)

/-- Neither of `::1` and `::2` is below the other, and they are not equal: both begin with a zero
byte, where the comparison of strings stops. -/
theorem loopback6_incomparable :
    ¬ Lawful (inet6 loopback6 80) (inet6 ⟨List.replicate 15 0 ++ [2], rfl⟩ 80) (inet6 loopback6 80) := by
  unfold Lawful
  decide +kernel

end CInetAddr

end OpenTaker
