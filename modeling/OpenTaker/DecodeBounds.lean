import OpenTaker.DecodeBasic

/-!
# Which packets the decoder stays inside

The decoder tests the captured length before it reads an IP header behind ethernet,
VLAN, MPLS or PPPoE, and cuts the transport length to what was captured. It does not
test the length before it reads a type, a label, the ports and flags it looks at for
GTP-U, or the version behind a T-PDU; and the offset it cuts the transport length by has
eight bits, unlike the pointer it reads through.

A packet meets `Inside` when its bytes make each of these reads fall inside. It is shown
that the decoder completes on exactly these packets: on every other one it reads a byte
that was not captured.
-/

namespace OpenTaker

open ByteReads

variable (packet : List UInt8)

/-! ## The condition -/

/-- The type behind some tags, at the offset that the walk computes in 16 bits. -/
def typeAfter (tags : Nat) : Nat := halfAt packet (12 + 4 * tags)

/-- The header length of the IPv4 header at an offset. -/
def ipv4LenAt (iph : Nat) : Nat := byteAt packet iph % 16 * 4

/-- The IPv4 header at an offset is that of a fragment. -/
def FragmentAt (iph : Nat) : Prop := halfAt packet (iph + 6) &&& 0xFF3F ≠ 0

/-- Whether the packet is a fragment is read off two of its bytes, so that the conditions of the
decoder can be evaluated. -/
instance (iph : Nat) : Decidable (FragmentAt packet iph) :=
  inferInstanceAs (Decidable (_ ≠ _))

/-- The packet behind the IPv4 header is a UDP packet and no fragment. -/
def UdpAt (iph : Nat) : Prop := byteAt packet (iph + 9) = ipprotoUdp ∧ ¬ FragmentAt packet iph

/-- So can the test for a UDP packet that is no fragment. -/
instance (iph : Nat) : Decidable (UdpAt packet iph) :=
  inferInstanceAs (Decidable (_ ∧ _))

/-- That UDP packet has a port of GTP-U, as its source or as its destination, so that the tunnel is
looked at too. -/
def GtpAt (iph : Nat) : Prop :=
  UdpAt packet iph ∧
    (halfAt packet (iph + ipv4LenAt packet iph) = ntGtpUV1Port ∨
      halfAt packet (iph + ipv4LenAt packet iph + 2) = ntGtpUV1Port)

/-- And the test for one of the ports of a tunnel. -/
instance (iph : Nat) : Decidable (GtpAt packet iph) :=
  inferInstanceAs (Decidable (_ ∧ _))

/-- The flags of the GTP-U header, in the first byte behind the UDP header. -/
def gtpFlagsAt (iph : Nat) : Nat := byteAt packet (iph + ipv4LenAt packet iph + sizeofUdpHeader)

/-- The GTP-U header announces a T-PDU, so that the decoder goes on with the packet in the tunnel. -/
def TpduAt (iph : Nat) : Prop :=
  GtpAt packet iph ∧ isTpdu (gtpFlagsAt packet iph)
    (byteAt packet (iph + ipv4LenAt packet iph + sizeofUdpHeader + 1)) = true

/-- And the test for a T-PDU, on the two bytes behind the UDP header. -/
instance (iph : Nat) : Decidable (TpduAt packet iph) :=
  inferInstanceAs (Decidable (_ ∧ _))

/-- Where the inner header of a T-PDU should be. -/
def innerAt (iph : Nat) : Nat :=
  tpduOffset iph (ipv4LenAt packet iph) (gtpFlagsAt packet iph)

/-- The transport header is captured as far as it is read, whenever it seems to be
captured after its offset has lost its high bits. -/
structure TransportInside (l4h l4PacketLen l4Proto : Nat) : Prop where
  tcp : l4Proto = ipprotoTcp → 20 ≤ l4PacketLen → u8 l4h + 20 ≤ packet.length →
    l4h + 14 ≤ packet.length
  udp : l4Proto = ipprotoUdp → 8 ≤ l4PacketLen → u8 l4h + 8 ≤ packet.length →
    l4h + 4 ≤ packet.length

/-- The transport header behind an IPv4 header. A fragment has none. -/
def Ipv4TransportInside (iph : Nat) : Prop :=
  ¬ FragmentAt packet iph →
    TransportInside packet (iph + ipv4LenAt packet iph)
      (u16 (ntohs (halfAt packet (iph + 2)) + 2 ^ 16 - ipv4LenAt packet iph))
      (byteAt packet (iph + 9))

/-- What is read behind a captured IPv4 header is captured. -/
structure Ipv4Inside (iph : Nat) : Prop where
  ports : UdpAt packet iph → iph + ipv4LenAt packet iph + 4 ≤ packet.length
  gtp : GtpAt packet iph → iph + ipv4LenAt packet iph + 10 ≤ packet.length
  inner : TpduAt packet iph → innerAt packet iph < packet.length
  transport : ¬ TpduAt packet iph → Ipv4TransportInside packet iph
  innerTransport : TpduAt packet iph → byteAt packet (innerAt packet iph) / 16 = 4 →
    innerAt packet iph + 20 ≤ packet.length → Ipv4TransportInside packet (innerAt packet iph)

/-- What is read where an IPv4 header should be is captured. -/
def Ipv4ReadsInside (iph : Nat) : Prop :=
  iph + 20 ≤ packet.length → byteAt packet iph / 16 = 4 → Ipv4Inside packet iph

/-- What is read where an IPv6 header should be is captured. -/
def Ipv6ReadsInside (ip6 : Nat) : Prop :=
  ip6 + 40 ≤ packet.length → byteAt packet ip6 / 16 = 6 →
    TransportInside packet (ip6 + 40) (ntohs (halfAt packet (ip6 + 4))) (byteAt packet (ip6 + 6))

/-- The byte the decoder looks at for the bottom of the stack, at each label. -/
def labelByte (ipOffset label : Nat) : Nat := u16 (ipOffset + 4 * label) + 3

/-- The label stack ends inside of the packet after so many labels. -/
structure LabelsInside (ipOffset labels : Nat) : Prop where
  some : 1 ≤ labels
  inside : ∀ label, 1 ≤ label → label ≤ labels → labelByte ipOffset label < packet.length
  more : ∀ label, 1 ≤ label → label < labels →
    byteAt packet (labelByte ipOffset label) &&& 1 ≠ 0
  bottom : byteAt packet (labelByte ipOffset labels) &&& 1 = 0

/-- What is read behind the tags is captured, whichever type stands there. A type that is not known
is not read behind. -/
structure NetworkInside (tags : Nat) : Prop where
  ip4 : typeAfter packet tags = hoEthIp4 → Ipv4ReadsInside packet (14 + 4 * tags)
  ip6 : typeAfter packet tags = hoEthIp6 → Ipv6ReadsInside packet (14 + 4 * tags)
  mpls : typeAfter packet tags = hoEthMpls → ∃ labels, LabelsInside packet (14 + 4 * tags) labels ∧
    Ipv4ReadsInside packet (u16 (14 + 4 * tags + 4 * labels))
  pppoe : typeAfter packet tags = hoEthPppoe → Ipv4ReadsInside packet (u16 (14 + 4 * tags + 8))

/-- Everything the decoder reads is captured. The condition follows the path that the packet sends
the decoder on, and asks for no byte beside it. -/
def Inside : Prop :=
  ∃ tags, 14 + 4 * tags ≤ packet.length ∧ (∀ tag < tags, typeAfter packet tag = hoEthVlan) ∧
    typeAfter packet tags ≠ hoEthVlan ∧ NetworkInside packet tags

/-! ## The transport header -/

variable {packet}

/-- The clipped length reaches a size exactly when the length does and the packet goes on
for that size behind the narrowed offset. -/
theorem le_clipL4Len_iff {l4PacketLen rawSize layer4Offset size : Nat} (positive : 0 < size)
    (narrow : rawSize < 2 ^ 16) :
    size ≤ clipL4Len l4PacketLen rawSize layer4Offset ↔
      size ≤ l4PacketLen ∧ layer4Offset + size ≤ rawSize := by
  simp only [clipL4Len, u16]
  split
  · split <;> omega
  · omega

/-- The fourth layer completes just if the ports and flags it reads are inside of the packet, which
depends on the protocol and on the length announced. -/
theorem processPacketL4_completes {l4PacketLen l4Proto l4h : Nat} {metaInfo : PacketMeta}
    (short : packet.length < 2 ^ 16) (offset : metaInfo.layer4Offset = u8 l4h) :
    Completes (processPacketL4 packet l4PacketLen l4Proto l4h packet.length metaInfo) ↔
      TransportInside packet l4h l4PacketLen l4Proto := by
  have fits : ∀ size, 0 < size →
      (size ≤ clipL4Len l4PacketLen packet.length metaInfo.layer4Offset ↔
        size ≤ l4PacketLen ∧ u8 l4h + size ≤ packet.length) := by
    intro size positive
    rw [offset]
    exact le_clipL4Len_iff positive short
  have tcpFits := fits 20 (by decide)
  have udpFits := fits 8 (by decide)
  simp only [processPacketL4, sizeofUdpHeader, tcpFits, udpFits, completes_ite]
  constructor
  · rintro ⟨tcp, notTcp⟩
    constructor
    · intro isTcp long captured
      have reads := tcp ⟨isTcp, long, captured⟩
      simp only [completes_readU16, completes_readU32, tcpGetHeaderLen, bind_assoc, pure_bind,
        completes_readByte] at reads
      omega
    · intro isUdp long captured
      have reads := (notTcp (by simp [isUdp, ipprotoTcp, ipprotoUdp])).1 ⟨isUdp, long, captured⟩
      simp only [completes_readU16] at reads
      omega
  · intro inside
    refine ⟨fun tcp => ?_, fun _ => ⟨fun udp => ?_, fun _ => completes_pure _⟩⟩
    · have captured := inside.tcp tcp.1 tcp.2.1 tcp.2.2
      simp only [completes_readU16, completes_readU32, tcpGetHeaderLen, bind_assoc, pure_bind,
        completes_readByte, completes_ite, completes_pure, implies_true, and_self, and_true]
      omega
    · have captured := inside.udp udp.1 udp.2.1 udp.2.2
      simp only [completes_readU16, completes_pure, and_true]
      omega

/-! ## The IP header -/

/-- From a captured header with version 4 on, the decoder completes when the transport
header is inside. -/
theorem reportIpv4_completes {iph : Nat} {metaInfo : PacketMeta}
    (short : packet.length < 2 ^ 16) (captured : iph + 20 ≤ packet.length)
    (pktLen : metaInfo.basicAttr.pktLen = packet.length) :
    Completes (reportIpv4 packet iph metaInfo) ↔ Ipv4TransportInside packet iph := by
  simp only [reportIpv4, completes_readU32, completes_readU16, completes_readByte,
    ipv4GetHeaderLen, ipv4IsFragment, bind_assoc, pure_bind, pktLen, Ipv4TransportInside]
  rw [processPacketL4_completes short rfl]
  by_cases fragment : FragmentAt packet iph
  · have isFragment : halfAt packet (iph + 6) &&& 0xFF3F ≠ 0 := fragment
    rw [if_pos (decide_eq_true isFragment)]
    constructor
    · exact fun _ notFragment => absurd fragment notFragment
    · intro _
      refine ⟨by omega, by omega, by omega, by omega, by omega, by omega, ?_⟩
      constructor <;> intro _ impossible <;> omega
  · have notFragment : ¬ (halfAt packet (iph + 6) &&& 0xFF3F ≠ 0) := fragment
    rw [if_neg (by rw [decide_eq_true_iff]; exact notFragment)]
    constructor
    · exact fun reads _ => reads.2.2.2.2.2.2
    · exact fun inside =>
        ⟨by omega, by omega, by omega, by omega, by omega, by omega, inside fragment⟩

/-- Of the two ports of a UDP header the second is read only when the first is not that of a tunnel,
so that its bound is asked for only then. -/
theorem completes_isGtpPort {α : Type} (udp : Nat) (next : Bool → Except Fault α) :
    Completes (isGtpPort packet udp >>= next) ↔
      udp + 2 ≤ packet.length ∧
        (halfAt packet udp ≠ ntGtpUV1Port → udp + 4 ≤ packet.length) ∧
        Completes (next (decide (halfAt packet udp = ntGtpUV1Port ∨
          halfAt packet (udp + 2) = ntGtpUV1Port))) := by
  simp only [isGtpPort, bind_assoc, completes_readU16]
  by_cases source : halfAt packet udp = ntGtpUV1Port
  · simp only [source, ↓reduceIte, pure_bind, ne_eq, not_true_eq_false, false_implies, true_or,
      decide_true, true_and]
  · simp only [source, ↓reduceIte, bind_assoc, completes_readU16, pure_bind, ne_eq,
      not_false_eq_true, true_implies, false_or]

/-- What the look behind a GTP-U header reads, and what it returns. -/
theorem completes_gtpIpv4 {α : Type} (iph : Nat) (gtp : GtpAt packet iph)
    (next : Option Nat → Except Fault α) :
    Completes (gtpIpv4 packet packet.length iph (ipv4LenAt packet iph) >>= next) ↔
      iph + ipv4LenAt packet iph + 10 ≤ packet.length ∧
      (TpduAt packet iph → innerAt packet iph < packet.length) ∧
      Completes (next (
        if TpduAt packet iph then
          if byteAt packet (innerAt packet iph) / 16 = 4 ∧ innerAt packet iph + 20 ≤ packet.length
          then some (innerAt packet iph)
          else none
        else some iph)) := by
  have tpduIff : isTpdu (byteAt packet (iph + ipv4LenAt packet iph + sizeofUdpHeader))
      (byteAt packet (iph + ipv4LenAt packet iph + sizeofUdpHeader + 1)) = true ↔
        TpduAt packet iph := ⟨fun tpdu => ⟨gtp, tpdu⟩, fun tpdu => tpdu.2⟩
  have inner : tpduOffset iph (ipv4LenAt packet iph)
      (byteAt packet (iph + ipv4LenAt packet iph + sizeofUdpHeader)) = innerAt packet iph := rfl
  simp only [gtpIpv4, bind_assoc, completes_readByte, tpduIff, inner]
  by_cases tpdu : TpduAt packet iph
  · simp only [tpdu, not_true_eq_false, ↓reduceIte, ipv4GetVersion, bind_assoc, pure_bind,
      completes_readByte, true_implies, sizeofUdpHeader]
    have returned : ((if byteAt packet (innerAt packet iph) / 16 ≠ 4 then pure none
        else if packet.length < innerAt packet iph + 20 then pure none
        else pure (some (innerAt packet iph)) : Except Fault (Option Nat)) >>= next) =
        next (if byteAt packet (innerAt packet iph) / 16 = 4 ∧
            innerAt packet iph + 20 ≤ packet.length then some (innerAt packet iph) else none) := by
      by_cases version : byteAt packet (innerAt packet iph) / 16 = 4
      · by_cases long : packet.length < innerAt packet iph + 20
        · rw [if_neg (by omega), if_pos long, if_neg (by omega), pure_bind]
        · rw [if_neg (by omega), if_neg long, if_pos (by omega), pure_bind]
      · rw [if_pos version, if_neg (by omega), pure_bind]
    rw [returned]
    constructor
    · exact fun reads => ⟨by omega, reads.2.2.1, reads.2.2.2⟩
    · exact fun reads => ⟨by omega, by omega, reads.2.1, reads.2.2⟩
  · simp only [tpdu, not_false_eq_true, ↓reduceIte, pure_bind, false_implies, true_and,
      sizeofUdpHeader]
    constructor
    · exact fun reads => ⟨by omega, reads.2.2⟩
    · exact fun reads => ⟨by omega, by omega, reads.2⟩

/-- What the search for the header to report reads, and what it returns. -/
theorem completes_reportedIpv4 {α : Type} (iph : Nat) (captured : iph + 20 ≤ packet.length)
    (next : Option Nat → Except Fault α) :
    Completes (reportedIpv4 packet packet.length iph >>= next) ↔
      (UdpAt packet iph → iph + ipv4LenAt packet iph + 4 ≤ packet.length) ∧
      (GtpAt packet iph → iph + ipv4LenAt packet iph + 10 ≤ packet.length) ∧
      (TpduAt packet iph → innerAt packet iph < packet.length) ∧
      Completes (next (
        if TpduAt packet iph then
          if byteAt packet (innerAt packet iph) / 16 = 4 ∧ innerAt packet iph + 20 ≤ packet.length
          then some (innerAt packet iph)
          else none
        else some iph)) := by
  simp only [reportedIpv4, bind_assoc, completes_readByte]
  by_cases udp : UdpAt packet iph
  · have whole : ¬ (halfAt packet (iph + 6) &&& 0xFF3F ≠ 0) := udp.2
    simp only [udp.1, ne_eq, not_true_eq_false, ↓reduceIte, ipv4IsFragment, bind_assoc,
      completes_readU16, pure_bind, whole, decide_false, Bool.false_eq_true, ipv4GetHeaderLen,
      completes_readByte]
    change _ ∧ _ ∧ _ ∧ Completes (isGtpPort packet (iph + ipv4LenAt packet iph) >>= _) ↔ _
    rw [completes_isGtpPort]
    by_cases gtp : GtpAt packet iph
    · have found := gtp.2
      simp only [found, decide_true, not_true_eq_false, ↓reduceIte]
      rw [show byteAt packet iph % 16 * 4 = ipv4LenAt packet iph from rfl,
        completes_gtpIpv4 iph gtp next]
      constructor
      · rintro ⟨-, -, -, -, -, captured, inner, rest⟩
        exact ⟨fun _ => by omega, fun _ => captured, inner, rest⟩
      · rintro ⟨-, header, inner, rest⟩
        have captured := header gtp
        exact ⟨by omega, by omega, by omega, by omega, fun _ => by omega, captured, inner, rest⟩
    · have notFound : ¬ (halfAt packet (iph + ipv4LenAt packet iph) = ntGtpUV1Port ∨
          halfAt packet (iph + ipv4LenAt packet iph + 2) = ntGtpUV1Port) := fun found =>
        gtp ⟨udp, found⟩
      have notTpdu : ¬ TpduAt packet iph := fun tpdu => gtp tpdu.1
      simp only [notFound, decide_false, Bool.false_eq_true, not_false_eq_true, ↓reduceIte,
        pure_bind, udp, gtp, notTpdu, true_implies, false_implies, true_and]
      constructor
      · rintro ⟨-, -, -, -, second, rest⟩
        exact ⟨second fun source => notFound (.inl source), rest⟩
      · rintro ⟨ports, rest⟩
        exact ⟨by omega, by omega, by omega, by omega, fun _ => ports, rest⟩
  · have notGtp : ¬ GtpAt packet iph := fun gtp => udp gtp.1
    have notTpdu : ¬ TpduAt packet iph := fun tpdu => notGtp tpdu.1
    simp only [udp, notGtp, notTpdu, false_implies, true_and, ↓reduceIte]
    by_cases isUdp : byteAt packet (iph + 9) = ipprotoUdp
    · have fragment : halfAt packet (iph + 6) &&& 0xFF3F ≠ 0 :=
        not_not.mp fun whole => udp ⟨isUdp, whole⟩
      simp only [isUdp, ne_eq, not_true_eq_false, ↓reduceIte, ipv4IsFragment, bind_assoc,
        completes_readU16, pure_bind, decide_eq_true fragment]
      exact ⟨fun reads => reads.2.2, fun rest => ⟨by omega, by omega, rest⟩⟩
    · simp only [isUdp, ne_eq, not_false_eq_true, ↓reduceIte, pure_bind]
      exact ⟨fun reads => reads.2, fun rest => ⟨by omega, rest⟩⟩

/-- IPv4 completes just if all the reads that its path takes are inside: those of the header, of a
tunnel in it, and of the fourth layer. -/
theorem processIpv4_completes (short : packet.length < 2 ^ 16) (iph : Nat)
    {metaInfo : PacketMeta} (pktLen : metaInfo.basicAttr.pktLen = packet.length) :
    Completes (processIpv4 packet iph metaInfo) ↔ Ipv4ReadsInside packet iph := by
  simp only [processIpv4, pktLen, Ipv4ReadsInside]
  by_cases captured : iph + 20 ≤ packet.length
  · simp only [captured, ↓reduceIte, true_implies, ipv4GetVersion, bind_assoc, pure_bind,
      completes_readByte]
    by_cases version : byteAt packet iph / 16 = 4
    · simp only [version, ne_eq, not_true_eq_false, ↓reduceIte, true_implies]
      rw [completes_reportedIpv4 iph captured]
      have reports : ∀ header, header + 20 ≤ packet.length →
          (Completes (reportIpv4 packet header metaInfo >>= fun filled =>
            (pure (0, filled) : Except Fault (Int × PacketMeta))) ↔
          Ipv4TransportInside packet header) := by
        intro header inside
        rw [← reportIpv4_completes short inside pktLen, completes_bind]
        simp only [completes_pure, and_true]
        rfl
      by_cases tpdu : TpduAt packet iph
      · by_cases inner : byteAt packet (innerAt packet iph) / 16 = 4 ∧
            innerAt packet iph + 20 ≤ packet.length
        · simp only [tpdu, inner, and_self, ↓reduceIte, true_implies, reports _ inner.2]
          constructor
          · rintro ⟨-, ports, gtp, start, transport⟩
            exact ⟨ports, gtp, fun _ => start, fun notTpdu => absurd tpdu notTpdu,
              fun _ _ _ => transport⟩
          · intro inside
            exact ⟨by omega, inside.ports, inside.gtp, inside.inner tpdu,
              inside.innerTransport tpdu inner.1 inner.2⟩
        · simp only [tpdu, inner, ↓reduceIte, true_implies, completes_pure, and_true]
          constructor
          · rintro ⟨-, ports, gtp, start⟩
            exact ⟨ports, gtp, fun _ => start, fun notTpdu => absurd tpdu notTpdu,
              fun _ four long => absurd ⟨four, long⟩ inner⟩
          · intro inside
            exact ⟨by omega, inside.ports, inside.gtp, inside.inner tpdu⟩
      · simp only [tpdu, ↓reduceIte, false_implies, true_and, reports iph captured]
        constructor
        · rintro ⟨-, ports, gtp, transport⟩
          exact ⟨ports, gtp, fun isTpdu => absurd isTpdu tpdu, fun _ => transport,
            fun isTpdu => absurd isTpdu tpdu⟩
        · intro inside
          exact ⟨by omega, inside.ports, inside.gtp, inside.transport tpdu⟩
    · simp only [version, ne_eq, not_false_eq_true, ↓reduceIte, completes_pure, and_true,
        false_implies, iff_true]
      omega
  · simp only [captured, ↓reduceIte, completes_pure, false_implies]

/-- IPv6 completes just if its fixed header and the reads of the fourth layer are inside. It has
fewer branches than IPv4. -/
theorem processIpv6_completes (short : packet.length < 2 ^ 16) (ip6 : Nat)
    {metaInfo : PacketMeta} (pktLen : metaInfo.basicAttr.pktLen = packet.length) :
    Completes (processIpv6 packet ip6 metaInfo) ↔ Ipv6ReadsInside packet ip6 := by
  simp only [processIpv6, pktLen, Ipv6ReadsInside, sizeofIpv6Header]
  by_cases captured : ip6 + 40 ≤ packet.length
  · simp only [captured, ↓reduceIte, true_implies, completes_readByte]
    by_cases version : byteAt packet ip6 / 16 = 6
    · simp only [version, ne_eq, not_true_eq_false, ↓reduceIte, true_implies, completes_readByte,
        completes_readU16, completes_readU32]
      have reports : ∀ length next (filled : PacketMeta), filled.layer4Offset = u8 (ip6 + 40) →
          (Completes (processPacketL4 packet length next (ip6 + 40) packet.length filled >>=
            fun done => (pure (0, done) : Except Fault (Int × PacketMeta))) ↔
          TransportInside packet (ip6 + 40) length next) := by
        intro length next filled offset
        rw [← processPacketL4_completes short offset, completes_bind]
        simp only [completes_pure, and_true]
        rfl
      rw [reports _ _ _ rfl]
      constructor
      · exact fun reads => reads.2.2.2.2.2.2.2
      · exact fun inside =>
          ⟨by omega, by omega, by omega, by omega, by omega, by omega, by omega, inside⟩
    · simp only [version, ne_eq, not_false_eq_true, ↓reduceIte, completes_pure, and_true,
        false_implies, iff_true]
      omega
  · simp only [captured, ↓reduceIte, completes_pure, false_implies]

/-! ## The loops below IP -/

/-- The bottom-of-stack bit is looked for in the next word, at an offset that is computed in 16
bits: a label further on is a position further on. -/
theorem labelByte_succ (ipOffset label : Nat) :
    labelByte (u16 (ipOffset + 4)) label = labelByte ipOffset (label + 1) := by
  simp only [labelByte, u16]
  omega

/-- A stack of one label, the case in which the walk looks at one byte only. -/
theorem labelsInside_one (ipOffset : Nat) :
    LabelsInside packet ipOffset 1 ↔ labelByte ipOffset 1 < packet.length ∧
      byteAt packet (labelByte ipOffset 1) &&& 1 = 0 := by
  constructor
  · exact fun inside => ⟨inside.inside 1 (Nat.le_refl 1) (Nat.le_refl 1), inside.bottom⟩
  · rintro ⟨captured, bottom⟩
    refine ⟨Nat.le_refl 1, fun label positive within => ?_, fun label _ _ => by omega, bottom⟩
    obtain rfl : label = 1 := by omega
    exact captured

/-- A stack of several labels is a label and the stack behind it. -/
theorem labelsInside_succ (ipOffset : Nat) {labels : Nat} (positive : 1 ≤ labels) :
    LabelsInside packet ipOffset (labels + 1) ↔ labelByte ipOffset 1 < packet.length ∧
      byteAt packet (labelByte ipOffset 1) &&& 1 ≠ 0 ∧
      LabelsInside packet (u16 (ipOffset + 4)) labels := by
  constructor
  · intro inside
    refine ⟨inside.inside 1 (Nat.le_refl 1) (by omega), inside.more 1 (Nat.le_refl 1) (by omega),
      positive, fun label _ _ => ?_, fun label _ _ => ?_, ?_⟩
    all_goals rw [labelByte_succ]
    · exact inside.inside (label + 1) (by omega) (by omega)
    · exact inside.more (label + 1) (by omega) (by omega)
    · exact inside.bottom
  · rintro ⟨captured, more, inside⟩
    refine ⟨by omega, fun label first within => ?_, fun label first within => ?_, ?_⟩
    · obtain ⟨label, rfl⟩ := Nat.exists_eq_add_of_le' first
      cases label with
      | zero => exact captured
      | succ label =>
        rw [← labelByte_succ]
        exact inside.inside (label + 1) (by omega) (by omega)
    · obtain ⟨label, rfl⟩ := Nat.exists_eq_add_of_le' first
      cases label with
      | zero => exact more
      | succ label =>
        rw [← labelByte_succ]
        exact inside.more (label + 1) (by omega) (by omega)
    · rw [← labelByte_succ]
      exact inside.bottom

/-- The label loop ends after the labels that are inside, by induction on its rounds. -/
theorem skipLabels_eq_ok (rounds ipOffset final : Nat) :
    skipLabels packet rounds ipOffset = .ok final ↔
      ∃ labels ≤ rounds, LabelsInside packet ipOffset labels ∧
        final = u16 (ipOffset + 4 * labels) := by
  induction rounds generalizing ipOffset with
  | zero =>
    constructor
    · intro impossible
      cases impossible
    · rintro ⟨labels, none, inside, -⟩
      have some := inside.some
      omega
  | succ rounds inductionHypothesis =>
    have moved : ∀ labels, u16 (u16 (ipOffset + 4) + 4 * labels) =
        u16 (ipOffset + 4 * (labels + 1)) := by
      intro labels
      simp only [u16]
      omega
    simp only [skipLabels, bind_eq_ok, readByte_eq_ok]
    constructor
    · rintro ⟨label, ⟨captured, rfl⟩, continued⟩
      split at continued
      · rename_i more
        obtain ⟨labels, fewer, inside, rfl⟩ := (inductionHypothesis _).mp continued
        exact ⟨labels + 1, by omega, (labelsInside_succ ipOffset inside.some).mpr
          ⟨captured, more, inside⟩, moved labels⟩
      · rename_i bottom
        cases continued
        exact ⟨1, by omega, (labelsInside_one ipOffset).mpr ⟨captured, not_not.mp bottom⟩, rfl⟩
    · rintro ⟨labels, fewer, inside, rfl⟩
      obtain ⟨further, rfl⟩ := Nat.exists_eq_add_of_le' inside.some
      cases further with
      | zero =>
        obtain ⟨captured, bottom⟩ := (labelsInside_one ipOffset).mp inside
        exact ⟨_, ⟨captured, rfl⟩, if_neg (not_not.mpr bottom)⟩
      | succ further =>
        obtain ⟨captured, more, rest⟩ := (labelsInside_succ ipOffset (by omega)).mp inside
        refine ⟨_, ⟨captured, rfl⟩, (if_pos more).trans ?_⟩
        exact (inductionHypothesis _).mpr ⟨further + 1, by omega, rest, (moved _).symm⟩

/-- Within 2^14 labels a stack leaves a packet of 16-bit length. -/
theorem exists_label_outside (short : packet.length < 2 ^ 16) (ipOffset : Nat) :
    ∃ label, 1 ≤ label ∧ label ≤ 2 ^ 14 ∧ packet.length ≤ labelByte ipOffset label := by
  by_cases near : ipOffset % 65536 < 65532
  · refine ⟨(65535 - ipOffset % 65536) / 4, by omega, by omega, ?_⟩
    simp only [labelByte, u16]
    omega
  · refine ⟨2 ^ 14, by omega, by omega, ?_⟩
    simp only [labelByte, u16]
    omega

/-- The walk goes on by four bytes in a packet of less than 64 KiB, so that there are fewer than `2
^ 14` labels. -/
theorem LabelsInside.labels_lt (short : packet.length < 2 ^ 16) {ipOffset labels : Nat}
    (inside : LabelsInside packet ipOffset labels) : labels < 2 ^ 14 := by
  obtain ⟨label, positive, within, outside⟩ := exists_label_outside short ipOffset
  by_contra many
  have captured := inside.inside label positive (by omega)
  omega

/-- The label loop leaves the packet before it repeats. -/
theorem skipLabels_ends (short : packet.length < 2 ^ 16) (ipOffset : Nat) :
    Ends (skipLabels packet maxRounds ipOffset) := by
  have walked : ∀ rounds start, skipLabels packet rounds start = .error .diverges →
      ∀ label, 1 ≤ label → label ≤ rounds → labelByte start label < packet.length := by
    intro rounds
    induction rounds with
    | zero => omega
    | succ rounds inductionHypothesis =>
      intro start diverges label positive within
      by_cases captured : u16 (start + 4) + 3 < packet.length
      · simp only [skipLabels, readByte_inside captured] at diverges
        change (if _ then _ else _) = _ at diverges
        split at diverges
        · obtain ⟨label, rfl⟩ := Nat.exists_eq_add_of_le' positive
          cases label with
          | zero => exact captured
          | succ label =>
            rw [← labelByte_succ]
            exact inductionHypothesis _ diverges (label + 1) (by omega) (by omega)
        · cases diverges
      · simp only [skipLabels, readByte_outside (Nat.le_of_not_lt captured)] at diverges
        cases diverges
  intro diverges
  obtain ⟨label, positive, within, outside⟩ := exists_label_outside short ipOffset
  have captured := walked maxRounds ipOffset diverges label positive
    (by simp only [maxRounds]; omega)
  omega

/-- At another type the loop ends in this round. -/
theorem skipTags_last (rounds type ipOffset : Nat) (notVlan : type ≠ hoEthVlan) :
    skipTags packet (rounds + 1) type ipOffset = skipTags packet 1 type ipOffset := by
  simp only [skipTags, if_neg notVlan]

/-- The type loop passes the tags that are inside, by induction on its rounds. -/
theorem completes_skipTags {α : Type} (short : packet.length < 2 ^ 16) (rounds start : Nat)
    (captured : 14 + 4 * start ≤ packet.length) (next : Nat × Nat → Except Fault α) :
    Completes (skipTags packet rounds (typeAfter packet start) (14 + 4 * start) >>= next) ↔
      ∃ tags, start ≤ tags ∧ tags < start + rounds ∧ 14 + 4 * tags ≤ packet.length ∧
        (∀ tag, start ≤ tag → tag < tags → typeAfter packet tag = hoEthVlan) ∧
        typeAfter packet tags ≠ hoEthVlan ∧
        Completes (skipTags packet 1 (typeAfter packet tags) (14 + 4 * tags) >>= next) := by
  induction rounds generalizing start with
  | zero =>
    constructor
    · intro completes
      exact absurd completes (completes_error .diverges)
    · rintro ⟨tags, first, bounded, -⟩
      omega
  | succ rounds inductionHypothesis =>
    by_cases vlan : typeAfter packet start = hoEthVlan
    · have nextType : halfAt packet (14 + 4 * start + 2) = typeAfter packet (start + 1) := by
        rw [typeAfter, show 12 + 4 * (start + 1) = 14 + 4 * start + 2 by omega]
      rw [vlan, skipTags_vlan, bind_assoc, completes_readU16, nextType]
      have continued : 14 + 4 * start + 2 + 2 ≤ packet.length →
          u16 (14 + 4 * start + 4) = 14 + 4 * (start + 1) := by
        intro further
        simp only [u16]
        omega
      constructor
      · rintro ⟨further, completes⟩
        rw [continued further, inductionHypothesis (start + 1) (by omega)] at completes
        obtain ⟨tags, first, bounded, last, vlans, ends, completes⟩ := completes
        refine ⟨tags, by omega, by omega, last, fun tag first before => ?_, ends, completes⟩
        by_cases same : tag = start
        · rw [same, vlan]
        · exact vlans tag (by omega) before
      · rintro ⟨tags, first, bounded, last, vlans, ends, completes⟩
        have later : start ≠ tags := fun same => ends (same ▸ vlan)
        refine ⟨by omega, ?_⟩
        rw [continued (by omega), inductionHypothesis (start + 1) (by omega)]
        exact ⟨tags, by omega, by omega, last, fun tag first => vlans tag (by omega), ends, completes⟩
    · rw [skipTags_last rounds _ _ vlan]
      constructor
      · intro completes
        exact ⟨start, Nat.le_refl _, by omega, captured, fun tag _ _ => by omega, vlan, completes⟩
      · rintro ⟨tags, first, -, -, vlans, -, completes⟩
        have same : tags = start := by
          by_contra later
          exact vlan (vlans start (Nat.le_refl _) (by omega))
        rwa [same] at completes

/-- Behind the tags the decoder completes when the IP layer is inside. -/
theorem completes_network (short : packet.length < 2 ^ 16) (tags : Nat) {metaInfo : PacketMeta}
    (pktLen : metaInfo.basicAttr.pktLen = packet.length)
    (notVlan : typeAfter packet tags ≠ hoEthVlan) :
    Completes (skipTags packet 1 (typeAfter packet tags) (14 + 4 * tags) >>=
      processNetwork packet metaInfo) ↔ NetworkInside packet tags := by
  have ipv4 : ∀ iph, Completes (processNetwork packet metaInfo (hoEthIp4, iph)) ↔
      Ipv4ReadsInside packet iph := fun iph => processIpv4_completes short iph pktLen
  have ipv6 : ∀ ip6, Completes (processNetwork packet metaInfo (hoEthIp6, ip6)) ↔
      Ipv6ReadsInside packet ip6 := fun ip6 => processIpv6_completes short ip6 pktLen
  have ip4 : ∀ ipOffset, skipTags packet 1 hoEthIp4 ipOffset = pure (hoEthIp4, ipOffset) :=
    fun _ => rfl
  have ip6 : ∀ ipOffset, skipTags packet 1 hoEthIp6 ipOffset = pure (hoEthIp6, ipOffset) :=
    fun _ => rfl
  have pppoe : ∀ ipOffset, skipTags packet 1 hoEthPppoe ipOffset =
      pure (hoEthIp4, u16 (ipOffset + 8)) := fun _ => rfl
  have mpls : ∀ ipOffset, Completes (skipTags packet 1 hoEthMpls ipOffset >>=
      processNetwork packet metaInfo) ↔ ∃ labels, LabelsInside packet ipOffset labels ∧
        Ipv4ReadsInside packet (u16 (ipOffset + 4 * labels)) := by
    intro ipOffset
    have unfolded : skipTags packet 1 hoEthMpls ipOffset =
        skipLabels packet maxRounds ipOffset >>= fun found => pure (hoEthIp4, found) := rfl
    simp only [unfolded, bind_assoc, pure_bind, completes_bind, skipLabels_eq_ok, ipv4]
    constructor
    · rintro ⟨-, ⟨labels, -, inside, rfl⟩, reads⟩
      exact ⟨labels, inside, reads⟩
    · rintro ⟨labels, inside, reads⟩
      have few := inside.labels_lt short
      exact ⟨_, ⟨labels, by simp only [maxRounds]; omega, inside, rfl⟩, reads⟩
  constructor
  · intro completes
    constructor
    all_goals
      intro type
      rw [type] at completes
    · rwa [ip4, pure_bind, ipv4] at completes
    · rwa [ip6, pure_bind, ipv6] at completes
    · rwa [mpls] at completes
    · rwa [pppoe, pure_bind, ipv4] at completes
  · intro inside
    by_cases isIp4 : typeAfter packet tags = hoEthIp4
    · rw [isIp4, ip4, pure_bind, ipv4]
      exact inside.ip4 isIp4
    by_cases isIp6 : typeAfter packet tags = hoEthIp6
    · rw [isIp6, ip6, pure_bind, ipv6]
      exact inside.ip6 isIp6
    by_cases isMpls : typeAfter packet tags = hoEthMpls
    · rw [isMpls, mpls]
      exact inside.mpls isMpls
    by_cases isPppoe : typeAfter packet tags = hoEthPppoe
    · rw [isPppoe, pppoe, pure_bind, ipv4]
      exact inside.pppoe isPppoe
    · simp only [skipTags, isIp4, isIp6, notVlan, isMpls, isPppoe, or_self, ↓reduceIte, pure_bind,
        processNetwork, completes_pure]

/-- The decoder completes on exactly the packets whose bytes keep it inside. -/
theorem decodePacket_completes (short : packet.length < 2 ^ 16) {metaInfo : PacketMeta}
    (pktLen : metaInfo.basicAttr.pktLen = packet.length) :
    Completes (decodePacket packet metaInfo) ↔ Inside packet := by
  have cleared : metaInfo.cleared.basicAttr.pktLen = packet.length := pktLen
  rw [decodePacket, completes_readU16]
  change _ ∧ Completes (skipTags packet maxRounds (typeAfter packet 0) (14 + 4 * 0) >>= _) ↔ _
  constructor
  · rintro ⟨captured, completes⟩
    rw [completes_skipTags short maxRounds 0 captured] at completes
    obtain ⟨tags, -, -, last, vlans, ends, completes⟩ := completes
    exact ⟨tags, last, fun tag => vlans tag (Nat.zero_le _), ends,
      (completes_network short tags cleared ends).mp completes⟩
  · rintro ⟨tags, last, vlans, ends, inside⟩
    refine ⟨by omega, (completes_skipTags short maxRounds 0 (by omega) _).mpr ?_⟩
    exact ⟨tags, Nat.zero_le _, by simp only [maxRounds]; omega, last, fun tag _ => vlans tag, ends,
      (completes_network short tags cleared ends).mpr inside⟩

/-! ## The decoder ends -/

/-- The fourth layer has no loop, so that it ends with its results or with a fault. -/
theorem processPacketL4_ends (l4PacketLen l4Proto l4h rawSize : Nat) (metaInfo : PacketMeta) :
    Ends (processPacketL4 packet l4PacketLen l4Proto l4h rawSize metaInfo) := by
  refine ends_ite ?_ (ends_ite ?_ (ends_pure _))
  · refine ends_bind (ends_readU16 _) fun _ _ => ends_bind (ends_readU16 _) fun _ _ =>
      ends_bind (ends_readU32 _) fun _ _ => ends_bind ?_ fun _ _ =>
      ends_bind (ends_readByte _) fun _ _ => ends_ite (ends_pure _) (ends_pure _)
    exact ends_bind (ends_readByte _) fun _ _ => ends_pure _
  · exact ends_bind (ends_readU16 _) fun _ _ => ends_bind (ends_readU16 _) fun _ _ => ends_pure _

/-- The three fields of the IPv4 header are single reads, and each of them ends. -/
theorem ipv4Fields_end (iph : Nat) : Ends (ipv4GetVersion packet iph) ∧
    Ends (ipv4GetHeaderLen packet iph) ∧ Ends (ipv4IsFragment packet iph) :=
  ⟨ends_bind (ends_readByte _) fun _ _ => ends_pure _,
    ends_bind (ends_readByte _) fun _ _ => ends_pure _,
    ends_bind (ends_readU16 _) fun _ _ => ends_pure _⟩

/-- The search for the inner packet of a tunnel ends, as there is one at most. -/
theorem reportedIpv4_ends (pktLen iph : Nat) : Ends (reportedIpv4 packet pktLen iph) := by
  refine ends_bind (ends_readByte _) fun _ _ => ends_ite (ends_pure _) ?_
  refine ends_bind (ipv4Fields_end iph).2.2 fun _ _ => ends_ite (ends_pure _) ?_
  refine ends_bind (ipv4Fields_end iph).2.1 fun ipLen _ => ends_bind ?_ fun _ _ =>
    ends_ite (ends_pure _) ?_
  · exact ends_bind (ends_readU16 _) fun _ _ => ends_ite (ends_pure _)
      (ends_bind (ends_readU16 _) fun _ _ => ends_pure _)
  · refine ends_bind (ends_readByte _) fun _ _ => ends_bind (ends_readByte _) fun _ _ =>
      ends_ite (ends_pure _) ?_
    exact ends_bind (ipv4Fields_end _).1 fun _ _ =>
      ends_ite (ends_pure _) (ends_ite (ends_pure _) (ends_pure _))

/-- The decoding of an IPv4 header comes to an end for every packet, however short, with a result or
with a fault. -/
theorem processIpv4_ends (iph : Nat) (metaInfo : PacketMeta) :
    Ends (processIpv4 packet iph metaInfo) := by
  refine ends_ite ?_ (ends_pure _)
  refine ends_bind (ipv4Fields_end iph).1 fun _ _ => ends_ite (ends_pure _) ?_
  refine ends_bind (reportedIpv4_ends _ iph) fun reported _ => ?_
  cases reported with
  | none => exact ends_pure _
  | some iph =>
    refine ends_bind ?_ fun _ _ => ends_pure _
    exact ends_bind (ends_readU32 _) fun _ _ => ends_bind (ends_readU32 _) fun _ _ =>
      ends_bind (ipv4Fields_end iph).2.1 fun _ _ => ends_bind (ipv4Fields_end iph).2.2 fun _ _ =>
      ends_bind (ends_readU16 _) fun _ _ => ends_bind (ends_readByte _) fun _ _ =>
      processPacketL4_ends _ _ _ _ _

/-- So does IPv6, whose extension headers are not walked through. -/
theorem processIpv6_ends (ip6 : Nat) (metaInfo : PacketMeta) :
    Ends (processIpv6 packet ip6 metaInfo) := by
  refine ends_ite ?_ (ends_pure _)
  refine ends_bind (ends_readByte _) fun _ _ => ends_ite (ends_pure _) ?_
  exact ends_bind (ends_readU32 _) fun _ _ => ends_bind (ends_readU32 _) fun _ _ =>
    ends_bind (ends_readU32 _) fun _ _ => ends_bind (ends_readU32 _) fun _ _ =>
    ends_bind (ends_readU16 _) fun _ _ => ends_bind (ends_readByte _) fun _ _ =>
    ends_bind (processPacketL4_ends _ _ _ _ _) fun _ _ => ends_pure _

/-- The type loop leaves the packet before it repeats. -/
theorem skipTags_ends (short : packet.length < 2 ^ 16) (rounds start : Nat)
    (enough : packet.length < 14 + 4 * (start + rounds))
    (captured : 14 + 4 * start ≤ packet.length) :
    Ends (skipTags packet rounds (typeAfter packet start) (14 + 4 * start)) := by
  induction rounds generalizing start with
  | zero => omega
  | succ rounds inductionHypothesis =>
    by_cases vlan : typeAfter packet start = hoEthVlan
    · rw [vlan, skipTags_vlan]
      refine ends_bind (ends_readU16 _) fun type read => ?_
      obtain ⟨inside, rfl⟩ := (readU16_eq_ok _ _).mp read
      have nextType : halfAt packet (14 + 4 * start + 2) = typeAfter packet (start + 1) := by
        rw [typeAfter, show 12 + 4 * (start + 1) = 14 + 4 * start + 2 by omega]
      have continued : u16 (14 + 4 * start + 4) = 14 + 4 * (start + 1) := by
        simp only [u16]
        omega
      rw [nextType, continued]
      exact inductionHypothesis (start + 1) (by omega) (by omega)
    · simp only [skipTags, if_neg vlan]
      exact ends_ite (ends_pure _) (ends_ite
        (ends_bind (skipLabels_ends short _) fun _ _ => ends_pure _)
        (ends_ite (ends_pure _) (ends_pure _)))

/-- The decoder ends on every packet of less than 64 KiB: its two walks, through tags and labels, go
on in each round. -/
theorem decodePacket_ends (short : packet.length < 2 ^ 16) (metaInfo : PacketMeta) :
    Ends (decodePacket packet metaInfo) := by
  rw [decodePacket]
  refine ends_bind (ends_readU16 _) fun type read => ?_
  obtain ⟨captured, rfl⟩ := (readU16_eq_ok _ _).mp read
  refine ends_bind (skipTags_ends short maxRounds 0 (by simp only [maxRounds]; omega) captured)
    fun found _ => ?_
  exact ends_ite (processIpv4_ends _ _) (ends_ite (processIpv6_ends _ _) (ends_pure _))

/-! ## The bounds of the decoder -/

/-- The decoder reads no byte beyond the captured ones exactly when the packet is inside
at each of the places where the captured length is not tested. -/
theorem decoder_stays_inside_iff (packet : List UInt8) (metaInfo : PacketMeta)
    (short : packet.length < 2 ^ 16) (pktLen : metaInfo.basicAttr.pktLen = packet.length) :
    (∀ offset, processPacketBasic (some packet) (some metaInfo) ≠ .error (.outOfRange offset)) ↔
      Inside packet := by
  have ends : Ends (processPacketBasic (some packet) (some metaInfo)) :=
    ends_bind (decodePacket_ends short metaInfo) fun _ _ => ends_pure _
  rw [← completes_iff_of_ends ends, ← decodePacket_completes short pktLen]
  simp only [processPacketBasic, completes_bind, completes_pure, and_true]
  rfl

/-- A UDP packet of 42 bytes, all of them headers. -/
def smallUdp : List UInt8 :=
  List.replicate 12 2 ++ [8, 0, 0x45, 0, 0, 28, 0, 0, 0x40, 0, 64, 17, 0, 0, 10, 0, 0, 1, 10, 0, 0, 2,
    0, 53, 0x30, 0x39, 0, 8, 0, 0]

/-- The decoder stays inside the small UDP packet, so the packet meets the condition. All reads of
its path are bounded by its length. -/
theorem decoder_stays_inside_small_udp : Inside smallUdp := by
  refine (decoder_stays_inside_iff smallUdp (PacketMeta.captured 42) (by decide) (by decide)).mp ?_
  have returned : (processPacketBasic (some smallUdp) (some (PacketMeta.captured 42))).isOk = true := by
    decide
  intro offset fault
  rw [fault] at returned
  cases returned

/-- A frame that was captured up to the type of a VLAN tag. -/
def cutVlan : List UInt8 := List.replicate 12 2 ++ [0x81, 0]

/-- Behind the cut the decoder reads the type that the tag carries, in bytes that were not captured. -/
theorem decoder_reads_beyond_cut_vlan :
    (PacketMeta.captured 14).basicAttr.pktLen = cutVlan.length ∧
      processPacketBasic (some cutVlan) (some (PacketMeta.captured 14)) = .error (.outOfRange 16) := by
  decide

end OpenTaker
