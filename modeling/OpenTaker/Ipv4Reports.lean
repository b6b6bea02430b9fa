import OpenTaker.HeaderWalk

/-!
# What is reported of an IPv4 packet

The fields the decoder takes from an IPv4 header and from the transport header behind it
are told by the bytes at their offsets, once it is told that both are captured. A segment
without a whole header gives no ports, and leaves the protocol and the payload of the
slot.
-/

namespace OpenTaker

open ByteReads

variable (packet : List UInt8)

/-! ## The segment behind a header -/

/-- The length the IPv4 header announces for its segment, cut to what is captured. -/
def clippedAt (iph : Nat) : Nat :=
  clipL4Len (if FragmentAt packet iph then 0
    else u16 (ntohs (halfAt packet (iph + 2)) + 2 ^ 16 - ipv4LenAt packet iph))
    packet.length (u8 (iph + ipv4LenAt packet iph))

/-- The segment has the fixed part of a TCP header. -/
def TcpBehind (iph : Nat) : Prop := byteAt packet (iph + 9) = ipprotoTcp ∧ 20 ≤ clippedAt packet iph

/-- Whether a TCP header stands behind the IP header is read off the bytes. -/
instance (iph : Nat) : Decidable (TcpBehind packet iph) := inferInstanceAs (Decidable (_ ∧ _))

/-- The segment has a UDP header, by the protocol field and the length captured. -/
def UdpBehind (iph : Nat) : Prop := byteAt packet (iph + 9) = ipprotoUdp ∧ 8 ≤ clippedAt packet iph

/-- Whether a UDP header stands behind the IP header is read off the bytes too. -/
instance (iph : Nat) : Decidable (UdpBehind packet iph) := inferInstanceAs (Decidable (_ ∧ _))

/-- The length the TCP header announces for itself, in its words of four bytes. -/
def tcpLenAt (iph : Nat) : Nat := byteAt packet (iph + ipv4LenAt packet iph + 12) / 16 * 4

/-- The port at its place in the transport header. -/
def portAt (iph place : Nat) : Nat :=
  if TcpBehind packet iph ∨ UdpBehind packet iph then
    ntohs (halfAt packet (iph + ipv4LenAt packet iph + place))
  else 0

/-- The segment has a whole transport header: of TCP with all its options, or of UDP. -/
def SegmentWhole (iph : Nat) : Prop :=
  (TcpBehind packet iph ∧ tcpLenAt packet iph ≤ clippedAt packet iph) ∨ UdpBehind packet iph

/-- The protocol of a segment with a whole header, as the meta tells it. -/
def protocolAt (iph : Nat) : Nat := if TcpBehind packet iph then 0 else 1

/-- The length of the payload behind a whole header. -/
def payloadAt (iph : Nat) : Nat :=
  clippedAt packet iph - if TcpBehind packet iph then tcpLenAt packet iph else 8

/-- The meta reports the addresses and ports of the IPv4 packet at an offset. -/
structure ShowsFlow (iph : Nat) (reported : PacketMeta) : Prop where
  srcIP : reported.basicAttr.srcIP = ntohl (wordAt packet (iph + 12))
  dstIP : reported.basicAttr.dstIP = ntohl (wordAt packet (iph + 16))
  srcPort : reported.basicAttr.srcPort = portAt packet iph 0
  dstPort : reported.basicAttr.dstPort = portAt packet iph 2
  layer3Offset : reported.layer3Offset = u8 iph

/-- The meta reports the protocol and the payload of the segment, as far as there is one. -/
structure ShowsSegment (iph : Nat) (slot reported : PacketMeta) : Prop where
  tcp : TcpBehind packet iph → reported.basicAttr.protocol = 0 ∧
    reported.layer5payloadLen = if tcpLenAt packet iph ≤ clippedAt packet iph then
      clippedAt packet iph - tcpLenAt packet iph else slot.layer5payloadLen
  udp : UdpBehind packet iph → reported.basicAttr.protocol = 1 ∧
    reported.layer5payloadLen = clippedAt packet iph - 8
  neither : ¬ TcpBehind packet iph → ¬ UdpBehind packet iph →
    reported.basicAttr.protocol = slot.basicAttr.protocol ∧
      reported.layer5payloadLen = slot.layer5payloadLen

variable {packet}

/-- The protocol field decides, so that both cannot be. -/
theorem not_tcp_and_udp {iph : Nat} (tcp : TcpBehind packet iph) : ¬ UdpBehind packet iph := by
  intro udp
  have different := tcp.1.symm.trans udp.1
  simp [ipprotoTcp, ipprotoUdp] at different

/-- Of a whole header the protocol and the payload are reported. -/
theorem ShowsSegment.whole {iph : Nat} {slot reported : PacketMeta}
    (shows_ : ShowsSegment packet iph slot reported) (whole : SegmentWhole packet iph) :
    reported.basicAttr.protocol = protocolAt packet iph ∧
      reported.layer5payloadLen = payloadAt packet iph := by
  rw [protocolAt, payloadAt]
  rcases whole with ⟨tcp, fits⟩ | udp
  · obtain ⟨protocol, payload⟩ := shows_.tcp tcp
    rw [if_pos tcp, if_pos tcp]
    exact ⟨protocol, payload.trans (if_pos fits)⟩
  · have notTcp : ¬ TcpBehind packet iph := fun tcp => not_tcp_and_udp tcp udp
    rw [if_neg notTcp, if_neg notTcp]
    exact shows_.udp udp

/-- Without one the payload stays that of the slot. -/
theorem ShowsSegment.stale {iph : Nat} {slot reported : PacketMeta}
    (shows_ : ShowsSegment packet iph slot reported) (cut : ¬ SegmentWhole packet iph) :
    reported.layer5payloadLen = slot.layer5payloadLen := by
  by_cases tcp : TcpBehind packet iph
  · have short : ¬ tcpLenAt packet iph ≤ clippedAt packet iph := fun fits => cut (.inl ⟨tcp, fits⟩)
    exact (shows_.tcp tcp).2.trans (if_neg short)
  · exact (shows_.neither tcp fun udp => cut (.inr udp)).2

/-- What the decoder reports from an IPv4 header on is what the bytes say. -/
theorem reportIpv4_shows {iph : Nat} {slot reported : PacketMeta}
    (pktLen : slot.basicAttr.pktLen = packet.length)
    (returned : reportIpv4 packet iph slot = .ok reported) :
    ShowsFlow packet iph reported ∧ ShowsSegment packet iph slot reported := by
  simp only [reportIpv4, readU32_bind, readU16_bind, readByte_bind, ipv4GetHeaderLen,
    ipv4IsFragment, bind_assoc, pure_bind] at returned
  obtain ⟨-, -, -, -, -, -, behind⟩ := returned
  have clipped : clipL4Len (if decide (halfAt packet (iph + 6) &&& 0xFF3F ≠ 0) = true then 0
      else u16 (ntohs (halfAt packet (iph + 2)) + 2 ^ 16 - byteAt packet iph % 16 * 4))
      slot.basicAttr.pktLen (u8 (iph + byteAt packet iph % 16 * 4)) = clippedAt packet iph := by
    simp only [clippedAt, FragmentAt, ipv4LenAt, pktLen, decide_eq_true_eq]
    rfl
  simp only [processPacketL4, clipped] at behind
  split at behind
  · rename_i tcp
    have isTcp : TcpBehind packet iph := tcp
    simp only [readU32_bind, readU16_bind, readByte_bind, tcpGetHeaderLen, bind_assoc,
      pure_bind] at behind
    obtain ⟨-, -, -, -, -, behind⟩ := behind
    have ports : ∀ place, portAt packet iph place =
        ntohs (halfAt packet (iph + ipv4LenAt packet iph + place)) := by
      intro place
      rw [portAt, if_pos (.inl isTcp)]
    have notNeither : ¬ ¬ TcpBehind packet iph := not_not.mpr isTcp
    split at behind
    · rename_i whole
      cases behind
      exact ⟨⟨rfl, rfl, (ports 0).symm, (ports 2).symm, rfl⟩, ⟨fun _ => ⟨rfl, (if_pos whole).symm⟩,
        fun isUdp => absurd isUdp (not_tcp_and_udp isTcp), fun notTcp => absurd notTcp notNeither⟩⟩
    · rename_i short
      cases behind
      exact ⟨⟨rfl, rfl, (ports 0).symm, (ports 2).symm, rfl⟩, ⟨fun _ => ⟨rfl, (if_neg short).symm⟩,
        fun isUdp => absurd isUdp (not_tcp_and_udp isTcp), fun notTcp => absurd notTcp notNeither⟩⟩
  split at behind
  · rename_i notTcp udp
    have isUdp : UdpBehind packet iph := udp
    simp only [readU16_bind] at behind
    obtain ⟨-, -, behind⟩ := behind
    cases behind
    refine ⟨⟨rfl, rfl, ?_, ?_, rfl⟩, ⟨fun isTcp => absurd isUdp (not_tcp_and_udp isTcp),
      fun _ => ⟨rfl, rfl⟩, fun _ notUdp => absurd isUdp notUdp⟩⟩
    all_goals
      rw [portAt, if_pos (.inr isUdp)]
      rfl
  · rename_i notTcp notUdp
    cases behind
    have neither : ¬ (TcpBehind packet iph ∨ UdpBehind packet iph) := by
      rintro (isTcp | isUdp)
      · exact notTcp isTcp
      · exact notUdp isUdp
    refine ⟨⟨rfl, rfl, ?_, ?_, rfl⟩, ⟨fun isTcp => absurd (.inl isTcp) neither,
      fun isUdp => absurd (.inr isUdp) neither, fun _ _ => ⟨rfl, rfl⟩⟩⟩
    all_goals
      rw [portAt, if_neg neither]

/-! ## The decoder behind the walk -/

/-- There is one header to report, so that the report of a packet is determined. -/
theorem Reports.unique {pktLen iph first second : Nat} (firstReports : Reports packet pktLen iph first)
    (secondReports : Reports packet pktLen iph second) : first = second := by
  by_cases tpdu : TpduAt packet iph
  · exact (firstReports.inner tpdu).1.trans (secondReports.inner tpdu).1.symm
  · exact (firstReports.outer tpdu).trans (secondReports.outer tpdu).symm

/-- The header to report is captured when the one it is looked for from is. -/
theorem Reports.captured {pktLen iph reported : Nat} (reports : Reports packet pktLen iph reported)
    (captured : iph + 20 ≤ pktLen) : reported + 20 ≤ pktLen := by
  by_cases tpdu : TpduAt packet iph
  · exact (reports.inner tpdu).2.2.2
  · rw [reports.outer tpdu]
    exact captured

/-- When the walk ends at an IPv4 header, the decoder reports the header found from
there; a packet cut before its IP header is reported without addresses and ports. -/
theorem decode_ipv4_eq_ok {iph : Nat} (found : Ipv4At packet iph) {slot reported : PacketMeta}
    (pktLen : slot.basicAttr.pktLen = packet.length) :
    processPacketBasic (some packet) (some slot) = .ok (0, some reported) ↔
      (¬ iph + 20 ≤ packet.length → reported = slot.cleared) ∧
      (iph + 20 ≤ packet.length → byteAt packet iph / 16 = 4 ∧
        ∃ header, Reports packet packet.length iph header ∧
          reportIpv4 packet header slot.cleared = .ok reported) := by
  have cleared : slot.cleared.basicAttr.pktLen = packet.length := pktLen
  have decoded : processPacketBasic (some packet) (some slot) = .ok (0, some reported) ↔
      processIpv4 packet iph slot.cleared = .ok (0, reported) := by
    rw [processPacketBasic, decodePacket_eq, (walk_ipv4 iph).mpr found, ok_bind]
    simp only [processNetwork, ↓reduceIte, bind_eq_ok]
    constructor
    · rintro ⟨⟨code, filled⟩, returned, same⟩
      cases same
      exact returned
    · exact fun returned => ⟨_, returned, rfl⟩
  rw [decoded, processIpv4, cleared]
  by_cases captured : iph + 20 ≤ packet.length
  · simp only [captured, not_true_eq_false, false_implies, true_and, true_implies, ↓reduceIte,
      ipv4GetVersion, bind_assoc, pure_bind, readByte_bind]
    by_cases version : byteAt packet iph / 16 = 4
    · simp only [version, ne_eq, not_true_eq_false, ↓reduceIte, bind_eq_ok, true_and]
      constructor
      · rintro ⟨-, result, looked, returned⟩
        cases result with
        | none => cases returned
        | some header =>
          obtain ⟨filled, reports, same⟩ := (bind_eq_ok _ _ _).mp returned
          cases same
          exact ⟨header, (reportedIpv4_eq_some _ _ _).mp looked, reports⟩
      · rintro ⟨header, reports, returned⟩
        refine ⟨by omega, some header, (reportedIpv4_eq_some _ _ _).mpr reports, ?_⟩
        exact (bind_eq_ok _ _ _).mpr ⟨reported, returned, rfl⟩
    · simp only [version, ne_eq, not_false_eq_true, ↓reduceIte, false_and, iff_false, not_and]
      intro _ impossible
      cases impossible
  · simp only [captured, not_false_eq_true, true_implies, false_implies, and_true, ↓reduceIte]
    constructor
    · intro returned
      cases returned
      rfl
    · rintro rfl
      rfl

/-- A decoder that returns has walked to an end. -/
theorem walk_of_ok {slot : PacketMeta} {result : Int × Option PacketMeta}
    (returned : processPacketBasic (some packet) (some slot) = .ok result) :
    ∃ found, walk packet = .ok found := by
  rw [processPacketBasic, decodePacket_eq] at returned
  obtain ⟨done, decoded, -⟩ := (bind_eq_ok _ _ _).mp returned
  obtain ⟨found, walked, -⟩ := (bind_eq_ok _ _ _).mp decoded
  exact ⟨found, walked⟩

/-- The header that is reported, and what of it. -/
structure Reported (packet : List UInt8) (iph header : Nat) (slot reported : PacketMeta) : Prop where
  version : byteAt packet iph / 16 = 4
  reports : Reports packet packet.length iph header
  inside : Ipv4TransportInside packet header
  flow : ShowsFlow packet header reported
  segment : ShowsSegment packet header slot.cleared reported

/-- Of a packet captured to the end of its IP header a header is reported. -/
theorem decode_ipv4_reported {iph : Nat} (found : Ipv4At packet iph) {slot reported : PacketMeta}
    (short : packet.length < 2 ^ 16) (pktLen : slot.basicAttr.pktLen = packet.length)
    (captured : iph + 20 ≤ packet.length)
    (returned : processPacketBasic (some packet) (some slot) = .ok (0, some reported)) :
    ∃ header, Reported packet iph header slot reported := by
  have cleared : slot.cleared.basicAttr.pktLen = packet.length := pktLen
  obtain ⟨-, captures⟩ := (decode_ipv4_eq_ok found pktLen).mp returned
  obtain ⟨version, header, reports, filled⟩ := captures captured
  obtain ⟨flow, segment⟩ := reportIpv4_shows cleared filled
  have inside := (reportIpv4_completes short (reports.captured captured) cleared).mp ⟨_, filled⟩
  exact ⟨header, version, reports, inside, flow, segment⟩

/-- When the header to report and its segment are inside, the packet is reported. -/
theorem exists_decode_ipv4 {iph header : Nat} (found : Ipv4At packet iph) {slot : PacketMeta}
    (short : packet.length < 2 ^ 16) (pktLen : slot.basicAttr.pktLen = packet.length)
    (captured : iph + 20 ≤ packet.length) (version : byteAt packet iph / 16 = 4)
    (reports : Reports packet packet.length iph header)
    (inside : Ipv4TransportInside packet header) :
    ∃ reported, processPacketBasic (some packet) (some slot) = .ok (0, some reported) ∧
      Reported packet iph header slot reported := by
  have cleared : slot.cleared.basicAttr.pktLen = packet.length := pktLen
  obtain ⟨reported, filled⟩ :=
    (reportIpv4_completes short (reports.captured captured) cleared).mpr inside
  obtain ⟨flow, segment⟩ := reportIpv4_shows cleared filled
  refine ⟨reported, (decode_ipv4_eq_ok found pktLen).mpr
    ⟨fun outside => absurd captured outside, fun _ => ⟨version, header, reports, filled⟩⟩, ?_⟩
  exact ⟨version, reports, inside, flow, segment⟩

/-- Reports that agree on the payload, from slots that do not, are of a whole header. -/
theorem Reported.whole {iph header : Nat} {slot reported other expected : PacketMeta}
    (first : Reported packet iph header slot reported)
    (second : Reported packet iph header other expected)
    (differ : slot.layer5payloadLen ≠ other.layer5payloadLen)
    (same : reported.layer5payloadLen = expected.layer5payloadLen) : SegmentWhole packet header := by
  by_contra cut
  rw [first.segment.stale cut, second.segment.stale cut] at same
  exact differ same

end OpenTaker
