import OpenTaker.Ipv4Reports

/-!
# Layers inside of the packet

What a consumer indexes the payload by are three offsets of eight bits and a length. They
nest when the headers are as long as they must be, when the last of them ends below 256
counted from the narrowed offset of the first, and when the IP header does not announce a
packet shorter than itself: in all other cases an offset has wrapped, a header is undersized
or a length has gone below zero. What is captured bounds the payload in every case.
-/

namespace OpenTaker

open ByteReads

/-- The network header a packet is reported with: the one behind the tags, or that inside of a
tunnel. -/
inductive NetworkHeader where
  | ipv4 (iph : Nat)
  | ipv6 (ip6 : Nat)
deriving DecidableEq

variable (packet : List UInt8)

/-- The header is found and reported: behind the tags, and behind a T-PDU. -/
inductive ReportedAt (pktLen : Nat) : NetworkHeader → Prop
  | ipv4 {iph header : Nat} (found : Ipv4At packet iph) (captured : iph + 20 ≤ pktLen)
      (version : byteAt packet iph / 16 = 4) (reports : Reports packet pktLen iph header) :
      ReportedAt pktLen (.ipv4 header)
  | ipv6 {ip6 : Nat} (found : Ipv6At packet ip6) (captured : ip6 + 40 ≤ pktLen)
      (version : byteAt packet ip6 / 16 = 6) : ReportedAt pktLen (.ipv6 ip6)

/-- The total length that an IPv4 header announces, the header included. -/
def totalLenAt (iph : Nat) : Nat := ntohs (halfAt packet (iph + 2))

namespace NetworkHeader

/-- Where the network header begins in the captured bytes. -/
def start : NetworkHeader → Nat
  | .ipv4 iph => iph
  | .ipv6 ip6 => ip6

/-- The bytes it has at least, which is all of it for IPv6. -/
def fixedLen : NetworkHeader → Nat
  | .ipv4 _ => 20
  | .ipv6 _ => sizeofIpv6Header

/-- The bytes it says it has, which for IPv4 may be fewer than its fixed part. -/
def headerLen : NetworkHeader → Nat
  | .ipv4 iph => ipv4LenAt packet iph
  | .ipv6 _ => sizeofIpv6Header

/-- The length that the network header leaves for the transport segment: none of a fragment, and the
payload length of IPv6. -/
def l4PacketLen : NetworkHeader → Nat
  | .ipv4 iph =>
      if FragmentAt packet iph then 0 else u16 (totalLenAt packet iph + 2 ^ 16 - ipv4LenAt packet iph)
  | .ipv6 ip6 => ntohs (halfAt packet (ip6 + 4))

/-- The protocol of the network header, from the field of its family. -/
def l4Proto : NetworkHeader → Nat
  | .ipv4 iph => byteAt packet (iph + 9)
  | .ipv6 ip6 => byteAt packet (ip6 + 6)

/-- Where the transport header begins, as the source computes it. -/
def l4h (network : NetworkHeader) : Nat := network.start + network.headerLen packet

/-- The transport segment as far as it is captured. -/
def clipped (pktLen : Nat) (network : NetworkHeader) : Nat :=
  clipL4Len (network.l4PacketLen packet) pktLen (u8 (network.l4h packet))

/-- The length the TCP header announces for itself, in its words of four bytes, which nothing
bounds. -/
def tcpLen (network : NetworkHeader) : Nat := byteAt packet (network.l4h packet + 12) / 16 * 4

end NetworkHeader

/-- The layers nest, each behind the header before it and all inside of the packet. The
offset of the payload of a TCP segment is set when the segment is not shorter than its
header. -/
structure LayersNest (pktLen : Nat) (network : NetworkHeader) (reported : PacketMeta) : Prop where
  header : reported.layer3Offset + network.fixedLen ≤ reported.layer4Offset
  tcp : reported.basicAttr.isTcp = true → network.tcpLen packet ≤ network.clipped packet pktLen →
    reported.layer4Offset + 20 ≤ reported.layer5Offset
  udp : reported.basicAttr.isUdp = true → reported.layer4Offset + sizeofUdpHeader ≤ reported.layer5Offset
  captured : reported.layer5Offset + reported.layer5payloadLen ≤ pktLen
  total : ∀ iph, network = .ipv4 iph →
    reported.layer5Offset + reported.layer5payloadLen ≤ reported.layer3Offset + totalLenAt packet iph

/-- The headers have their fixed parts and end below 256, counted from the narrowed offset
of the network header, and an IPv4 header with a payload announces at least itself. -/
structure LayersFit (pktLen : Nat) (network : NetworkHeader) : Prop where
  fixed : network.fixedLen ≤ network.headerLen packet
  narrow : u8 network.start + network.headerLen packet < 2 ^ 8
  tcp : network.l4Proto packet = ipprotoTcp → network.tcpLen packet ≤ network.clipped packet pktLen →
    20 ≤ network.tcpLen packet ∧ u8 network.start + network.headerLen packet + network.tcpLen packet < 2 ^ 8
  udp : network.l4Proto packet = ipprotoUdp →
    u8 network.start + network.headerLen packet + sizeofUdpHeader < 2 ^ 8
  total : ∀ iph, network = .ipv4 iph →
    (network.l4Proto packet = ipprotoTcp → network.tcpLen packet ≤ network.clipped packet pktLen) →
    ipv4LenAt packet iph ≤ totalLenAt packet iph

/-! ## What is reported of a transport header -/

/-- The payload reported in a zeroed slot behind a transport header that has ports. -/
inductive ShowsPayload (network : NetworkHeader) (pktLen : Nat) (reported : PacketMeta) : Prop
  | tcp (isTcp : network.l4Proto packet = ipprotoTcp) (fixed : 20 ≤ network.clipped packet pktLen)
      (whole : network.tcpLen packet ≤ network.clipped packet pktLen)
      (protocol : reported.basicAttr.protocol = 0)
      (layer5Offset : reported.layer5Offset = u8 (u8 (network.l4h packet) + network.tcpLen packet))
      (payload : reported.layer5payloadLen = network.clipped packet pktLen - network.tcpLen packet)
  | cut (isTcp : network.l4Proto packet = ipprotoTcp) (fixed : 20 ≤ network.clipped packet pktLen)
      (short : network.clipped packet pktLen < network.tcpLen packet)
      (protocol : reported.basicAttr.protocol = 0)
      (layer5Offset : reported.layer5Offset = 0) (payload : reported.layer5payloadLen = 0)
  | udp (isUdp : network.l4Proto packet = ipprotoUdp)
      (fixed : sizeofUdpHeader ≤ network.clipped packet pktLen)
      (protocol : reported.basicAttr.protocol = 1)
      (layer5Offset : reported.layer5Offset = u8 (u8 (network.l4h packet) + sizeofUdpHeader))
      (payload : reported.layer5payloadLen = network.clipped packet pktLen - sizeofUdpHeader)

/-- The network header at its narrowed offsets, and the payload. -/
structure ShowsLayers (network : NetworkHeader) (pktLen : Nat) (reported : PacketMeta) : Prop where
  layer3Offset : reported.layer3Offset = u8 network.start
  layer4Offset : reported.layer4Offset = u8 (network.l4h packet)
  payload : ShowsPayload packet network pktLen reported

variable {packet} {pktLen : Nat} {slot reported : PacketMeta}

/-- Nothing has been reported of a payload yet: both fields are zero, as a slot has them that has
been cleared. -/
structure NoPayload (slot : PacketMeta) : Prop where
  layer5Offset : slot.layer5Offset = 0
  payload : slot.layer5payloadLen = 0

/-- The decoder reports a transport header with ports as its protocol says. -/
theorem processPacketL4_shows (network : NetworkHeader) (noPayload : NoPayload slot)
    (layer3Offset : slot.layer3Offset = u8 network.start)
    (layer4Offset : slot.layer4Offset = u8 (network.l4h packet))
    (returned : processPacketL4 packet (network.l4PacketLen packet) (network.l4Proto packet)
      (network.l4h packet) pktLen slot = .ok reported)
    (ports : reported.basicAttr.isTcpUdp = true) : ShowsLayers packet network pktLen reported := by
  have clipped : clipL4Len (network.l4PacketLen packet) pktLen slot.layer4Offset =
      network.clipped packet pktLen := by
    rw [layer4Offset]
    rfl
  simp only [processPacketL4, clipped] at returned
  split at returned
  · rename_i tcp
    simp only [readU32_bind, readU16_bind, readByte_bind, tcpGetHeaderLen, bind_assoc, pure_bind] at returned
    obtain ⟨-, -, -, -, -, returned⟩ := returned
    split at returned
    · rename_i whole
      cases returned
      refine ⟨layer3Offset, layer4Offset, .tcp tcp.1 tcp.2 whole rfl ?_ rfl⟩
      rw [← layer4Offset]
      rfl
    · rename_i short
      cases returned
      exact ⟨layer3Offset, layer4Offset, .cut tcp.1 tcp.2 (Nat.lt_of_not_le short) rfl
        noPayload.layer5Offset noPayload.payload⟩
  split at returned
  · rename_i udp
    simp only [readU16_bind] at returned
    obtain ⟨-, -, returned⟩ := returned
    cases returned
    refine ⟨layer3Offset, layer4Offset, .udp udp.1 udp.2 rfl ?_ rfl⟩
    rw [← layer4Offset]
  · cases returned
    simp [PacketBasicAttr.isTcpUdp] at ports

/-- What IPv4 reports with ports shows the layers of the header it has reported. -/
theorem reportIpv4_layers {iph : Nat} (noPayload : NoPayload slot) (pktLenIs : slot.basicAttr.pktLen = pktLen)
    (returned : reportIpv4 packet iph slot = .ok reported) (ports : reported.basicAttr.isTcpUdp = true) :
    ShowsLayers packet (.ipv4 iph) pktLen reported := by
  simp only [reportIpv4, readU32_bind, readU16_bind, readByte_bind, ipv4GetHeaderLen, ipv4IsFragment,
    bind_assoc, pure_bind] at returned
  obtain ⟨-, -, -, -, -, -, behind⟩ := returned
  have l4PacketLen : (if decide (halfAt packet (iph + 6) &&& 0xFF3F ≠ 0) = true then 0
      else u16 (ntohs (halfAt packet (iph + 2)) + 2 ^ 16 - byteAt packet iph % 16 * 4)) =
      NetworkHeader.l4PacketLen packet (.ipv4 iph) := by
    simp only [NetworkHeader.l4PacketLen, FragmentAt, totalLenAt, ipv4LenAt, decide_eq_true_eq]
    rfl
  rw [l4PacketLen, pktLenIs] at behind
  refine processPacketL4_shows (.ipv4 iph) ?_ ?_ ?_ behind ports
  · exact ⟨noPayload.layer5Offset, noPayload.payload⟩
  · rfl
  · rfl

/-! ## The decoder -/

/-- A packet reported with ports has a reported network header, and its layers are shown. -/
theorem decodePacket_layers {code : Int} (noPayload : NoPayload slot) (pktLenIs : slot.basicAttr.pktLen = pktLen)
    (returned : decodePacket packet slot = .ok (code, reported)) (ports : reported.basicAttr.isTcpUdp = true) :
    ∃ network, ReportedAt packet pktLen network ∧ ShowsLayers packet network pktLen reported := by
  have cleared : NoPayload slot.cleared := ⟨noPayload.layer5Offset, noPayload.payload⟩
  have clearedLen : slot.cleared.basicAttr.pktLen = pktLen := pktLenIs
  have portless : slot.cleared.basicAttr.isTcpUdp = false := rfl
  rw [decodePacket_eq] at returned
  obtain ⟨⟨type, ipOffset⟩, walked, behind⟩ := (bind_eq_ok _ _ _).mp returned
  simp only [processNetwork] at behind
  split at behind
  · rename_i isIp4
    cases isIp4
    have found := (walk_ipv4 ipOffset).mp walked
    simp only [processIpv4, clearedLen, ipv4GetVersion, bind_assoc, pure_bind] at behind
    split at behind
    · rename_i captured
      obtain ⟨-, behind⟩ := (readByte_bind _ _ _).mp behind
      split at behind
      · cases behind
        simp [portless] at ports
      · rename_i version
        obtain ⟨header, reports, behind⟩ := (bind_eq_ok _ _ _).mp behind
        cases header with
        | none =>
          cases behind
          simp [portless] at ports
        | some header =>
          obtain ⟨filled, filledIn, same⟩ := (bind_eq_ok _ _ _).mp behind
          cases same
          exact ⟨.ipv4 header,
            .ipv4 found captured (not_not.mp version) ((reportedIpv4_eq_some _ _ _).mp reports),
            reportIpv4_layers cleared clearedLen filledIn ports⟩
    · cases behind
      simp [portless] at ports
  split at behind
  · rename_i isIp6
    cases isIp6
    have found := (walk_ipv6 ipOffset).mp walked
    simp only [processIpv6, clearedLen] at behind
    split at behind
    · rename_i captured
      obtain ⟨-, behind⟩ := (readByte_bind _ _ _).mp behind
      split at behind
      · cases behind
        simp [portless] at ports
      · rename_i version
        simp only [readU32_bind, readU16_bind, readByte_bind] at behind
        obtain ⟨-, -, -, -, -, -, behind⟩ := behind
        obtain ⟨filled, filledIn, same⟩ := (bind_eq_ok _ _ _).mp behind
        cases same
        refine ⟨.ipv6 ipOffset, .ipv6 found captured (not_not.mp version), ?_⟩
        refine processPacketL4_shows (.ipv6 ipOffset) ?_ ?_ ?_ filledIn ports
        · exact ⟨cleared.layer5Offset, cleared.payload⟩
        · rfl
        · rfl
    · cases behind
      simp [portless] at ports
  · cases behind
    simp [portless] at ports

/-- There is one reported network header, so that the layers of a packet are determined. -/
theorem ReportedAt.unique {first second : NetworkHeader} (firstReported : ReportedAt packet pktLen first)
    (secondReported : ReportedAt packet pktLen second) : first = second := by
  cases firstReported with
  | ipv4 found _ _ reports =>
    have walked := (walk_ipv4 _).mpr found
    cases secondReported with
    | ipv4 otherFound _ _ otherReports =>
      have same := walked.symm.trans ((walk_ipv4 _).mpr otherFound)
      cases same
      rw [reports.unique otherReports]
    | ipv6 otherFound _ _ =>
      have same := walked.symm.trans ((walk_ipv6 _).mpr otherFound)
      cases same
  | ipv6 found _ _ =>
    have walked := (walk_ipv6 _).mpr found
    cases secondReported with
    | ipv4 otherFound _ _ _ =>
      have same := walked.symm.trans ((walk_ipv4 _).mpr otherFound)
      cases same
    | ipv6 otherFound _ _ =>
      have same := walked.symm.trans ((walk_ipv6 _).mpr otherFound)
      cases same
      rfl

/-! ## When the layers nest -/

variable {network : NetworkHeader}

/-- Behind a narrowed offset a header of at most 60 bytes has its fixed part exactly when
its length says so and the next offset does not wrap. -/
theorem narrowed_le_iff {offset fixed length : Nat} (narrow : offset < 2 ^ 8) (short : length ≤ 60) :
    offset + fixed ≤ u8 (offset + length) ↔ fixed ≤ length ∧ offset + length < 2 ^ 8 := by
  simp only [u8]
  omega

/-- An offset is stored in a byte, so that it is below 256. -/
theorem u8_lt (value : Nat) : u8 value < 2 ^ 8 := Nat.mod_lt value (by decide)

/-- Adding before or after the cut to a byte gives the same byte. -/
theorem u8_add (value more : Nat) : u8 (value + more) = u8 (u8 value + more) := by
  simp only [u8]
  omega

/-- A length in words of four bits is sixty bytes at most. -/
theorem nibble_le (packet : List UInt8) (offset : Nat) :
    byteAt packet offset % 16 * 4 ≤ 60 ∧ byteAt packet offset / 16 * 4 ≤ 60 := by
  have byte := (packet.getD offset 0).toNat_lt
  simp only [byteAt]
  omega

/-- No header of the network layer is longer than sixty bytes. -/
theorem NetworkHeader.headerLen_le (network : NetworkHeader) (packet : List UInt8) :
    network.headerLen packet ≤ 60 := by
  cases network with
  | ipv4 iph => exact (nibble_le packet iph).1
  | ipv6 ip6 => exact (by decide : sizeofIpv6Header ≤ 60)

/-- A segment with bytes is no longer than the IPv4 header leaves for it. -/
theorem clipped_le_of_announced {iph : Nat} (short : pktLen < 2 ^ 16)
    (some : 0 < (NetworkHeader.ipv4 iph).clipped packet pktLen)
    (announced : ipv4LenAt packet iph ≤ totalLenAt packet iph) :
    ipv4LenAt packet iph + (NetworkHeader.ipv4 iph).clipped packet pktLen ≤ totalLenAt packet iph := by
  obtain ⟨within, -⟩ := (le_clipL4Len_iff some short).mp (Nat.le_refl _)
  have total : totalLenAt packet iph < 65536 := ntohs_lt _
  simp only [NetworkHeader.l4PacketLen, u16] at within
  split at within <;> omega

/-- What is to hold of the offsets when the payload is reported behind a transport header of
some length. -/
theorem payload_nests_iff {fixed length : Nat} (short : pktLen < 2 ^ 16)
    (shows_ : reported.layer3Offset = u8 network.start ∧ reported.layer4Offset = u8 (network.l4h packet))
    (layer5Offset : reported.layer5Offset = u8 (u8 (network.l4h packet) + length))
    (payload : reported.layer5payloadLen = network.clipped packet pktLen - length)
    (some : 0 < network.clipped packet pktLen) (whole : length ≤ network.clipped packet pktLen)
    (bounded : length ≤ 60) :
    (reported.layer3Offset + network.fixedLen ≤ reported.layer4Offset ∧
      reported.layer4Offset + fixed ≤ reported.layer5Offset ∧
      reported.layer5Offset + reported.layer5payloadLen ≤ pktLen ∧
      ∀ iph, network = .ipv4 iph →
        reported.layer5Offset + reported.layer5payloadLen ≤ reported.layer3Offset + totalLenAt packet iph) ↔
    (network.fixedLen ≤ network.headerLen packet ∧
      u8 network.start + network.headerLen packet < 2 ^ 8 ∧
      fixed ≤ length ∧ u8 network.start + network.headerLen packet + length < 2 ^ 8 ∧
      ∀ iph, network = .ipv4 iph → ipv4LenAt packet iph ≤ totalLenAt packet iph) := by
  obtain ⟨-, captured⟩ := (le_clipL4Len_iff some short).mp (Nat.le_refl (network.clipped packet pktLen))
  have layer4 : u8 (network.l4h packet) = u8 (u8 network.start + network.headerLen packet) := u8_add _ _
  have header := @narrowed_le_iff (u8 network.start) network.fixedLen (network.headerLen packet)
    (u8_lt _) (network.headerLen_le packet)
  have transport := @narrowed_le_iff (u8 (network.l4h packet)) fixed length (u8_lt _) bounded
  rw [shows_.1, shows_.2, layer5Offset, payload, transport, layer4, header]
  constructor
  · rintro ⟨⟨fixedOk, narrow⟩, ⟨longEnough, narrowBehind⟩, -, total⟩
    have same : u8 (u8 network.start + network.headerLen packet) =
        u8 network.start + network.headerLen packet := Nat.mod_eq_of_lt narrow
    rw [same] at narrowBehind total
    refine ⟨fixedOk, narrow, longEnough, narrowBehind, fun iph isIpv4 => ?_⟩
    have bound := total iph isIpv4
    subst isIpv4
    have headerLen : (NetworkHeader.ipv4 iph).headerLen packet = ipv4LenAt packet iph := rfl
    rw [show u8 (u8 (NetworkHeader.ipv4 iph).start + (NetworkHeader.ipv4 iph).headerLen packet + length) =
      u8 (NetworkHeader.ipv4 iph).start + (NetworkHeader.ipv4 iph).headerLen packet + length from
      Nat.mod_eq_of_lt narrowBehind, headerLen] at bound
    omega
  · rintro ⟨fixedOk, narrow, longEnough, narrowBehind, announced⟩
    have same : u8 (u8 network.start + network.headerLen packet) =
        u8 network.start + network.headerLen packet := Nat.mod_eq_of_lt narrow
    have behind : u8 (u8 network.start + network.headerLen packet + length) =
        u8 network.start + network.headerLen packet + length := Nat.mod_eq_of_lt narrowBehind
    rw [layer4, same] at captured
    rw [same, behind]
    refine ⟨⟨fixedOk, narrow⟩, ⟨longEnough, narrowBehind⟩, by omega, fun iph isIpv4 => ?_⟩
    have enough := announced iph isIpv4
    subst isIpv4
    have bound := clipped_le_of_announced short some enough
    have headerLen : (NetworkHeader.ipv4 iph).headerLen packet = ipv4LenAt packet iph := rfl
    rw [headerLen]
    omega

/-- The layers that are shown nest exactly when the headers fit. -/
theorem ShowsLayers.nest_iff (shows_ : ShowsLayers packet network pktLen reported) (short : pktLen < 2 ^ 16)
    (ports : reported.basicAttr.isTcpUdp = true) :
    LayersNest packet pktLen network reported ↔ LayersFit packet pktLen network := by
  have offsets := And.intro shows_.layer3Offset shows_.layer4Offset
  cases shows_.payload with
  | tcp isTcp fixed whole protocol layer5Offset payload =>
    have nests := @payload_nests_iff packet pktLen reported network 20 _ short offsets layer5Offset payload
      (by omega) whole (nibble_le packet _).2
    have tcp : reported.basicAttr.isTcp = true := by simp [PacketBasicAttr.isTcp, ports, protocol]
    have notUdp : ¬ reported.basicAttr.isUdp = true := by simp [PacketBasicAttr.isUdp, protocol]
    have notProtoUdp : ¬ network.l4Proto packet = ipprotoUdp := by simp [isTcp, ipprotoTcp, ipprotoUdp]
    constructor
    · intro nest
      obtain ⟨fixedOk, narrow, longEnough, narrowBehind, announced⟩ :=
        nests.mp ⟨nest.header, nest.tcp tcp whole, nest.captured, nest.total⟩
      exact ⟨fixedOk, narrow, fun _ _ => ⟨longEnough, narrowBehind⟩,
        fun isUdp => absurd isUdp notProtoUdp, fun iph isIpv4 _ => announced iph isIpv4⟩
    · intro fit
      obtain ⟨longEnough, narrowBehind⟩ := fit.tcp isTcp whole
      obtain ⟨header, behind, captured, total⟩ := nests.mpr
        ⟨fit.fixed, fit.narrow, longEnough, narrowBehind, fun iph isIpv4 => fit.total iph isIpv4 fun _ => whole⟩
      exact ⟨header, fun _ _ => behind, fun udp => absurd udp notUdp, captured, total⟩
  | cut isTcp fixed cut protocol layer5Offset payload =>
    have header := @narrowed_le_iff (u8 network.start) network.fixedLen (network.headerLen packet)
      (u8_lt _) (network.headerLen_le packet)
    have layer4 : u8 (network.l4h packet) = u8 (u8 network.start + network.headerLen packet) := u8_add _ _
    have notWhole : ¬ network.tcpLen packet ≤ network.clipped packet pktLen := Nat.not_le.mpr cut
    have notUdp : ¬ reported.basicAttr.isUdp = true := by simp [PacketBasicAttr.isUdp, protocol]
    have notProtoUdp : ¬ network.l4Proto packet = ipprotoUdp := by simp [isTcp, ipprotoTcp, ipprotoUdp]
    constructor
    · intro nest
      have nested := nest.header
      rw [offsets.1, offsets.2, layer4, header] at nested
      exact ⟨nested.1, nested.2, fun _ whole => absurd whole notWhole,
        fun isUdp => absurd isUdp notProtoUdp, fun _ _ whole => absurd (whole isTcp) notWhole⟩
    · intro fit
      refine ⟨?_, fun _ whole => absurd whole notWhole, fun udp => absurd udp notUdp, ?_, fun iph _ => ?_⟩
      · rw [offsets.1, offsets.2, layer4, header]
        exact ⟨fit.fixed, fit.narrow⟩
      all_goals
        rw [layer5Offset, payload]
        exact Nat.zero_le _
  | udp isUdp fixed protocol layer5Offset payload =>
    have nests := @payload_nests_iff packet pktLen reported network sizeofUdpHeader _ short offsets
      layer5Offset payload (by simp only [sizeofUdpHeader] at fixed; omega) fixed (by decide)
    have udp : reported.basicAttr.isUdp = true := by simp [PacketBasicAttr.isUdp, ports, protocol]
    have notTcp : ¬ reported.basicAttr.isTcp = true := by simp [PacketBasicAttr.isTcp, protocol]
    have notProtoTcp : ¬ network.l4Proto packet = ipprotoTcp := by simp [isUdp, ipprotoTcp, ipprotoUdp]
    constructor
    · intro nest
      obtain ⟨fixedOk, narrow, -, narrowBehind, announced⟩ :=
        nests.mp ⟨nest.header, nest.udp udp, nest.captured, nest.total⟩
      exact ⟨fixedOk, narrow, fun isTcp => absurd isTcp notProtoTcp, fun _ => narrowBehind,
        fun iph isIpv4 _ => announced iph isIpv4⟩
    · intro fit
      obtain ⟨header, behind, captured, total⟩ := nests.mpr
        ⟨fit.fixed, fit.narrow, Nat.le_refl _, fit.udp isUdp,
          fun iph isIpv4 => fit.total iph isIpv4 fun isTcp => absurd isTcp notProtoTcp⟩
      exact ⟨header, fun tcp => absurd tcp notTcp, fun _ => behind, captured, total⟩

/-! ## The decoder in a zeroed slot -/

/-- A packet decoded into a zeroed slot and reported with ports has one reported network
header, and its layers nest exactly when the headers fit. -/
theorem layers_nest_iff (packet : List UInt8) (pktLen : Nat) (short : pktLen < 2 ^ 16) (code : Int)
    (reported : PacketMeta)
    (returned : processPacketBasic (some packet) (some (PacketMeta.captured pktLen)) =
      .ok (code, some reported))
    (ports : reported.basicAttr.isTcpUdp = true) :
    ∃ network, ReportedAt packet pktLen network ∧
      (∀ other, ReportedAt packet pktLen other → other = network) ∧
      (LayersNest packet pktLen network reported ↔ LayersFit packet pktLen network) := by
  obtain ⟨⟨decodedCode, decoded⟩, walked, same⟩ := (bind_eq_ok _ _ _).mp returned
  cases same
  obtain ⟨network, found, shows_⟩ := decodePacket_layers ⟨rfl, rfl⟩ rfl walked ports
  exact ⟨network, found, fun other otherFound => otherFound.unique found, shows_.nest_iff short ports⟩

/-- What the decoder reports of the small UDP packet. -/
def smallUdpReport : PacketMeta :=
  { PacketMeta.captured 42 with
    layer3Offset := 14
    layer4Offset := 34
    layer5Offset := 42
    basicAttr :=
      { (PacketMeta.captured 42).basicAttr with
        srcIP := 0x0A000001
        dstIP := 0x0A000002
        srcPort := 53
        dstPort := 12345
        protocol := 1 } }

/-- The report of the small UDP packet names one network header, and its layers nest if and only if
its headers fit. -/
theorem layers_nest_small_udp :
    processPacketBasic (some smallUdp) (some (PacketMeta.captured 42)) = .ok (0, some smallUdpReport) ∧
      ∃ network, ReportedAt smallUdp 42 network ∧
        (∀ other, ReportedAt smallUdp 42 other → other = network) ∧
        (LayersNest smallUdp 42 network smallUdpReport ↔ LayersFit smallUdp 42 network) := by
  have returned : processPacketBasic (some smallUdp) (some (PacketMeta.captured 42)) =
      .ok (0, some smallUdpReport) := by decide
  exact ⟨returned, layers_nest_iff smallUdp 42 (by decide) 0 smallUdpReport returned (by decide)⟩

/-- The small UDP packet with an IPv4 header that says it has no words. -/
def noHeaderLen : List UInt8 := smallUdp.set 14 0x40

/-- The transport header is reported at the beginning of the IPv4 header, whose own length field
says zero. -/
theorem transport_header_on_ip_header :
    ∃ reported, processPacketBasic (some noHeaderLen) (some (PacketMeta.captured 42)) = .ok (0, some reported) ∧
      reported.basicAttr.isTcpUdp = true ∧ reported.layer3Offset = 14 ∧ reported.layer4Offset = 14 ∧
      ∀ network, ¬ LayersNest noHeaderLen 42 network reported := by
  obtain ⟨reported, returned, ports, layer3, layer4⟩ : ∃ reported,
      processPacketBasic (some noHeaderLen) (some (PacketMeta.captured 42)) = .ok (0, some reported) ∧
      reported.basicAttr.isTcpUdp = true ∧ reported.layer3Offset = 14 ∧ reported.layer4Offset = 14 := by
    refine ⟨{ smallUdpReport with
      layer4Offset := 14
      layer5Offset := 22
      layer5payloadLen := 20
      basicAttr := { smallUdpReport.basicAttr with srcPort := 0x4000, dstPort := 28 } }, ?_⟩
    decide
  refine ⟨reported, returned, ports, layer3, layer4, fun network nest => ?_⟩
  have header := nest.header
  rw [layer3, layer4] at header
  cases network <;> simp [NetworkHeader.fixedLen, sizeofIpv6Header] at header

end OpenTaker
