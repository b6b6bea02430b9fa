import OpenTaker.FrameDecoding
import OpenTaker.Ipv4Reports

/-!
# Encoded IPv4 packets

A whole IPv4 packet with a TCP or UDP segment between any ports, wherever it stands in a
frame: behind ethernet and tags, behind labels, or inside of another packet. From its
offset on the decoder reports its addresses, ports, protocol and payload.
-/

namespace OpenTaker

open ByteReads

/-- A UDP header with any ports, those of a tunnel too. -/
structure AnyUdpHeader where
  srcPort : UInt16
  dstPort : UInt16
  pktLen : UInt16
  checkSum : UInt16

/-- The eight bytes of a UDP header with any ports, in the order of the network. The header of
`FrameEncoding` is one whose ports are not those of a tunnel. -/
def AnyUdpHeader.encode (header : AnyUdpHeader) : List UInt8 :=
  be16 header.srcPort ++ (be16 header.dstPort ++ (be16 header.pktLen ++ be16 header.checkSum))

/-- A transport header with any ports, those of a tunnel too. -/
inductive Segment where
  | tcp (header : TcpHeader)
  | udp (header : AnyUdpHeader)

namespace Segment

/-- The number of the protocol in the IPv4 header, by which the decoder chooses between the two. -/
def protocol : Segment → UInt8
  | .tcp _ => 6
  | .udp _ => 17

/-- The length of the transport header: that of TCP has its options in it, that of UDP is always
eight. -/
def headerLen : Segment → Nat
  | .tcp header => header.options.headerLen
  | .udp _ => 8

/-- The bytes of the transport header, as they stand behind the IPv4 header. -/
def encode : Segment → List UInt8
  | .tcp header => header.encode
  | .udp header => header.encode

/-- The port of the sender, which both headers have in the first two bytes. -/
def srcPort : Segment → UInt16
  | .tcp header => header.srcPort
  | .udp header => header.srcPort

/-- The port of the receiver, which both headers have in the next two bytes. -/
def dstPort : Segment → UInt16
  | .tcp header => header.dstPort
  | .udp header => header.dstPort

/-- The protocol as the meta tells it, in a single bit: 0 for TCP and 1 for UDP. -/
def protocolBit : Segment → Nat
  | .tcp _ => 0
  | .udp _ => 1

/-- The header written is as long as its length says, so that the payload begins where the decoder
looks for it. -/
theorem encode_length (segment : Segment) : segment.encode.length = segment.headerLen := by
  cases segment with
  | tcp header => exact (Transport.tcp header).encode_length
  | udp header => rfl

/-- The bytes of a transport header, where it stands in a packet. -/
theorem bytes {packet : List UInt8} {segment : Segment} {l4h : Nat}
    (hasAt : HasAt packet l4h segment.encode) :
    halfAt packet l4h = ntohs segment.srcPort.toNat ∧
      halfAt packet (l4h + 2) = ntohs segment.dstPort.toNat ∧
      ∀ header, segment = .tcp header → byteAt packet (l4h + 12) / 16 * 4 =
        header.options.headerLen := by
  cases segment with
  | tcp header =>
    have reads := tcpReads hasAt
    have length := reads.headerLen
    simp only [tcpGetHeaderLen, readByte_bind] at length
    refine ⟨((readU16_eq_ok _ _).mp reads.srcPort).2, ((readU16_eq_ok _ _).mp reads.dstPort).2, ?_⟩
    rintro _ same
    cases same
    exact Except.ok.inj length.2
  | udp header =>
    obtain ⟨srcPort, rest⟩ := hasAt.append
    obtain ⟨dstPort, -⟩ := rest.append
    refine ⟨((readU16_eq_ok _ _).mp srcPort.readU16).2, ((readU16_eq_ok _ _).mp dstPort.readU16).2, ?_⟩
    rintro _ impossible
    cases impossible

end Segment

/-- An IPv4 packet that is not fragmented, with a segment of TCP or UDP and its payload. -/
structure Ipv4Packet where
  header : Ipv4Header
  segment : Segment
  payload : List UInt8

namespace Ipv4Packet

variable (ip : Ipv4Packet)

/-- The length of the IPv4 header with its options, a multiple of four of at least twenty. -/
def headerLen : Nat := ip.header.options.headerLen

/-- What follows the IPv4 header: the transport header and the payload, as the field of the total
length counts it. -/
def segmentLen : Nat := ip.segment.headerLen + ip.payload.length

/-- The bytes of the whole packet, from the version on, without a frame around it. -/
def encode : List UInt8 :=
  ip.header.encode ip.segment.protocol ip.segmentLen ++ (ip.segment.encode ++ ip.payload)

/-- The IPv4 header takes the bytes that its length field announces. -/
theorem header_encode_length :
    (ip.header.encode ip.segment.protocol ip.segmentLen).length = ip.headerLen :=
  (Network.ipv4 ip.header).encode_length ip.segment.protocol ip.segmentLen

/-- The packet is as long as the total length it announces, which the decoder reads as 16 bits. -/
theorem encode_length : ip.encode.length = ip.headerLen + ip.segmentLen := by
  rw [encode, List.length_append, header_encode_length, List.length_append,
    ip.segment.encode_length, segmentLen]

/-- The meta reports the packet: its addresses, offsets, ports and flags. -/
structure Shown (reported : PacketMeta) : Prop where
  srcIP : reported.basicAttr.srcIP = ip.header.srcAddr.toNat
  dstIP : reported.basicAttr.dstIP = ip.header.dstAddr.toNat
  srcPort : reported.basicAttr.srcPort = ip.segment.srcPort.toNat
  dstPort : reported.basicAttr.dstPort = ip.segment.dstPort.toNat
  protocol : reported.basicAttr.protocol = ip.segment.protocolBit
  payload : reported.layer5payloadLen = ip.payload.length

variable {ip} {packet : List UInt8} {iph : Nat}

/-! ## The bytes of a packet -/

/-- What the bytes of a string say from the offset of an IPv4 packet on. -/
structure Bytes (packet : List UInt8) (iph : Nat) (ip : Ipv4Packet) : Prop where
  captured : iph + ip.headerLen + ip.segmentLen ≤ packet.length
  version : byteAt packet iph / 16 = 4
  headerLen : ipv4LenAt packet iph = ip.headerLen
  whole : ¬ FragmentAt packet iph
  len : halfAt packet (iph + 2) = ntohs (ip.headerLen + ip.segmentLen)
  protocol : byteAt packet (iph + 9) = ip.segment.protocol.toNat
  srcAddr : wordAt packet (iph + 12) = ntohl ip.header.srcAddr.toNat
  dstAddr : wordAt packet (iph + 16) = ntohl ip.header.dstAddr.toNat
  srcPort : halfAt packet (iph + ip.headerLen) = ntohs ip.segment.srcPort.toNat
  dstPort : halfAt packet (iph + ip.headerLen + 2) = ntohs ip.segment.dstPort.toNat
  tcpLen : ∀ header, ip.segment = .tcp header →
    tcpLenAt packet iph = header.options.headerLen

/-- The packet at an offset of a frame shows the decoder all fields of its headers. Everything that
follows is proved from these bytes, not from the encoding. -/
theorem bytes (hasAt : HasAt packet iph ip.encode) (short : packet.length < 2 ^ 16) :
    Bytes packet iph ip := by
  have length := ip.encode_length
  have minimal : 20 ≤ ip.headerLen := Nat.le_add_right 20 _
  have captured : iph + ip.headerLen + ip.segmentLen ≤ packet.length := by
    have within := hasAt.length_le (by omega)
    omega
  obtain ⟨headerAt, rest⟩ := hasAt.append
  obtain ⟨segmentAt, -⟩ := rest.append
  rw [header_encode_length] at segmentAt
  have reads := ipv4Reads headerAt (by
    have within : iph + ip.headerLen + ip.segmentLen < 2 ^ 16 := Nat.lt_of_le_of_lt captured short
    simp only [headerLen] at within
    omega)
  have version := reads.version
  have length := reads.headerLen
  have whole := reads.whole
  simp only [ipv4GetVersion, ipv4GetHeaderLen, ipv4IsFragment, readByte_bind,
    readU16_bind] at version length whole
  have headerLength : ipv4LenAt packet iph = ip.headerLen := Except.ok.inj length.2
  obtain ⟨srcPort, dstPort, tcpLen⟩ := Segment.bytes segmentAt
  refine ⟨captured, Except.ok.inj version.2, headerLength,
    of_decide_eq_false (Except.ok.inj whole.2), ((readU16_eq_ok _ _).mp reads.len).2,
    ((readByte_eq_ok _ _).mp reads.protocol).2, ((readU32_eq_ok _ _).mp reads.srcAddr).2,
    ((readU32_eq_ok _ _).mp reads.dstAddr).2, srcPort, dstPort, ?_⟩
  rw [tcpLenAt, headerLength]
  exact tcpLen

/-- The segment is captured to its end, so that its length is not cut. -/
theorem Bytes.clipped (bytes : Bytes packet iph ip) (short : packet.length < 2 ^ 16) :
    clippedAt packet iph = ip.segmentLen := by
  have captured := bytes.captured
  have length : u16 (ntohs (ntohs (ip.headerLen + ip.segmentLen)) + 2 ^ 16 - ip.headerLen) =
      ip.segmentLen := by
    rw [ntohs_ntohs (by omega), u16]
    omega
  rw [clippedAt, if_neg bytes.whole, bytes.len, bytes.headerLen, length]
  apply clipL4Len_of_le
  have narrowed : u8 (iph + ip.headerLen) ≤ iph + ip.headerLen := Nat.mod_le _ _
  omega

/-- Each kind of segment is found behind its header. -/
theorem Bytes.behind (bytes : Bytes packet iph ip) (short : packet.length < 2 ^ 16) :
    (∀ header, ip.segment = .tcp header → TcpBehind packet iph) ∧
      (∀ header, ip.segment = .udp header → UdpBehind packet iph) := by
  have clipped := bytes.clipped short
  have protocol := bytes.protocol
  constructor
  · intro header isTcp
    simp only [isTcp, Segment.protocol, segmentLen, Segment.headerLen,
      HeaderOptions.headerLen] at protocol clipped
    exact ⟨protocol, by omega⟩
  · intro header isUdp
    simp only [isUdp, Segment.protocol, segmentLen, Segment.headerLen] at protocol clipped
    exact ⟨protocol, by omega⟩

/-! ## The report of a packet -/

/-- A meta that reports what the bytes say reports the packet. -/
theorem Bytes.shown (bytes : Bytes packet iph ip) (short : packet.length < 2 ^ 16)
    {slot reported : PacketMeta} (flow : ShowsFlow packet iph reported)
    (segment : ShowsSegment packet iph slot reported) : ip.Shown reported := by
  have clipped := bytes.clipped short
  obtain ⟨tcpBehind, udpBehind⟩ := bytes.behind short
  have some : TcpBehind packet iph ∨ UdpBehind packet iph := by
    cases isSegment : ip.segment with
    | tcp header => exact .inl (tcpBehind header isSegment)
    | udp header => exact .inr (udpBehind header isSegment)
  refine ⟨?_, ?_, ?_, ?_, ?_, ?_⟩
  · rw [flow.srcIP, bytes.srcAddr, ntohl_ntohl (UInt32.toNat_lt _)]
  · rw [flow.dstIP, bytes.dstAddr, ntohl_ntohl (UInt32.toNat_lt _)]
  · rw [flow.srcPort, portAt, if_pos some, bytes.headerLen, Nat.add_zero, bytes.srcPort,
      ntohs_ntohs (UInt16.toNat_lt _)]
  · rw [flow.dstPort, portAt, if_pos some, bytes.headerLen, bytes.dstPort,
      ntohs_ntohs (UInt16.toNat_lt _)]
  all_goals
    cases isSegment : ip.segment with
    | tcp header =>
      obtain ⟨protocol, payload⟩ := segment.tcp (tcpBehind header isSegment)
      have tcpLen := bytes.tcpLen header isSegment
      rw [segmentLen, isSegment, Segment.headerLen] at clipped
      first
        | exact protocol
        | rw [payload, tcpLen, clipped, if_pos (by omega), Nat.add_sub_cancel_left]
    | udp header =>
      obtain ⟨protocol, payload⟩ := segment.udp (udpBehind header isSegment)
      rw [segmentLen, isSegment, Segment.headerLen] at clipped
      first
        | exact protocol
        | rw [payload, clipped, Nat.add_sub_cancel_left]

/-- What the decoder reads behind the header of the packet is captured. -/
theorem Bytes.transportInside (bytes : Bytes packet iph ip) : Ipv4TransportInside packet iph := by
  have captured := bytes.captured
  have minimal : 20 ≤ ip.headerLen := Nat.le_add_right 20 _
  intro _
  rw [bytes.headerLen, bytes.protocol]
  constructor
  · intro isTcp
    cases isSegment : ip.segment with
    | tcp header =>
      have long : 20 ≤ ip.segmentLen := by
        simp only [segmentLen, isSegment, Segment.headerLen, HeaderOptions.headerLen]
        omega
      omega
    | udp header =>
      rw [isSegment] at isTcp
      cases isTcp
  · intro isUdp
    cases isSegment : ip.segment with
    | tcp header =>
      rw [isSegment] at isUdp
      cases isUdp
    | udp header =>
      have long : 8 ≤ ip.segmentLen := by
        simp only [segmentLen, isSegment, Segment.headerLen]
        omega
      omega

/-! ## Packets taken for those of GTP-U -/

/-- The bytes `rest` stand behind the packet. The decoder takes it for no T-PDU: it has
not the port 26632, or what is captured behind its UDP header is no T-PDU. -/
def PassesGtp (ip : Ipv4Packet) (rest : List UInt8) : Prop :=
  ∀ header, ip.segment = .udp header → header.srcPort = 26632 ∨ header.dstPort = 26632 →
    2 ≤ (ip.payload ++ rest).length ∧
      ¬ isTpdu (byteAt (ip.payload ++ rest) 0) (byteAt (ip.payload ++ rest) 1) = true

/-- A port is read as that of GTP-U when its bytes are swapped. -/
theorem port_swapped (port : UInt16) : ntohs port.toNat = ntGtpUV1Port ↔ port = 26632 := by
  constructor
  · intro same
    exact UInt16.toNat_inj.mp (ntohs_inj port.toNat_lt (by decide) (same.trans rfl))
  · rintro rfl
    rfl

/-- The decoder takes a UDP packet for one of a tunnel by either of its ports, in the byte order in
which the header has them. -/
theorem Bytes.gtpAt_iff (bytes : Bytes packet iph ip) : GtpAt packet iph ↔
    ∃ header, ip.segment = .udp header ∧ (header.srcPort = 26632 ∨ header.dstPort = 26632) := by
  rw [GtpAt, UdpAt, bytes.protocol, bytes.headerLen, bytes.srcPort, bytes.dstPort, port_swapped,
    port_swapped]
  constructor
  · rintro ⟨⟨isUdp, -⟩, ports⟩
    cases isSegment : ip.segment with
    | tcp header =>
      rw [isSegment] at isUdp
      cases isUdp
    | udp header =>
      rw [isSegment] at ports
      exact ⟨header, rfl, ports⟩
  · rintro ⟨header, isUdp, ports⟩
    rw [isUdp]
    exact ⟨⟨rfl, bytes.whole⟩, ports⟩

/-- The packet stands in the string, with the rest behind it up to the end. -/
structure Stands (packet : List UInt8) (iph : Nat) (ip : Ipv4Packet) (rest : List UInt8) :
    Prop where
  hasAt : HasAt packet iph (ip.encode ++ rest)
  ends : iph + ip.encode.length + rest.length = packet.length
  short : packet.length < 2 ^ 16

/-- A packet that stands at an offset, with the rest of its frame behind it, shows its bytes there. -/
theorem Stands.bytes {rest : List UInt8} (stands : Stands packet iph ip rest) :
    Bytes packet iph ip :=
  Ipv4Packet.bytes stands.hasAt.append.1 stands.short

/-- What stands behind the UDP header is the payload, and the padding behind it. -/
theorem Stands.behindUdp {rest : List UInt8} (stands : Stands packet iph ip rest)
    {header : AnyUdpHeader} (isUdp : ip.segment = .udp header) :
    HasAt packet (iph + ip.headerLen + 8) (ip.payload ++ rest) ∧
      iph + ip.headerLen + 8 + (ip.payload ++ rest).length = packet.length := by
  have hasAt := stands.hasAt
  have ends := stands.ends
  rw [encode, List.append_assoc, List.append_assoc] at hasAt
  obtain ⟨-, segmentAt⟩ := hasAt.append
  obtain ⟨-, behind⟩ := segmentAt.append
  rw [header_encode_length, ip.segment.encode_length, isUdp, Segment.headerLen] at behind
  rw [encode_length, segmentLen, isUdp, Segment.headerLen] at ends
  refine ⟨behind, ?_⟩
  rw [List.length_append]
  omega

end Ipv4Packet

/-- What the flags of a GTP-U header add to its eight bytes, as the decoder counts. -/
def gtpExtra (flags : Nat) : Nat :=
  (if flags &&& 0x04 ≠ 0 then 1 else 0) + (if flags &&& 0x02 ≠ 0 then 4 else 0) +
    if flags &&& 0x01 ≠ 0 then 1 else 0

/-- The three flags of a tunnel header add six bytes at most to its fixed part. -/
theorem gtpExtra_le (flags : Nat) : gtpExtra flags ≤ 6 := by
  simp only [gtpExtra]
  split <;> split <;> split <;> omega

/-- Where the inner packet of a tunnel is looked for. The source computes it in 16 bits, so that the
sum is taken modulo 65536. -/
theorem tpduOffset_eq (iph ipLen flags : Nat) :
    tpduOffset iph ipLen flags = u16 (iph + ipLen + 16 + gtpExtra flags) := by
  simp only [tpduOffset, gtpExtra, sizeofUdpHeader, u16]
  split <;> split <;> split <;> omega

namespace Ipv4Packet

variable {ip : Ipv4Packet} {packet rest : List UInt8} {iph : Nat}

/-- The inner header is looked for at least one IP header behind the outer one and at
most 82 bytes. -/
theorem Bytes.inner_apart (bytes : Bytes packet iph ip) :
    ∃ distance, 36 ≤ distance ∧ distance ≤ 82 ∧ innerAt packet iph = u16 (iph + distance) := by
  have minimal : 20 ≤ ip.headerLen := Nat.le_add_right 20 _
  have maximal : ip.headerLen ≤ 60 := Nat.add_le_add_left ip.header.options.fits 20
  have extra := gtpExtra_le (gtpFlagsAt packet iph)
  refine ⟨ip.headerLen + 16 + gtpExtra (gtpFlagsAt packet iph), by omega, by omega, ?_⟩
  rw [innerAt, tpduOffset_eq, bytes.headerLen]
  congr 1
  omega

/-- The decoder stays with the packet exactly when it takes it for no T-PDU. -/
theorem Stands.reports_self_iff (stands : Stands packet iph ip rest) (pktLen : Nat) :
    Reports packet pktLen iph iph ↔ ip.PassesGtp rest := by
  have bytes := stands.bytes
  have captured := bytes.captured
  have minimal : 20 ≤ ip.headerLen := Nat.le_add_right 20 _
  have short := stands.short
  constructor
  · intro reports header isUdp port
    have gtp : GtpAt packet iph := bytes.gtpAt_iff.mpr ⟨header, isUdp, port⟩
    obtain ⟨behind, ends⟩ := stands.behindUdp isUdp
    have further := reports.gtp gtp
    rw [bytes.headerLen] at further
    have long : 2 ≤ (ip.payload ++ rest).length := by omega
    refine ⟨long, fun tpdu => ?_⟩
    have isTpdu : TpduAt packet iph := by
      refine ⟨gtp, ?_⟩
      rw [gtpFlagsAt, bytes.headerLen, sizeofUdpHeader]
      rw [← (behind.byteAt 0 (by omega)).2, ← (behind.byteAt 1 (by omega)).2, Nat.add_zero] at tpdu
      exact tpdu
    obtain ⟨distance, least, most, inner⟩ := bytes.inner_apart
    have same := (reports.inner isTpdu).1
    rw [inner, u16] at same
    omega
  · intro passes
    have notTpdu : ¬ TpduAt packet iph := by
      intro tpdu
      obtain ⟨header, isUdp, port⟩ := bytes.gtpAt_iff.mp tpdu.1
      obtain ⟨behind, ends⟩ := stands.behindUdp isUdp
      obtain ⟨long, not⟩ := passes header isUdp port
      have isTpdu := tpdu.2
      rw [gtpFlagsAt, bytes.headerLen, sizeofUdpHeader] at isTpdu
      rw [← (behind.byteAt 0 (by omega)).2, ← (behind.byteAt 1 (by omega)).2, Nat.add_zero] at not
      exact not isTpdu
    refine ⟨by omega, fun udp => ?_, fun gtp => ?_, fun _ => rfl, fun tpdu => absurd tpdu notTpdu⟩
    · have udpHeader : 8 ≤ ip.segmentLen := by
        cases isSegment : ip.segment with
        | tcp header =>
          simp only [segmentLen, isSegment, Segment.headerLen, HeaderOptions.headerLen]
          omega
        | udp header =>
          simp only [segmentLen, isSegment, Segment.headerLen]
          omega
      rw [bytes.headerLen]
      omega
    · obtain ⟨header, isUdp, port⟩ := bytes.gtpAt_iff.mp gtp
      obtain ⟨behind, ends⟩ := stands.behindUdp isUdp
      obtain ⟨long, -⟩ := passes header isUdp port
      rw [bytes.headerLen]
      omega

end Ipv4Packet

/-! ## Behind ethernet and tags -/

/-- An ethernet header with the tags behind it, each of which is four bytes of the frame. -/
structure EtherHeader where
  destHost : List UInt8
  srcHost : List UInt8
  /-- The VLAN identifiers, the outermost first. -/
  tags : List UInt16
  destSix : destHost.length = 6
  srcSix : srcHost.length = 6

namespace EtherHeader

variable (ether : EtherHeader)

/-- The addresses of the frame, and its tags with the type of the packet behind the last one. -/
def encode (etherType : UInt16) : List UInt8 :=
  (ether.destHost ++ ether.srcHost) ++ encodeTags etherType ether.tags

/-- The length of the frame's header: that of an Ethernet header, and four bytes for each tag. -/
def headerLen : Nat := 14 + 4 * ether.tags.length

/-- The header written is as long as that, whatever its tags are. -/
theorem encode_length (etherType : UInt16) : (ether.encode etherType).length = ether.headerLen := by
  simp only [encode, List.length_append, ether.destSix, ether.srcSix, encodeTags_length, headerLen]
  omega

/-- The packet stands directly behind the header of its frame. -/
theorem hasAt_behind (etherType : UInt16) (rest : List UInt8) :
    HasAt (ether.encode etherType ++ rest) ether.headerLen rest := by
  have whole : HasAt (ether.encode etherType ++ rest) 0 (ether.encode etherType ++ rest) :=
    List.prefix_refl _
  have behind := whole.append.2
  rw [encode_length, Nat.zero_add] at behind
  exact behind

/-- The tags begin behind the two addresses, at the offset where the decoder reads its first type. -/
theorem hasAt_tags (etherType : UInt16) (rest : List UInt8) :
    HasAt (ether.encode etherType ++ rest) 12 (encodeTags etherType ether.tags) := by
  have whole : HasAt (ether.encode etherType ++ rest) 0 (ether.encode etherType ++ rest) :=
    List.prefix_refl _
  have behind := whole.append.1.append.2
  rw [List.length_append, ether.destSix, ether.srcSix] at behind
  exact behind

end EtherHeader

variable {packet : List UInt8}

/-- The types between the tags of a frame, and the one behind them. -/
theorem encodeTags_types (etherType : UInt16) (tags : List UInt16) (offset : Nat)
    (hasAt : HasAt packet offset (encodeTags etherType tags)) :
    (∀ tag < tags.length, halfAt packet (offset + 4 * tag) = hoEthVlan) ∧
      halfAt packet (offset + 4 * tags.length) = ntohs etherType.toNat ∧
      offset + 4 * tags.length + 2 ≤ packet.length := by
  induction tags generalizing offset with
  | nil =>
    have read := (readU16_eq_ok _ _).mp (HasAt.readU16 hasAt)
    exact ⟨fun tag impossible => absurd impossible (Nat.not_lt_zero tag), read.2, read.1⟩
  | cons tag tags inductionHypothesis =>
    obtain ⟨vlanAt, rest⟩ := hasAt.append
    obtain ⟨-, following⟩ := rest.append
    simp only [be16_length] at following
    obtain ⟨vlans, last, captured⟩ := inductionHypothesis _ following
    have moved : ∀ place, offset + 4 * (place + 1) = offset + 2 + 2 + 4 * place := fun place => by
      omega
    rw [List.length_cons, moved]
    refine ⟨fun place before => ?_, last, captured⟩
    cases place with
    | zero => exact ((readU16_eq_ok _ _).mp vlanAt.readU16).2
    | succ place =>
      rw [moved]
      exact vlans place (by omega)

/-- The walk passes the tags of a frame and reads the type behind the last of them. -/
theorem tagsInside_encoded {etherType : UInt16} {tags : List UInt16}
    (other : ntohs etherType.toNat ≠ hoEthVlan)
    (hasAt : HasAt packet 12 (encodeTags etherType tags)) (short : packet.length < 2 ^ 16) :
    TagsInside packet tags.length ∧ tagType packet tags.length = ntohs etherType.toNat := by
  obtain ⟨vlans, last, captured⟩ := encodeTags_types etherType tags 12 hasAt
  have type : ∀ tag ≤ tags.length, tagType packet tag = halfAt packet (12 + 4 * tag) := by
    intro tag within
    have narrow : u16 (10 + 4 * tag) = 10 + 4 * tag := Nat.mod_eq_of_lt (by omega)
    rw [tagType, narrow, show 10 + 4 * tag + 2 = 12 + 4 * tag by omega]
  have lastType := type tags.length (Nat.le_refl _)
  rw [last] at lastType
  refine ⟨⟨fun tag within => ?_, fun tag before => ?_, ?_⟩, lastType⟩
  · have narrow : u16 (10 + 4 * tag) = 10 + 4 * tag := Nat.mod_eq_of_lt (by omega)
    omega
  · rw [type tag (Nat.le_of_lt before)]
    exact vlans tag before
  · rw [lastType]
    exact other

namespace EtherHeader

variable (ether : EtherHeader)

/-- The walk passes the tags to the type behind them. -/
theorem walked (etherType : UInt16) (other : ntohs etherType.toNat ≠ hoEthVlan) (rest : List UInt8)
    (short : (ether.encode etherType ++ rest).length < 2 ^ 16) :
    TagsInside (ether.encode etherType ++ rest) ether.tags.length ∧
      tagType (ether.encode etherType ++ rest) ether.tags.length = ntohs etherType.toNat ∧
      u16 (14 + 4 * ether.tags.length) = ether.headerLen := by
  obtain ⟨inside, type⟩ := tagsInside_encoded other (ether.hasAt_tags etherType rest) short
  refine ⟨inside, type, Nat.mod_eq_of_lt ?_⟩
  rw [List.length_append, encode_length, headerLen] at short
  omega

/-- Behind the type of IPv4 the walk ends, at the end of the ethernet header and its tags. -/
theorem ipv4At (rest : List UInt8) (short : (ether.encode 0x0800 ++ rest).length < 2 ^ 16) :
    Ipv4At (ether.encode 0x0800 ++ rest) ether.headerLen := by
  obtain ⟨inside, type, start⟩ := ether.walked 0x0800 (by decide) rest short
  refine ⟨ether.tags.length, inside, ?_⟩
  rw [start]
  exact .plain type

end EtherHeader

/-! ## Plain headers -/

/-- A header without options meets the condition on their length. The example packets are made with
it. -/
theorem HeaderOptions.aligned_nil : ([] : List UInt8).length % 4 = 0 := Nat.zero_mod 4

/-- It also has room for them in its length field of four bits. -/
theorem HeaderOptions.fits_nil : ([] : List UInt8).length ≤ 40 := Nat.zero_le 40

/-- No options, so that the header has its twenty bytes. -/
def HeaderOptions.none : HeaderOptions where
  bytes := []
  aligned := HeaderOptions.aligned_nil
  fits := HeaderOptions.fits_nil

/-- An IPv4 header without options, between two addresses, as the example runs use it. -/
def headerBetween (srcAddr dstAddr : UInt32) : Ipv4Header where
  tos := 0
  id := 7
  reserved := false
  dontFragment := true
  ttl := 64
  checkSum := 0
  srcAddr := srcAddr
  dstAddr := dstAddr
  options := .none

/-- An ethernet header with tags, and addresses of zeros. -/
def EtherHeader.tagged (tags : List UInt16) : EtherHeader where
  destHost := List.replicate 6 1
  srcHost := List.replicate 6 2
  tags := tags
  destSix := List.length_replicate
  srcSix := List.length_replicate

end OpenTaker
