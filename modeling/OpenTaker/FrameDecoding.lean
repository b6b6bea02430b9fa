import OpenTaker.FrameEncoding

/-!
# Decoding an encoded frame

The decoder is followed through an encoded frame: past the tags, by induction on their
list, then through the IP header and the transport header. What it reads at each place
is what the encoding put there.
-/

namespace OpenTaker

open ByteReads

variable {packet : List UInt8}

/-! ## The tags -/

/-- The type loop passes the tags of a frame and ends with the type behind them. -/
theorem skipTags_encoded (etherType : UInt16)
    (ip : ntohs etherType.toNat = hoEthIp4 ∨ ntohs etherType.toNat = hoEthIp6)
    (tags : List UInt16) (rounds offset : Nat) (enough : tags.length < rounds)
    (small : offset + 2 + 4 * tags.length < 2 ^ 16)
    (hasAt : HasAt packet offset (encodeTags etherType tags)) :
    (readU16 packet offset >>= fun type => skipTags packet rounds type (offset + 2)) =
      .ok (ntohs etherType.toNat, offset + 2 + 4 * tags.length) := by
  induction tags generalizing rounds offset with
  | nil =>
    obtain ⟨rounds, rfl⟩ := Nat.exists_eq_add_of_lt enough
    rw [hasAt.readU16, ok_bind, List.length_nil, Nat.zero_add, skipTags, if_pos ip]
    rfl
  | cons tag tags inductionHypothesis =>
    obtain ⟨vlanAt, rest⟩ := hasAt.append
    obtain ⟨-, following⟩ := rest.append
    simp only [be16_length, List.length_cons] at following small enough
    have another : 1 ≤ rounds := by omega
    obtain ⟨rounds, rfl⟩ := Nat.exists_eq_add_of_le' another
    have moved : u16 (offset + 2 + 4) = offset + 2 + 2 + 2 := by
      simp only [u16]
      omega
    have typed : readU16 packet offset = .ok hoEthVlan := vlanAt.readU16
    rw [typed, ok_bind, skipTags_vlan, moved,
      inductionHypothesis rounds (offset + 2 + 2) (by omega) (by omega) following,
      List.length_cons, show offset + 2 + 2 + 2 + 4 * tags.length =
        offset + 2 + 4 * (tags.length + 1) by omega]

/-! ## The transport header -/

/-- The flags of an encoded TCP header are read one by one. -/
theorem flagBit_flags (header : TcpHeader) :
    flagBit header.flags 0 = header.fin ∧ flagBit header.flags 1 = header.syn ∧
      flagBit header.flags 2 = header.rst ∧ flagBit header.flags 3 = header.psh ∧
      flagBit header.flags 4 = header.ack ∧ flagBit header.flags 5 = header.urgent := by
  obtain ⟨_, _, _, _, _, _, fin, syn, rst, psh, ack, urgent, echo, cwr, _, _, _, _⟩ := header
  simp only [TcpHeader.flags]
  revert fin syn rst psh ack urgent echo cwr
  decide

/-- The eight flags of a TCP header fit in their byte. -/
theorem flags_lt (header : TcpHeader) : header.flags < 256 := by
  obtain ⟨_, _, _, _, _, _, fin, syn, rst, psh, ack, urgent, echo, cwr, _, _, _, _⟩ := header
  simp only [TcpHeader.flags]
  revert fin syn rst psh ack urgent echo cwr
  decide

/-- What is read of an encoded TCP header, at the offsets where the decoder reads its fields. -/
structure TcpReads (packet : List UInt8) (tcph : Nat) (header : TcpHeader) : Prop where
  srcPort : readU16 packet tcph = .ok (ntohs header.srcPort.toNat)
  dstPort : readU16 packet (tcph + 2) = .ok (ntohs header.dstPort.toNat)
  seqNo : readU32 packet (tcph + 4) = .ok (ntohl header.seqNo.toNat)
  headerLen : tcpGetHeaderLen packet tcph = .ok header.options.headerLen
  flags : readByte packet (tcph + 13) = .ok header.flags

/-- A TCP header that stands in the packet shows the decoder its ports, flags, number and length, in
the order of the machine. -/
theorem tcpReads {tcph : Nat} {header : TcpHeader} (hasAt : HasAt packet tcph header.encode) :
    TcpReads packet tcph header := by
  obtain ⟨srcPort, rest⟩ := hasAt.append
  obtain ⟨dstPort, rest⟩ := rest.append
  obtain ⟨seqNo, rest⟩ := rest.append
  obtain ⟨-, rest⟩ := rest.append
  obtain ⟨field0, -⟩ := rest.append
  simp only [be16_length, be32_length] at dstPort seqNo field0
  have first := field0.readByte 0 _ rfl
  have second := field0.readByte 1 _ rfl
  have words := header.options.words_lt
  have length := header.options.words_mul
  have nonce : bit 0 header.nonce ≤ 1 := by
    simp only [bit]
    split <;> decide
  have flags := flags_lt header
  have reserved := header.reserved.isLt
  have lengthByte : tcph + 12 = tcph + 2 + 2 + 4 + 4 + 0 := by omega
  have flagByte : tcph + 13 = tcph + 2 + 2 + 4 + 4 + 1 := by omega
  refine ⟨srcPort.readU16, dstPort.readU16, seqNo.readU32, ?_, ?_⟩
  · rw [tcpGetHeaderLen, lengthByte, first, ok_bind]
    simp only [UInt8.toNat_ofNat', pure, Except.pure, Except.ok.injEq]
    omega
  · rw [flagByte, second]
    simp only [UInt8.toNat_ofNat', Except.ok.injEq]
    omega

/-- An uncut segment keeps its length: only what was captured is shorter is clipped. -/
theorem clipL4Len_of_le {l4PacketLen rawSize layer4Offset : Nat}
    (fits : layer4Offset + l4PacketLen ≤ rawSize) :
    clipL4Len l4PacketLen rawSize layer4Offset = l4PacketLen := by
  rw [clipL4Len, if_neg (by omega)]

/-- An encoded transport header is reported with what follows it as the payload. -/
theorem processPacketL4_encoded {l4h l4PacketLen rawSize : Nat} {transport : Transport}
    {metaInfo : PacketMeta} (hasAt : HasAt packet l4h transport.encode)
    (long : transport.headerLen ≤ l4PacketLen)
    (fits : metaInfo.layer4Offset + l4PacketLen ≤ rawSize)
    (small : metaInfo.layer4Offset + transport.headerLen < 256) :
    processPacketL4 packet l4PacketLen transport.protocol.toNat l4h rawSize metaInfo =
      .ok { metaInfo with
        layer5payloadLen := l4PacketLen - transport.headerLen
        layer5Offset := metaInfo.layer4Offset + transport.headerLen
        basicAttr := transport.report metaInfo.basicAttr } := by
  have narrow : u8 (metaInfo.layer4Offset + transport.headerLen) =
      metaInfo.layer4Offset + transport.headerLen := Nat.mod_eq_of_lt small
  cases transport with
  | tcp header =>
    have reads := tcpReads hasAt
    have minimal : 20 ≤ header.options.headerLen := Nat.le_add_right 20 _
    simp only [Transport.headerLen] at long narrow
    simp only [processPacketL4, clipL4Len_of_le fits, Transport.protocol, Transport.headerLen]
    rw [if_pos ⟨rfl, by omega⟩]
    simp only [reads.srcPort, reads.dstPort, reads.seqNo, reads.headerLen, reads.flags, ok_bind,
      long, ↓reduceIte, narrow, ntohs_ntohs (UInt16.toNat_lt _), ntohl_ntohl (UInt32.toNat_lt _),
      flagBit_flags header, Transport.report]
    rfl
  | udp header =>
    obtain ⟨srcPort, rest⟩ := hasAt.append
    obtain ⟨dstPort, -⟩ := rest.append
    simp only [be16_length] at dstPort
    simp only [Transport.headerLen] at long narrow
    simp only [processPacketL4, clipL4Len_of_le fits, Transport.protocol, Transport.headerLen,
      sizeofUdpHeader]
    rw [if_neg (by rintro ⟨impossible, -⟩; cases impossible), if_pos ⟨rfl, long⟩]
    simp only [srcPort.readU16, dstPort.readU16, ok_bind, narrow, ntohs_ntohs (UInt16.toNat_lt _),
      Transport.report]
    rfl

/-! ## The IP header -/

/-- What is read of an encoded IPv4 header, at the offsets where the decoder reads its fields. -/
structure Ipv4Reads (packet : List UInt8) (iph : Nat) (header : Ipv4Header) (protocol : UInt8)
    (segmentLen : Nat) : Prop where
  version : ipv4GetVersion packet iph = .ok 4
  headerLen : ipv4GetHeaderLen packet iph = .ok header.options.headerLen
  len : readU16 packet (iph + 2) = .ok (ntohs (header.options.headerLen + segmentLen))
  whole : ipv4IsFragment packet iph = .ok false
  protocol : readByte packet (iph + 9) = .ok protocol.toNat
  srcAddr : readU32 packet (iph + 12) = .ok (ntohl header.srcAddr.toNat)
  dstAddr : readU32 packet (iph + 16) = .ok (ntohl header.dstAddr.toNat)

/-- An IPv4 header that stands in the packet shows the decoder its version, lengths, fragment bits,
protocol and addresses. -/
theorem ipv4Reads {iph segmentLen : Nat} {header : Ipv4Header} {protocol : UInt8}
    (hasAt : HasAt packet iph (header.encode protocol segmentLen))
    (small : header.options.headerLen + segmentLen < 2 ^ 16) :
    Ipv4Reads packet iph header protocol segmentLen := by
  obtain ⟨start, rest⟩ := hasAt.append
  obtain ⟨len, rest⟩ := rest.append
  obtain ⟨-, rest⟩ := rest.append
  obtain ⟨middle, rest⟩ := rest.append
  obtain ⟨-, rest⟩ := rest.append
  obtain ⟨srcAddr, rest⟩ := rest.append
  obtain ⟨dstAddr, -⟩ := rest.append
  simp only [be16_length, be32_length, List.length_cons, List.length_nil, Nat.add_assoc,
    Nat.reduceAdd] at len middle srcAddr dstAddr
  have words := header.options.words_lt
  have length := header.options.words_mul
  have first := start.readByte 0 _ rfl
  have firstByte : (UInt8.ofNat (4 * 16 + header.options.words)).toNat =
      4 * 16 + header.options.words := by
    rw [UInt8.toNat_ofNat']
    omega
  rw [Nat.add_zero, firstByte] at first
  have total : (UInt16.ofNat (header.options.headerLen + segmentLen)).toNat =
      header.options.headerLen + segmentLen := by
    rw [UInt16.toNat_ofNat']
    exact Nat.mod_eq_of_lt small
  have upperHalf : (4 * 16 + header.options.words) / 16 = 4 := by omega
  have lowerHalf : (4 * 16 + header.options.words) % 16 * 4 = header.options.headerLen := by omega
  constructor
  case version =>
    rw [ipv4GetVersion, first, ok_bind, upperHalf]
    rfl
  case headerLen =>
    rw [ipv4GetHeaderLen, first, ok_bind, lowerHalf]
    rfl
  case len => rw [len.readU16, total]
  case whole =>
    have low := middle.readByte 0 _ rfl
    have high := middle.readByte 1 _ rfl
    simp only [Nat.add_assoc, Nat.reduceAdd] at low high
    rw [ipv4IsFragment, readU16, low, ok_bind, high]
    cases header.reserved <;> cases header.dontFragment <;> rfl
  case protocol => exact middle.readByte 3 _ rfl
  case srcAddr => exact srcAddr.readU32
  case dstAddr => exact dstAddr.readU32

/-- An encoded transport header is not taken for that of GTP-U. -/
theorem reportedIpv4_encoded {iph pktLen segmentLen : Nat} {header : Ipv4Header}
    {transport : Transport}
    (reads : Ipv4Reads packet iph header transport.protocol segmentLen)
    (transportAt : HasAt packet (iph + header.options.headerLen) transport.encode) :
    reportedIpv4 packet pktLen iph = .ok (some iph) := by
  rw [reportedIpv4, reads.protocol, ok_bind]
  cases transport with
  | tcp header => rfl
  | udp udp =>
    obtain ⟨srcPort, rest⟩ := transportAt.append
    obtain ⟨dstPort, -⟩ := rest.append
    simp only [be16_length] at dstPort
    have other : ∀ port : UInt16, port ≠ 26632 → ntohs port.toNat ≠ ntGtpUV1Port := by
      intro port different same
      have swapped : port.toNat = (26632 : UInt16).toNat :=
        ntohs_inj port.toNat_lt (by decide) (same.trans rfl)
      exact different (UInt16.toNat_inj.mp swapped)
    have notGtp : isGtpPort packet (iph + header.options.headerLen) = .ok false := by
      rw [isGtpPort, srcPort.readU16, ok_bind, if_neg (other _ udp.srcOther.2), dstPort.readU16,
        ok_bind, decide_eq_false (other _ udp.dstOther.2)]
      rfl
    have isUdp : ¬ (Transport.udp udp).protocol.toNat ≠ ipprotoUdp := not_not.mpr rfl
    rw [if_neg isUdp, reads.whole, ok_bind, if_neg (by decide), reads.headerLen, ok_bind, notGtp,
      ok_bind, if_pos (by decide)]
    rfl

/-- Where the headers and the payload of an encoded packet stand. -/
structure Laid (packet : List UInt8) (ipOffset headerLen l4PacketLen : Nat)
    (transport : Transport) : Prop where
  transportAt : HasAt packet (ipOffset + headerLen) transport.encode
  long : transport.headerLen ≤ l4PacketLen
  captured : ipOffset + headerLen + l4PacketLen ≤ packet.length
  small : ipOffset + headerLen + transport.headerLen < 256

/-- The meta with the headers of an encoded packet. -/
def laidMeta (ipOffset l4PacketLen : Nat) (network : Network) (transport : Transport)
    (metaInfo : PacketMeta) : PacketMeta :=
  { metaInfo with
    layer3Offset := ipOffset
    layer4Offset := ipOffset + network.headerLen
    layer5payloadLen := l4PacketLen - transport.headerLen
    layer5Offset := ipOffset + network.headerLen + transport.headerLen
    basicAttr := transport.report (network.report metaInfo.basicAttr) }

/-- IPv4 as it was written is decoded to its addresses and ports, with the offsets in the packet. A
packet of a tunnel is not meant, as the ports of a `UdpHeader` exclude it. -/
theorem processIpv4_encoded {ipOffset l4PacketLen : Nat} {header : Ipv4Header}
    {transport : Transport} {metaInfo : PacketMeta}
    (hasAt : HasAt packet ipOffset (header.encode transport.protocol l4PacketLen))
    (laid : Laid packet ipOffset header.options.headerLen l4PacketLen transport)
    (short : packet.length < 2 ^ 16) (pktLen : metaInfo.basicAttr.pktLen = packet.length) :
    processIpv4 packet ipOffset metaInfo =
      .ok (0, laidMeta ipOffset l4PacketLen (.ipv4 header) transport metaInfo) := by
  have captured := laid.captured
  have small := laid.small
  have minimal : 20 ≤ header.options.headerLen := Nat.le_add_right 20 _
  have reads := ipv4Reads hasAt (by omega)
  have length : u16 (ntohs (ntohs (header.options.headerLen + l4PacketLen)) + 2 ^ 16 -
      header.options.headerLen) = l4PacketLen := by
    rw [ntohs_ntohs (by omega), u16]
    omega
  have layer3 : u8 ipOffset = ipOffset := Nat.mod_eq_of_lt (by omega)
  have layer4 : u8 (ipOffset + header.options.headerLen) = ipOffset + header.options.headerLen :=
    Nat.mod_eq_of_lt (by omega)
  have reported : reportIpv4 packet ipOffset metaInfo =
      .ok (laidMeta ipOffset l4PacketLen (.ipv4 header) transport metaInfo) := by
    simp only [reportIpv4, reads.srcAddr, reads.dstAddr, reads.headerLen, reads.whole, reads.len,
      reads.protocol, ok_bind, Bool.false_eq_true, ↓reduceIte, length, layer3, layer4,
      ntohl_ntohl (UInt32.toNat_lt _)]
    rw [processPacketL4_encoded laid.transportAt laid.long]
    · rfl
    · exact pktLen ▸ captured
    · exact small
  rw [processIpv4, if_pos (by omega), reads.version, ok_bind, if_neg (by decide),
    reportedIpv4_encoded reads laid.transportAt, ok_bind]
  simp only [reported, ok_bind]
  rfl

/-- IPv6 as it was written is decoded likewise, with a header of forty bytes. -/
theorem processIpv6_encoded {ipOffset l4PacketLen : Nat} {header : Ipv6Header}
    {transport : Transport} {metaInfo : PacketMeta}
    (hasAt : HasAt packet ipOffset (header.encode transport.protocol l4PacketLen))
    (laid : Laid packet ipOffset 40 l4PacketLen transport)
    (short : packet.length < 2 ^ 16) (pktLen : metaInfo.basicAttr.pktLen = packet.length) :
    processIpv6 packet ipOffset metaInfo =
      .ok (0, laidMeta ipOffset l4PacketLen (.ipv6 header) transport metaInfo) := by
  have captured := laid.captured
  have small := laid.small
  obtain ⟨start, rest⟩ := hasAt.append
  obtain ⟨len, rest⟩ := rest.append
  obtain ⟨next, rest⟩ := rest.append
  obtain ⟨srcAddr, dstAddr⟩ := rest.append
  simp only [be16_length, List.length_cons, List.length_nil, header.srcAddr.sixteen,
    Nat.add_assoc, Nat.reduceAdd] at len next srcAddr dstAddr
  have trafficClass := header.trafficClass.toNat_lt
  have first : readByte packet ipOffset = .ok (6 * 16 + header.trafficClass.toNat / 16) := by
    have read := start.readByte 0 _ rfl
    rw [Nat.add_zero, UInt8.toNat_ofNat', Nat.mod_eq_of_lt (by omega)] at read
    exact read
  have length : readU16 packet (ipOffset + 4) = .ok (ntohs l4PacketLen) := by
    rw [len.readU16, UInt16.toNat_ofNat', Nat.mod_eq_of_lt (by omega)]
  have protocol : readByte packet (ipOffset + 6) = .ok transport.protocol.toNat :=
    next.readByte 0 _ rfl
  have src2 := srcAddr.readWord 8 (by have sixteen := header.srcAddr.sixteen; omega)
  have src3 := srcAddr.readWord 12 (by have sixteen := header.srcAddr.sixteen; omega)
  have dst2 := dstAddr.readWord 8 (by have sixteen := header.dstAddr.sixteen; omega)
  have dst3 := dstAddr.readWord 12 (by have sixteen := header.dstAddr.sixteen; omega)
  simp only [Nat.add_assoc, Nat.reduceAdd] at src2 src3 dst2 dst3
  have layer3 : u8 ipOffset = ipOffset := Nat.mod_eq_of_lt (by omega)
  have layer4 : u8 (ipOffset + 40) = ipOffset + 40 := Nat.mod_eq_of_lt (by omega)
  have narrow : l4PacketLen < 65536 := by omega
  rw [processIpv6, if_pos (by simp only [sizeofIpv6Header]; omega), first, ok_bind,
    if_neg (by omega)]
  simp only [src2, src3, dst2, dst3, length, protocol, ok_bind, sizeofIpv6Header, layer3, layer4,
    ntohs_ntohs narrow]
  rw [processPacketL4_encoded laid.transportAt laid.long, ok_bind]
  · rfl
  · exact pktLen ▸ captured
  · exact small

/-! ## Frames -/

/-- The type of IPv4, as a little-endian machine reads it from the frame. -/
theorem type_ipv4 (header : Ipv4Header) :
    ntohs (Network.ipv4 header).etherType.toNat = hoEthIp4 := by
  rw [Network.etherType]
  decide

/-- The type of IPv6, read in the same way. -/
theorem type_ipv6 (header : Ipv6Header) :
    ntohs (Network.ipv6 header).etherType.toNat = hoEthIp6 := by
  rw [Network.etherType]
  decide

namespace Frame

variable (frame : Frame)

/-- The parts of an encoded frame stand at their offsets. -/
theorem parts_hasAt :
    HasAt frame.encode 12 (encodeTags frame.network.etherType frame.tags) ∧
      HasAt frame.encode frame.layer3Offset
        (frame.network.encode frame.transport.protocol frame.segmentLen) ∧
      HasAt frame.encode frame.layer4Offset frame.transport.encode := by
  have whole : HasAt frame.encode 0 frame.encode := List.prefix_refl _
  obtain ⟨-, rest⟩ := whole.append
  obtain ⟨tags, rest⟩ := rest.append
  obtain ⟨network, rest⟩ := rest.append
  obtain ⟨transport, -⟩ := rest.append
  simp only [List.length_append, frame.destSix, frame.srcSix, encodeTags_length,
    Network.encode_length] at tags network transport
  refine ⟨tags, ?_, ?_⟩
  · rw [layer3Offset, show 14 + 4 * frame.tags.length = 0 + (6 + 6) + (2 + 4 * frame.tags.length)
      by omega]
    exact network
  · rw [layer4Offset, layer3Offset, show 14 + 4 * frame.tags.length =
      0 + (6 + 6) + (2 + 4 * frame.tags.length) by omega]
    exact transport

/-- The parts of a frame lie where the decoder looks for them, when the header offsets fit in a
byte: the source keeps them in `u_int8`. -/
theorem laid (small : frame.layer5Offset ≤ 255) : Laid frame.encode frame.layer3Offset
    frame.network.headerLen frame.segmentLen frame.transport where
  transportAt := frame.parts_hasAt.2.2
  long := Nat.le_add_right _ _
  captured := by
    rw [frame.encode_length, segmentLen, layer5Offset, layer4Offset]
    omega
  small := Nat.lt_succ_of_le small

/-- The meta with the headers of a frame is the one that should be reported. -/
theorem laidMeta_cleared (metaInfo : PacketMeta) :
    laidMeta frame.layer3Offset frame.segmentLen frame.network frame.transport metaInfo.cleared =
      frame.report metaInfo := by
  have payload : frame.segmentLen - frame.transport.headerLen = frame.payload.length := by
    rw [segmentLen, Nat.add_sub_cancel_left]
  rw [laidMeta, payload, report, layer5Offset, layer4Offset]
  cases frame.network <;> cases frame.transport <;> rfl

end Frame

/-- Decoding undoes encoding: of every frame whose headers stand at offsets of eight
bits, the decoder reports exactly the headers and the length of the payload. -/
theorem decode_encode (frame : Frame) (metaInfo : PacketMeta)
    (short : frame.encode.length < 2 ^ 16) (pktLen : metaInfo.basicAttr.pktLen = frame.encode.length)
    (small : frame.layer5Offset ≤ 255) :
    processPacketBasic (some frame.encode) (some metaInfo) =
      .ok (0, some (frame.report metaInfo)) := by
  obtain ⟨tagsAt, networkAt, -⟩ := frame.parts_hasAt
  have laid := frame.laid small
  have cleared : metaInfo.cleared.basicAttr.pktLen = frame.encode.length := pktLen
  have few : 14 + 4 * frame.tags.length ≤ 255 := by
    simp only [Frame.layer5Offset, Frame.layer4Offset, Frame.layer3Offset] at small
    omega
  have ip : ntohs frame.network.etherType.toNat = hoEthIp4 ∨
      ntohs frame.network.etherType.toNat = hoEthIp6 := by
    cases frame.network with
    | ipv4 header => exact .inl (type_ipv4 header)
    | ipv6 header => exact .inr (type_ipv6 header)
  have walked := skipTags_encoded frame.network.etherType ip frame.tags maxRounds 12
    (by simp only [maxRounds]; omega) (by omega) tagsAt
  have decoded : decodePacket frame.encode metaInfo = processNetwork frame.encode metaInfo.cleared
      (ntohs frame.network.etherType.toNat, frame.layer3Offset) := by
    rw [decodePacket, ← bind_assoc]
    exact congrArg (· >>= processNetwork frame.encode metaInfo.cleared) walked
  have processed : processNetwork frame.encode metaInfo.cleared
      (ntohs frame.network.etherType.toNat, frame.layer3Offset) = .ok (0, frame.report metaInfo) := by
    rw [← frame.laidMeta_cleared metaInfo]
    generalize frame.network = network at networkAt laid
    cases network with
    | ipv4 header =>
      rw [type_ipv4, processNetwork, if_pos rfl]
      exact processIpv4_encoded networkAt laid short cleared
    | ipv6 header =>
      have notIp4 : ¬ hoEthIp6 = hoEthIp4 := by decide
      rw [type_ipv6, processNetwork, if_neg notIp4, if_pos rfl]
      exact processIpv6_encoded networkAt laid short cleared
  rw [processPacketBasic, decoded, processed]
  rfl

/-- A tagged frame with a TCP segment of three bytes and padding. -/
def taggedTcp : Frame where
  destHost := [2, 0, 0, 0, 0, 1]
  srcHost := [2, 0, 0, 0, 0, 2]
  tags := [5]
  network := .ipv4
    { tos := 0
      id := 7
      reserved := false
      dontFragment := true
      ttl := 64
      checkSum := 0
      srcAddr := 0x0A000001
      dstAddr := 0x0A000002
      options := ⟨[1, 1, 1, 0], rfl, by decide⟩ }
  transport := .tcp
    { srcPort := 443
      dstPort := 50000
      seqNo := 0x01020304
      ackNo := 9
      nonce := false
      reserved := 0
      fin := false
      syn := true
      rst := false
      psh := true
      ack := true
      urgent := false
      echo := false
      cwr := true
      wndSize := 1024
      checkSum := 0
      urgentPointer := 0
      options := ⟨[], rfl, by decide⟩ }
  payload := [1, 2, 3]
  padding := [0, 0]
  destSix := rfl
  srcSix := rfl

/-- A frame with two tags and a TCP header with options is decoded to its report, in all fields of
its slot. -/
theorem decode_tagged_tcp :
    processPacketBasic (some taggedTcp.encode) (some (.captured taggedTcp.encode.length)) =
      .ok (0, some (taggedTcp.report (.captured taggedTcp.encode.length))) :=
  decode_encode taggedTcp _ (by decide) rfl (by decide)

end OpenTaker
