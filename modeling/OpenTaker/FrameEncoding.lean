import OpenTaker.DecodeBasic

/-!
# Encoded frames

The frames the decoder is made for: ethernet, any number of VLAN tags, one IP header,
one transport header, a payload and padding. A header here has the fields of its
protocol, with what restricts them, and `encode` lays it out in network order; `report`
says what the meta of a packet should hold for it. Neither mentions how the decoder
works.
-/

namespace OpenTaker

open ByteReads

/-- Bytes of options, which fill up to ten words. -/
structure HeaderOptions where
  bytes : List UInt8
  aligned : bytes.length % 4 = 0
  fits : bytes.length ≤ 40

/-- The words of a header with five fixed words. -/
def HeaderOptions.words (options : HeaderOptions) : Nat := 5 + options.bytes.length / 4

/-- The bytes of a header with five fixed words. -/
def HeaderOptions.headerLen (options : HeaderOptions) : Nat := 20 + options.bytes.length

/-- The length field of a header counts words of four bytes, and no byte is lost by that. -/
theorem HeaderOptions.words_mul (options : HeaderOptions) :
    options.words * 4 = options.headerLen := by
  have aligned := options.aligned
  simp only [words, headerLen]
  omega

/-- The number of words fits in the four bits of the length field. -/
theorem HeaderOptions.words_lt (options : HeaderOptions) : options.words < 16 := by
  have fits := options.fits
  simp only [words]
  omega

/-- A flag in its place, as a number that is added to the others. -/
def bit (place : Nat) (flag : Bool) : Nat := if flag then 2 ^ place else 0

/-! ## IPv4 -/

/-- An IPv4 header of a packet that is not fragmented. -/
structure Ipv4Header where
  tos : UInt8
  id : UInt16
  reserved : Bool
  dontFragment : Bool
  ttl : UInt8
  checkSum : UInt16
  srcAddr : UInt32
  dstAddr : UInt32
  options : HeaderOptions

/-- The header, for a transport protocol and the length of its segment. -/
def Ipv4Header.encode (header : Ipv4Header) (protocol : UInt8) (segmentLen : Nat) : List UInt8 :=
  [UInt8.ofNat (4 * 16 + header.options.words), header.tos] ++
    (be16 (UInt16.ofNat (header.options.headerLen + segmentLen)) ++ (be16 header.id ++
    ([UInt8.ofNat (bit 7 header.reserved + bit 6 header.dontFragment), 0, header.ttl, protocol] ++
    (be16 header.checkSum ++ (be32 header.srcAddr ++ (be32 header.dstAddr ++
    header.options.bytes))))))

/-! ## IPv6 -/

/-- An IPv6 address, as its sixteen bytes in the order of the network. -/
structure Ipv6Addr where
  bytes : List UInt8
  sixteen : bytes.length = 16

/-- The sum of the last two words of an address as a little-endian host reads them. -/
def Ipv6Addr.lastWords (addr : Ipv6Addr) : Nat :=
  (wordAt addr.bytes 8 + wordAt addr.bytes 12) % 2 ^ 32

/-- An IPv6 header without its length and its next header, which follow from the segment. -/
structure Ipv6Header where
  trafficClass : UInt8
  flowLabel : Fin (2 ^ 20)
  hopLimit : UInt8
  srcAddr : Ipv6Addr
  dstAddr : Ipv6Addr

/-- The header, for a transport protocol and the length of its segment. -/
def Ipv6Header.encode (header : Ipv6Header) (next : UInt8) (segmentLen : Nat) : List UInt8 :=
  [UInt8.ofNat (6 * 16 + header.trafficClass.toNat / 16),
    UInt8.ofNat (header.trafficClass.toNat % 16 * 16 + header.flowLabel.val / 65536),
    UInt8.ofNat (header.flowLabel.val / 256), UInt8.ofNat header.flowLabel.val] ++
    (be16 (UInt16.ofNat segmentLen) ++ ([next, header.hopLimit] ++
    (header.srcAddr.bytes ++ header.dstAddr.bytes)))

/-! ## Transport -/

/-- A TCP header with any options that fit, and any flags. -/
structure TcpHeader where
  srcPort : UInt16
  dstPort : UInt16
  seqNo : UInt32
  ackNo : UInt32
  nonce : Bool
  reserved : Fin 8
  fin : Bool
  syn : Bool
  rst : Bool
  psh : Bool
  ack : Bool
  urgent : Bool
  echo : Bool
  cwr : Bool
  wndSize : UInt16
  checkSum : UInt16
  urgentPointer : UInt16
  options : HeaderOptions

/-- The byte of the eight flags, in the order in which the header has them. -/
def TcpHeader.flags (header : TcpHeader) : Nat :=
  bit 0 header.fin + bit 1 header.syn + bit 2 header.rst + bit 3 header.psh + bit 4 header.ack +
    bit 5 header.urgent + bit 6 header.echo + bit 7 header.cwr

/-- The bytes of a TCP header in the order of the network: the ports, the two numbers, the length
with its flags, the window, the sum and the options. -/
def TcpHeader.encode (header : TcpHeader) : List UInt8 :=
  be16 header.srcPort ++ (be16 header.dstPort ++ (be32 header.seqNo ++ (be32 header.ackNo ++
    ([UInt8.ofNat (header.options.words * 16 + header.reserved.val * 2 + bit 0 header.nonce),
      UInt8.ofNat header.flags] ++
    (be16 header.wndSize ++ (be16 header.checkSum ++ (be16 header.urgentPointer ++
    header.options.bytes)))))))

/-- A UDP header that is not taken for one of GTP-U, whichever order its port is read in. -/
structure UdpHeader where
  srcPort : UInt16
  dstPort : UInt16
  pktLen : UInt16
  checkSum : UInt16
  srcOther : srcPort ≠ 2152 ∧ srcPort ≠ 26632
  dstOther : dstPort ≠ 2152 ∧ dstPort ≠ 26632

/-- The eight bytes of a UDP header. Its ports are none of a tunnel, which the structure has as
fields. -/
def UdpHeader.encode (header : UdpHeader) : List UInt8 :=
  be16 header.srcPort ++ (be16 header.dstPort ++ (be16 header.pktLen ++ be16 header.checkSum))

/-- A transport header, whose ports are none of a tunnel. -/
inductive Transport where
  | tcp (header : TcpHeader)
  | udp (header : UdpHeader)

namespace Transport

/-- The number of the protocol that the network header carries. -/
def protocol : Transport → UInt8
  | .tcp _ => 6
  | .udp _ => 17

/-- The length of the transport header, with the options of TCP in it. -/
def headerLen : Transport → Nat
  | .tcp header => header.options.headerLen
  | .udp _ => 8

/-- The bytes of the transport header, as they stand behind the network header. -/
def encode : Transport → List UInt8
  | .tcp header => header.encode
  | .udp header => header.encode

/-- What the meta holds for the transport header: the ports and the protocol, and of TCP the
sequence number and the flags. -/
def report (attr : PacketBasicAttr) : Transport → PacketBasicAttr
  | .tcp header =>
      { attr with
        srcPort := header.srcPort.toNat
        dstPort := header.dstPort.toNat
        protocol := 0
        seq := header.seqNo.toNat
        flagSYN := header.syn
        flagACK := header.ack
        flagFIN := header.fin
        flagRST := header.rst
        flagPUSH := header.psh
        flagURT := header.urgent }
  | .udp header =>
      { attr with
        srcPort := header.srcPort.toNat
        dstPort := header.dstPort.toNat
        protocol := 1 }

/-- The header written is as long as the offsets of the frame assume. -/
theorem encode_length (transport : Transport) : transport.encode.length = transport.headerLen := by
  cases transport with
  | tcp header =>
    simp only [encode, TcpHeader.encode, headerLen, HeaderOptions.headerLen, List.length_append,
      be16_length, be32_length, List.length_cons, List.length_nil]
    omega
  | udp header => rfl

end Transport

/-! ## Network -/

/-- An IP header of either family, as a frame has one of them. -/
inductive Network where
  | ipv4 (header : Ipv4Header)
  | ipv6 (header : Ipv6Header)

namespace Network

/-- The type in front of the network header, in the order of the network. -/
def etherType : Network → UInt16
  | .ipv4 _ => 0x0800
  | .ipv6 _ => 0x86DD

/-- The length of the network header: with its options for IPv4, and forty bytes for IPv6. -/
def headerLen : Network → Nat
  | .ipv4 header => header.options.headerLen
  | .ipv6 _ => 40

/-- The bytes of the network header, which carries the protocol and the length of what follows it. -/
def encode (protocol : UInt8) (segmentLen : Nat) : Network → List UInt8
  | .ipv4 header => header.encode protocol segmentLen
  | .ipv6 header => header.encode protocol segmentLen

/-- What the meta holds for the network header: the version and the two addresses. -/
def report (attr : PacketBasicAttr) : Network → PacketBasicAttr
  | .ipv4 header =>
      { attr with version := 0, srcIP := header.srcAddr.toNat, dstIP := header.dstAddr.toNat }
  | .ipv6 header =>
      { attr with
        version := 1
        srcIP := header.srcAddr.lastWords
        dstIP := header.dstAddr.lastWords }

/-- The header written is as long as the offsets of the frame assume, for both families. -/
theorem encode_length (network : Network) (protocol : UInt8) (segmentLen : Nat) :
    (network.encode protocol segmentLen).length = network.headerLen := by
  cases network with
  | ipv4 header =>
    simp only [encode, Ipv4Header.encode, headerLen, HeaderOptions.headerLen, List.length_append,
      be16_length, be32_length, List.length_cons, List.length_nil]
    omega
  | ipv6 header =>
    simp only [encode, Ipv6Header.encode, headerLen, List.length_append, be16_length,
      List.length_cons, List.length_nil, header.srcAddr.sixteen, header.dstAddr.sixteen]

end Network

/-! ## Frames -/

/-- A frame: addresses, tags, an IP header, a transport header, the payload, and the padding of a
short frame. -/
structure Frame where
  destHost : List UInt8
  srcHost : List UInt8
  /-- The VLAN identifiers, the outermost first. -/
  tags : List UInt16
  network : Network
  transport : Transport
  payload : List UInt8
  padding : List UInt8
  destSix : destHost.length = 6
  srcSix : srcHost.length = 6

/-- The tags, outermost first, and the type of the network header behind them. -/
def encodeTags (etherType : UInt16) : List UInt16 → List UInt8
  | [] => be16 etherType
  | tag :: tags => be16 0x8100 ++ (be16 tag ++ encodeTags etherType tags)

/-- The tags with the type behind them: two bytes for a type and four for each tag. -/
theorem encodeTags_length (etherType : UInt16) (tags : List UInt16) :
    (encodeTags etherType tags).length = 2 + 4 * tags.length := by
  induction tags with
  | nil => rfl
  | cons tag tags inductionHypothesis =>
    simp only [encodeTags, List.length_append, be16_length, inductionHypothesis, List.length_cons]
    omega

namespace Frame

variable (frame : Frame)

/-- The length of the transport header and the payload. -/
def segmentLen : Nat := frame.transport.headerLen + frame.payload.length

/-- The bytes of a frame: addresses, tags, network header, transport header, payload, and what a
short frame is padded with. -/
def encode : List UInt8 :=
  (frame.destHost ++ frame.srcHost) ++ (encodeTags frame.network.etherType frame.tags ++
    (frame.network.encode frame.transport.protocol frame.segmentLen ++
    (frame.transport.encode ++ (frame.payload ++ frame.padding))))

/-- Where the network header stands, behind the addresses, the tags and the type. -/
def layer3Offset : Nat := 14 + 4 * frame.tags.length

/-- Where the transport header stands, which the decoder reports in 16 bits. -/
def layer4Offset : Nat := frame.layer3Offset + frame.network.headerLen

/-- Where the payload stands. The decoder reports the three offsets in 16 bits. -/
def layer5Offset : Nat := frame.layer4Offset + frame.transport.headerLen

/-- What the meta of the packet should hold behind its decoding: the offsets of the layers, the
length and what the headers report. -/
def report (metaInfo : PacketMeta) : PacketMeta :=
  { metaInfo with
    layer3Offset := frame.layer3Offset
    layer4Offset := frame.layer4Offset
    layer5Offset := frame.layer5Offset
    layer5payloadLen := frame.payload.length
    basicAttr := frame.transport.report (frame.network.report metaInfo.basicAttr) }

/-- The frame is as long as its parts; the padding behind the payload is counted by no header. -/
theorem encode_length : frame.encode.length =
    frame.layer5Offset + frame.payload.length + frame.padding.length := by
  simp only [encode, List.length_append, frame.destSix, frame.srcSix, encodeTags_length,
    Network.encode_length, Transport.encode_length, layer5Offset, layer4Offset, layer3Offset]
  omega

end Frame

end OpenTaker
