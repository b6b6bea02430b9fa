import OpenTaker.ByteReads
import OpenTaker.PacketMeta

/-!
# The basic packet decoder

`ProcessPacketBasic` walks the ethernet, VLAN, MPLS and PPPoE headers of a packet to
its IP header, looks behind a GTP-U header, and fills the meta of the packet with the
addresses, ports and header offsets it finds. It reads the packet through pointers to
header structs; here the packet is a byte string and every read has its offset, so that
a read beyond the captured bytes is a fault.

The host is little-endian: a 16-bit field compared without `ntohs` is compared with its
bytes swapped, and the first bit field of a byte is its low part.
-/

namespace OpenTaker

open ByteReads

/-- What a `u_int8` keeps of a number, to which the decoder's offsets of headers are cut. -/
def u8 (value : Nat) : Nat := value % 2 ^ 8

/-- What a `u_int16` keeps of a number, to which its lengths and the offset of the walk are cut. -/
def u16 (value : Nat) : Nat := value % 2 ^ 16

/-- `HO_ETH_IP4`. The types are compared as a little-endian machine reads them, with the bytes the
other way round. -/
def hoEthIp4 : Nat := 0x08

/-- `HO_ETH_IP6`, in the order in which the two bytes are read. -/
def hoEthIp6 : Nat := 0xDD86

/-- `HO_ETH_VLAN`. The source writes the constant with a leading zero. -/
def hoEthVlan : Nat := 0x081

/-- `HO_ETH_MPLS`, the type behind which the labels of the stack are walked through. -/
def hoEthMpls : Nat := 0x4788

/-- `HO_ETH_PPPOE`, behind which the length of the session header is skipped. -/
def hoEthPppoe : Nat := 0x6488

/-- `NT_GTP_U_V1_PORT`, the port of a tunnel, which is tested against both ports of a UDP header. -/
def ntGtpUV1Port : Nat := 0x0868

/-- `IPPROTO_TCP`, the number in the protocol field of IPv4 and in the next header of IPv6. -/
def ipprotoTcp : Nat := 6

/-- `IPPROTO_UDP`, which stands in the same two fields of the IPv4 and the IPv6 header. -/
def ipprotoUdp : Nat := 17

/-- `sizeof(ether_header_t)`, where the walk through the headers begins. -/
def sizeofEtherHeader : Nat := 14

/-- `sizeof(ipv6_header_t)`. Extension headers are not walked through, and their bytes count as
payload. -/
def sizeofIpv6Header : Nat := 40

/-- `sizeof(udp_header_t)`, which has no options and so one length. -/
def sizeofUdpHeader : Nat := 8

variable (packet : List UInt8)

/-! ## Header fields -/

/-- `ipv4_header_t::getVersion`: the high half of the first byte, which is compared with 4 before
the header is used. -/
def ipv4GetVersion (iph : Nat) : Except Fault Nat := do
  let first ← readByte packet iph
  pure (first / 16)

/-- `ipv4_header_t::getHeaderLen`: the low half of the first byte, in words of four bytes. -/
def ipv4GetHeaderLen (iph : Nat) : Except Fault Nat := do
  let first ← readByte packet iph
  pure (first % 16 * 4)

/-- `ipv4_header_t::isFragment`. The mask is written for the swapped word. -/
def ipv4IsFragment (iph : Nat) : Except Fault Bool := do
  let fragOff ← readU16 packet (iph + 6)
  pure (decide (fragOff &&& 0xFF3F ≠ 0))

/-- `tcp_header_t::getHeaderLen`: the high half of the thirteenth byte, in words of four bytes. -/
def tcpGetHeaderLen (tcph : Nat) : Except Fault Nat := do
  let field0 ← readByte packet (tcph + 12)
  pure (field0 / 16 * 4)

/-! ## The transport header -/

/-- The length of the transport segment, cut to what follows its offset in the packet. -/
def clipL4Len (l4PacketLen rawSize layer4Offset : Nat) : Nat :=
  if rawSize < l4PacketLen + layer4Offset then
    if layer4Offset < rawSize then u16 (rawSize - layer4Offset) else 0
  else l4PacketLen

/-- The bit of a flag byte, as a Boolean. -/
def flagBit (flags bit : Nat) : Bool := decide (flags / 2 ^ bit % 2 = 1)

/-- `ProcessPacketL4_`. The header pointer is not narrowed as `layer4Offset` is. -/
def processPacketL4 (l4PacketLen l4Proto l4h rawSize : Nat) (metaInfo : PacketMeta) :
    Except Fault PacketMeta := do
  let l4PacketLen := clipL4Len l4PacketLen rawSize metaInfo.layer4Offset
  if l4Proto = ipprotoTcp ∧ 20 ≤ l4PacketLen then
    let srcPort ← readU16 packet l4h
    let dstPort ← readU16 packet (l4h + 2)
    let seqNo ← readU32 packet (l4h + 4)
    let tcpHeaderLen ← tcpGetHeaderLen packet l4h
    let flags ← readByte packet (l4h + 13)
    let basicAttr :=
      { metaInfo.basicAttr with
        seq := ntohl seqNo
        protocol := 0
        flagSYN := flagBit flags 1
        flagACK := flagBit flags 4
        flagFIN := flagBit flags 0
        flagRST := flagBit flags 2
        flagPUSH := flagBit flags 3
        flagURT := flagBit flags 5
        srcPort := ntohs srcPort
        dstPort := ntohs dstPort }
    if tcpHeaderLen ≤ l4PacketLen then
      pure { metaInfo with
        layer5payloadLen := l4PacketLen - tcpHeaderLen
        layer5Offset := u8 (metaInfo.layer4Offset + tcpHeaderLen)
        basicAttr := basicAttr }
    else pure { metaInfo with basicAttr := basicAttr }
  else if l4Proto = ipprotoUdp ∧ sizeofUdpHeader ≤ l4PacketLen then
    let srcPort ← readU16 packet l4h
    let dstPort ← readU16 packet (l4h + 2)
    pure { metaInfo with
      layer5payloadLen := l4PacketLen - sizeofUdpHeader
      layer5Offset := u8 (metaInfo.layer4Offset + sizeofUdpHeader)
      basicAttr :=
        { metaInfo.basicAttr with
          protocol := 1
          srcPort := ntohs srcPort
          dstPort := ntohs dstPort } }
  else pure { metaInfo with basicAttr := { metaInfo.basicAttr with srcPort := 0, dstPort := 0 } }

/-! ## The IP header -/

/-- One of the ports is that of GTP-U. The second is read when the first is not. -/
def isGtpPort (udp : Nat) : Except Fault Bool := do
  let srcPort ← readU16 packet udp
  if srcPort = ntGtpUV1Port then pure true
  else
    let dstPort ← readU16 packet (udp + 2)
    pure (decide (dstPort = ntGtpUV1Port))

/-- The message is a GTPv1 T-PDU: the version and the protocol type in the flags, and the type of
the message behind them. -/
def isTpdu (flags messageType : Nat) : Bool :=
  decide ((flags &&& 0xE0) >>> 5 = 1 ∧ messageType = 0xFF)

/-- Where the packet carried by a T-PDU begins, as the source adds up the optional fields that the
flags announce. -/
def tpduOffset (ipOffset ipLen flags : Nat) : Nat :=
  let ipOffset := u16 (ipOffset + ipLen + sizeofUdpHeader + 8)
  let ipOffset := if flags &&& 0x04 ≠ 0 then u16 (ipOffset + 1) else ipOffset
  let ipOffset := if flags &&& 0x02 ≠ 0 then u16 (ipOffset + 4) else ipOffset
  if flags &&& 0x01 ≠ 0 then u16 (ipOffset + 1) else ipOffset

/-- The look behind a GTP-U header: the offset of the IPv4 header to report, the inner
one of a T-PDU. `none` is the return of -1. -/
def gtpIpv4 (pktLen ipOffset ipLen : Nat) : Except Fault (Option Nat) := do
  let offset := ipOffset + ipLen + sizeofUdpHeader
  let flags ← readByte packet offset
  let messageType ← readByte packet (offset + 1)
  if ¬ isTpdu flags messageType then pure (some ipOffset)
  else
    let inner := tpduOffset ipOffset ipLen flags
    let version ← ipv4GetVersion packet inner
    if version ≠ 4 then pure none
    else if pktLen < inner + 20 then pure none
    else pure (some inner)

/-- The offset of the IPv4 header that is reported. `none` is the return of -1. -/
def reportedIpv4 (pktLen ipOffset : Nat) : Except Fault (Option Nat) := do
  let protocol ← readByte packet (ipOffset + 9)
  if protocol ≠ ipprotoUdp then pure (some ipOffset)
  else
    let fragment ← ipv4IsFragment packet ipOffset
    if fragment then pure (some ipOffset)
    else
      let ipLen ← ipv4GetHeaderLen packet ipOffset
      let gtp ← isGtpPort packet (ipOffset + ipLen)
      if ¬ gtp then pure (some ipOffset)
      else gtpIpv4 packet pktLen ipOffset ipLen

/-- The fields `ProcessPacketBasic` takes from an IPv4 header, and the transport header. -/
def reportIpv4 (iph : Nat) (metaInfo : PacketMeta) : Except Fault PacketMeta := do
  let srcAddr ← readU32 packet (iph + 12)
  let dstAddr ← readU32 packet (iph + 16)
  let headerLen ← ipv4GetHeaderLen packet iph
  let fragment ← ipv4IsFragment packet iph
  let len ← readU16 packet (iph + 2)
  let l4Proto ← readByte packet (iph + 9)
  let l4PacketLen := if fragment then 0 else u16 (ntohs len + 2 ^ 16 - headerLen)
  processPacketL4 packet l4PacketLen l4Proto (iph + headerLen) metaInfo.basicAttr.pktLen
    { metaInfo with
      layer3Offset := u8 iph
      layer4Offset := u8 (iph + headerLen)
      basicAttr :=
        { metaInfo.basicAttr with version := 0, srcIP := ntohl srcAddr, dstIP := ntohl dstAddr } }

/-- The IPv4 case of `ProcessPacketBasic`: the header, a tunnel behind it if there is one, and the
fourth layer of the packet reported. -/
def processIpv4 (ipOffset : Nat) (metaInfo : PacketMeta) : Except Fault (Int × PacketMeta) := do
  if ipOffset + 20 ≤ metaInfo.basicAttr.pktLen then
    let version ← ipv4GetVersion packet ipOffset
    if version ≠ 4 then pure (-1, metaInfo)
    else
      let reported ← reportedIpv4 packet metaInfo.basicAttr.pktLen ipOffset
      match reported with
      | none => pure (-1, metaInfo)
      | some iph =>
          let metaInfo ← reportIpv4 packet iph metaInfo
          pure (0, metaInfo)
  else pure (0, metaInfo)

/-- The IPv6 case of `ProcessPacketBasic`. An address is reported as the sum of its last
two words, as the host reads them. -/
def processIpv6 (ipOffset : Nat) (metaInfo : PacketMeta) : Except Fault (Int × PacketMeta) := do
  if ipOffset + sizeofIpv6Header ≤ metaInfo.basicAttr.pktLen then
    let first ← readByte packet ipOffset
    if first / 16 ≠ 6 then pure (-1, metaInfo)
    else
      let src2 ← readU32 packet (ipOffset + 16)
      let src3 ← readU32 packet (ipOffset + 20)
      let dst2 ← readU32 packet (ipOffset + 32)
      let dst3 ← readU32 packet (ipOffset + 36)
      let len ← readU16 packet (ipOffset + 4)
      let next ← readByte packet (ipOffset + 6)
      let metaInfo ← processPacketL4 packet (ntohs len) next (ipOffset + sizeofIpv6Header)
        metaInfo.basicAttr.pktLen
        { metaInfo with
          layer3Offset := u8 ipOffset
          layer4Offset := u8 (ipOffset + sizeofIpv6Header)
          basicAttr :=
            { metaInfo.basicAttr with
              version := 1
              srcIP := (src2 + src3) % 2 ^ 32
              dstIP := (dst2 + dst3) % 2 ^ 32 } }
      pure (0, metaInfo)
  else pure (0, metaInfo)

/-! ## The layers below IP -/

/-- A loop over 16-bit offsets in steps of four that takes so many rounds has come back
to a state it was in. -/
def maxRounds : Nat := 2 ^ 14 + 1

/-- The labels of an MPLS header: skip four bytes until the label skipped to has no
bottom-of-stack bit. -/
def skipLabels : Nat → Nat → Except Fault Nat
  | 0, _ => .error .diverges
  | rounds + 1, ipOffset => do
      let label ← readByte packet (u16 (ipOffset + 4) + 3)
      if label &&& 1 ≠ 0 then skipLabels rounds (u16 (ipOffset + 4))
      else pure (u16 (ipOffset + 4))

/-- The loop of `ProcessPacketBasic` over the types, to the type and the offset it ends
with. -/
def skipTags : Nat → Nat → Nat → Except Fault (Nat × Nat)
  | 0, _, _ => .error .diverges
  | rounds + 1, type, ipOffset =>
      if type = hoEthIp4 ∨ type = hoEthIp6 then pure (type, ipOffset)
      else if type = hoEthVlan then do
        let type ← readU16 packet (ipOffset + 2)
        skipTags rounds type (u16 (ipOffset + 4))
      else if type = hoEthMpls then do
        let ipOffset ← skipLabels packet maxRounds ipOffset
        pure (hoEthIp4, ipOffset)
      else if type = hoEthPppoe then pure (hoEthIp4, u16 (ipOffset + 8))
      else pure (type, ipOffset)

/-- One round of the type loop at a tag reads the next type. -/
theorem skipTags_vlan (rounds ipOffset : Nat) :
    skipTags packet (rounds + 1) hoEthVlan ipOffset =
      readU16 packet (ipOffset + 2) >>= fun type =>
        skipTags packet rounds type (u16 (ipOffset + 4)) := by
  rw [skipTags, if_neg (by decide), if_pos rfl]

/-- The meta with its addresses and ports cleared, as they are before the headers have been looked
at. -/
def PacketMeta.cleared (metaInfo : PacketMeta) : PacketMeta :=
  { metaInfo with
    basicAttr := { metaInfo.basicAttr with srcIP := 0, dstIP := 0, srcPort := 0, dstPort := 0 } }

/-- The switch of `ProcessPacketBasic` on the type, for the offset the loop ends with. -/
def processNetwork (metaInfo : PacketMeta) (found : Nat × Nat) : Except Fault (Int × PacketMeta) :=
  if found.1 = hoEthIp4 then processIpv4 packet found.2 metaInfo
  else if found.1 = hoEthIp6 then processIpv6 packet found.2 metaInfo
  else pure (0, metaInfo)

/-- `ProcessPacketBasic` of a packet: the result code and the meta. -/
def decodePacket (metaInfo : PacketMeta) : Except Fault (Int × PacketMeta) := do
  let etherType ← readU16 packet 12
  let found ← skipTags packet maxRounds etherType sizeofEtherHeader
  processNetwork packet metaInfo.cleared found

/-- `ProcessPacketBasic`. Without data or meta nothing is done, and -1 is returned. -/
def processPacketBasic (data : Option (List UInt8)) (metaInfo : Option PacketMeta) :
    Except Fault (Int × Option PacketMeta) :=
  match data, metaInfo with
  | some packet, some metaInfo => do
      let (code, metaInfo) ← decodePacket packet metaInfo
      pure (code, some metaInfo)
  | _, metaInfo => pure (-1, metaInfo)

/-! ## Bytes behind the packet -/

section Behind

variable (more : List UInt8)

/-- The version is read from the first byte of the header, and what stands behind the packet does
not reach it. -/
theorem ipv4GetVersion_extends (iph : Nat) :
    Extends (ipv4GetVersion packet iph) (ipv4GetVersion (packet ++ more) iph) :=
  (readByte_extends packet more iph).bind fun _ => .refl _

/-- The same for the length of the header, from the other half of the byte. -/
theorem ipv4GetHeaderLen_extends (iph : Nat) :
    Extends (ipv4GetHeaderLen packet iph) (ipv4GetHeaderLen (packet ++ more) iph) :=
  (readByte_extends packet more iph).bind fun _ => .refl _

/-- The flags and the offset of a fragment are two bytes, in front of the addresses that are read
after them. -/
theorem ipv4IsFragment_extends (iph : Nat) :
    Extends (ipv4IsFragment packet iph) (ipv4IsFragment (packet ++ more) iph) :=
  (readU16_extends packet more (iph + 6)).bind fun _ => .refl _

/-- The length of a TCP header stands in its thirteenth byte, which a shorter packet may lack. -/
theorem tcpGetHeaderLen_extends (tcph : Nat) :
    Extends (tcpGetHeaderLen packet tcph) (tcpGetHeaderLen (packet ++ more) tcph) :=
  (readByte_extends packet more (tcph + 12)).bind fun _ => .refl _

/-- The fourth layer reads the ports and the flags. Where they are in the packet, bytes behind it
change nothing. -/
theorem processPacketL4_extends (l4PacketLen l4Proto l4h rawSize : Nat) (metaInfo : PacketMeta) :
    Extends (processPacketL4 packet l4PacketLen l4Proto l4h rawSize metaInfo)
      (processPacketL4 (packet ++ more) l4PacketLen l4Proto l4h rawSize metaInfo) := by
  refine .ite ?_ (.ite ?_ (.refl _))
  · refine (readU16_extends packet more _).bind fun srcPort => ?_
    refine (readU16_extends packet more _).bind fun dstPort => ?_
    refine (readU32_extends packet more _).bind fun seqNo => ?_
    refine (tcpGetHeaderLen_extends packet more _).bind fun tcpHeaderLen => ?_
    exact (readByte_extends packet more _).bind fun flags => .ite (.refl _) (.refl _)
  · refine (readU16_extends packet more _).bind fun srcPort => ?_
    exact (readU16_extends packet more _).bind fun dstPort => .refl _

/-- The test of both ports for a tunnel, of which the second is read only when the first is another
one. -/
theorem isGtpPort_extends (udp : Nat) :
    Extends (isGtpPort packet udp) (isGtpPort (packet ++ more) udp) := by
  refine (readU16_extends packet more _).bind fun srcPort => .ite (.refl _) ?_
  exact (readU16_extends packet more _).bind fun dstPort => .refl _

/-- The inner packet of a tunnel is found by a field of flags and, behind it, a version; each is a
read of its own. -/
theorem gtpIpv4_extends (pktLen ipOffset ipLen : Nat) :
    Extends (gtpIpv4 packet pktLen ipOffset ipLen) (gtpIpv4 (packet ++ more) pktLen ipOffset ipLen) := by
  refine (readByte_extends packet more _).bind fun flags => ?_
  refine (readByte_extends packet more _).bind fun messageType => .ite (.refl _) ?_
  exact (ipv4GetVersion_extends packet more _).bind fun version => .ite (.refl _) (.ite (.refl _) (.refl _))

/-- Which of the two IPv4 headers is reported follows from the reads above, so that it is the same
with more bytes behind. -/
theorem reportedIpv4_extends (pktLen ipOffset : Nat) :
    Extends (reportedIpv4 packet pktLen ipOffset) (reportedIpv4 (packet ++ more) pktLen ipOffset) := by
  refine (readByte_extends packet more _).bind fun protocol => .ite (.refl _) ?_
  refine (ipv4IsFragment_extends packet more _).bind fun fragment => .ite (.refl _) ?_
  refine (ipv4GetHeaderLen_extends packet more _).bind fun ipLen => ?_
  exact (isGtpPort_extends packet more _).bind fun gtp => .ite (.refl _) (gtpIpv4_extends packet more _ _ _)

/-- So is what is written in the slot from that header: its addresses, offsets and ports. -/
theorem reportIpv4_extends (iph : Nat) (metaInfo : PacketMeta) :
    Extends (reportIpv4 packet iph metaInfo) (reportIpv4 (packet ++ more) iph metaInfo) := by
  refine (readU32_extends packet more _).bind fun srcAddr => ?_
  refine (readU32_extends packet more _).bind fun dstAddr => ?_
  refine (ipv4GetHeaderLen_extends packet more _).bind fun headerLen => ?_
  refine (ipv4IsFragment_extends packet more _).bind fun fragment => ?_
  refine (readU16_extends packet more _).bind fun len => ?_
  exact (readByte_extends packet more _).bind fun l4Proto => processPacketL4_extends packet more _ _ _ _ _

/-- IPv4 as a whole, with the tunnel in it. It is one of the two ends of the walk through the tags. -/
theorem processIpv4_extends (ipOffset : Nat) (metaInfo : PacketMeta) :
    Extends (processIpv4 packet ipOffset metaInfo) (processIpv4 (packet ++ more) ipOffset metaInfo) := by
  refine .ite ?_ (.refl _)
  refine (ipv4GetVersion_extends packet more _).bind fun version => .ite (.refl _) ?_
  refine (reportedIpv4_extends packet more _ _).bind fun reported => ?_
  cases reported with
  | none => exact .refl _
  | some iph => exact (reportIpv4_extends packet more _ _).bind fun _ => .refl _

/-- IPv6, the other end. Its header has a fixed length, so that only the fourth layer can go on
behind the packet. -/
theorem processIpv6_extends (ipOffset : Nat) (metaInfo : PacketMeta) :
    Extends (processIpv6 packet ipOffset metaInfo) (processIpv6 (packet ++ more) ipOffset metaInfo) := by
  refine .ite ?_ (.refl _)
  refine (readByte_extends packet more _).bind fun first => .ite (.refl _) ?_
  refine (readU32_extends packet more _).bind fun src2 => ?_
  refine (readU32_extends packet more _).bind fun src3 => ?_
  refine (readU32_extends packet more _).bind fun dst2 => ?_
  refine (readU32_extends packet more _).bind fun dst3 => ?_
  refine (readU16_extends packet more _).bind fun len => ?_
  refine (readByte_extends packet more _).bind fun next => ?_
  exact (processPacketL4_extends packet more _ _ _ _ _).bind fun _ => .refl _

/-- By induction on the rounds: a label that was read inside is skipped or ends the walk as before. -/
theorem skipLabels_extends (rounds ipOffset : Nat) :
    Extends (skipLabels packet rounds ipOffset) (skipLabels (packet ++ more) rounds ipOffset) := by
  induction rounds generalizing ipOffset with
  | zero => exact .refl _
  | succ rounds inductionHypothesis =>
    exact (readByte_extends packet more _).bind fun label => .ite (inductionHypothesis _) (.refl _)

/-- By induction on the rounds, like the labels: each type that was read inside is read again. -/
theorem skipTags_extends (rounds type ipOffset : Nat) :
    Extends (skipTags packet rounds type ipOffset) (skipTags (packet ++ more) rounds type ipOffset) := by
  induction rounds generalizing type ipOffset with
  | zero => exact .refl _
  | succ rounds inductionHypothesis =>
    refine .ite (.refl _) (.ite ?_ (.ite ?_ (.refl _)))
    · exact (readU16_extends packet more _).bind fun type => inductionHypothesis _ _
    · exact (skipLabels_extends packet more _ _).bind fun _ => .refl _

/-- What is decoded of a packet without a read beyond its bytes does not depend on what is behind them. -/
theorem decodePacket_extends (metaInfo : PacketMeta) :
    Extends (decodePacket packet metaInfo) (decodePacket (packet ++ more) metaInfo) := by
  refine (readU16_extends packet more _).bind fun etherType => ?_
  refine (skipTags_extends packet more _ _ _).bind fun found => ?_
  exact .ite (processIpv4_extends packet more _ _) (.ite (processIpv6_extends packet more _ _) (.refl _))

end Behind

end OpenTaker
