import OpenTaker.Ipv4Packets

/-!
# Frames with a GTP-U tunnel

An IPv4/UDP frame may carry a GTPv1 T-PDU, a packet of a user behind a header of eight
or twelve bytes. The decoder means to report the packet of the user. It compares the
ports as the host reads them with a constant in network order, so it looks for port
26632 in place of 2152, and it counts one byte for the flag of the N-PDU number where
the header grows by four.
-/

namespace OpenTaker

open ByteReads

/-! ## Frames and messages -/

/-- A frame with VLAN tags and an IPv4/UDP packet, in whose payload a tunnel may carry another one. -/
structure UdpFrame where
  ether : EtherHeader
  header : Ipv4Header
  udp : AnyUdpHeader
  payload : List UInt8
  padding : List UInt8

namespace UdpFrame

variable (frame : UdpFrame)

/-- The packet in the frame: the IPv4 header, the UDP header, and the payload, which may be a T-PDU. -/
def ip : Ipv4Packet where
  header := frame.header
  segment := .udp frame.udp
  payload := frame.payload

/-- The bytes of the frame, with what a short frame is padded with. -/
def encode : List UInt8 := frame.ether.encode 0x0800 ++ (frame.ip.encode ++ frame.padding)

/-- Where the outer IPv4 header stands, which the reports of the decoder may name or not. -/
def layer3Offset : Nat := frame.ether.headerLen

end UdpFrame

/-- A GTPv1 T-PDU without extension headers. The optional fields are there when one of
the flags is set. -/
structure Tpdu where
  protocolType : Bool
  spare : Bool
  sequenceFlag : Bool
  npduFlag : Bool
  len : UInt16
  teid : UInt32
  sequenceNumber : UInt16
  npduNumber : UInt8
  nextExtension : UInt8
  inner : Ipv4Packet

namespace Tpdu

variable (tpdu : Tpdu)

/-- The byte of the version and the flags, the version being one and the flags standing below it. -/
def flags : Nat :=
  bit 5 true + bit 4 tpdu.protocolType + bit 3 tpdu.spare + bit 1 tpdu.sequenceFlag +
    bit 0 tpdu.npduFlag

/-- The optional fields of a tunnel header. All four bytes are there as soon as one of the flags
asks for some of them. -/
def optional : List UInt8 :=
  if tpdu.sequenceFlag || tpdu.npduFlag then
    be16 tpdu.sequenceNumber ++ [tpdu.npduNumber, tpdu.nextExtension]
  else []

/-- The length of the tunnel header, with its optional fields or without them. -/
def headerLen : Nat := if tpdu.sequenceFlag || tpdu.npduFlag then 12 else 8

/-- The bytes of a T-PDU: the flags and the message type, the length, the identifier of the tunnel,
the optional fields, the inner packet. -/
def encode : List UInt8 :=
  [UInt8.ofNat tpdu.flags, 0xFF] ++ (be16 tpdu.len ++ (be32 tpdu.teid ++
    (tpdu.optional ++ tpdu.inner.encode)))

end Tpdu

/-- The meta reports the addresses and ports of a packet. -/
structure Ipv4Packet.ShownEnds (ip : Ipv4Packet) (reported : PacketMeta) : Prop where
  srcIP : reported.basicAttr.srcIP = ip.header.srcAddr.toNat
  dstIP : reported.basicAttr.dstIP = ip.header.dstAddr.toNat
  srcPort : reported.basicAttr.srcPort = ip.segment.srcPort.toNat
  dstPort : reported.basicAttr.dstPort = ip.segment.dstPort.toNat

namespace UdpFrame

variable (frame : UdpFrame)

/-- Where the packet of the user begins, behind the headers of the frame and that of the tunnel with
its optional fields. -/
def innerOffset (tpdu : Tpdu) : Nat :=
  frame.layer3Offset + frame.ip.headerLen + 8 + tpdu.headerLen

/-- Whatever the slot held, the frame is reported with the packet of the user. -/
def ReportsInner (tpdu : Tpdu) : Prop :=
  ∀ slot : PacketMeta, slot.basicAttr.pktLen = frame.encode.length →
    ∃ reported, processPacketBasic (some frame.encode) (some slot) = .ok (0, some reported) ∧
      tpdu.inner.ShownEnds reported ∧
      reported.basicAttr.protocol = tpdu.inner.segment.protocolBit ∧
      reported.layer3Offset = frame.innerOffset tpdu

/-- Whatever the slot held, the frame is reported with its own addresses and ports. -/
def ReportsOwn : Prop :=
  ∀ slot : PacketMeta, slot.basicAttr.pktLen = frame.encode.length →
    ∃ reported, processPacketBasic (some frame.encode) (some slot) = .ok (0, some reported) ∧
      frame.ip.ShownEnds reported

/-- The frame is taken for a tunnel, and the header found inside happens to be one between
the addresses and ports of the frame. -/
structure CarriesTwin (header : Nat) : Prop where
  inner : header ≠ frame.layer3Offset
  reports : Reports frame.encode frame.encode.length frame.layer3Offset header
  inside : Ipv4TransportInside frame.encode header
  srcIP : ntohl (wordAt frame.encode (header + 12)) = frame.header.srcAddr.toNat
  dstIP : ntohl (wordAt frame.encode (header + 16)) = frame.header.dstAddr.toNat
  srcPort : portAt frame.encode header 0 = frame.udp.srcPort.toNat
  dstPort : portAt frame.encode header 2 = frame.udp.dstPort.toNat

variable {frame}

/-! ## The outer packet -/

/-- The frame is as long as its parts, of which the padding is counted by no header. -/
theorem encode_length (frame : UdpFrame) : frame.encode.length =
    frame.layer3Offset + frame.ip.encode.length + frame.padding.length := by
  rw [encode, List.length_append, EtherHeader.encode_length, List.length_append, layer3Offset]
  omega

/-- The packet stands behind the frame's header, with the padding as the rest. -/
theorem stands (short : frame.encode.length < 2 ^ 16) :
    Ipv4Packet.Stands frame.encode frame.layer3Offset frame.ip frame.padding :=
  ⟨frame.ether.hasAt_behind 0x0800 _, frame.encode_length.symm, short⟩

/-- The decoder finds an IPv4 header at the offset of the third layer. -/
theorem ipv4At (short : frame.encode.length < 2 ^ 16) :
    Ipv4At frame.encode frame.layer3Offset :=
  frame.ether.ipv4At _ short

/-- The transport header of the packet is the UDP header of the frame. -/
theorem udpSegment (frame : UdpFrame) : frame.ip.segment = .udp frame.udp := rfl

/-- The frame is taken for one of a tunnel just by its ports, as they stand in the bytes of the
frame. -/
theorem gtpAt_iff (short : frame.encode.length < 2 ^ 16) :
    GtpAt frame.encode frame.layer3Offset ↔
      frame.udp.srcPort = 26632 ∨ frame.udp.dstPort = 26632 := by
  rw [(stands short).bytes.gtpAt_iff]
  constructor
  · rintro ⟨header, isUdp, ports⟩
    cases isUdp
    exact ports
  · exact fun ports => ⟨frame.udp, rfl, ports⟩

end UdpFrame

/-! ## The message -/

namespace Tpdu

variable (tpdu : Tpdu)

/-- The flags fit in their byte, and with the message type they are those of a T-PDU of version one. -/
theorem flags_isTpdu : tpdu.flags < 256 ∧ isTpdu tpdu.flags 0xFF = true := by
  have each : ∀ protocolType spare sequenceFlag npduFlag : Bool,
      bit 5 true + bit 4 protocolType + bit 3 spare + bit 1 sequenceFlag + bit 0 npduFlag < 256 ∧
        isTpdu (bit 5 true + bit 4 protocolType + bit 3 spare + bit 1 sequenceFlag +
          bit 0 npduFlag) 0xFF = true := by
    decide
  exact each _ _ _ _

/-- Four bytes for the flag of the sequence number, and one for that of the N-PDU number. -/
theorem flags_extra : gtpExtra tpdu.flags =
    (if tpdu.sequenceFlag then 4 else 0) + if tpdu.npduFlag then 1 else 0 := by
  have each : ∀ protocolType spare sequenceFlag npduFlag : Bool,
      gtpExtra (bit 5 true + bit 4 protocolType + bit 3 spare + bit 1 sequenceFlag + bit 0 npduFlag) =
        (if sequenceFlag then 4 else 0) + if npduFlag then 1 else 0 := by
    decide
  exact each _ _ _ _

/-- The fixed part and the optional fields together have the length of the tunnel header. -/
theorem optional_length : 8 + tpdu.optional.length = tpdu.headerLen := by
  rw [optional, headerLen]
  split <;> rfl

end Tpdu

/-- What stands behind the UDP header of a frame that carries a T-PDU. -/
structure UdpFrame.Carries (frame : UdpFrame) (tpdu : Tpdu) : Prop where
  flags : gtpFlagsAt frame.encode frame.layer3Offset = tpdu.flags
  messageType : byteAt frame.encode (frame.layer3Offset + ipv4LenAt frame.encode frame.layer3Offset +
    sizeofUdpHeader + 1) = 0xFF
  start : frame.layer3Offset + frame.ip.headerLen + 10 ≤ frame.encode.length
  inner : HasAt frame.encode (frame.innerOffset tpdu) tpdu.inner.encode

namespace UdpFrame

variable {frame : UdpFrame} {tpdu : Tpdu}

/-- A frame whose payload is a T-PDU shows the decoder its flags, its message type and the inner
packet at the inner offset. -/
theorem carries (short : frame.encode.length < 2 ^ 16) (payload : frame.payload = tpdu.encode) :
    frame.Carries tpdu := by
  have bytes := (stands short).bytes
  obtain ⟨behind, -⟩ := (stands short).behindUdp frame.udpSegment
  rw [show frame.ip.payload = tpdu.encode from payload] at behind
  obtain ⟨messageAt, -⟩ := behind.append
  obtain ⟨start, rest⟩ := messageAt.append
  obtain ⟨-, rest⟩ := rest.append
  obtain ⟨-, rest⟩ := rest.append
  obtain ⟨-, inner⟩ := rest.append
  have first := (readByte_eq_ok _ _).mp (start.readByte 0 _ rfl)
  have second := (readByte_eq_ok _ _).mp (start.readByte 1 _ rfl)
  have optional := tpdu.optional_length
  simp only [be16_length, be32_length, List.length_cons, List.length_nil] at inner
  refine ⟨?_, ?_, by omega, ?_⟩
  · rw [gtpFlagsAt, bytes.headerLen, sizeofUdpHeader]
    exact first.2.trans (UInt8.toNat_ofNat_of_lt' tpdu.flags_isTpdu.1)
  · rw [bytes.headerLen, sizeofUdpHeader]
    exact second.2
  · rw [innerOffset, ← optional, ← Nat.add_assoc]
    exact inner

/-- The frame is taken for a tunnel exactly when one port has the bytes of 2152 swapped. -/
theorem tpduAt_iff (short : frame.encode.length < 2 ^ 16) (payload : frame.payload = tpdu.encode) :
    TpduAt frame.encode frame.layer3Offset ↔
      frame.udp.srcPort = 26632 ∨ frame.udp.dstPort = 26632 := by
  have carries := carries short payload
  rw [TpduAt, gtpAt_iff short, carries.flags, carries.messageType]
  exact and_iff_left tpdu.flags_isTpdu.2

/-- Where the decoder looks for the packet of the user. -/
theorem innerAt_eq (short : frame.encode.length < 2 ^ 16) (payload : frame.payload = tpdu.encode) :
    innerAt frame.encode frame.layer3Offset = u16 (frame.layer3Offset + frame.ip.headerLen + 16 +
      ((if tpdu.sequenceFlag then 4 else 0) + if tpdu.npduFlag then 1 else 0)) := by
  rw [innerAt, tpduOffset_eq, (carries short payload).flags, tpdu.flags_extra,
    (stands short).bytes.headerLen]

/-- Where the packet of the user begins: either flag makes the header four bytes longer. -/
theorem innerOffset_eq : frame.innerOffset tpdu = frame.layer3Offset + frame.ip.headerLen + 16 +
    if tpdu.sequenceFlag || tpdu.npduFlag then 4 else 0 := by
  rw [innerOffset, Tpdu.headerLen]
  split <;> omega

/-! ## What is reported of a tunnel -/

/-- A frame whose T-PDU is found where it begins is reported with the packet of the user. -/
theorem reportsInner_of_found (short : frame.encode.length < 2 ^ 16)
    (payload : frame.payload = tpdu.encode)
    (port : frame.udp.srcPort = 26632 ∨ frame.udp.dstPort = 26632) (plain : tpdu.npduFlag = false)
    (small : frame.innerOffset tpdu ≤ 255) : frame.ReportsInner tpdu := by
  intro slot pktLen
  have bytes := (stands short).bytes
  have captured := bytes.captured
  have minimal : 20 ≤ frame.ip.headerLen := Nat.le_add_right 20 _
  have carries := carries short payload
  have isTpdu := (tpduAt_iff short payload).mpr port
  have inner := Ipv4Packet.bytes carries.inner short
  have innerCaptured := inner.captured
  have innerMinimal : 20 ≤ tpdu.inner.headerLen := Nat.le_add_right 20 _
  have found : innerAt frame.encode frame.layer3Offset = frame.innerOffset tpdu := by
    have start : frame.innerOffset tpdu = frame.layer3Offset + frame.ip.headerLen + 16 +
        ((if tpdu.sequenceFlag then 4 else 0) + if tpdu.npduFlag then 1 else 0) := by
      rw [innerOffset_eq, plain, Bool.or_false]
      rfl
    rw [innerAt_eq short payload, ← start]
    exact Nat.mod_eq_of_lt (Nat.lt_of_le_of_lt small (by decide))
  have reports : Reports frame.encode frame.encode.length frame.layer3Offset
      (frame.innerOffset tpdu) := by
    refine ⟨by omega, fun _ => ?_, fun _ => ?_, fun notTpdu => absurd isTpdu notTpdu,
      fun _ => ⟨found.symm, by omega, inner.version, by omega⟩⟩
    all_goals
      have start := carries.start
      rw [bytes.headerLen]
      omega
  obtain ⟨reported, returned, shown⟩ := exists_decode_ipv4 (ipv4At short) short
    pktLen (by omega) bytes.version reports inner.transportInside
  have report := inner.shown short shown.flow shown.segment
  refine ⟨reported, returned, ⟨report.srcIP, report.dstIP, report.srcPort, report.dstPort⟩,
    report.protocol, ?_⟩
  exact shown.flow.layer3Offset.trans (Nat.mod_eq_of_lt (Nat.lt_succ_of_le small))

/-- A frame reported with the packet of the user has its T-PDU found where it begins. -/
theorem found_of_reportsInner (short : frame.encode.length < 2 ^ 16)
    (payload : frame.payload = tpdu.encode) (reportsInner : frame.ReportsInner tpdu) :
    (frame.udp.srcPort = 26632 ∨ frame.udp.dstPort = 26632) ∧ tpdu.npduFlag = false ∧
      frame.innerOffset tpdu ≤ 255 := by
  have captured := (stands short).bytes.captured
  have minimal : 20 ≤ frame.ip.headerLen := Nat.le_add_right 20 _
  have innerCaptured := (Ipv4Packet.bytes (carries short payload).inner short).captured
  obtain ⟨reported, returned, -, -, place⟩ := reportsInner (.captured frame.encode.length) rfl
  obtain ⟨header, shown⟩ := decode_ipv4_reported (ipv4At short) short rfl (by omega) returned
  have narrowed : u8 header = frame.innerOffset tpdu := shown.flow.layer3Offset.symm.trans place
  have start := @innerOffset_eq frame tpdu
  have isTpdu : TpduAt frame.encode frame.layer3Offset := by
    by_contra notTpdu
    have outer : header = frame.layer3Offset := shown.reports.outer notTpdu
    rw [outer, u8] at narrowed
    omega
  have found : header = _ := (shown.reports.inner isTpdu).1.trans (innerAt_eq short payload)
  rw [found] at narrowed
  refine ⟨(tpduAt_iff short payload).mp isTpdu, ?_, ?_⟩
  · cases sequence : tpdu.sequenceFlag <;> cases npdu : tpdu.npduFlag <;>
      simp only [sequence, npdu, Bool.or_true, Bool.or_false, Bool.false_eq_true, ↓reduceIte, u8,
        u16] at narrowed start ⊢ <;> omega
  · rw [u8] at narrowed
    omega

/-! ## What is reported of another frame -/

/-- A frame keeps its own addresses and ports when it is taken for no T-PDU, or when the
packet in the T-PDU has the same. -/
theorem reportsOwn_iff (short : frame.encode.length < 2 ^ 16) :
    frame.ReportsOwn ↔ frame.ip.PassesGtp frame.padding ∨ ∃ header, frame.CarriesTwin header := by
  have stands := stands short
  have bytes := stands.bytes
  have captured := bytes.captured
  have minimal : 20 ≤ frame.ip.headerLen := Nat.le_add_right 20 _
  have inside : frame.layer3Offset + 20 ≤ frame.encode.length := by omega
  have found := ipv4At short
  constructor
  · intro reportsOwn
    obtain ⟨reported, returned, ends⟩ := reportsOwn (.captured frame.encode.length) rfl
    obtain ⟨header, shown⟩ := decode_ipv4_reported found short rfl inside returned
    by_cases own : header = frame.layer3Offset
    · exact .inl ((stands.reports_self_iff _).mp (own ▸ shown.reports))
    · refine .inr ⟨header, own, shown.reports, shown.inside, ?_, ?_, ?_, ?_⟩
      · exact shown.flow.srcIP.symm.trans ends.srcIP
      · exact shown.flow.dstIP.symm.trans ends.dstIP
      · exact shown.flow.srcPort.symm.trans ends.srcPort
      · exact shown.flow.dstPort.symm.trans ends.dstPort
  · rintro (passes | ⟨header, twin⟩) slot pktLen
    · obtain ⟨reported, returned, shown⟩ := exists_decode_ipv4 found short pktLen inside
        bytes.version ((stands.reports_self_iff _).mpr passes) bytes.transportInside
      have report := bytes.shown short shown.flow shown.segment
      exact ⟨reported, returned, report.srcIP, report.dstIP, report.srcPort, report.dstPort⟩
    · obtain ⟨reported, returned, shown⟩ := exists_decode_ipv4 found short pktLen inside
        bytes.version twin.reports twin.inside
      exact ⟨reported, returned, shown.flow.srcIP.trans twin.srcIP,
        shown.flow.dstIP.trans twin.dstIP, shown.flow.srcPort.trans twin.srcPort,
        shown.flow.dstPort.trans twin.dstPort⟩

end UdpFrame

/-- A tunnel on port 2152 is reported with the packet of the user exactly when its other
port is 26632, it has no N-PDU number, and that packet begins at an offset of eight bits.
A frame on other ports is reported as it is exactly when it is taken for no T-PDU, or for
one whose packet has the same addresses and ports. -/
theorem gtp_reports_iff (frame : UdpFrame) (short : frame.encode.length < 2 ^ 16) :
    (∀ tpdu : Tpdu, frame.payload = tpdu.encode →
      frame.udp.srcPort = 2152 ∨ frame.udp.dstPort = 2152 →
      (frame.ReportsInner tpdu ↔
        (frame.udp.srcPort = 26632 ∨ frame.udp.dstPort = 26632) ∧ tpdu.npduFlag = false ∧
          frame.innerOffset tpdu ≤ 255)) ∧
    (frame.udp.srcPort ≠ 2152 → frame.udp.dstPort ≠ 2152 →
      (frame.ReportsOwn ↔
        frame.ip.PassesGtp frame.padding ∨ ∃ header, frame.CarriesTwin header)) := by
  constructor
  · intro tpdu payload _
    constructor
    · exact UdpFrame.found_of_reportsInner short payload
    · rintro ⟨port, plain, small⟩
      exact UdpFrame.reportsInner_of_found short payload port plain small
  · exact fun _ _ => UdpFrame.reportsOwn_iff short

/-- A T-PDU with a sequence number, and a UDP packet of the user in it. -/
def numberedTpdu : Tpdu where
  protocolType := true
  spare := false
  sequenceFlag := true
  npduFlag := false
  len := 33
  teid := 1
  sequenceNumber := 2
  npduNumber := 0
  nextExtension := 0
  inner :=
    { header := headerBetween 0x0A090001 0x0A090002
      segment := .udp { srcPort := 53, dstPort := 40000, pktLen := 9, checkSum := 0 }
      payload := [1] }

/-- A frame with the T-PDU between two ports, which decide whether the decoder takes it for a
tunnel. -/
def tunnelBetween (srcPort dstPort : UInt16) : UdpFrame where
  ether := .tagged []
  header := headerBetween 0xC0A80001 0xC0A80002
  udp := { srcPort := srcPort, dstPort := dstPort, pktLen := 49, checkSum := 0 }
  payload := numberedTpdu.encode
  padding := []

/-- To port 2152 the packet of the user is reported from port 26632, and a frame between
two other ports as it is. -/
theorem gtp_reports_between :
    (tunnelBetween 26632 2152).ReportsInner numberedTpdu ∧ (tunnelBetween 53 40000).ReportsOwn := by
  constructor
  · exact ((gtp_reports_iff (tunnelBetween 26632 2152) (by decide)).1 numberedTpdu rfl
      (.inr rfl)).mpr ⟨.inl rfl, rfl, by decide⟩
  · refine ((gtp_reports_iff (tunnelBetween 53 40000) (by decide)).2 (by decide) (by decide)).mpr
      (.inl fun header isUdp port => ?_)
    cases isUdp
    rcases port with port | port
    all_goals
      exact absurd port (by decide)

/-- Between ports 2152 the packet of the user is not reported, and a frame from port 26632
that looks like a tunnel is reported with the addresses inside. -/
theorem tunnel_of_other_port :
    (tunnelBetween 2152 2152).encode.length < 2 ^ 16 ∧
      ¬ (tunnelBetween 2152 2152).ReportsInner numberedTpdu ∧
      ¬ (tunnelBetween 26632 40000).ReportsOwn := by
  refine ⟨by decide, ?_, ?_⟩
  · intro reportsInner
    have port := (UdpFrame.found_of_reportsInner (by decide) rfl reportsInner).1
    rcases port with port | port
    all_goals
      exact absurd port (by decide)
  · have inside : ((processPacketBasic (some (tunnelBetween 26632 40000).encode)
        (some (.captured (tunnelBetween 26632 40000).encode.length))).toOption.bind
        Prod.snd).map (fun reported => reported.basicAttr.srcIP) = some 0x0A090001 := by
      decide +kernel
    intro reportsOwn
    obtain ⟨reported, returned, ends⟩ :=
      reportsOwn (.captured (tunnelBetween 26632 40000).encode.length) rfl
    rw [returned] at inside
    have own : reported.basicAttr.srcIP = 0xC0A80001 := ends.srcIP
    have found : reported.basicAttr.srcIP = 0x0A090001 := Option.some.inj inside
    omega

end OpenTaker
