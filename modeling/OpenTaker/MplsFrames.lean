import OpenTaker.Ipv4Packets

/-!
# Frames with a label stack

Behind the VLAN tags of a frame stands a stack of labels, of which the last has the
bottom-of-stack bit, and behind the stack an IPv4 packet. The decoder walks over the
labels by a byte of the word behind each: the byte it tests is the last one of the next
label, which is its time to live, and at the end of the stack the low byte of the length
of the packet.
-/

namespace OpenTaker

open ByteReads

variable {packet : List UInt8}

/-! ## Labels -/

/-- A label without its bottom-of-stack bit, which its place in the stack decides. -/
structure MplsLabel where
  label : Fin (2 ^ 20)
  trafficClass : Fin 8
  ttl : UInt8

/-- The four bytes of a label, with the bit in the third one. -/
def MplsLabel.encode (entry : MplsLabel) (bottom : Bool) : List UInt8 :=
  [UInt8.ofNat (entry.label.val / 4096), UInt8.ofNat (entry.label.val / 16),
    UInt8.ofNat (entry.label.val % 16 * 16 + entry.trafficClass.val * 2 + bit 0 bottom), entry.ttl]

/-- A label with its bits takes one word of four bytes. -/
theorem MplsLabel.encode_length (entry : MplsLabel) (bottom : Bool) :
    (entry.encode bottom).length = 4 := rfl

/-- A stack: the labels above the bottom, and the one at the bottom. -/
def encodeStack (bottom : MplsLabel) : List MplsLabel → List UInt8
  | [] => bottom.encode true
  | entry :: upper => entry.encode false ++ encodeStack bottom upper

/-- A stack takes a word for each of its labels, of which only the last is marked as the bottom. -/
theorem encodeStack_length (bottom : MplsLabel) (upper : List MplsLabel) :
    (encodeStack bottom upper).length = 4 * (upper.length + 1) := by
  induction upper with
  | nil => rfl
  | cons entry upper inductionHypothesis =>
    rw [encodeStack, List.length_append, inductionHypothesis, List.length_cons,
      MplsLabel.encode_length]
    omega

/-- The last byte of each label is its time to live. -/
theorem encodeStack_ttl {bottom : MplsLabel} {upper : List MplsLabel} {offset : Nat}
    (hasAt : HasAt packet offset (encodeStack bottom upper)) (place : Nat) (entry : MplsLabel)
    (listed : (upper ++ [bottom])[place]? = some entry) :
    offset + 4 * place + 3 < packet.length ∧
      byteAt packet (offset + 4 * place + 3) = entry.ttl.toNat := by
  induction upper generalizing offset place with
  | nil =>
    cases place with
    | zero =>
      cases listed
      exact hasAt.byteAt 3 (by rw [encodeStack, MplsLabel.encode_length]; decide)
    | succ place => cases listed
  | cons first upper inductionHypothesis =>
    obtain ⟨firstAt, following⟩ := hasAt.append
    cases place with
    | zero =>
      cases listed
      exact firstAt.byteAt 3 (by rw [MplsLabel.encode_length]; decide)
    | succ place =>
      have found := inductionHypothesis following place listed
      rw [MplsLabel.encode_length, show offset + 4 + 4 * place + 3 = offset + 4 * (place + 1) + 3 by omega] at found
      exact found

/-! ## Frames -/

/-- A frame with tags, a label stack and an IPv4 packet. -/
structure MplsFrame where
  ether : EtherHeader
  /-- The labels above the bottom one, the topmost first. -/
  upper : List MplsLabel
  bottom : MplsLabel
  ip : Ipv4Packet
  padding : List UInt8

namespace MplsFrame

variable (frame : MplsFrame)

/-- The bytes of the frame: its header with the type of MPLS, the labels, the packet, and the
padding. -/
def encode : List UInt8 :=
  frame.ether.encode 0x8847 ++
    (encodeStack frame.bottom frame.upper ++ (frame.ip.encode ++ frame.padding))

/-- The frame without its label stack, and with the type of the packet: the frame that the claim
compares with. -/
def plain : List UInt8 := frame.ether.encode 0x0800 ++ (frame.ip.encode ++ frame.padding)

/-- The labels of the stack, from the top to the bottom. -/
def labels : List MplsLabel := frame.upper ++ [frame.bottom]

/-- Where the label stack begins, behind the frame's header and its tags. -/
def stackOffset : Nat := frame.ether.headerLen

/-- Where the packet begins, right behind the last label. -/
def layer3Offset : Nat := frame.stackOffset + 4 * frame.labels.length

/-- Where the payload stands, behind the labels and the headers of the packet. -/
def layer5Offset : Nat := frame.layer3Offset + frame.ip.headerLen + frame.ip.segment.headerLen

end MplsFrame

/-- Two metas report the same addresses, ports, protocol and payload length. -/
structure SameFlow (first second : PacketMeta) : Prop where
  srcIP : first.basicAttr.srcIP = second.basicAttr.srcIP
  dstIP : first.basicAttr.dstIP = second.basicAttr.dstIP
  srcPort : first.basicAttr.srcPort = second.basicAttr.srcPort
  dstPort : first.basicAttr.dstPort = second.basicAttr.dstPort
  protocol : first.basicAttr.protocol = second.basicAttr.protocol
  payload : first.layer5payloadLen = second.layer5payloadLen

/-- Whatever the slots held, the frame is reported as it is without its stack, with the
IP header behind the last label. -/
def MplsFrame.Transparent (frame : MplsFrame) : Prop :=
  ∀ slot other : PacketMeta, slot.basicAttr.pktLen = frame.encode.length →
    other.basicAttr.pktLen = frame.plain.length →
    ∃ reported expected, processPacketBasic (some frame.encode) (some slot) = .ok (0, some reported) ∧
      processPacketBasic (some frame.plain) (some other) = .ok (0, some expected) ∧
      SameFlow reported expected ∧ reported.layer3Offset = frame.layer3Offset

namespace MplsFrame

variable {frame : MplsFrame}

/-- There is at least one label, that at the bottom. -/
theorem labels_length : frame.labels.length = frame.upper.length + 1 := by
  rw [labels, List.length_append]
  rfl

/-- The parts of the frame stand at their offsets. -/
theorem parts_hasAt (frame : MplsFrame) :
    HasAt frame.encode frame.stackOffset (encodeStack frame.bottom frame.upper) ∧
      HasAt frame.encode frame.layer3Offset (frame.ip.encode ++ frame.padding) := by
  have behind := frame.ether.hasAt_behind 0x8847
    (encodeStack frame.bottom frame.upper ++ (frame.ip.encode ++ frame.padding))
  obtain ⟨stack, packet⟩ := behind.append
  rw [encodeStack_length, ← labels_length] at packet
  exact ⟨stack, packet⟩

/-- The length of the frame with its labels, which moves everything behind them. -/
theorem encode_length (frame : MplsFrame) : frame.encode.length =
    frame.layer3Offset + frame.ip.encode.length + frame.padding.length := by
  simp only [encode, List.length_append, EtherHeader.encode_length, encodeStack_length,
    layer3Offset, stackOffset, labels_length]
  omega

/-- The length of the frame without them, with which the claim compares. -/
theorem plain_length (frame : MplsFrame) : frame.plain.length =
    frame.stackOffset + frame.ip.encode.length + frame.padding.length := by
  rw [plain, List.length_append, EtherHeader.encode_length, List.length_append, stackOffset]
  omega

/-- The packet stands behind the labels, where the walk finds it when it has passed the last one. -/
theorem stands (frame : MplsFrame) (short : frame.encode.length < 2 ^ 16) :
    Ipv4Packet.Stands frame.encode frame.layer3Offset frame.ip frame.padding :=
  ⟨frame.parts_hasAt.2, frame.encode_length.symm, short⟩

/-- In the frame without labels it stands where the stack began. -/
theorem plain_stands (frame : MplsFrame) (short : frame.encode.length < 2 ^ 16) :
    Ipv4Packet.Stands frame.plain frame.stackOffset frame.ip frame.padding := by
  refine ⟨frame.ether.hasAt_behind 0x0800 _, frame.plain_length.symm, ?_⟩
  rw [encode_length, layer3Offset] at short
  rw [plain_length]
  omega

/-! ## The walk over the stack -/

/-- The walk of the frame is the one over its labels. -/
theorem ipv4At_iff (short : frame.encode.length < 2 ^ 16) (iph : Nat) :
    Ipv4At frame.encode iph ↔ ∃ labels, LabelsInside frame.encode frame.stackOffset labels ∧
      iph = u16 (frame.stackOffset + 4 * labels) := by
  obtain ⟨inside, type, start⟩ := frame.ether.walked 0x8847 (by decide) _ short
  have isMpls : tagType frame.encode frame.ether.tags.length = hoEthMpls := type
  constructor
  · rintro ⟨tags, found, leads⟩
    rw [found.unique inside, isMpls, start] at leads
    cases leads with
    | plain impossible => cases impossible
    | mpls _ labels => exact ⟨_, labels, rfl⟩
    | pppoe impossible => cases impossible
  · rintro ⟨labels, walked, rfl⟩
    refine ⟨frame.ether.tags.length, inside, ?_⟩
    rw [start]
    exact .mpls isMpls walked

/-- The walk of the frame without its stack ends at the packet. -/
theorem plain_ipv4At (short : frame.encode.length < 2 ^ 16) :
    Ipv4At frame.plain frame.stackOffset :=
  frame.ether.ipv4At _ (frame.plain_stands short).short

end MplsFrame

/-! ## When the stack is walked to its end -/

/-- The bytes the walk tests let it end behind the last label. -/
structure MplsFrame.WalkedToEnd (frame : MplsFrame) : Prop where
  odd : ∀ label ∈ frame.labels.tail, label.ttl.toNat % 2 = 1
  even : (frame.ip.headerLen + frame.ip.segmentLen) % 2 = 0

namespace MplsFrame

variable {frame : MplsFrame}

/-- The byte tested behind a label is the last one of the next, and behind the stack the
low byte of the length of the packet. -/
theorem labelByte_tested (short : frame.encode.length < 2 ^ 16) :
    (∀ label (inside : label < frame.labels.length),
      labelByte frame.stackOffset label < frame.encode.length ∧
      byteAt frame.encode (labelByte frame.stackOffset label) = frame.labels[label].ttl.toNat) ∧
    labelByte frame.stackOffset frame.labels.length < frame.encode.length ∧
      byteAt frame.encode (labelByte frame.stackOffset frame.labels.length) =
        (frame.ip.headerLen + frame.ip.segmentLen) % 256 := by
  have stands := frame.stands short
  have bytes := stands.bytes
  have captured := bytes.captured
  have minimal : 20 ≤ frame.ip.headerLen := Nat.le_add_right 20 _
  have last : frame.layer3Offset = frame.stackOffset + 4 * frame.labels.length := rfl
  constructor
  · intro label inside
    have listed : (frame.upper ++ [frame.bottom])[label]? = some frame.labels[label] :=
      List.getElem?_eq_getElem inside
    have place : labelByte frame.stackOffset label = frame.stackOffset + 4 * label + 3 := by
      rw [labelByte, u16, Nat.mod_eq_of_lt (by omega)]
    rw [place]
    exact encodeStack_ttl frame.parts_hasAt.1 label _ listed
  · have place : labelByte frame.stackOffset frame.labels.length = frame.layer3Offset + 2 + 1 := by
      rw [labelByte, u16, Nat.mod_eq_of_lt (by omega), last]
    have len := bytes.len
    have low := (frame.encode.getD (frame.layer3Offset + 2) 0).toNat_lt
    have high := (frame.encode.getD (frame.layer3Offset + 2 + 1) 0).toNat_lt
    rw [place]
    simp only [halfAt, byteAt, ntohs] at len ⊢
    omega

/-- The walk ends behind the last label exactly when the bytes it tests let it. -/
theorem labelsInside_iff (short : frame.encode.length < 2 ^ 16) :
    LabelsInside frame.encode frame.stackOffset frame.labels.length ↔ frame.WalkedToEnd := by
  obtain ⟨labels, inside, bottom⟩ := labelByte_tested short
  have length : frame.labels.length = frame.upper.length + 1 := labels_length
  constructor
  · intro walked
    constructor
    · intro entry listed
      obtain ⟨label, within, rfl⟩ := List.mem_iff_getElem.mp listed
      rw [List.length_tail] at within
      have more := walked.more (label + 1) (by omega) (by omega)
      rw [(labels (label + 1) (by omega)).2, Nat.and_one_is_mod] at more
      rw [List.getElem_tail]
      omega
    · have stop := walked.bottom
      rw [bottom, Nat.and_one_is_mod] at stop
      omega
  · intro walked
    refine ⟨by omega, fun label some within => ?_, fun label some before => ?_, ?_⟩
    · by_cases last : label = frame.labels.length
      · rw [last]
        exact inside
      · exact (labels label (by omega)).1
    · rw [(labels label before).2, Nat.and_one_is_mod]
      obtain ⟨label, rfl⟩ := Nat.exists_eq_add_of_le' some
      have listed : frame.labels[label + 1] ∈ frame.labels.tail := by
        rw [← List.getElem_tail (by rw [List.length_tail]; omega)]
        exact List.getElem_mem _
      have odd := walked.odd _ listed
      omega
    · rw [bottom, Nat.and_one_is_mod]
      have even := walked.even
      omega

/-- The decoder leaves the labels for an IPv4 header or not at all. -/
theorem exists_ipv4At (short : frame.encode.length < 2 ^ 16) {slot : PacketMeta}
    {result : Int × Option PacketMeta}
    (returned : processPacketBasic (some frame.encode) (some slot) = .ok result) :
    ∃ iph, Ipv4At frame.encode iph := by
  obtain ⟨inside, type, -⟩ := frame.ether.walked 0x8847 (by decide) _ short
  have isMpls : tagType frame.encode frame.ether.tags.length = hoEthMpls := type
  obtain ⟨found, walked⟩ := walk_of_ok returned
  obtain ⟨tags, tagsInside, ended⟩ := (walk_eq_ok found).mp walked
  have unfolded : ∀ ipOffset, skipTags frame.encode 1 hoEthMpls ipOffset =
      skipLabels frame.encode maxRounds ipOffset >>= fun found => pure (hoEthIp4, found) :=
    fun _ => rfl
  rw [tagsInside.unique inside, isMpls, unfolded, bind_eq_ok] at ended
  obtain ⟨iph, -, same⟩ := ended
  cases same
  exact ⟨iph, (walk_ipv4 iph).mp walked⟩

end MplsFrame

/-! ## Frames that are read elsewhere -/

/-- Two IPv4 headers, each with a whole transport header behind it, carry the same flow. -/
structure SameFlowAt (first : List UInt8) (firstIph : Nat) (second : List UInt8) (secondIph : Nat) :
    Prop where
  firstInside : Ipv4TransportInside first firstIph
  secondInside : Ipv4TransportInside second secondIph
  firstWhole : SegmentWhole first firstIph
  secondWhole : SegmentWhole second secondIph
  srcIP : ntohl (wordAt first (firstIph + 12)) = ntohl (wordAt second (secondIph + 12))
  dstIP : ntohl (wordAt first (firstIph + 16)) = ntohl (wordAt second (secondIph + 16))
  srcPort : portAt first firstIph 0 = portAt second secondIph 0
  dstPort : portAt first firstIph 2 = portAt second secondIph 2
  protocol : protocolAt first firstIph = protocolAt second secondIph
  payload : payloadAt first firstIph = payloadAt second secondIph

/-- The walk ends inside of the stack or runs on beyond it, and by chance finds a header
at an offset with the same low byte and with the flow of the packet. -/
structure MplsFrame.Misread (frame : MplsFrame) (labels header expected : Nat) : Prop where
  elsewhere : labels ≠ frame.labels.length
  walked : LabelsInside frame.encode frame.stackOffset labels
  captured : u16 (frame.stackOffset + 4 * labels) + 20 ≤ frame.encode.length
  version : byteAt frame.encode (u16 (frame.stackOffset + 4 * labels)) / 16 = 4
  reports : Reports frame.encode frame.encode.length (u16 (frame.stackOffset + 4 * labels)) header
  place : u8 header = frame.layer3Offset
  plain : Reports frame.plain frame.plain.length frame.stackOffset expected
  flow : SameFlowAt frame.encode header frame.plain expected

/-- Reports of headers with the same flow agree: addresses, ports and protocol are read from equal
bytes. -/
theorem SameFlowAt.sameFlow {first second : List UInt8} {firstFrom firstIph secondFrom secondIph : Nat}
    {slot reported other expected : PacketMeta} (same : SameFlowAt first firstIph second secondIph)
    (firstReported : Reported first firstFrom firstIph slot reported)
    (secondReported : Reported second secondFrom secondIph other expected) :
    SameFlow reported expected := by
  obtain ⟨firstProtocol, firstPayload⟩ := firstReported.segment.whole same.firstWhole
  obtain ⟨secondProtocol, secondPayload⟩ := secondReported.segment.whole same.secondWhole
  refine ⟨?_, ?_, ?_, ?_, ?_, ?_⟩
  · rw [firstReported.flow.srcIP, secondReported.flow.srcIP, same.srcIP]
  · rw [firstReported.flow.dstIP, secondReported.flow.dstIP, same.dstIP]
  · rw [firstReported.flow.srcPort, secondReported.flow.srcPort, same.srcPort]
  · rw [firstReported.flow.dstPort, secondReported.flow.dstPort, same.dstPort]
  · rw [firstProtocol, secondProtocol, same.protocol]
  · rw [firstPayload, secondPayload, same.payload]

/-- Headers with the same report carry the same flow. -/
theorem SameFlow.sameFlowAt {first second : List UInt8} {firstFrom firstIph secondFrom secondIph : Nat}
    {slot reported other expected : PacketMeta} (same : SameFlow reported expected)
    (firstReported : Reported first firstFrom firstIph slot reported)
    (secondReported : Reported second secondFrom secondIph other expected)
    (firstWhole : SegmentWhole first firstIph) (secondWhole : SegmentWhole second secondIph) :
    SameFlowAt first firstIph second secondIph := by
  obtain ⟨firstProtocol, firstPayload⟩ := firstReported.segment.whole firstWhole
  obtain ⟨secondProtocol, secondPayload⟩ := secondReported.segment.whole secondWhole
  refine ⟨firstReported.inside, secondReported.inside, firstWhole, secondWhole, ?_, ?_, ?_, ?_, ?_, ?_⟩
  · rw [← firstReported.flow.srcIP, ← secondReported.flow.srcIP, same.srcIP]
  · rw [← firstReported.flow.dstIP, ← secondReported.flow.dstIP, same.dstIP]
  · rw [← firstReported.flow.srcPort, ← secondReported.flow.srcPort, same.srcPort]
  · rw [← firstReported.flow.dstPort, ← secondReported.flow.dstPort, same.dstPort]
  · rw [← firstProtocol, ← secondProtocol, same.protocol]
  · rw [← firstPayload, ← secondPayload, same.payload]

namespace MplsFrame

variable {frame : MplsFrame}

/-- Read at its end or elsewhere, the frame is reported as without its stack. -/
theorem transparent_of_misread (short : frame.encode.length < 2 ^ 16) {labels header expected : Nat}
    (misread : frame.Misread labels header expected) : frame.Transparent := by
  intro slot other pktLen plainLen
  have plainStands := frame.plain_stands short
  have plainBytes := plainStands.bytes
  have plainCaptured := plainBytes.captured
  have minimal : 20 ≤ frame.ip.headerLen := Nat.le_add_right 20 _
  obtain ⟨reported, returned, shown⟩ := exists_decode_ipv4
    ((ipv4At_iff short _).mpr ⟨labels, misread.walked, rfl⟩) short pktLen misread.captured
    misread.version misread.reports misread.flow.firstInside
  obtain ⟨plainReported, plainReturned, plainShown⟩ := exists_decode_ipv4 (plain_ipv4At short)
    plainStands.short plainLen (by omega) plainBytes.version misread.plain misread.flow.secondInside
  refine ⟨reported, plainReported, returned, plainReturned, misread.flow.sameFlow shown plainShown, ?_⟩
  rw [shown.flow.layer3Offset, misread.place]

/-- Walked to its end and taken for no T-PDU, the frame is reported as without its stack. -/
theorem transparent_of_walked (short : frame.encode.length < 2 ^ 16)
    (small : frame.layer5Offset ≤ 255) (walked : frame.WalkedToEnd)
    (passes : frame.ip.PassesGtp frame.padding) : frame.Transparent := by
  intro slot other pktLen plainLen
  have stands := frame.stands short
  have plainStands := frame.plain_stands short
  have bytes := stands.bytes
  have plainBytes := plainStands.bytes
  have captured := bytes.captured
  have plainCaptured := plainBytes.captured
  have minimal : 20 ≤ frame.ip.headerLen := Nat.le_add_right 20 _
  have first : frame.layer3Offset ≤ 255 := by
    rw [layer5Offset] at small
    omega
  have ends : frame.layer3Offset = u16 (frame.stackOffset + 4 * frame.labels.length) :=
    (Nat.mod_eq_of_lt (Nat.lt_of_le_of_lt first (by decide))).symm
  obtain ⟨reported, returned, shown⟩ := exists_decode_ipv4
    ((ipv4At_iff short _).mpr ⟨_, (labelsInside_iff short).mpr walked, ends⟩) short pktLen
    (by omega) bytes.version ((stands.reports_self_iff _).mpr passes) bytes.transportInside
  obtain ⟨expected, plainReturned, plainShown⟩ := exists_decode_ipv4 (plain_ipv4At short)
    plainStands.short plainLen (by omega) plainBytes.version
    ((plainStands.reports_self_iff _).mpr passes) plainBytes.transportInside
  have report := bytes.shown short shown.flow shown.segment
  have plainReport := plainBytes.shown plainStands.short plainShown.flow plainShown.segment
  refine ⟨reported, expected, returned, plainReturned, ?_, ?_⟩
  · exact ⟨report.srcIP.trans plainReport.srcIP.symm, report.dstIP.trans plainReport.dstIP.symm,
      report.srcPort.trans plainReport.srcPort.symm, report.dstPort.trans plainReport.dstPort.symm,
      report.protocol.trans plainReport.protocol.symm, report.payload.trans plainReport.payload.symm⟩
  · rw [shown.flow.layer3Offset, u8, Nat.mod_eq_of_lt (by omega)]

/-- A slot that held a payload of some length. -/
def heldPayload (pktLen payloadLen : Nat) : PacketMeta :=
  { PacketMeta.captured pktLen with layer5payloadLen := payloadLen }

/-- A packet that is reported at its own place is taken for no T-PDU: the header inside one
would stand at another place, even by its low byte. -/
theorem passesGtp_of_reports (short : frame.encode.length < 2 ^ 16) {header : Nat}
    (reports : Reports frame.encode frame.encode.length frame.layer3Offset header)
    (place : u8 header = frame.layer3Offset) : frame.ip.PassesGtp frame.padding := by
  have stands := frame.stands short
  have own : header = frame.layer3Offset := by
    by_cases tpdu : TpduAt frame.encode frame.layer3Offset
    · obtain ⟨distance, least, most, inner⟩ := stands.bytes.inner_apart
      have behind := (reports.inner tpdu).1
      rw [inner] at behind
      simp only [u8, u16] at place behind
      omega
    · exact reports.outer tpdu
  exact (stands.reports_self_iff _).mp (own ▸ reports)

/-- A frame that is reported as without its stack is walked to its end, or read elsewhere. -/
theorem walked_or_misread_of_transparent (short : frame.encode.length < 2 ^ 16)
    (transparent : frame.Transparent) :
    (frame.WalkedToEnd ∧ frame.ip.PassesGtp frame.padding) ∨
      ∃ labels header expected, frame.Misread labels header expected := by
  have stands := frame.stands short
  have plainStands := frame.plain_stands short
  have plainCaptured := plainStands.bytes.captured
  have minimal : 20 ≤ frame.ip.headerLen := Nat.le_add_right 20 _
  have further : frame.layer3Offset = frame.stackOffset + 4 * frame.labels.length := rfl
  have plainFound := plain_ipv4At short
  -- Two slots on each side, so that what stays of a slot shows.
  obtain ⟨reported, expected, returned, plainReturned, same, place⟩ :=
    transparent (heldPayload _ 0) (heldPayload _ 0) rfl rfl
  obtain ⟨again, expectedSame, returnedAgain, plainSame, sameAgain, -⟩ :=
    transparent (heldPayload _ 1) (heldPayload _ 0) rfl rfl
  obtain ⟨reportedSame, plainAgain, returnedSame, plainReturnedAgain, samePlain, -⟩ :=
    transparent (heldPayload _ 0) (heldPayload _ 1) rfl rfl
  rw [plainReturned] at plainSame
  rw [returned] at returnedSame
  cases plainSame
  cases returnedSame
  obtain ⟨iph, found⟩ := exists_ipv4At short returned
  have captured : iph + 20 ≤ frame.encode.length := by
    by_contra outside
    have cleared := ((decode_ipv4_eq_ok found rfl).mp returned).1 outside
    have zero : reported.layer3Offset = 0 := by
      rw [cleared]
      rfl
    rw [place, further, stackOffset, EtherHeader.headerLen] at zero
    omega
  obtain ⟨header, shown⟩ := decode_ipv4_reported found short rfl captured returned
  obtain ⟨headerAgain, shownAgain⟩ := decode_ipv4_reported found short rfl captured returnedAgain
  obtain ⟨plainHeader, plainShown⟩ := decode_ipv4_reported plainFound plainStands.short rfl
    (by omega) plainReturned
  obtain ⟨plainHeaderAgain, plainShownAgain⟩ := decode_ipv4_reported plainFound plainStands.short
    rfl (by omega) plainReturnedAgain
  cases shown.reports.unique shownAgain.reports
  cases plainShown.reports.unique plainShownAgain.reports
  have whole := shown.whole shownAgain Nat.zero_ne_one (same.payload.trans sameAgain.payload.symm)
  have plainWhole := plainShown.whole plainShownAgain Nat.zero_ne_one
    (same.payload.symm.trans samePlain.payload)
  have headerPlace : u8 header = frame.layer3Offset := shown.flow.layer3Offset.symm.trans place
  obtain ⟨labels, walked, rfl⟩ := (ipv4At_iff short iph).mp found
  by_cases last : labels = frame.labels.length
  · refine .inl ⟨(labelsInside_iff short).mp (last ▸ walked), ?_⟩
    have ends : u16 (frame.stackOffset + 4 * labels) = frame.layer3Offset := by
      rw [last, further]
      have bounded := frame.encode_length
      exact Nat.mod_eq_of_lt (by omega)
    have reports := shown.reports
    rw [ends] at reports
    exact passesGtp_of_reports short reports headerPlace
  · exact .inr ⟨labels, header, plainHeader, last, walked, captured, shown.version, shown.reports,
      headerPlace, plainShown.reports, same.sameFlowAt shown plainShown whole plainWhole⟩

end MplsFrame

/-- A frame is reported as it is without its label stack exactly when the walk over the
stack ends behind the last label and the packet is taken for no T-PDU, or when the walk
ends elsewhere at bytes that read like the packet. -/
theorem mpls_transparent_iff (frame : MplsFrame) (short : frame.encode.length < 2 ^ 16)
    (small : frame.layer5Offset ≤ 255) :
    frame.Transparent ↔ (frame.WalkedToEnd ∧ frame.ip.PassesGtp frame.padding) ∨
      ∃ labels header expected, frame.Misread labels header expected := by
  constructor
  · exact MplsFrame.walked_or_misread_of_transparent short
  · rintro (⟨walked, passes⟩ | ⟨labels, header, expected, misread⟩)
    · exact MplsFrame.transparent_of_walked short small walked passes
    · exact MplsFrame.transparent_of_misread short misread

/-- A TCP packet with a payload, behind two labels with a time to live of 63. -/
def labelledTcp (payload : List UInt8) : MplsFrame where
  ether := .tagged [5]
  upper := [{ label := 16, trafficClass := ⟨0, by decide⟩, ttl := 63 }]
  bottom := { label := 17, trafficClass := ⟨0, by decide⟩, ttl := 63 }
  ip :=
    { header := headerBetween 0x0A000001 0x0A000002
      segment := .tcp
        { srcPort := 443
          dstPort := 50000
          seqNo := 1
          ackNo := 9
          nonce := false
          reserved := ⟨0, by decide⟩
          fin := false
          syn := false
          rst := false
          psh := true
          ack := true
          urgent := false
          echo := false
          cwr := false
          wndSize := 1024
          checkSum := 0
          urgentPointer := 0
          options := .none }
      payload := payload }
  padding := []

/-- A packet of even length behind labels of odd times to live is reported. The bit that the walk
looks at is the lowest of that field. -/
theorem mpls_transparent_even : (labelledTcp [1, 2]).Transparent := by
  refine (mpls_transparent_iff (labelledTcp [1, 2]) (by decide) (by decide)).mpr (.inl ⟨⟨?_, ?_⟩, ?_⟩)
  · decide
  · decide
  · intro header impossible
    cases impossible

/-- With one byte of payload less the walk runs on into the packet, and nothing is reported: the bit
it looks at there is one of the packet's length. -/
theorem odd_packet_refused :
    (labelledTcp [1]).encode.length < 2 ^ 16 ∧ (labelledTcp [1]).layer5Offset ≤ 255 ∧
      ¬ (labelledTcp [1]).Transparent := by
  refine ⟨by decide, by decide, ?_⟩
  have refused : (processPacketBasic (some (labelledTcp [1]).encode)
      (some (.captured (labelledTcp [1]).encode.length))).toOption.map Prod.fst = some (-1) := by
    decide +kernel
  intro transparent
  obtain ⟨reported, -, returned, -⟩ :=
    transparent (.captured (labelledTcp [1]).encode.length)
      (.captured (labelledTcp [1]).plain.length) rfl rfl
  rw [returned] at refused
  cases refused

end OpenTaker
