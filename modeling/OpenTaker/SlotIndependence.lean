import OpenTaker.HeaderWalk

/-!
# Two decodings in different slots

The meta of a packet is a slot the ring recycles, and the decoder clears only the
addresses and ports of it. Two runs over one packet start from slots that agree on what
capturing wrote, and are followed in step: they branch alike, for they branch on the
packet and its length.

What a caller may read is told by the addresses and ports. The two results agree on it
unless the packet reports a TCP segment that is shorter than its header says it is: then
the offset and the length of the payload stay those of the packet before.
-/

namespace OpenTaker

open ByteReads

/-- Two slots hold the same captured packet: they agree in all fields that a capture writes before
the decoding. -/
structure SameCapture (first second : PacketMeta) : Prop where
  pktLen : first.basicAttr.pktLen = second.basicAttr.pktLen
  ts : first.basicAttr.ts = second.basicAttr.ts
  headerAddr : first.headerAddr = second.headerAddr
  wireLen : first.basicAttr.wireLen = second.basicAttr.wireLen
  portNum : first.basicAttr.portNum = second.basicAttr.portNum
  offset : first.basicAttr.offset = second.basicAttr.offset

/-- The same network header is reported: its offset and its version. -/
structure SameNetwork (first second : PacketMeta) : Prop where
  version : first.basicAttr.version = second.basicAttr.version
  layer3Offset : first.layer3Offset = second.layer3Offset
  layer4Offset : first.layer4Offset = second.layer4Offset

/-- The same payload is reported: its offset and its length. -/
structure SamePayload (first second : PacketMeta) : Prop where
  layer5Offset : first.layer5Offset = second.layer5Offset
  layer5payloadLen : first.layer5payloadLen = second.layer5payloadLen

/-- The same sequence number and flags are reported, which only a whole TCP header sets. -/
structure SameTcp (first second : PacketBasicAttr) : Prop where
  seq : first.seq = second.seq
  flagSYN : first.flagSYN = second.flagSYN
  flagACK : first.flagACK = second.flagACK
  flagFIN : first.flagFIN = second.flagFIN
  flagRST : first.flagRST = second.flagRST
  flagPUSH : first.flagPUSH = second.flagPUSH
  flagURT : first.flagURT = second.flagURT

/-- Two metas agree on whatever their predicates say is there. -/
structure SameReport (first second : PacketMeta) : Prop where
  srcIP : first.basicAttr.srcIP = second.basicAttr.srcIP
  dstIP : first.basicAttr.dstIP = second.basicAttr.dstIP
  srcPort : first.basicAttr.srcPort = second.basicAttr.srcPort
  dstPort : first.basicAttr.dstPort = second.basicAttr.dstPort
  network : first.basicAttr.isIp = true → SameNetwork first second
  protocol : first.basicAttr.isTcpUdp = true →
    first.basicAttr.protocol = second.basicAttr.protocol
  payload : first.basicAttr.isTcpUdp = true → SamePayload first second
  tcp : first.basicAttr.isTcp = true → SameTcp first.basicAttr second.basicAttr

/-- Decoding the packet in one slot and in the other returns the same code and agreeing
metas, or stops with the same fault. -/
def SameDecoding (packet : List UInt8) (first second : PacketMeta) : Prop :=
  Alike (fun firstDone secondDone => firstDone.1 = secondDone.1 ∧
      ∃ firstMeta secondMeta, firstDone.2 = some firstMeta ∧ secondDone.2 = some secondMeta ∧
        SameReport firstMeta secondMeta)
    (processPacketBasic (some packet) (some first))
    (processPacketBasic (some packet) (some second))

variable (packet : List UInt8)

/-! ## Short segments -/

/-- The captured transport header is that of a TCP segment from a port that is not zero,
which ends before the end of the header it announces. -/
structure ShortTcp (pktLen l4h l4PacketLen l4Proto : Nat) : Prop where
  tcp : l4Proto = ipprotoTcp
  inside : l4h + 14 ≤ packet.length
  port : halfAt packet l4h ≠ 0
  fixed : 20 ≤ clipL4Len l4PacketLen pktLen (u8 l4h)
  cut : clipL4Len l4PacketLen pktLen (u8 l4h) < byteAt packet (l4h + 12) / 16 * 4

/-- A segment too short for its TCP header is behind the IPv4 header, so that the numbers of the
slot are left as they were. -/
structure ShortTcpIpv4 (pktLen iph : Nat) : Prop where
  inside : iph + 20 ≤ packet.length
  whole : ¬ FragmentAt packet iph
  short : ShortTcp packet pktLen (iph + ipv4LenAt packet iph)
    (u16 (ntohs (halfAt packet (iph + 2)) + 2 ^ 16 - ipv4LenAt packet iph))
    (byteAt packet (iph + 9))

/-- The packet reports a short segment, behind its IPv4 header, the inner one of a T-PDU,
or behind its IPv6 header. -/
inductive ReportsShortTcp (pktLen : Nat) : Prop
  | ipv4 {iph reported : Nat} (found : Ipv4At packet iph) (captured : iph + 20 ≤ pktLen)
      (version : byteAt packet iph / 16 = 4) (reports : Reports packet pktLen iph reported)
      (short : ShortTcpIpv4 packet pktLen reported)
  | ipv6 {ip6 : Nat} (found : Ipv6At packet ip6) (captured : ip6 + 40 ≤ pktLen)
      (version : byteAt packet ip6 / 16 = 6) (inside : ip6 + 40 ≤ packet.length)
      (short : ShortTcp packet pktLen (ip6 + 40) (ntohs (halfAt packet (ip6 + 4)))
        (byteAt packet (ip6 + 6)))

variable {packet} {first second : PacketMeta}

/-! ## Two runs over a transport header -/

/-- A value of two bytes is zero in either order, so that the tests of ports for zero do not depend
on it. -/
theorem ntohs_eq_zero {value : Nat} (small : value < 65536) : ntohs value = 0 ↔ value = 0 := by
  simp only [ntohs]
  omega

/-- What is read as two bytes fits in 16 bits. -/
theorem halfAt_lt (bytes : List UInt8) (offset : Nat) : halfAt bytes offset < 65536 := by
  have low := (bytes.getD offset 0).toNat_lt
  have high := (bytes.getD (offset + 1) 0).toNat_lt
  simp only [halfAt, byteAt]
  omega

/-- Without ports the predicates show nothing of the transport header. -/
theorem sameReport_portless (srcIP : first.basicAttr.srcIP = second.basicAttr.srcIP)
    (dstIP : first.basicAttr.dstIP = second.basicAttr.dstIP)
    (network : first.basicAttr.isIp = true → SameNetwork first second)
    (srcPort : first.basicAttr.srcPort = 0) (dstPort : first.basicAttr.dstPort = 0)
    (srcPorts : second.basicAttr.srcPort = 0) (dstPorts : second.basicAttr.dstPort = 0) :
    SameReport first second := by
  have portless : first.basicAttr.isTcpUdp = false := by
    simp only [PacketBasicAttr.isTcpUdp, srcPort, bne_self_eq_false]
  refine ⟨srcIP, dstIP, srcPort.trans srcPorts.symm, dstPort.trans dstPorts.symm, network,
    ?_, ?_, ?_⟩
  all_goals
    intro shown
    simp [PacketBasicAttr.isTcp, portless] at shown

/-- Over a transport header the runs agree on all that the predicates show, but for the
payload of a short segment. -/
theorem processPacketL4_alike {l4PacketLen l4Proto l4h rawSize : Nat}
    (srcIP : first.basicAttr.srcIP = second.basicAttr.srcIP)
    (dstIP : first.basicAttr.dstIP = second.basicAttr.dstIP)
    (network : SameNetwork first second) (offset : first.layer4Offset = u8 l4h) :
    Alike SameReport (processPacketL4 packet l4PacketLen l4Proto l4h rawSize first)
        (processPacketL4 packet l4PacketLen l4Proto l4h rawSize second) ↔
      (ShortTcp packet rawSize l4h l4PacketLen l4Proto → SamePayload first second) := by
  have offsets : second.layer4Offset = u8 l4h := network.layer4Offset.symm.trans offset
  simp only [processPacketL4, offset, offsets]
  by_cases tcp : l4Proto = ipprotoTcp ∧ 20 ≤ clipL4Len l4PacketLen rawSize (u8 l4h)
  · simp only [if_pos tcp, alike_readU16, alike_readU32, alike_readByte, tcpGetHeaderLen,
      bind_assoc, pure_bind]
    by_cases whole : byteAt packet (l4h + 12) / 16 * 4 ≤ clipL4Len l4PacketLen rawSize (u8 l4h)
    · have notShort : ¬ ShortTcp packet rawSize l4h l4PacketLen l4Proto := fun short =>
        absurd short.cut (Nat.not_lt.mpr whole)
      simp only [if_pos whole, alike_pure, notShort, false_implies, iff_true]
      intro _ _ _ _ _
      exact ⟨srcIP, dstIP, rfl, rfl, fun _ => ⟨network.version, network.layer3Offset, rfl⟩,
        fun _ => rfl, fun _ => ⟨rfl, rfl⟩, fun _ => ⟨rfl, rfl, rfl, rfl, rfl, rfl, rfl⟩⟩
    · simp only [if_neg whole, alike_pure]
      constructor
      · intro alike short
        have inside := short.inside
        have report := alike (by omega) (by omega) (by omega) (by omega) (by omega)
        have port : ntohs (halfAt packet l4h) ≠ 0 := fun zero =>
          short.port ((ntohs_eq_zero (halfAt_lt _ _)).mp zero)
        obtain ⟨layer5Offset, layer5payloadLen⟩ := report.payload (bne_iff_ne.mpr port)
        exact ⟨layer5Offset, layer5payloadLen⟩
      · intro payload _ _ _ _ flags
        refine ⟨srcIP, dstIP, rfl, rfl, fun _ => ⟨network.version, network.layer3Offset, rfl⟩,
          fun _ => rfl, fun port => ?_, fun _ => ⟨rfl, rfl, rfl, rfl, rfl, rfl, rfl⟩⟩
        have short : ShortTcp packet rawSize l4h l4PacketLen l4Proto :=
          ⟨tcp.1, by omega, fun zero => bne_iff_ne.mp port
            ((ntohs_eq_zero (halfAt_lt _ _)).mpr zero), tcp.2, Nat.lt_of_not_le whole⟩
        exact ⟨(payload short).layer5Offset, (payload short).layer5payloadLen⟩
  · have notShort : ¬ ShortTcp packet rawSize l4h l4PacketLen l4Proto := fun short =>
      tcp ⟨short.tcp, short.fixed⟩
    simp only [if_neg tcp, notShort, false_implies, iff_true]
    split
    · simp only [alike_readU16, alike_pure]
      intro _ _
      exact ⟨srcIP, dstIP, rfl, rfl, fun _ => ⟨network.version, network.layer3Offset, rfl⟩,
        fun _ => rfl, fun _ => ⟨rfl, rfl⟩, fun isTcp => absurd isTcp (by simp [PacketBasicAttr.isTcp])⟩
    · exact sameReport_portless srcIP dstIP (fun _ => ⟨network.version, network.layer3Offset, rfl⟩)
        rfl rfl rfl rfl

/-! ## Two runs over an IP header -/

/-- Two slots are reported alike just if they agree on the payload fields in the one case in which
these are not written. -/
theorem reportIpv4_alike {iph : Nat} (pktLen : first.basicAttr.pktLen = second.basicAttr.pktLen) :
    Alike SameReport (reportIpv4 packet iph first) (reportIpv4 packet iph second) ↔
      (ShortTcpIpv4 packet first.basicAttr.pktLen iph → SamePayload first second) := by
  have behind := fun l4PacketLen => @processPacketL4_alike packet (first.withIpv4 packet iph)
    (second.withIpv4 packet iph) l4PacketLen (byteAt packet (iph + 9))
    (iph + ipv4LenAt packet iph) first.basicAttr.pktLen rfl rfl ⟨rfl, rfl, rfl⟩ rfl
  simp only [reportIpv4, alike_readU32, alike_readU16, alike_readByte, ipv4GetHeaderLen,
    ipv4IsFragment, bind_assoc, pure_bind]
  change (_ → _ → _ → _ → _ → _ → Alike _
    (processPacketL4 packet _ _ (iph + ipv4LenAt packet iph) _ (first.withIpv4 packet iph))
    (processPacketL4 packet _ _ (iph + ipv4LenAt packet iph) _ (second.withIpv4 packet iph))) ↔ _
  rw [← pktLen, behind]
  by_cases fragment : FragmentAt packet iph
  · have isFragment : halfAt packet (iph + 6) &&& 0xFF3F ≠ 0 := fragment
    rw [if_pos (decide_eq_true isFragment)]
    constructor
    · exact fun _ short => absurd fragment short.whole
    · intro _ _ _ _ _ _ _ short
      have fixed := short.fixed
      rw [clipL4Len, u8] at fixed
      split at fixed
      · split at fixed
        · rw [u16] at fixed
          omega
        · omega
      · omega
  · have notFragment : ¬ (halfAt packet (iph + 6) &&& 0xFF3F ≠ 0) := fragment
    rw [if_neg (by rw [decide_eq_true_iff]; exact notFragment)]
    constructor
    · intro alike short
      have inside := short.inside
      obtain ⟨layer5Offset, layer5payloadLen⟩ := alike (by omega) (by omega) (by omega) (by omega)
        (by omega) (by omega) short.short
      exact ⟨layer5Offset, layer5payloadLen⟩
    · intro payload _ inside _ _ _ _ short
      obtain ⟨layer5Offset, layer5payloadLen⟩ := payload ⟨by omega, fragment, short⟩
      exact ⟨layer5Offset, layer5payloadLen⟩

/-- Two decodings end with the same code and with metas that agree in what is reported. -/
def SameDone (firstDone secondDone : Int × PacketMeta) : Prop :=
  firstDone.1 = secondDone.1 ∧ SameReport firstDone.2 secondDone.2

/-- Metas with nothing reported yet agree, whatever is left in their other fields. -/
theorem sameReport_cleared : SameReport first.cleared second.cleared :=
  sameReport_portless rfl rfl (fun shown => absurd shown Bool.false_ne_true) rfl rfl rfl rfl

/-- Clearing addresses and ports keeps the payload fields of a slot. -/
theorem samePayload_cleared : SamePayload first.cleared second.cleared ↔ SamePayload first second :=
  ⟨fun same => ⟨same.layer5Offset, same.layer5payloadLen⟩,
    fun same => ⟨same.layer5Offset, same.layer5payloadLen⟩⟩

/-- The same with the result code, in the form in which the layer above returns it. -/
theorem reportIpv4_done {iph : Nat} (pktLen : first.basicAttr.pktLen = second.basicAttr.pktLen) :
    Alike SameDone (reportIpv4 packet iph first.cleared >>= fun filled => pure (0, filled))
        (reportIpv4 packet iph second.cleared >>= fun filled => pure (0, filled)) ↔
      (ShortTcpIpv4 packet first.basicAttr.pktLen iph → SamePayload first second) := by
  have lengths : first.cleared.basicAttr.pktLen = second.cleared.basicAttr.pktLen := pktLen
  rw [alike_map, ← samePayload_cleared]
  simp only [SameDone, true_and]
  exact reportIpv4_alike lengths

/-- IPv4 in full: what is left of the old slot shows only where a short TCP header is reported, in
the packet itself or in the tunnel. -/
theorem processIpv4_alike {iph : Nat} (pktLen : first.basicAttr.pktLen = second.basicAttr.pktLen) :
    Alike SameDone (processIpv4 packet iph first.cleared) (processIpv4 packet iph second.cleared) ↔
      ∀ reported, iph + 20 ≤ first.basicAttr.pktLen → byteAt packet iph / 16 = 4 →
        Reports packet first.basicAttr.pktLen iph reported →
        ShortTcpIpv4 packet first.basicAttr.pktLen reported → SamePayload first second := by
  have lengths : first.cleared.basicAttr.pktLen = second.cleared.basicAttr.pktLen := pktLen
  have length : first.cleared.basicAttr.pktLen = first.basicAttr.pktLen := rfl
  simp only [processIpv4, ← lengths, length]
  by_cases captured : iph + 20 ≤ first.basicAttr.pktLen
  · simp only [captured, ↓reduceIte, true_implies, ipv4GetVersion, bind_assoc, pure_bind,
      alike_readByte]
    by_cases version : byteAt packet iph / 16 = 4
    · simp only [version, ne_eq, not_true_eq_false, ↓reduceIte, alike_bind, true_implies]
      constructor
      · intro alike reported reports short
        have inside : iph < packet.length := by
          have protocol := reports.protocol
          omega
        have behind := alike inside (some reported) ((reportedIpv4_eq_some _ _ _).mpr reports)
        exact (reportIpv4_done pktLen).mp behind short
      · intro payload inside result found
        cases result with
        | none => exact ⟨rfl, sameReport_cleared⟩
        | some reported =>
          exact (reportIpv4_done pktLen).mpr
            (payload reported ((reportedIpv4_eq_some _ _ _).mp found))
    · simp only [version, ne_eq, not_false_eq_true, ↓reduceIte, alike_pure, false_implies,
        implies_true, iff_true]
      exact fun _ => ⟨rfl, sameReport_cleared⟩
  · simp only [captured, ↓reduceIte, alike_pure, false_implies, implies_true, iff_true]
    exact ⟨rfl, sameReport_cleared⟩

/-- The meta with the network header of the IPv6 header at an offset. -/
def PacketMeta.withIpv6 (packet : List UInt8) (ip6 : Nat) (metaInfo : PacketMeta) : PacketMeta :=
  { metaInfo with
    layer3Offset := u8 ip6
    layer4Offset := u8 (ip6 + 40)
    basicAttr :=
      { metaInfo.basicAttr with
        version := 1
        srcIP := (wordAt packet (ip6 + 16) + wordAt packet (ip6 + 20)) % 2 ^ 32
        dstIP := (wordAt packet (ip6 + 32) + wordAt packet (ip6 + 36)) % 2 ^ 32 } }

/-- IPv6 has the same exception as IPv4, a TCP segment that is too short, and no tunnel. -/
theorem processIpv6_alike {ip6 : Nat} (pktLen : first.basicAttr.pktLen = second.basicAttr.pktLen) :
    Alike SameDone (processIpv6 packet ip6 first.cleared) (processIpv6 packet ip6 second.cleared) ↔
      (ip6 + 40 ≤ first.basicAttr.pktLen → byteAt packet ip6 / 16 = 6 → ip6 + 40 ≤ packet.length →
        ShortTcp packet first.basicAttr.pktLen (ip6 + 40) (ntohs (halfAt packet (ip6 + 4)))
          (byteAt packet (ip6 + 6)) → SamePayload first second) := by
  have lengths : first.cleared.basicAttr.pktLen = second.cleared.basicAttr.pktLen := pktLen
  simp only [processIpv6, sizeofIpv6Header]
  by_cases captured : ip6 + 40 ≤ first.basicAttr.pktLen
  · have firstCaptured : ip6 + 40 ≤ first.cleared.basicAttr.pktLen := captured
    have secondCaptured : ip6 + 40 ≤ second.cleared.basicAttr.pktLen := lengths ▸ firstCaptured
    simp only [captured, firstCaptured, secondCaptured, ↓reduceIte, true_implies, alike_readByte]
    by_cases version : byteAt packet ip6 / 16 = 6
    · simp only [version, ne_eq, not_true_eq_false, ↓reduceIte, true_implies, alike_readByte,
        alike_readU32, alike_readU16, alike_map, SameDone, true_and]
      have behind := fun l4PacketLen => @processPacketL4_alike packet
        (first.cleared.withIpv6 packet ip6) (second.cleared.withIpv6 packet ip6) l4PacketLen
        (byteAt packet (ip6 + 6)) (ip6 + 40) first.cleared.basicAttr.pktLen rfl rfl ⟨rfl, rfl, rfl⟩ rfl
      change (_ → _ → _ → _ → _ → _ → _ → Alike _
        (processPacketL4 packet _ _ _ _ (first.cleared.withIpv6 packet ip6))
        (processPacketL4 packet _ _ _ _ (second.cleared.withIpv6 packet ip6))) ↔ _
      rw [← lengths, behind]
      constructor
      · intro alike inside short
        obtain ⟨layer5Offset, layer5payloadLen⟩ := alike (by omega) (by omega) (by omega) (by omega)
          (by omega) (by omega) (by omega) short
        exact ⟨layer5Offset, layer5payloadLen⟩
      · intro payload _ _ _ _ _ _ _ short
        obtain ⟨layer5Offset, layer5payloadLen⟩ := payload (by omega) short
        exact ⟨layer5Offset, layer5payloadLen⟩
    · simp only [version, ne_eq, not_false_eq_true, ↓reduceIte, alike_pure, false_implies, iff_true]
      exact fun _ => ⟨rfl, sameReport_cleared⟩
  · have firstShort : ¬ ip6 + 40 ≤ first.cleared.basicAttr.pktLen := captured
    have secondShort : ¬ ip6 + 40 ≤ second.cleared.basicAttr.pktLen := lengths ▸ firstShort
    simp only [captured, firstShort, secondShort, ↓reduceIte, alike_pure, false_implies, iff_true]
    exact ⟨rfl, sameReport_cleared⟩

/-! ## Two runs of the decoder -/

/-- Where the walk ends is the same in both runs, by the bytes of the packet alone. -/
theorem decodePacket_alike (pktLen : first.basicAttr.pktLen = second.basicAttr.pktLen) :
    Alike SameDone (decodePacket packet first) (decodePacket packet second) ↔
      (ReportsShortTcp packet first.basicAttr.pktLen → SamePayload first second) := by
  rw [decodePacket_eq, decodePacket_eq, alike_bind]
  constructor
  · intro alike shortTcp
    cases shortTcp with
    | ipv4 found captured version reports short =>
      have behind := alike _ ((walk_ipv4 _).mpr found)
      exact (processIpv4_alike pktLen).mp behind _ captured version reports short
    | ipv6 found captured version inside short =>
      have behind := alike _ ((walk_ipv6 _).mpr found)
      exact (processIpv6_alike pktLen).mp behind captured version inside short
  · rintro payload ⟨type, offset⟩ walked
    by_cases isIp4 : type = hoEthIp4
    · subst isIp4
      refine (processIpv4_alike pktLen).mpr fun reported captured version reports short => ?_
      exact payload (.ipv4 ((walk_ipv4 _).mp walked) captured version reports short)
    by_cases isIp6 : type = hoEthIp6
    · subst isIp6
      refine (processIpv6_alike pktLen).mpr fun captured version inside short => ?_
      exact payload (.ipv6 ((walk_ipv6 _).mp walked) captured version inside short)
    · simp only [processNetwork, isIp4, isIp6, ↓reduceIte, alike_pure]
      exact ⟨rfl, sameReport_cleared⟩

/-- Decoding the same for two slots is the relation on the two runs of the decoder that the layers
are compared by. -/
theorem sameDecoding_iff (packet : List UInt8) (first second : PacketMeta) :
    SameDecoding packet first second ↔
      Alike SameDone (decodePacket packet first) (decodePacket packet second) := by
  have decoded : ∀ metaInfo, processPacketBasic (some packet) (some metaInfo) =
      decodePacket packet metaInfo >>= fun done => pure (done.1, some done.2) := fun _ => rfl
  rw [SameDecoding, decoded, decoded, alike_map]
  simp only [Option.some.injEq, exists_and_left, exists_eq_left']
  rfl

/-- What the decoder reports does not depend on the slot, unless it reports a TCP segment
that ends before its header does and the slots differ in the payload they held. -/
theorem same_decoding_iff (packet : List UInt8) (first second : PacketMeta)
    (capture : SameCapture first second) :
    SameDecoding packet first second ↔
      (ReportsShortTcp packet first.basicAttr.pktLen → SamePayload first second) :=
  (sameDecoding_iff packet first second).trans (decodePacket_alike capture.pktLen)

/-- The slot of a packet of so many bytes, after it held another packet. -/
def recycledSlot (pktLen : Nat) : PacketMeta :=
  { PacketMeta.captured pktLen with layer5Offset := 66, layer5payloadLen := 1400 }

/-- A recycled slot has just been captured into as well as a fresh one, so that it is in the domain. -/
theorem sameCapture_recycled (pktLen : Nat) :
    SameCapture (PacketMeta.captured pktLen) (recycledSlot pktLen) :=
  ⟨rfl, rfl, rfl, rfl, rfl, rfl⟩

/-- For a small UDP packet nothing of the old slot is left: every field that is reported is written
again. -/
theorem same_decoding_small_udp :
    SameDecoding smallUdp (PacketMeta.captured 42) (recycledSlot 42) := by
  refine (same_decoding_iff smallUdp _ _ (sameCapture_recycled 42)).mpr fun shortTcp => ?_
  have walked : walk smallUdp = .ok (hoEthIp4, 14) := by decide
  have reported : reportedIpv4 smallUdp 42 14 = .ok (some 14) := by decide
  cases shortTcp with
  | ipv4 found captured version reports short =>
    have header := (walk_ipv4 _).mpr found
    rw [walked] at header
    cases header
    have outer := (reportedIpv4_eq_some _ _ _).mpr reports
    rw [show (PacketMeta.captured 42).basicAttr.pktLen = 42 from rfl, reported] at outer
    cases outer
    exact absurd short.short.tcp (by decide)
  | ipv6 found captured version inside short =>
    have header := (walk_ipv6 _).mpr found
    rw [walked] at header
    cases header

/-- A TCP packet of 54 bytes, whose header announces fifteen words. -/
def shortTcp : List UInt8 :=
  List.replicate 12 2 ++ [8, 0, 0x45, 0, 0, 40, 0, 0, 0x40, 0, 64, 6, 0, 0, 10, 0, 0, 1, 10, 0, 0, 2,
    1, 0xBB, 0xC3, 0x50, 0, 0, 0, 1, 0, 0, 0, 0, 0xF0, 2, 4, 0, 0, 0, 0, 0]

/-- The TCP packet is reported with the payload of the packet that was in the slot, because its own
header is too short for the payload to be computed. -/
theorem payload_of_another_packet :
    SameCapture (PacketMeta.captured 54) (recycledSlot 54) ∧
      ¬ SameDecoding shortTcp (PacketMeta.captured 54) (recycledSlot 54) := by
  have short : ReportsShortTcp shortTcp (PacketMeta.captured 54).basicAttr.pktLen :=
    .ipv4 ((walk_ipv4 14).mp (by decide)) (by decide) (by decide)
      ((reportedIpv4_eq_some 54 14 14).mp (by decide))
      ⟨by decide, by decide, by decide, by decide, by decide, by decide, by decide⟩
  have differ : ¬ SamePayload (PacketMeta.captured 54) (recycledSlot 54) := fun same =>
    absurd same.layer5Offset (by decide)
  refine ⟨sameCapture_recycled 54, ?_⟩
  rw [sameDecoding_iff, decodePacket_alike (sameCapture_recycled 54).pktLen]
  exact fun payload => differ (payload short)

end OpenTaker
