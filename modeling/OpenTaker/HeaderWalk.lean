import OpenTaker.DecodeBounds

/-!
# The way to the IP header

The offset of the IP header has sixteen bits, so the walk to it is one over a ring of
offsets: past the VLAN tags, and past the labels of a stack or a PPPoE header. Where it
ends is told by the bytes on the way. A walk that comes round to an offset again never
ends. From an IPv4 header it may go on to the one a T-PDU carries.
-/

namespace OpenTaker

open ByteReads

variable (packet : List UInt8)

/-- The type behind some tags, read where the 16-bit offset points to. -/
def tagType (tags : Nat) : Nat := halfAt packet (u16 (10 + 4 * tags) + 2)

/-- The tags of a packet end inside of it after so many. -/
structure TagsInside (tags : Nat) : Prop where
  inside : ∀ tag ≤ tags, u16 (10 + 4 * tag) + 4 ≤ packet.length
  more : ∀ tag < tags, tagType packet tag = hoEthVlan
  last : tagType packet tags ≠ hoEthVlan

/-- The walk from a type that is no tag leads to an IPv4 header. -/
inductive ToIpv4 (type ipOffset : Nat) : Nat → Prop
  | plain : type = hoEthIp4 → ToIpv4 type ipOffset ipOffset
  | mpls {labels : Nat} : type = hoEthMpls → LabelsInside packet ipOffset labels →
      ToIpv4 type ipOffset (u16 (ipOffset + 4 * labels))
  | pppoe : type = hoEthPppoe → ToIpv4 type ipOffset (u16 (ipOffset + 8))

/-- The walk ends where an IPv4 header should be. -/
def Ipv4At (iph : Nat) : Prop :=
  ∃ tags, TagsInside packet tags ∧ ToIpv4 packet (tagType packet tags) (u16 (14 + 4 * tags)) iph

/-- The walk ends where an IPv6 header should be. -/
def Ipv6At (ip6 : Nat) : Prop :=
  ∃ tags, TagsInside packet tags ∧ tagType packet tags = hoEthIp6 ∧ ip6 = u16 (14 + 4 * tags)

/-- From the IPv4 header at an offset the one to report is found: that header, or the one
behind a T-PDU. -/
structure Reports (pktLen iph reported : Nat) : Prop where
  protocol : iph + 9 < packet.length
  ports : UdpAt packet iph → iph + ipv4LenAt packet iph + 4 ≤ packet.length
  gtp : GtpAt packet iph → iph + ipv4LenAt packet iph + 10 ≤ packet.length
  outer : ¬ TpduAt packet iph → reported = iph
  inner : TpduAt packet iph → reported = innerAt packet iph ∧ reported < packet.length ∧
    byteAt packet reported / 16 = 4 ∧ reported + 20 ≤ pktLen

variable {packet}

/-! ## Rings of offsets -/

/-- Tags that end do so within one round of the offsets. -/
theorem TagsInside.tags_lt {tags : Nat} (inside : TagsInside packet tags) : tags < 2 ^ 14 := by
  by_contra many
  have before := inside.more (tags - 2 ^ 14) (by omega)
  have same : u16 (10 + 4 * (tags - 2 ^ 14)) = u16 (10 + 4 * tags) := by
    simp only [u16]
    omega
  rw [tagType, same] at before
  exact inside.last before

/-- A stack that ends does so within one round of the offsets. -/
theorem LabelsInside.labels_le {ipOffset labels : Nat} (inside : LabelsInside packet ipOffset labels) :
    labels ≤ 2 ^ 14 := by
  by_contra many
  have before := inside.more (labels - 2 ^ 14) (by omega) (by omega)
  have same : labelByte ipOffset (labels - 2 ^ 14) = labelByte ipOffset labels := by
    simp only [labelByte, u16]
    omega
  rw [same] at before
  exact before inside.bottom

/-- A walk ends behind one number of tags only: the first type that is none of a tag. -/
theorem TagsInside.unique {first second : Nat} (firstInside : TagsInside packet first)
    (secondInside : TagsInside packet second) : first = second := by
  rcases Nat.lt_trichotomy first second with before | same | after
  · exact absurd (secondInside.more first before) firstInside.last
  · exact same
  · exact absurd (firstInside.more second after) secondInside.last

/-! ## The walk -/

/-- The type behind one tag more, four bytes further on. -/
theorem tagType_succ (tags : Nat) :
    halfAt packet (u16 (14 + 4 * tags) + 2) = tagType packet (tags + 1) := by
  rw [tagType, show 10 + 4 * (tags + 1) = 14 + 4 * tags by omega]

/-- The type loop passes the tags, by induction on its rounds. -/
theorem skipTags_eq_ok (rounds start : Nat) (found : Nat × Nat) :
    skipTags packet rounds (tagType packet start) (u16 (14 + 4 * start)) = .ok found ↔
      ∃ tags, start ≤ tags ∧ tags < start + rounds ∧
        (∀ tag, start ≤ tag → tag < tags → tagType packet tag = hoEthVlan ∧
          u16 (14 + 4 * tag) + 4 ≤ packet.length) ∧
        tagType packet tags ≠ hoEthVlan ∧
        skipTags packet 1 (tagType packet tags) (u16 (14 + 4 * tags)) = .ok found := by
  induction rounds generalizing start with
  | zero =>
    constructor
    · intro impossible
      cases impossible
    · rintro ⟨tags, first, bounded, -⟩
      omega
  | succ rounds inductionHypothesis =>
    by_cases vlan : tagType packet start = hoEthVlan
    · have moved : u16 (u16 (14 + 4 * start) + 4) = u16 (14 + 4 * (start + 1)) := by
        simp only [u16]
        omega
      rw [vlan, skipTags_vlan, bind_eq_ok]
      simp only [readU16_eq_ok, tagType_succ, moved]
      constructor
      · rintro ⟨type, ⟨inside, rfl⟩, walked⟩
        obtain ⟨tags, first, bounded, vlans, last, ended⟩ := (inductionHypothesis _).mp walked
        refine ⟨tags, by omega, by omega, fun tag from_ before => ?_, last, ended⟩
        by_cases same : tag = start
        · rw [same]
          exact ⟨vlan, inside⟩
        · exact vlans tag (by omega) before
      · rintro ⟨tags, first, bounded, vlans, last, ended⟩
        have later : start ≠ tags := fun same => last (same ▸ vlan)
        refine ⟨_, ⟨(vlans start (Nat.le_refl _) (by omega)).2, rfl⟩, ?_⟩
        exact (inductionHypothesis _).mpr
          ⟨tags, by omega, by omega, fun tag from_ => vlans tag (by omega), last, ended⟩
    · rw [skipTags_last rounds _ _ vlan]
      constructor
      · intro ended
        exact ⟨start, Nat.le_refl _, by omega, fun tag _ _ => by omega, vlan, ended⟩
      · rintro ⟨tags, first, -, vlans, -, ended⟩
        have same : tags = start := by
          by_contra later
          exact vlan (vlans start (Nat.le_refl _) (by omega)).1
        rwa [same] at ended

/-- The walk of the decoder to the type and the offset it ends with. -/
def walk (packet : List UInt8) : Except Fault (Nat × Nat) :=
  readU16 packet 12 >>= fun type => skipTags packet maxRounds type sizeofEtherHeader

/-- The decoder is the walk through the tags, and the network layer at the place it has come to. -/
theorem decodePacket_eq (metaInfo : PacketMeta) :
    decodePacket packet metaInfo = walk packet >>= processNetwork packet metaInfo.cleared := by
  rw [decodePacket, walk, bind_assoc]

/-- The walk ends as the tags and what stands behind them tell. -/
theorem walk_eq_ok (found : Nat × Nat) :
    walk packet = .ok found ↔ ∃ tags, TagsInside packet tags ∧
      skipTags packet 1 (tagType packet tags) (u16 (14 + 4 * tags)) = .ok found := by
  have walked := @skipTags_eq_ok packet maxRounds 0 found
  have behind : ∀ tag, 10 + 4 * (tag + 1) = 14 + 4 * tag := fun tag => by omega
  simp only [walk, bind_eq_ok, readU16_eq_ok]
  constructor
  · rintro ⟨type, ⟨captured, rfl⟩, ended⟩
    obtain ⟨tags, -, -, vlans, last, ended⟩ := walked.mp ended
    refine ⟨tags, ⟨fun tag within => ?_, fun tag before => (vlans tag (Nat.zero_le _) before).1,
      last⟩, ended⟩
    cases tag with
    | zero => exact captured
    | succ tag =>
      rw [behind]
      exact (vlans tag (Nat.zero_le _) within).2
  · rintro ⟨tags, inside, ended⟩
    have few := inside.tags_lt
    have captured := inside.inside 0 (Nat.zero_le _)
    refine ⟨_, ⟨captured, rfl⟩, walked.mpr ⟨tags, Nat.zero_le _, ?_, fun tag _ before => ?_,
      inside.last, ended⟩⟩
    · simp only [maxRounds]
      omega
    · have next := inside.inside (tag + 1) before
      rw [behind] at next
      exact ⟨inside.more tag before, next⟩

/-- Behind the tags the walk leads to an IPv4 header as the type tells. -/
theorem skipTags_ipv4 (type ipOffset iph : Nat) (notVlan : type ≠ hoEthVlan) :
    skipTags packet 1 type ipOffset = .ok (hoEthIp4, iph) ↔ ToIpv4 packet type ipOffset iph := by
  constructor
  · intro ended
    simp only [skipTags, if_neg notVlan] at ended
    split at ended
    · cases ended
      exact .plain rfl
    split at ended
    · rename_i isMpls
      obtain ⟨final, skipped, same⟩ := (bind_eq_ok _ _ _).mp ended
      cases same
      obtain ⟨labels, -, inside, rfl⟩ := (skipLabels_eq_ok _ _ _).mp skipped
      exact .mpls isMpls inside
    split at ended
    · rename_i isPppoe
      cases ended
      exact .pppoe isPppoe
    · rename_i notIp _ _
      cases ended
      exact absurd (.inl rfl) notIp
  · intro leads
    cases leads with
    | plain isIp4 => rw [isIp4]; rfl
    | mpls isMpls inside =>
      have skipped := (skipLabels_eq_ok maxRounds ipOffset _).mpr
        ⟨_, by have few := inside.labels_le; simp only [maxRounds]; omega, inside, rfl⟩
      have unfolded : skipTags packet 1 hoEthMpls ipOffset =
          skipLabels packet maxRounds ipOffset >>= fun found => pure (hoEthIp4, found) := rfl
      rw [isMpls, unfolded, skipped]
      rfl
    | pppoe isPppoe => rw [isPppoe]; rfl

/-- It leads to an IPv6 header at that type alone. -/
theorem skipTags_ipv6 (type ipOffset ip6 : Nat) (notVlan : type ≠ hoEthVlan) :
    skipTags packet 1 type ipOffset = .ok (hoEthIp6, ip6) ↔ type = hoEthIp6 ∧ ip6 = ipOffset := by
  constructor
  · intro ended
    simp only [skipTags, if_neg notVlan] at ended
    split at ended
    · cases ended
      exact ⟨rfl, rfl⟩
    split at ended
    · obtain ⟨final, -, same⟩ := (bind_eq_ok _ _ _).mp ended
      cases same
    split at ended
    · cases ended
    · rename_i notIp _ _
      cases ended
      exact absurd (.inr rfl) notIp
  · rintro ⟨rfl, rfl⟩
    rfl

/-- The walk comes to an IPv4 header just where the tags lead to its type. -/
theorem walk_ipv4 (iph : Nat) : walk packet = .ok (hoEthIp4, iph) ↔ Ipv4At packet iph := by
  rw [walk_eq_ok]
  constructor
  · rintro ⟨tags, inside, ended⟩
    exact ⟨tags, inside, (skipTags_ipv4 _ _ _ inside.last).mp ended⟩
  · rintro ⟨tags, inside, leads⟩
    exact ⟨tags, inside, (skipTags_ipv4 _ _ _ inside.last).mpr leads⟩

/-- The walk comes to an IPv6 header in the same way. -/
theorem walk_ipv6 (ip6 : Nat) : walk packet = .ok (hoEthIp6, ip6) ↔ Ipv6At packet ip6 := by
  rw [walk_eq_ok]
  constructor
  · rintro ⟨tags, inside, ended⟩
    exact ⟨tags, inside, (skipTags_ipv6 _ _ _ inside.last).mp ended⟩
  · rintro ⟨tags, inside, leads⟩
    exact ⟨tags, inside, (skipTags_ipv6 _ _ _ inside.last).mpr leads⟩

/-! ## The IPv4 header to report -/

/-- A run behind the test of the two ports ends well just if the ports that are read are inside and
the rest does. -/
theorem isGtpPort_bind {α : Type} (udp : Nat) (next : Bool → Except Fault α) (final : α) :
    (isGtpPort packet udp >>= next) = .ok final ↔
      udp + 2 ≤ packet.length ∧
        (halfAt packet udp ≠ ntGtpUV1Port → udp + 4 ≤ packet.length) ∧
        next (decide (halfAt packet udp = ntGtpUV1Port ∨
          halfAt packet (udp + 2) = ntGtpUV1Port)) = .ok final := by
  simp only [isGtpPort, bind_assoc, readU16_bind]
  by_cases source : halfAt packet udp = ntGtpUV1Port
  · simp only [source, ↓reduceIte, pure_bind, ne_eq, not_true_eq_false, false_implies, true_or,
      decide_true, true_and]
  · simp only [source, ↓reduceIte, bind_assoc, readU16_bind, pure_bind, ne_eq,
      not_false_eq_true, true_implies, false_or]

/-- The look behind a GTP-U header finds the inner header of a T-PDU and no other. -/
theorem gtpIpv4_eq_some {pktLen iph reported : Nat} (gtp : GtpAt packet iph) :
    gtpIpv4 packet pktLen iph (ipv4LenAt packet iph) = .ok (some reported) ↔
      iph + ipv4LenAt packet iph + 10 ≤ packet.length ∧
      (¬ TpduAt packet iph → reported = iph) ∧
      (TpduAt packet iph → reported = innerAt packet iph ∧ reported < packet.length ∧
        byteAt packet reported / 16 = 4 ∧ reported + 20 ≤ pktLen) := by
  have tpduIff : isTpdu (byteAt packet (iph + ipv4LenAt packet iph + sizeofUdpHeader))
      (byteAt packet (iph + ipv4LenAt packet iph + sizeofUdpHeader + 1)) = true ↔
        TpduAt packet iph := ⟨fun tpdu => ⟨gtp, tpdu⟩, fun tpdu => tpdu.2⟩
  have inner : tpduOffset iph (ipv4LenAt packet iph)
      (byteAt packet (iph + ipv4LenAt packet iph + sizeofUdpHeader)) = innerAt packet iph := rfl
  simp only [gtpIpv4, readByte_bind, tpduIff, inner]
  by_cases tpdu : TpduAt packet iph
  · simp only [tpdu, not_true_eq_false, ↓reduceIte, ipv4GetVersion, bind_assoc, pure_bind,
      readByte_bind, false_implies, true_implies, true_and, sizeofUdpHeader]
    constructor
    · rintro ⟨-, captured, within, found⟩
      split at found
      · cases found
      split at found
      · cases found
      · rename_i version long
        cases found
        exact ⟨captured, rfl, within, not_not.mp version, Nat.le_of_not_lt long⟩
    · rintro ⟨captured, rfl, within, version, long⟩
      refine ⟨by omega, captured, within, ?_⟩
      rw [if_neg (not_not.mpr version), if_neg (Nat.not_lt.mpr long)]
      rfl
  · simp only [tpdu, not_false_eq_true, ↓reduceIte, false_implies, true_implies, and_true,
      sizeofUdpHeader]
    constructor
    · rintro ⟨-, captured, found⟩
      cases found
      exact ⟨captured, rfl⟩
    · rintro ⟨captured, rfl⟩
      exact ⟨by omega, captured, rfl⟩

/-- A packet that is no GTP packet is reported with its own header. -/
theorem reports_iff_of_not_gtp {pktLen iph reported : Nat} (notGtp : ¬ GtpAt packet iph) :
    Reports packet pktLen iph reported ↔ iph + 9 < packet.length ∧
      (UdpAt packet iph → iph + ipv4LenAt packet iph + 4 ≤ packet.length) ∧ reported = iph := by
  have notTpdu : ¬ TpduAt packet iph := fun tpdu => notGtp tpdu.1
  constructor
  · intro reports
    exact ⟨reports.protocol, reports.ports, reports.outer notTpdu⟩
  · rintro ⟨inside, ports, rfl⟩
    exact ⟨inside, ports, fun gtp => absurd gtp notGtp, fun _ => rfl,
      fun tpdu => absurd tpdu notTpdu⟩

/-- The offset that is reported is that of the packet in a tunnel, where one is found, and otherwise
that of the packet itself. -/
theorem reportedIpv4_eq_some (pktLen iph reported : Nat) :
    reportedIpv4 packet pktLen iph = .ok (some reported) ↔
      Reports packet pktLen iph reported := by
  simp only [reportedIpv4, readByte_bind]
  by_cases isUdp : byteAt packet (iph + 9) = ipprotoUdp
  · simp only [isUdp, ne_eq, not_true_eq_false, ↓reduceIte, ipv4IsFragment, bind_assoc,
      readU16_bind, pure_bind, decide_eq_true_eq]
    by_cases fragment : FragmentAt packet iph
    · have notUdp : ¬ UdpAt packet iph := fun udp => udp.2 fragment
      have isFragment : halfAt packet (iph + 6) &&& 0xFF3F ≠ 0 := fragment
      rw [if_pos isFragment, reports_iff_of_not_gtp fun gtp => notUdp gtp.1]
      constructor
      · rintro ⟨inside, -, found⟩
        cases found
        exact ⟨inside, fun udp => absurd udp notUdp, rfl⟩
      · rintro ⟨inside, -, rfl⟩
        exact ⟨inside, by omega, rfl⟩
    · have udp : UdpAt packet iph := ⟨isUdp, fragment⟩
      have notFragment : ¬ (halfAt packet (iph + 6) &&& 0xFF3F ≠ 0) := fragment
      simp only [if_neg notFragment, ipv4GetHeaderLen, bind_assoc, pure_bind, readByte_bind]
      change _ ∧ _ ∧ _ ∧ (isGtpPort packet (iph + ipv4LenAt packet iph) >>= _) = _ ↔ _
      rw [isGtpPort_bind]
      by_cases gtp : GtpAt packet iph
      · simp only [gtp.2, decide_true, not_true_eq_false, ↓reduceIte]
        rw [show byteAt packet iph % 16 * 4 = ipv4LenAt packet iph from rfl, gtpIpv4_eq_some gtp]
        constructor
        · rintro ⟨inside, -, -, -, -, captured, outer, inner⟩
          exact ⟨inside, fun _ => by omega, fun _ => captured, outer, inner⟩
        · intro reports
          have inside := reports.protocol
          have captured := reports.gtp gtp
          exact ⟨inside, by omega, by omega, by omega, fun _ => by omega, captured, reports.outer,
            reports.inner⟩
      · have notPort : ¬ (halfAt packet (iph + ipv4LenAt packet iph) = ntGtpUV1Port ∨
            halfAt packet (iph + ipv4LenAt packet iph + 2) = ntGtpUV1Port) := fun port =>
          gtp ⟨udp, port⟩
        rw [reports_iff_of_not_gtp gtp]
        simp only [notPort, decide_false, Bool.false_eq_true, not_false_eq_true, ↓reduceIte]
        constructor
        · rintro ⟨inside, -, -, -, ports, found⟩
          cases found
          exact ⟨inside, fun _ => ports fun source => notPort (.inl source), rfl⟩
        · rintro ⟨inside, ports, rfl⟩
          have captured := ports udp
          exact ⟨inside, by omega, by omega, by omega, fun _ => captured, rfl⟩
  · have notUdp : ¬ UdpAt packet iph := fun udp => isUdp udp.1
    rw [reports_iff_of_not_gtp fun gtp => notUdp gtp.1]
    simp only [isUdp, ne_eq, not_false_eq_true, ↓reduceIte]
    constructor
    · rintro ⟨inside, found⟩
      cases found
      exact ⟨inside, fun udp => absurd udp notUdp, rfl⟩
    · rintro ⟨inside, -, rfl⟩
      exact ⟨inside, rfl⟩

/-- The meta with the network header of the IPv4 header at an offset. -/
def PacketMeta.withIpv4 (packet : List UInt8) (iph : Nat) (metaInfo : PacketMeta) : PacketMeta :=
  { metaInfo with
    layer3Offset := u8 iph
    layer4Offset := u8 (iph + ipv4LenAt packet iph)
    basicAttr :=
      { metaInfo.basicAttr with
        version := 0
        srcIP := ntohl (wordAt packet (iph + 12))
        dstIP := ntohl (wordAt packet (iph + 16)) } }

end OpenTaker
