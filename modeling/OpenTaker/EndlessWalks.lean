import OpenTaker.HeaderWalk
import OpenTaker.ByteMemory
import Mathlib.Data.Nat.Find

/-!
# Walks that never end

Packets lie in a larger block, and the loops of `ProcessPacketBasic` below the IP header
do not look at the captured length. Here they run over all the memory from the packet on,
step by step and with no bound on the steps. The offset has sixteen bits and moves by four,
so a loop that has gone once round the offsets repeats itself.
-/

namespace OpenTaker

open ByteReads
open ByteMemory (Memory)

/-- The little-endian 16-bit word at an offset of the memory from the packet on. -/
def wordIn (memory : Memory) (offset : Nat) : Nat :=
  (memory offset).toNat + 256 * (memory (offset + 1)).toNat

/-- Where `ProcessPacketBasic` stands in its loops: before it tests the type, or before it
skips a label. -/
inductive WalkPc where
  | atType (type ipOffset : Nat)
  | atLabel (ipOffset : Nat)
  | ended (type ipOffset : Nat)
deriving DecidableEq

/-- One round of the loop over the types, or of the loop over the labels. -/
def walkStep (memory : Memory) : WalkPc → WalkPc
  | .atType type ipOffset =>
      if type = hoEthIp4 ∨ type = hoEthIp6 then .ended type ipOffset
      else if type = hoEthVlan then .atType (wordIn memory (ipOffset + 2)) (u16 (ipOffset + 4))
      else if type = hoEthMpls then .atLabel ipOffset
      else if type = hoEthPppoe then .ended hoEthIp4 (u16 (ipOffset + 8))
      else .ended type ipOffset
  | .atLabel ipOffset =>
      if (memory (u16 (ipOffset + 4) + 3)).toNat &&& 1 ≠ 0 then .atLabel (u16 (ipOffset + 4))
      else .ended hoEthIp4 (u16 (ipOffset + 4))
  | .ended type ipOffset => .ended type ipOffset

/-- Where the walk stands after so many rounds of the two loops, over a memory that has no end. -/
def walkAfter (memory : Memory) : Nat → WalkPc
  | 0 => .atType (wordIn memory 12) sizeofEtherHeader
  | rounds + 1 => walkStep memory (walkAfter memory rounds)

/-- Both loops end: the one over the tags, and that over the labels where it is entered. -/
def WalkEnds (memory : Memory) : Prop :=
  ∃ rounds type ipOffset, walkAfter memory rounds = .ended type ipOffset

/-- The type behind some tags, in a memory that goes on behind every packet. -/
def typeIn (memory : Memory) (tags : Nat) : Nat := wordIn memory (u16 (10 + 4 * tags) + 2)

/-- What is looked at for the bottom of the stack, at each label. -/
def bottomIn (memory : Memory) (ipOffset label : Nat) : Nat :=
  (memory (labelByte ipOffset label)).toNat &&& 1

/-- The bytes let both loops end: some type is not that of a tag, and if it is MPLS that
stands behind the tags, some label has no bottom-of-stack bit. The types are those at the
multiples of four from 4 to 65536, and the bytes looked at in the labels follow these. -/
structure WayOut (memory : Memory) : Prop where
  type : ∃ word, 1 ≤ word ∧ word ≤ 2 ^ 14 ∧ wordIn memory (4 * word) ≠ hoEthVlan
  bottom : ∀ tags, (∀ tag < tags, typeIn memory tag = hoEthVlan) → typeIn memory tags = hoEthMpls →
    ∃ word, 1 ≤ word ∧ word ≤ 2 ^ 14 ∧ (memory (4 * word + 1)).toNat &&& 1 = 0

variable {memory : Memory}

/-! ## Rings of offsets -/

/-- Some tags lead to each of the words, as the offset wraps at 16 bits and goes round through all
multiples of four. -/
theorem exists_type_iff (memory : Memory) (type : Nat) :
    (∃ tags, typeIn memory tags ≠ type) ↔
      ∃ word, 1 ≤ word ∧ word ≤ 2 ^ 14 ∧ wordIn memory (4 * word) ≠ type := by
  constructor
  · rintro ⟨tags, differs⟩
    refine ⟨(u16 (10 + 4 * tags) + 2) / 4, ?_, ?_, ?_⟩
    · simp only [u16]
      omega
    · simp only [u16]
      omega
    · have same : 4 * ((u16 (10 + 4 * tags) + 2) / 4) = u16 (10 + 4 * tags) + 2 := by
        simp only [u16]
        omega
      rwa [same]
  · rintro ⟨word, first, last, differs⟩
    refine ⟨word + 2 ^ 14 - 3, ?_⟩
    have same : u16 (10 + 4 * (word + 2 ^ 14 - 3)) + 2 = 4 * word := by
      simp only [u16]
      omega
    rwa [typeIn, same]

/-- Some labels lead to each of the bytes behind the words. -/
theorem exists_bottom_iff (memory : Memory) (tags : Nat) :
    (∃ label, 1 ≤ label ∧ bottomIn memory (u16 (14 + 4 * tags)) label = 0) ↔
      ∃ word, 1 ≤ word ∧ word ≤ 2 ^ 14 ∧ (memory (4 * word + 1)).toNat &&& 1 = 0 := by
  constructor
  · rintro ⟨label, -, bottom⟩
    refine ⟨(labelByte (u16 (14 + 4 * tags)) label - 1) / 4, ?_, ?_, ?_⟩
    · simp only [labelByte, u16]
      omega
    · simp only [labelByte, u16]
      omega
    · have same : 4 * ((labelByte (u16 (14 + 4 * tags)) label - 1) / 4) + 1 =
          labelByte (u16 (14 + 4 * tags)) label := by
        simp only [labelByte, u16]
        omega
      rwa [same]
  · rintro ⟨word, first, last, bottom⟩
    refine ⟨word + 2 ^ 15 - 4 - tags % 2 ^ 14, by omega, ?_⟩
    have same : labelByte (u16 (14 + 4 * tags)) (word + 2 ^ 15 - 4 - tags % 2 ^ 14) = 4 * word + 1 := by
      simp only [labelByte, u16]
      omega
    rwa [bottomIn, same]

/-! ## Where the walk stands -/

/-- The walk passes the tags one by one, while the type it reads is that of a tag. -/
theorem walkAfter_tags {tags : Nat} (vlan : ∀ tag < tags, typeIn memory tag = hoEthVlan) :
    walkAfter memory tags = .atType (typeIn memory tags) (u16 (14 + 4 * tags)) := by
  induction tags with
  | zero => rfl
  | succ tags inductionHypothesis =>
    have before := inductionHypothesis fun tag earlier => vlan tag (by omega)
    have isVlan := vlan tags (by omega)
    have moved : u16 (u16 (14 + 4 * tags) + 4) = u16 (14 + 4 * (tags + 1)) := by
      simp only [u16]
      omega
    have next : wordIn memory (u16 (14 + 4 * tags) + 2) = typeIn memory (tags + 1) := by
      rw [typeIn, show 10 + 4 * (tags + 1) = 14 + 4 * tags by omega]
    rw [walkAfter, before, isVlan, walkStep, if_neg (by decide), if_pos rfl, moved, next]

/-- From there it passes the labels, as long as the bit it looks at is clear. -/
theorem walkAfter_labels {start ipOffset : Nat} (labels : Nat)
    (begun : walkAfter memory start = .atLabel ipOffset)
    (more : ∀ label, 1 ≤ label → label ≤ labels → bottomIn memory ipOffset label ≠ 0)
    (small : ipOffset < 2 ^ 16) :
    walkAfter memory (start + labels) = .atLabel (u16 (ipOffset + 4 * labels)) := by
  induction labels with
  | zero =>
    have same : u16 (ipOffset + 4 * 0) = ipOffset := Nat.mod_eq_of_lt small
    rw [same]
    exact begun
  | succ labels inductionHypothesis =>
    have before := inductionHypothesis fun label first within => more label first (by omega)
    have isMore := more (labels + 1) (by omega) (Nat.le_refl _)
    have moved : u16 (u16 (ipOffset + 4 * labels) + 4) = u16 (ipOffset + 4 * (labels + 1)) := by
      simp only [u16]
      omega
    rw [bottomIn, labelByte] at isMore
    rw [← Nat.add_assoc, walkAfter, before, walkStep, moved, if_pos isMore]

/-- What has ended stays so: more fuel changes no result. -/
theorem walkAfter_ended {rounds type ipOffset : Nat} (ended : walkAfter memory rounds = .ended type ipOffset)
    (more : Nat) : walkAfter memory (rounds + more) = .ended type ipOffset := by
  induction more with
  | zero => exact ended
  | succ more inductionHypothesis =>
    rw [← Nat.add_assoc, walkAfter, inductionHypothesis, walkStep]

/-- A walk that is still under way at some later round each time has no end. -/
theorem not_walkEnds (underWay : ∀ rounds, ∃ more, ∀ type ipOffset,
    walkAfter memory (rounds + more) ≠ .ended type ipOffset) : ¬ WalkEnds memory := by
  rintro ⟨rounds, type, ipOffset, ended⟩
  obtain ⟨more, going⟩ := underWay rounds
  exact going type ipOffset (walkAfter_ended ended more)

/-- At MPLS the walk goes on to the labels. -/
theorem walkAfter_mpls {tags : Nat} (vlan : ∀ tag < tags, typeIn memory tag = hoEthVlan)
    (mpls : typeIn memory tags = hoEthMpls) :
    walkAfter memory (tags + 1) = .atLabel (u16 (14 + 4 * tags)) := by
  rw [walkAfter, walkAfter_tags vlan, mpls, walkStep, if_neg (by decide), if_neg (by decide), if_pos rfl]

/-! ## When the walk ends -/

/-- Where both loops end, the bytes let them: the type and the label that ended the walk are the
ones that are asked for. -/
theorem WalkEnds.wayOut (ends : WalkEnds memory) : WayOut memory := by
  constructor
  · rw [← exists_type_iff]
    by_contra none
    push Not at none
    refine not_walkEnds (fun rounds => ⟨0, fun type ipOffset ended => ?_⟩) ends
    rw [Nat.add_zero, walkAfter_tags fun tag _ => none tag] at ended
    cases ended
  · intro tags vlan mpls
    rw [← exists_bottom_iff memory tags]
    by_contra none
    push Not at none
    refine not_walkEnds (fun rounds => ⟨tags + 1, fun type ipOffset ended => ?_⟩) ends
    have going := walkAfter_labels rounds (walkAfter_mpls vlan mpls)
      (fun label first _ => none label first) (Nat.mod_lt _ (by decide))
    rw [Nat.add_comm, going] at ended
    cases ended

/-- Where the bytes let them, both loops end: the offset comes round to each of the words after so
many rounds. -/
theorem WayOut.walkEnds (wayOut : WayOut memory) : WalkEnds memory := by
  have differs := (exists_type_iff memory hoEthVlan).mpr wayOut.type
  classical
  obtain ⟨tags, notVlan, earlier⟩ := Nat.findX differs
  have vlan : ∀ tag < tags, typeIn memory tag = hoEthVlan := fun tag before => not_not.mp (earlier tag before)
  have reached := walkAfter_tags vlan
  by_cases mpls : typeIn memory tags = hoEthMpls
  · have stack := (exists_bottom_iff memory tags).mpr (wayOut.bottom tags vlan mpls)
    obtain ⟨label, ⟨first, bottom⟩, more⟩ := Nat.findX stack
    obtain ⟨labels, rfl⟩ := Nat.exists_eq_add_of_le' first
    have passed := walkAfter_labels labels (walkAfter_mpls vlan mpls)
      (fun earlier one within zero => more earlier (by omega) ⟨one, zero⟩) (Nat.mod_lt _ (by decide))
    have moved : u16 (u16 (u16 (14 + 4 * tags) + 4 * labels) + 4) + 3 =
        labelByte (u16 (14 + 4 * tags)) (labels + 1) := by
      simp only [labelByte, u16]
      omega
    refine ⟨tags + 1 + labels + 1, hoEthIp4, u16 (u16 (u16 (14 + 4 * tags) + 4 * labels) + 4), ?_⟩
    rw [bottomIn] at bottom
    rw [walkAfter, passed, walkStep, moved, if_neg (not_not.mpr bottom)]
  · refine ⟨tags + 1, ?_⟩
    rw [walkAfter, reached, walkStep]
    split
    · exact ⟨_, _, rfl⟩
    · split <;> exact ⟨_, _, rfl⟩

/-! ## The walk of the decoder -/

/-- The bytes that a 16-bit offset can lead to. -/
def window (memory : Memory) : List UInt8 := (List.range (2 ^ 16 + 2)).map memory

/-- The window is large enough for every offset of 16 bits and two bytes behind it, where it shows
the memory. -/
theorem byteAt_window (memory : Memory) {offset : Nat} (inside : offset < 2 ^ 16 + 2) :
    byteAt (window memory) offset = (memory offset).toNat := by
  have listed : (List.range (2 ^ 16 + 2))[offset]? = some offset := List.getElem?_range inside
  rw [byteAt, window, List.getD_eq_getElem?_getD, List.getElem?_map, listed]
  rfl

/-- As the walk keeps its offset in 16 bits, it never reads behind this many bytes. -/
theorem window_length (memory : Memory) : (window memory).length = 2 ^ 16 + 2 := by
  rw [window, List.length_map, List.length_range]

/-- The types that the walk meets in the window are those of the memory. -/
theorem tagType_window (memory : Memory) (tags : Nat) : tagType (window memory) tags = typeIn memory tags := by
  have inside : u16 (10 + 4 * tags) + 2 + 1 < 2 ^ 16 + 2 := by
    simp only [u16]
    omega
  rw [tagType, halfAt, byteAt_window memory (by omega), byteAt_window memory inside, typeIn, wordIn]

/-- The byte looked at in a label, behind some tags. -/
theorem labelByte_lt (tags label : Nat) : labelByte (u16 (14 + 4 * tags)) label < 2 ^ 16 + 2 := by
  simp only [labelByte, u16]
  omega

/-- So are the bottom bits of the labels, which stand inside of the window wherever the tags have
led. -/
theorem bottom_window (memory : Memory) (tags label : Nat) :
    byteAt (window memory) (labelByte (u16 (14 + 4 * tags)) label) &&& 1 =
      bottomIn memory (u16 (14 + 4 * tags)) label := by
  rw [byteAt_window memory (labelByte_lt tags label), bottomIn]

/-- The first type that is none of a tag ends the tags. -/
theorem tagsInside_window {tags : Nat} (vlan : ∀ tag < tags, typeIn memory tag = hoEthVlan)
    (notVlan : typeIn memory tags ≠ hoEthVlan) : TagsInside (window memory) tags := by
  refine ⟨fun tag _ => ?_, fun tag before => ?_, ?_⟩
  · rw [window_length]
    simp only [u16]
    omega
  · rw [tagType_window]
    exact vlan tag before
  · rwa [tagType_window]

/-- The first label without a bottom-of-stack bit ends the stack. -/
theorem labelsInside_window {tags labels : Nat} (first : 1 ≤ labels)
    (bottom : bottomIn memory (u16 (14 + 4 * tags)) labels = 0)
    (more : ∀ label, 1 ≤ label → label < labels → bottomIn memory (u16 (14 + 4 * tags)) label ≠ 0) :
    LabelsInside (window memory) (u16 (14 + 4 * tags)) labels := by
  refine ⟨first, fun label _ _ => ?_, fun label one before => ?_, ?_⟩
  · rw [window_length]
    exact labelByte_lt tags label
  · rw [bottom_window]
    exact more label one before
  · rw [bottom_window]
    exact bottom

/-- The decoder gets through its loops over the memory exactly when the walk ends: the bound
on the rounds of its loops is no restriction. -/
theorem walk_completes_iff (memory : Memory) : Completes (walk (window memory)) ↔ WalkEnds memory := by
  constructor
  · rintro ⟨found, walked⟩
    obtain ⟨tags, inside, ended⟩ := (walk_eq_ok found).mp walked
    have notVlan := inside.last
    rw [tagType_window] at notVlan ended
    apply WayOut.walkEnds
    refine ⟨(exists_type_iff memory hoEthVlan).mp ⟨tags, notVlan⟩, fun others vlan mpls => ?_⟩
    have same : others = tags := by
      rcases Nat.lt_trichotomy others tags with before | same | after
      · have more := inside.more others before
        rw [tagType_window, mpls] at more
        cases more
      · exact same
      · exact absurd (vlan tags after) notVlan
    subst same
    rw [mpls] at ended
    obtain ⟨final, skipped, -⟩ := (bind_eq_ok _ _ _).mp (show (skipLabels (window memory) maxRounds
      (u16 (14 + 4 * others)) >>= fun final => pure (hoEthIp4, final)) = .ok found from ended)
    obtain ⟨labels, -, stack, -⟩ := (skipLabels_eq_ok _ _ _).mp skipped
    have bottom := stack.bottom
    rw [bottom_window] at bottom
    exact (exists_bottom_iff memory others).mp ⟨labels, stack.some, bottom⟩
  · intro walkEnds
    have wayOut := walkEnds.wayOut
    classical
    obtain ⟨tags, notVlan, earlier⟩ := Nat.findX ((exists_type_iff memory hoEthVlan).mpr wayOut.type)
    have vlan : ∀ tag < tags, typeIn memory tag = hoEthVlan := fun tag before => not_not.mp (earlier tag before)
    have ends : Completes (skipTags (window memory) 1 (typeIn memory tags) (u16 (14 + 4 * tags))) := by
      by_cases mpls : typeIn memory tags = hoEthMpls
      · obtain ⟨labels, ⟨first, bottom⟩, more⟩ :=
          Nat.findX ((exists_bottom_iff memory tags).mpr (wayOut.bottom tags vlan mpls))
        have stack := labelsInside_window first bottom fun label one before zero =>
          more label before ⟨one, zero⟩
        exact ⟨_, (skipTags_ipv4 _ _ _ notVlan).mpr (.mpls mpls stack)⟩
      · rw [skipTags, if_neg notVlan, if_neg mpls]
        exact (completes_ite _ _ _).mpr ⟨fun _ => completes_pure _,
          fun _ => (completes_ite _ _ _).mpr ⟨fun _ => completes_pure _, fun _ => completes_pure _⟩⟩
    obtain ⟨found, ended⟩ := ends
    refine ⟨found, (walk_eq_ok found).mpr ⟨tags, tagsInside_window vlan notVlan, ?_⟩⟩
    rwa [tagType_window]

/-! ## The walks that end -/

/-- Both loops of the walk end exactly when the bytes let them. The condition is on the memory, and
counts tags and labels as far as the offset can tell them apart. -/
theorem walkEnds_iff (memory : Memory) : WalkEnds memory ↔ WayOut memory :=
  ⟨fun ends => ends.wayOut, fun wayOut => wayOut.walkEnds⟩

/-- Memory filled with the type of VLAN tags, in which the first loop finds a tag wherever it looks. -/
def vlanMemory : Memory := fun offset => if offset % 2 = 0 then 0x81 else 0

/-- In it the loop over the types goes on for ever: after 64 KiB of tags the offset is back where it
began. -/
theorem vlanMemory_endless : ¬ WalkEnds vlanMemory := by
  intro ends
  obtain ⟨word, -, -, differs⟩ := ends.wayOut.type
  have even : 4 * word % 2 = 0 := by omega
  have odd : ¬ (4 * word + 1) % 2 = 0 := by omega
  exact differs (by simp [wordIn, vlanMemory, even, odd, hoEthVlan])

end OpenTaker
