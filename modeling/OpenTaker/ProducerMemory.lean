import OpenTaker.MetaProducer
import OpenTaker.BlockSlots

/-!
# The shared memory under producers

What is known of the meta blocks while captures fill, publish and recycle them: where
the slots of a live block begin, that a block nobody has taken is not final, and that a
published block keeps its contents until it is freed. Each operation keeps this, and
leaves alone the blocks of claims that are not its own.
-/

namespace OpenTaker

open CursorPipeline

/-- What is known of the shared memory between two steps. -/
structure Accounting (modules blocks capacity slots : Nat) (shared : Shared) : Prop where
  ledger : Ledger modules blocks shared.ring shared.cursors shared.claims shared.status
  sized : Sized blocks capacity slots shared.ring.global
  asserted : shared.asserted = true
  placed : ∀ number, shared.live number →
    (shared.ring.metaBlk (number % blocks)).offset = number % blocks * capacity
  /-- A block that no live claim has taken is not final. -/
  blank : ∀ position, (∀ number, number % blocks = position → ¬ shared.live number) →
    (shared.ring.metaBlk position).isFinal = false
  /-- A published block keeps its contents until it is freed. -/
  frozen : ∀ number, shared.status number = .published →
    shared.ring.metaBlk (number % blocks) = shared.contents number

/-- A step of a party that may write the block of its own claim leaves alone what has
been published and the blocks of other claims. -/
structure Leaves (blocks : Nat) (own : Option Nat) (before after : Shared) : Prop where
  sent : ∀ number, before.sent number →
    after.sent number ∧ after.contents number = before.contents number
  held : ∀ number, before.status number = .claimed → own ≠ some number →
    after.status number = .claimed ∧
      after.ring.metaBlk (number % blocks) = before.ring.metaBlk (number % blocks)

namespace Leaves

variable {blocks : Nat} {own other : Option Nat} {before middle after : Shared}

/-- A step that does nothing leaves all blocks alone. -/
theorem refl (blocks : Nat) (own : Option Nat) (shared : Shared) :
    Leaves blocks own shared shared where
  sent _ sent := ⟨sent, rfl⟩
  held _ claimed _ := ⟨claimed, rfl⟩

/-- Two steps in turn. The second may write a block that was not claimed before the
first. -/
theorem trans (first : Leaves blocks own before middle) (second : Leaves blocks other middle after)
    (covered : ∀ number, other = some number → before.status number = .claimed →
      own = some number) : Leaves blocks own before after where
  sent number sent := by
    obtain ⟨sentNow, kept⟩ := first.sent number sent
    obtain ⟨sentThen, still⟩ := second.sent number sentNow
    exact ⟨sentThen, still.trans kept⟩
  held number claimed notOwn := by
    obtain ⟨claimedNow, kept⟩ := first.held number claimed notOwn
    obtain ⟨claimedThen, still⟩ := second.held number claimedNow
      (fun same => notOwn (covered number same claimed))
    exact ⟨claimedThen, still.trans kept⟩

end Leaves

namespace Accounting

variable {modules blocks capacity slots : Nat} {shared : Shared}

/-- The block of another live claim is another block. -/
theorem distinct (accounting : Accounting modules blocks capacity slots shared)
    {number other : Nat} (live : shared.live number) (otherLive : shared.live other)
    (different : other ≠ number) : other % blocks ≠ number % blocks := fun same =>
  different (accounting.ledger.live_distinct other number otherLive live same)

/-- Among the live claims, the full blocks are the published ones. -/
theorem size_live (accounting : Accounting modules blocks capacity slots shared) {number : Nat}
    (live : shared.live number) :
    (shared.ring.metaBlk (number % blocks)).size ≠ 0 ↔ shared.status number = .published := by
  have flagged := accounting.ledger.flagged
  have below : number < shared.cursors.tail := by
    by_contra outside
    have fresh := (flagged.unclaimed number).mpr (by omega)
    rw [Shared.live, fresh] at live
    simp at live
  exact flagged.flag number below (flagged.live number live)

/-- A claimed block is empty until it is published. -/
theorem size_claimed (accounting : Accounting modules blocks capacity slots shared) {number : Nat}
    (claimed : shared.status number = .claimed) :
    (shared.ring.metaBlk (number % blocks)).size = 0 := by
  by_contra full
  have published := (accounting.size_live (.inl claimed)).mp full
  rw [claimed] at published
  cases published

/-- The holder of a claim may write its block, except for size and place. -/
theorem write (accounting : Accounting modules blocks capacity slots shared) {number : Nat}
    (claimed : shared.status number = .claimed) (block : PktMetaBlk)
    (size : block.size = (shared.ring.metaBlk (number % blocks)).size)
    (place : block.blkPos = (shared.ring.metaBlk (number % blocks)).blkPos)
    (offset : block.offset = (shared.ring.metaBlk (number % blocks)).offset) :
    Accounting modules blocks capacity slots (shared.write (number % blocks) block) ∧
      Leaves blocks (some number) shared (shared.write (number % blocks) block) := by
  have elsewhere : ∀ other, shared.live other → other ≠ number →
      (shared.write (number % blocks) block).ring.metaBlk (other % blocks) =
        shared.ring.metaBlk (other % blocks) := fun other live different =>
    setMetaBlk_other _ _ _ _ (accounting.distinct (.inl claimed) live different)
  refine ⟨?_, ?_, ?_⟩
  · constructor
    case ledger => exact accounting.ledger.touch _ block size place
    case sized => exact accounting.sized
    case asserted => exact accounting.asserted
    case placed =>
      intro other live
      by_cases same : other = number
      · subst same
        exact (congrArg PktMetaBlk.offset (setMetaBlk_self _ _ _)).trans
          (offset.trans (accounting.placed other live))
      · rw [elsewhere other live same]
        exact accounting.placed other live
    case blank =>
      intro position free
      have notOwn : position ≠ number % blocks := fun same =>
        free number same.symm (.inl claimed)
      exact (congrArg PktMetaBlk.isFinal (setMetaBlk_other _ _ _ _ notOwn)).trans
        (accounting.blank position free)
    case frozen =>
      intro other published
      have different : other ≠ number := by
        intro same
        rw [same] at published
        exact absurd (claimed.symm.trans published) (by decide)
      rw [elsewhere other (.inr published) different]
      exact accounting.frozen other published
  · exact fun other sent => ⟨sent, rfl⟩
  · intro other otherClaimed notOwn
    exact ⟨otherClaimed, elsewhere other (.inl otherClaimed) (fun same => notOwn (by rw [same]))⟩

/-- Publishing the block of a claim leaves the blocks of all other claims. -/
theorem publish (accounting : Accounting modules blocks capacity slots shared) {number size : Nat}
    (claimed : shared.status number = .claimed) (positive : 1 ≤ size) :
    Accounting modules blocks capacity slots (shared.publish number (number % blocks) size) ∧
      Leaves blocks (some number) shared (shared.publish number (number % blocks) size) := by
  have elsewhere : ∀ other, shared.live other → other ≠ number →
      (shared.publish number (number % blocks) size).ring.metaBlk (other % blocks) =
        shared.ring.metaBlk (other % blocks) := fun other live different =>
    setMetaBlk_other _ _ _ _ (accounting.distinct (.inl claimed) live different)
  have status : ∀ other, other ≠ number →
      (shared.publish number (number % blocks) size).status other = shared.status other :=
    fun other different => Function.update_of_ne different _ _
  refine ⟨?_, ?_, ?_⟩
  · constructor
    case ledger =>
      refine accounting.ledger.rewrite number _ .published (.inl claimed) (.inl rfl) ?_ rfl
      exact ⟨fun _ => rfl, fun _ => Nat.ne_of_gt positive⟩
    case sized => exact accounting.sized
    case asserted => exact accounting.asserted
    case placed =>
      intro other live
      by_cases same : other = number
      · subst same
        exact (congrArg PktMetaBlk.offset (setMetaBlk_self _ _ _)).trans
          (accounting.placed other (.inl claimed))
      · rw [Shared.live, status other same] at live
        rw [elsewhere other live same]
        exact accounting.placed other live
    case blank =>
      intro position free
      have notOwn : position ≠ number % blocks := fun same =>
        free number same.symm (.inr (Function.update_self _ _ _))
      refine (congrArg PktMetaBlk.isFinal (setMetaBlk_other _ _ _ _ notOwn)).trans
        (accounting.blank position fun other cell live => free other cell ?_)
      rw [Shared.live, status other (fun same => notOwn (by rw [← cell, same]))]
      exact live
    case frozen =>
      intro other published
      by_cases same : other = number
      · subst same
        simp only [Shared.publish, Function.update_self]
      · rw [status other same] at published
        rw [elsewhere other (.inr published) same]
        exact (accounting.frozen other published).trans (Function.update_of_ne same _ _).symm
  · intro other sent
    have different : other ≠ number := by
      intro same
      rw [Shared.sent, same, claimed] at sent
      simp at sent
    rw [Shared.sent, status other different]
    exact ⟨sent, Function.update_of_ne different _ _⟩
  · intro other otherClaimed notOwn
    have different : other ≠ number := fun same => notOwn (by rw [same])
    rw [status other different]
    exact ⟨otherClaimed, elsewhere other (.inl otherClaimed) different⟩

/-- Freeing a published block leaves those of the other claims. -/
theorem free (accounting : Accounting modules blocks capacity slots shared) {number : Nat}
    (published : shared.status number = .published) :
    Accounting modules blocks capacity slots (shared.free number) ∧
      Leaves blocks none shared (shared.free number) := by
  have place : shared.claims.getD number 0 = number % blocks :=
    accounting.ledger.claims_getD number (by rw [published]; decide)
  have elsewhere : ∀ position, position ≠ number % blocks →
      (shared.free number).ring.metaBlk position = shared.ring.metaBlk position := by
    intro position different
    simp only [Shared.free, place]
    exact setMetaBlk_other _ _ _ _ different
  have others : ∀ other, shared.live other → other ≠ number →
      (shared.free number).ring.metaBlk (other % blocks) =
        shared.ring.metaBlk (other % blocks) := fun other live different =>
    elsewhere _ (accounting.distinct (.inr published) live different)
  have status : ∀ other, other ≠ number →
      (shared.free number).status other = shared.status other :=
    fun other different => Function.update_of_ne different _ _
  have freed : (shared.free number).status number = .freed := Function.update_self _ _ _
  refine ⟨?_, ?_, ?_⟩
  · constructor
    case ledger =>
      simp only [Shared.free, place]
      exact accounting.ledger.rewrite number _ .freed (.inr published) (.inr rfl) (by simp) rfl
    case sized => exact accounting.sized
    case asserted => exact accounting.asserted
    case placed =>
      intro other live
      have different : other ≠ number := by
        intro same
        rw [Shared.live, same, freed] at live
        simp at live
      rw [Shared.live, status other different] at live
      rw [others other live different]
      exact accounting.placed other live
    case blank =>
      intro position unused
      by_cases own : position = number % blocks
      · rw [own]
        simp only [Shared.free, place, freeFullMetaBlk, setMetaBlk_self]
      · rw [elsewhere position own]
        refine accounting.blank position fun other cell live => unused other cell ?_
        rw [Shared.live, status other (fun same => own (by rw [← cell, same]))]
        exact live
    case frozen =>
      intro other stillPublished
      have different : other ≠ number := by
        intro same
        rw [same, freed] at stillPublished
        cases stillPublished
      rw [status other different] at stillPublished
      rw [others other (.inr stillPublished) different]
      exact accounting.frozen other stillPublished
  · intro other sent
    refine ⟨?_, rfl⟩
    by_cases same : other = number
    · rw [same]
      exact .inr freed
    · rw [Shared.sent, status other same]
      exact sent
  · intro other claimed _
    have different : other ≠ number := by
      intro same
      rw [same, published] at claimed
      cases claimed
    rw [status other different]
    exact ⟨claimed, others other (.inl claimed) different⟩

/-- No live claim has the block that a claim takes. -/
theorem tail_apart (accounting : Accounting modules blocks capacity slots shared) {after : Shared}
    (ledger : Ledger modules blocks after.ring after.cursors after.claims after.status)
    (claimed : after = shared.claim (shared.cursors.tail % blocks)
      (Represents.afterClaim shared.ring blocks shared.cursors)) {other : Nat}
    (live : shared.live other) :
    other ≠ shared.cursors.tail ∧ other % blocks ≠ shared.cursors.tail % blocks := by
  have unclaimed : shared.status shared.cursors.tail = .unclaimed :=
    (accounting.ledger.flagged.unclaimed _).mpr (Nat.le_refl _)
  have notTail : other ≠ shared.cursors.tail := by
    intro same
    rw [Shared.live, same, unclaimed] at live
    simp at live
  have taken : after.status shared.cursors.tail = .claimed := by
    rw [claimed]
    exact Function.update_self _ _ _
  have same : after.status other = shared.status other := by
    rw [claimed]
    exact Function.update_of_ne notTail _ _
  have stillLive : after.live other := by
    rw [Shared.live, same]
    exact live
  exact ⟨notTail, fun same =>
    notTail (ledger.live_distinct other shared.cursors.tail stillLive (.inl taken) same)⟩

/-- Claiming the tail block. The new claim's block is empty and not final. -/
theorem claim (accounting : Accounting modules blocks capacity slots shared) (several : 3 ≤ blocks)
    (nonempty : 1 ≤ modules) (addressable : slots * sizeofPacketMeta ≤ 2 ^ 32)
    (room : shared.cursors.tail < shared.cursors.passed 0 + (blocks - 2))
    (inside : blockInside blocks (shared.cursors.tail % blocks) = true)
    (empty : (shared.ring.metaBlk (shared.cursors.tail % blocks)).size = 0)
    (after : Shared)
    (claimed : after = shared.claim (shared.cursors.tail % blocks)
      (Represents.afterClaim shared.ring blocks shared.cursors)) :
    Accounting modules blocks capacity slots after ∧ Leaves blocks none shared after ∧
      after.status shared.cursors.tail = .claimed ∧
      (after.ring.metaBlk (shared.cursors.tail % blocks)).isFinal = false := by
  have ledger : Ledger modules blocks after.ring after.cursors after.claims after.status := by
    rw [claimed]
    exact accounting.ledger.take (by omega) room inside
      (accounting.ledger.recycled (by omega) nonempty room empty)
  have taken : after.status shared.cursors.tail = .claimed := by
    rw [claimed]
    exact Function.update_self _ _ _
  have unclaimed : shared.status shared.cursors.tail = .unclaimed :=
    (accounting.ledger.flagged.unclaimed _).mpr (Nat.le_refl _)
  have status : ∀ other, other ≠ shared.cursors.tail → after.status other = shared.status other := by
    intro other different
    rw [claimed]
    exact Function.update_of_ne different _ _
  have notTail : ∀ other, shared.live other → other ≠ shared.cursors.tail :=
    fun _ live => (accounting.tail_apart ledger claimed live).1
  have otherBlock : ∀ other, shared.live other → other % blocks ≠ shared.cursors.tail % blocks :=
    fun _ live => (accounting.tail_apart ledger claimed live).2
  have elsewhere : ∀ position, position ≠ shared.cursors.tail % blocks →
      after.ring.metaBlk position = shared.ring.metaBlk position := by
    intro position different
    rw [claimed]
    exact setMetaBlk_other _ _ _ _ different
  have block : after.ring.metaBlk (shared.cursors.tail % blocks) =
      claimedBlock shared.ring (shared.cursors.tail % blocks) := by
    rw [claimed]
    exact setMetaBlk_self _ _ _
  have notFinal : (shared.ring.metaBlk (shared.cursors.tail % blocks)).isFinal = false :=
    accounting.blank _ fun other cell live => otherBlock other live cell
  refine ⟨?_, ⟨?_, ?_⟩, taken, ?_⟩
  · constructor
    case ledger => exact ledger
    case sized =>
      rw [claimed]
      have sized := accounting.sized
      exact ⟨sized.blkCapacity, sized.metaSize, sized.mask, sized.positive, sized.covered⟩
    case asserted =>
      rw [claimed]
      exact accounting.asserted
    case placed =>
      intro other live
      by_cases same : other = shared.cursors.tail
      · rw [same, block]
        exact accounting.sized.claimedBlock_offset addressable (Nat.mod_lt _ (by omega))
      · rw [Shared.live, status other same] at live
        rw [elsewhere _ (otherBlock other live)]
        exact accounting.placed other live
    case blank =>
      intro position unused
      have notTaken : position ≠ shared.cursors.tail % blocks := fun same =>
        unused shared.cursors.tail same.symm (.inl taken)
      rw [elsewhere position notTaken]
      refine accounting.blank position fun other cell live => unused other cell ?_
      rw [Shared.live, status other (notTail other live)]
      exact live
    case frozen =>
      intro other published
      have different : other ≠ shared.cursors.tail := by
        intro same
        rw [same, taken] at published
        cases published
      rw [status other different] at published
      rw [elsewhere _ (otherBlock other (.inr published)), accounting.frozen other published, claimed]
      rfl
  · intro other sent
    have different : other ≠ shared.cursors.tail := by
      intro same
      rw [Shared.sent, same, unclaimed] at sent
      simp at sent
    rw [Shared.sent, status other different]
    refine ⟨sent, ?_⟩
    rw [claimed]
    rfl
  · intro other otherClaimed _
    rw [status other (notTail other (.inl otherClaimed))]
    exact ⟨otherClaimed, elsewhere _ (otherBlock other (.inl otherClaimed))⟩
  · rw [block]
    exact notFinal

/-- A try to claim a block finds none, or claims the one at the tail. -/
theorem getEmptyMetaBlk_cases (accounting : Accounting modules blocks capacity slots shared)
    (several : 3 ≤ blocks) (nonempty : 1 ≤ modules)
    (addressable : slots * sizeofPacketMeta ≤ 2 ^ 32) :
    getEmptyMetaBlk shared.ring = (none, shared.ring) ∨
      ∃ ring taken, getEmptyMetaBlk shared.ring = (some (shared.cursors.tail % blocks), ring) ∧
        ring = Represents.afterClaim shared.ring blocks shared.cursors ∧
        taken = shared.claim (shared.cursors.tail % blocks) ring ∧
        shared.status shared.cursors.tail = .unclaimed ∧
        Accounting modules blocks capacity slots taken ∧ Leaves blocks none shared taken ∧
        taken.status shared.cursors.tail = .claimed ∧
        (taken.ring.metaBlk (shared.cursors.tail % blocks)).isFinal = false := by
  have decided := accounting.ledger.represents.getEmptyMetaBlk_eq (by omega) nonempty
  by_cases free : shared.cursors.tail < shared.cursors.passed 0 + (blocks - 2) ∧
      blockInside blocks (shared.cursors.tail % blocks) = true ∧
      (shared.ring.metaBlk (shared.cursors.tail % blocks)).size = 0
  · rw [if_pos free] at decided
    obtain ⟨room, inside, empty⟩ := free
    exact .inr ⟨_, _, decided, rfl, rfl, (accounting.ledger.flagged.unclaimed _).mpr (Nat.le_refl _),
      accounting.claim several nonempty addressable room inside empty _ rfl⟩
  · rw [if_neg free] at decided
    exact .inl decided

/-- A move over published blocks writes no block at all. -/
theorem move (accounting : Accounting modules blocks capacity slots shared) (several : 3 ≤ blocks)
    (id count : Nat) (inside : id < modules) (counted : count < 2 ^ 31)
    (ready : ∀ offset < count, shared.sent (shared.cursors.passed id + offset)) :
    Accounting modules blocks capacity slots (shared.move id count) ∧
      Leaves blocks none shared (shared.move id count) := by
  have moved := accounting.ledger.represents.move_eq (by omega) id count inside counted
  by_cases within : shared.cursors.passed id + count ≤ limit modules shared.cursors id
  · rw [if_pos within] at moved
    have after : shared.move id count = { shared with
        ring := shared.ring.setBlkPtr id ((shared.cursors.passed id + count) % blocks)
        cursors := shared.cursors.advance id count } := by
      simp only [Shared.move, moved, Int.natCast_nonneg, ↓reduceIte]
    rw [after]
    refine ⟨?_, fun _ sent => ⟨sent, rfl⟩, fun _ claimed _ => ⟨claimed, rfl⟩⟩
    constructor
    case ledger => exact accounting.ledger.move id count within ready
    case sized =>
      have sized := accounting.sized
      exact ⟨sized.blkCapacity, sized.metaSize, sized.mask, sized.positive, sized.covered⟩
    case asserted => exact accounting.asserted
    case placed => exact accounting.placed
    case blank => exact accounting.blank
    case frozen => exact accounting.frozen
  · rw [if_neg within] at moved
    have after : shared.move id count = shared := by
      simp [Shared.move, moved]
    rw [after]
    exact ⟨accounting, Leaves.refl blocks none shared⟩

end Accounting

end OpenTaker
