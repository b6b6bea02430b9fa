import OpenTaker.ClaimHistory

/-!
# Claims of several producers, one access at a time

`GetEmptyMetaBlk` reads the tail, module 0's cursor and the size of the block at
the tail, and takes the block by a compare-and-swap of the tail. Any number of
producers run it here with their accesses interleaved with each other and with
publications, moves and frees.

The tail that is compared is stored modulo the number of blocks. A producer that
stalls between its checks and its compare-and-swap while the others claim a whole
lap finds the tail it has loaded, although every check it made is out of date.
Runs in which no successful compare-and-swap has been overtaken by a lap keep the
claims exclusive; without that condition two producers can be given one block.
-/

namespace OpenTaker

open CursorPipeline CyclicPositions

/-- Where a producer stands in `GetEmptyMetaBlk`, with its locals. The number of
claims at its load of the tail is kept for the history only. -/
inductive ClaimPc where
  | start
  | loadedTail (tailPos seen : Nat)
  | loadedLimit (tailPos seen : Nat)
  | loadedSize (tailPos seen : Nat)
deriving DecidableEq

/-- The ring, its producers and the history of claims. -/
structure ClaimRace where
  ring : Ring
  cursors : Cursors
  pc : Nat → ClaimPc
  /-- The blocks returned by claims, in order. -/
  claims : List Nat
  status : Nat → BlkStatus

/-- A started ring with idle producers, who have claimed nothing yet. -/
def ClaimRace.start (ring : Ring) : ClaimRace where
  ring := ring
  cursors := noCursors
  pc := fun _ => .start
  claims := []
  status := fun _ => .unclaimed

/-- One atomic step: an access of a producer inside of `GetEmptyMetaBlk`, or a whole call of another
party. -/
inductive ClaimStep where
  /-- The next access of a producer inside `GetEmptyMetaBlk`. -/
  | access (producer : Nat)
  /-- The owner of a claim publishes its block. -/
  | publish (number size : Nat)
  /-- A module calls `Move2NextMetaBlk` over published blocks. -/
  | move (id count : Nat)
  /-- `FreeFullMetaBlk` of a published block. -/
  | free (number : Nat)

/-- Leave the producer at another place of its function, with nothing else changed. -/
def ClaimRace.goto (state : ClaimRace) (producer : Nat) (pc : ClaimPc) : ClaimRace :=
  { state with pc := Function.update state.pc producer pc }

/-- The next access of a producer. A check that fails returns NULL or retries; both
lead back to the start. Reading outside of the block array is never survived. -/
def ClaimRace.access (state : ClaimRace) (producer : Nat) : ClaimRace :=
  let global := state.ring.global
  match state.pc producer with
  | .start =>
      match getModuleInfo state.ring 0 with
      | none => state
      | some _ =>
          state.goto producer (.loadedTail (global.tailMetaBlk % global.metaBlkCount) state.cursors.tail)
  | .loadedTail tailPos seen =>
      if u32 (tailPos + safeDistance) % global.metaBlkCount = state.ring.blkPtr 0 then
        state.goto producer .start
      else state.goto producer (.loadedLimit tailPos seen)
  | .loadedLimit tailPos seen =>
      if ¬ blockInside global.metaBlkCount tailPos then state
      else if (state.ring.metaBlk tailPos).size ≠ 0 then state.goto producer .start
      else state.goto producer (.loadedSize tailPos seen)
  | .loadedSize tailPos _ =>
      if tailPos ≠ global.tailMetaBlk then state.goto producer .start
      else
        { state.goto producer .start with
          ring := (state.ring.setTailMetaBlk (u32 (tailPos + 1) % global.metaBlkCount)).setMetaBlk
            tailPos (claimedBlock state.ring tailPos)
          cursors := state.cursors.append
          claims := state.claims ++ [tailPos]
          status := Function.update state.status state.cursors.tail .claimed }

/-- Perform one step. A step outside the working procedure is refused: a block is
published once by the owner of a claim, passed after it has been published, and
freed once after it has been published. -/
def ClaimRace.step (state : ClaimRace) : ClaimStep → Option ClaimRace
  | .access producer => some (state.access producer)
  | .publish number size =>
      if state.status number = .claimed ∧ 0 < size ∧ size < 2 ^ 32 then
        some { state with
          ring := publishMetaBlk state.ring (state.claims.getD number 0) size
          status := Function.update state.status number .published }
      else none
  | .move id count =>
      if id < state.ring.global.index ∧ count < 2 ^ 31 ∧
          ∀ offset < count, state.status (state.cursors.passed id + offset) = .published ∨
            state.status (state.cursors.passed id + offset) = .freed then
        match move2NextMetaBlk state.ring id count with
        | (code, ring) =>
            some { state with
              ring := ring
              cursors := if 0 ≤ code then state.cursors.advance id count else state.cursors }
      else none
  | .free number =>
      if state.status number = .published then
        some { state with
          ring := freeFullMetaBlk state.ring (state.claims.getD number 0)
          status := Function.update state.status number .freed }
      else none

/-- A claim owns the block it was given until that block is freed. -/
def ClaimRace.Owns (state : ClaimRace) (number block : Nat) : Prop :=
  state.claims[number]? = some block ∧
    (state.status number = .claimed ∨ state.status number = .published)

/-- Whether a capture owns a block can be decided. -/
instance (state : ClaimRace) (number block : Nat) : Decidable (state.Owns number block) :=
  inferInstanceAs (Decidable (_ ∧ _))

/-- No block is owned by two claims, and the tail keeps two positions behind
module 0's cursor of the next lap. -/
structure Exclusive (blocks : Nat) (state : ClaimRace) : Prop where
  alone : ∀ block first second, state.Owns first block → state.Owns second block → first = second
  apart : state.cursors.tail + 2 ≤ state.cursors.passed 0 + blocks

/-- The step is a compare-and-swap that finds the tail it has loaded after the
others have claimed a whole lap. -/
def ClaimRace.overtaken (state : ClaimRace) : ClaimStep → Bool
  | .access producer =>
      match state.pc producer with
      | .loadedSize tailPos seen =>
          tailPos == state.ring.global.tailMetaBlk &&
            decide (seen + state.ring.global.metaBlkCount ≤ state.cursors.tail)
      | _ => false
  | _ => false

section Goto

variable (state : ClaimRace) (producer : Nat) (pc before : ClaimPc)

/-- A producer that goes on changes no ring. The simp lemmas keep such steps out of the proofs. -/
@[simp] theorem goto_ring : (state.goto producer pc).ring = state.ring := rfl

/-- Nor does it change the history of claims, which is written only where the tail has been taken. -/
@[simp] theorem goto_claims : (state.goto producer pc).claims = state.claims := rfl

/-- The producer is where it has gone, and none of the others has moved with it. -/
@[simp] theorem goto_pc : (state.goto producer pc).pc producer = pc := by
  simp [ClaimRace.goto]

/-- Going twice is going to the second place: a step that moves its producer on overwrites where it
stood. -/
@[simp] theorem goto_goto :
    (state.goto producer before).goto producer pc = state.goto producer pc := by
  simp [ClaimRace.goto]

end Goto

/-- A call whose accesses are not interleaved is one pass of the atomic claim. -/
theorem access_uninterrupted (state : ClaimRace) (producer position : Nat) (after : Ring)
    (idle : state.pc producer = .start)
    (claimed : claimPass state.ring = .claimed position after) :
    let final := (((state.access producer).access producer).access producer).access producer
    final.ring = after ∧ final.claims = state.claims ++ [position] ∧ final.pc producer = .start := by
  obtain ⟨valid, atTail, notFull, inside, empty, current, rfl⟩ := claimPass_taken claimed
  have first : state.access producer = state.goto producer
      (.loadedTail position state.cursors.tail) := by
    simp only [ClaimRace.access, idle, valid, atTail]
  have second : (state.access producer).access producer = state.goto producer
      (.loadedLimit position state.cursors.tail) := by
    rw [first, ClaimRace.access]
    simp only [goto_pc, goto_ring, goto_goto, if_neg notFull]
  have third : ((state.access producer).access producer).access producer = state.goto producer
      (.loadedSize position state.cursors.tail) := by
    rw [second, ClaimRace.access]
    simp only [goto_pc, goto_ring, goto_goto, inside, empty, not_true_eq_false, ↓reduceIte, ne_eq]
  simp only [third]
  rw [ClaimRace.access]
  simp only [goto_pc, goto_ring, goto_goto, if_neg (not_not.mpr current), goto_claims, and_self]

/-! ## The invariant -/

/-- What a producer's checks say about the present state: nothing once another
claim has moved the tail, and that the tail block may be taken while it has not. -/
def Checked (blocks : Nat) (cursors : Cursors) (status : Nat → BlkStatus) : ClaimPc → Prop
  | .start => True
  | .loadedTail tailPos seen => tailPos = seen % blocks ∧ seen ≤ cursors.tail
  | .loadedLimit tailPos seen => tailPos = seen % blocks ∧ seen ≤ cursors.tail ∧
      (seen = cursors.tail → cursors.tail < cursors.passed 0 + (blocks - 2))
  | .loadedSize tailPos seen => tailPos = seen % blocks ∧ seen ≤ cursors.tail ∧
      blockInside blocks tailPos = true ∧ (seen = cursors.tail → cursors.tail < cursors.passed 0 + (blocks - 2) ∧
        ∀ number, cursors.tail = number + blocks → status number = .freed)

/-- The checks of a producer stay true while others move, publish and free, and
they lose their subject when another claim moves the tail. -/
theorem Checked.mono {blocks : Nat} {cursors after : Cursors} {status later : Nat → BlkStatus}
    {pc : ClaimPc} (checked : Checked blocks cursors status pc)
    (forward : cursors.tail ≤ after.tail)
    (kept : after.tail = cursors.tail → cursors.passed 0 ≤ after.passed 0 ∧
      ∀ number, status number = .freed → later number = .freed) :
    Checked blocks after later pc := by
  cases pc with
  | start => trivial
  | loadedTail tailPos seen => exact ⟨checked.1, checked.2.trans forward⟩
  | loadedLimit tailPos seen =>
    obtain ⟨position, behind, room⟩ := checked
    refine ⟨position, behind.trans forward, fun same => ?_⟩
    have unmoved : after.tail = cursors.tail := by omega
    have passed := (kept unmoved).1
    have limit := room (by omega)
    omega
  | loadedSize tailPos seen =>
    obtain ⟨position, behind, inside, free⟩ := checked
    refine ⟨position, behind.trans forward, inside, fun same => ?_⟩
    have unmoved : after.tail = cursors.tail := by omega
    obtain ⟨passed, freed⟩ := kept unmoved
    obtain ⟨limit, recycled⟩ := free (by omega)
    exact ⟨by omega, fun number earlier => freed number (recycled number (by omega))⟩

/-- The invariant of the runs in which no claim is overtaken. -/
structure Racing (modules blocks : Nat) (state : ClaimRace) : Prop where
  ledger : Ledger modules blocks state.ring state.cursors state.claims state.status
  checked : ∀ producer, Checked blocks state.cursors state.status (state.pc producer)

/-- A started ring meets the invariant of the race, with all producers outside of the function. -/
theorem Started.racing {modules blocks : Nat} {ring : Ring} (started : Started modules blocks ring) :
    Racing modules blocks (ClaimRace.start ring) where
  ledger := started.ledger
  checked _ := trivial

namespace Racing

variable {modules blocks : Nat} {state : ClaimRace}

/-- Moving one producer to a place whose checks hold keeps the invariant. -/
theorem goto (racing : Racing modules blocks state) (producer : Nat) (pc : ClaimPc)
    (checked : Checked blocks state.cursors state.status pc) :
    Racing modules blocks (state.goto producer pc) where
  ledger := racing.ledger
  checked other := by
    by_cases same : other = producer
    · subst same
      simpa [ClaimRace.goto] using checked
    · simpa [ClaimRace.goto, same] using racing.checked other

/-- Taking the tail block with checks that are up to date keeps the invariant. -/
theorem take (racing : Racing modules blocks state) (positive : 0 < blocks) (producer : Nat)
    (room : state.cursors.tail < state.cursors.passed 0 + (blocks - 2))
    (inside : blockInside blocks (state.cursors.tail % blocks) = true)
    (recycled : ∀ number, state.cursors.tail = number + blocks → state.status number = .freed) :
    Racing modules blocks
      { state.goto producer .start with
        ring := Represents.afterClaim state.ring blocks state.cursors
        cursors := state.cursors.append
        claims := state.claims ++ [state.cursors.tail % blocks]
        status := Function.update state.status state.cursors.tail .claimed } where
  ledger := racing.ledger.take positive room inside recycled
  checked other := by
    have others := (racing.goto producer .start trivial).checked other
    apply others.mono
    · simp [ClaimRace.goto]
    · intro unmoved
      simp [ClaimRace.goto] at unmoved

/-- An access keeps the invariant unless it is a compare-and-swap that has been
overtaken by a lap. -/
theorem access (racing : Racing modules blocks state) (several : 3 ≤ blocks)
    (nonempty : 1 ≤ modules) (producer : Nat)
    (current : state.overtaken (.access producer) = false) :
    Racing modules blocks (state.access producer) := by
  have represents := racing.ledger.represents
  have checked := racing.checked producer
  have tailBound := represents.stored_lt (by omega) state.cursors.tail (Nat.le_refl _)
  simp only [ClaimRace.access, represents.blockCount, represents.module_zero nonempty]
  cases place : state.pc producer with
  | start =>
    refine racing.goto producer _ ⟨?_, Nat.le_refl _⟩
    rw [represents.storedTail, Nat.mod_mod]
  | loadedTail tailPos seen =>
    rw [place] at checked
    obtain ⟨rfl, behind⟩ := checked
    simp only
    split
    · exact racing.goto producer .start trivial
    · rename_i notFull
      refine racing.goto producer _ ⟨rfl, behind, fun same => ?_⟩
      have lastBehind := represents.ordered.le_tail 0 (by omega)
      have lead := represents.ordered.bounded
      rw [represents.stored 0 (by omega), same,
        u32_of_lt (by simp only [safeDistance]; omega), safeDistance,
        full_mod_iff (by omega) lastBehind lead] at notFull
      omega
  | loadedLimit tailPos seen =>
    rw [place] at checked
    obtain ⟨rfl, behind, room⟩ := checked
    simp only
    split
    · exact racing
    rename_i inside
    split
    · exact racing.goto producer .start trivial
    · rename_i empty
      refine racing.goto producer _ ⟨rfl, behind, not_not.mp inside, fun same => ⟨room same, ?_⟩⟩
      rw [same, not_not] at empty
      exact racing.ledger.recycled (by omega) nonempty (room same) empty
  | loadedSize tailPos seen =>
    rw [place] at checked
    obtain ⟨rfl, behind, inside, free⟩ := checked
    simp only
    split
    · exact racing.goto producer .start trivial
    · rename_i swapped
      have stored : seen % blocks = state.ring.global.tailMetaBlk := not_not.mp swapped
      -- Less than a lap has been claimed since the load, so nothing has.
      have within : state.cursors.tail < seen + blocks := by
        simpa [ClaimRace.overtaken, place, stored, represents.blockCount] using current
      have same : seen = state.cursors.tail := by
        rw [represents.storedTail] at stored
        exact (mod_eq_iff behind within).mp stored
      obtain ⟨room, recycled⟩ := free same
      rw [same] at inside ⊢
      rw [u32_of_lt (by omega), advance_mod]
      exact racing.take (by omega) producer room inside recycled

/-- Writing the block of a live claim when it is published or freed keeps the
invariant. -/
theorem rewrite (racing : Racing modules blocks state) (number : Nat) (block : PktMetaBlk)
    (after : BlkStatus)
    (live : state.status number = .claimed ∨ state.status number = .published)
    (kept : after = .published ∨ after = .freed) (agrees : block.size ≠ 0 ↔ after = .published)
    (position : block.blkPos = (state.ring.metaBlk (number % blocks)).blkPos) :
    Racing modules blocks
      { state with
        ring := state.ring.setMetaBlk (number % blocks) block
        status := Function.update state.status number after } where
  ledger := racing.ledger.rewrite number block after live kept agrees position
  checked producer := by
    refine (racing.checked producer).mono (Nat.le_refl _) fun _ => ⟨Nat.le_refl _, ?_⟩
    intro other freed
    have distinct : other ≠ number := by
      rintro rfl
      simp [freed] at live
    simpa [distinct] using freed

/-- A move over published blocks keeps the invariant of the race: no cursor passes a block that a
producer has still to write. -/
theorem move (racing : Racing modules blocks state) (several : 3 ≤ blocks) (id count : Nat)
    (next : ClaimRace) (stepped : state.step (.move id count) = some next) :
    Racing modules blocks next := by
  simp only [ClaimRace.step] at stepped
  split at stepped
  · rename_i allowed
    obtain ⟨registered, counted, ready⟩ := allowed
    have inside : id < modules := racing.ledger.represents.registered ▸ registered
    rw [racing.ledger.represents.move_eq (by omega) id count inside counted] at stepped
    by_cases within : state.cursors.passed id + count ≤ limit modules state.cursors id
    · simp only [within, ↓reduceIte, Int.natCast_nonneg, Option.some.injEq] at stepped
      subst stepped
      exact {
        ledger := racing.ledger.move id count within ready
        checked := fun producer => (racing.checked producer).mono (Nat.le_refl _) fun _ =>
          ⟨passed_le_advance state.cursors id 0 count, fun _ freed => freed⟩ }
    · simp only [within, ↓reduceIte, Int.reduceNeg, Option.some.injEq] at stepped
      subst stepped
      exact racing
  · cases stepped

/-- A step that is not an overtaken compare-and-swap keeps the invariant. -/
theorem step (racing : Racing modules blocks state) (several : 3 ≤ blocks)
    (nonempty : 1 ≤ modules) (label : ClaimStep) (next : ClaimRace)
    (current : state.overtaken label = false) (stepped : state.step label = some next) :
    Racing modules blocks next := by
  cases label with
  | access producer =>
    cases stepped
    exact racing.access several nonempty producer current
  | publish number size =>
    simp only [ClaimRace.step] at stepped
    split at stepped
    · rename_i allowed
      obtain ⟨claimed, positive, -⟩ := allowed
      cases stepped
      rw [racing.ledger.claims_getD number (by simp [claimed])]
      exact racing.rewrite number _ .published (.inl claimed) (.inl rfl)
        (by simpa using Nat.pos_iff_ne_zero.mp positive) rfl
    · cases stepped
  | move id count => exact racing.move several id count next stepped
  | free number =>
    simp only [ClaimRace.step] at stepped
    split at stepped
    · rename_i published
      cases stepped
      rw [racing.ledger.claims_getD number (by simp [published])]
      exact racing.rewrite number _ .freed (.inr published) (.inr rfl) (by simp) rfl
    · cases stepped

/-- Claims are exclusive: two live claims are less than a lap apart. -/
theorem exclusive (racing : Racing modules blocks state) (several : 3 ≤ blocks) :
    Exclusive blocks state where
  alone block first second firstOwns secondOwns := by
    obtain ⟨firstClaim, firstLive⟩ := firstOwns
    obtain ⟨secondClaim, secondLive⟩ := secondOwns
    have cell : ∀ number, state.claims[number]? = some block → number % blocks = block := by
      intro number claim
      rw [racing.ledger.claimed] at claim
      have inside : number < state.cursors.tail := by
        by_contra outside
        rw [List.getElem?_eq_none (by simpa using outside)] at claim
        cases claim
      rw [blocksFrom_get blocks _ number inside] at claim
      exact Option.some.inj claim
    exact racing.ledger.live_distinct first second firstLive secondLive
      ((cell first firstClaim).trans (cell second secondClaim).symm)
  apart := by
    have bounded := racing.ledger.represents.ordered.bounded
    omega

end Racing

/-! ## Runs -/

/-- In every run in which no compare-and-swap succeeds after a whole lap has been
claimed since its load of the tail, no block has two owners, the tail keeps its
distance to module 0, and the stored positions stand for the counted ones. -/
theorem exclusive_claims_unless_overtaken {modules blocks : Nat} {ring : Ring}
    (started : Started modules blocks ring) (nonempty : 1 ≤ modules) (several : 3 ≤ blocks)
    (labels : List ClaimStep) (final : ClaimRace)
    (current : Runs.Meets ClaimRace.step (fun state label => state.overtaken label = false)
      (ClaimRace.start ring) labels)
    (ran : Runs.run ClaimRace.step (ClaimRace.start ring) labels = some final) :
    Exclusive blocks final ∧ final.ring.global.tailMetaBlk = final.cursors.tail % blocks ∧
      final.ring.blkPtr 0 = final.cursors.passed 0 % blocks := by
  have racing := Runs.run_invariant_meets ClaimRace.step
    (fun state label => state.overtaken label = false) (Racing modules blocks)
    (fun _ label next racing fresh stepped => racing.step several nonempty label next fresh stepped)
    (ClaimRace.start ring) final labels started.racing current ran
  exact ⟨racing.exclusive several, racing.ledger.represents.storedTail,
    racing.ledger.represents.stored 0 (by omega)⟩

/-- Two producers claim in turn, one after the other's checks have gone stale by one
claim: its compare-and-swap fails and its next call takes the next block. -/
theorem exclusive_claims_unless_overtaken_two_producers :
    ∃ final, Runs.run ClaimRace.step (ClaimRace.start (freshRing 2 4 4 16))
        [.access 0, .access 0, .access 0, .access 1, .access 1, .access 1, .access 1, .publish 0 2,
          .access 0, .access 0, .access 0, .access 0, .access 0, .move 1 1, .free 0] = some final ∧
      Exclusive 4 final := by
  have completes : (Runs.run ClaimRace.step (ClaimRace.start (freshRing 2 4 4 16))
      [.access 0, .access 0, .access 0, .access 1, .access 1, .access 1, .access 1, .publish 0 2,
        .access 0, .access 0, .access 0, .access 0, .access 0, .move 1 1, .free 0]).isSome = true := by
    decide
  have ran := (Option.some_get completes).symm
  exact ⟨_, ran, (exclusive_claims_unless_overtaken (freshRing_started 2 4 4 16)
    (by decide) (by decide) _ _ (by decide) ran).1⟩

/-- One module, three blocks. Producer 0 checks block 0 and stalls; producer 1
claims a lap of blocks, two of which are published and passed by the module. The
compare-and-swap of producer 0 then succeeds: block 0, which has not been freed,
is claimed a second time, and the tail is a whole lap ahead of the module. -/
theorem claim_overtaken_by_a_lap :
    ∃ final, Runs.run ClaimRace.step (ClaimRace.start (freshRing 1 3 4 12))
        [.access 0, .access 0, .access 0,
          .access 1, .access 1, .access 1, .access 1, .publish 0 2, .move 0 1,
          .access 1, .access 1, .access 1, .access 1, .publish 1 2, .move 0 1,
          .access 1, .access 1, .access 1, .access 1,
          .access 0] = some final ∧
      ¬ (∀ block first second, final.Owns first block → final.Owns second block → first = second) ∧
      ¬ final.cursors.tail + 2 ≤ final.cursors.passed 0 + 3 := by
  obtain ⟨final, ran, first, second, close⟩ := Runs.run_reaches ClaimRace.step
    (ClaimRace.start (freshRing 1 3 4 12))
    [.access 0, .access 0, .access 0,
      .access 1, .access 1, .access 1, .access 1, .publish 0 2, .move 0 1,
      .access 1, .access 1, .access 1, .access 1, .publish 1 2, .move 0 1,
      .access 1, .access 1, .access 1, .access 1,
      .access 0]
    (fun final => final.Owns 0 0 ∧ final.Owns 3 0 ∧
      ¬ final.cursors.tail + 2 ≤ final.cursors.passed 0 + 3) (by decide)
  exact ⟨final, ran, fun alone => absurd (alone 0 0 3 first second) (by decide), close⟩

end OpenTaker
