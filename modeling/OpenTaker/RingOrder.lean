import OpenTaker.Runs
import OpenTaker.CursorPipeline
import OpenTaker.CyclicPositions
import OpenTaker.RingSetup

/-!
# The ring as a pipeline of cursors

The ring stores positions modulo the number of meta blocks and compares them
after a one-lap correction. It implements a pipeline of unbounded cursors whose
stages are the modules and whose lead is two blocks short of a lap: each
operation decides exactly as the pipeline would, and moves the same cursor. This
is the refinement on which the results about whole runs rest.

The refinement is stated for the arithmetic the source performs. A sum of two
positions stays inside 32 bits because the block array has been requested with a
32-bit size: either it has few blocks, or no claim gets past the requested ones.
-/

namespace OpenTaker

open CursorPipeline CyclicPositions

/-- The shared memory represents unbounded cursors: the stored positions are
their remainders and the cursors are in order. -/
structure Represents (modules blocks : Nat) (ring : Ring) (cursors : Cursors) : Prop where
  registered : ring.global.index = modules
  blockCount : ring.global.metaBlkCount = blocks
  /-- In an array too large for its 32-bit request the tail stays inside the request. -/
  narrow : 2 ^ 27 ≤ blocks → cursors.tail < 2 ^ 27
  mapped : ∀ id < modules, (ring.global.moduleInfo id).mapped = true
  stored : ∀ id < modules, ring.blkPtr id = cursors.passed id % blocks
  storedTail : ring.global.tailMetaBlk = cursors.tail % blocks
  ordered : Ordered modules (blocks - 2) cursors

/-- A ring behind `StartWork` and in front of the first claim: all cursors and the tail are zero,
and all block headers are cleared. -/
structure Started (modules blocks : Nat) (ring : Ring) : Prop where
  registered : ring.global.index = modules
  blockCount : ring.global.metaBlkCount = blocks
  mapped : ∀ id < modules, (ring.global.moduleInfo id).mapped = true
  cursorZero : ∀ id < modules, ring.blkPtr id = 0
  tailZero : ring.global.tailMetaBlk = 0
  cleared : ∀ position, ring.metaBlk position = PktMetaBlk.zero

/-- `StartWork` on a ring that has only been set up gives a started ring. -/
theorem started_of_startWork {ring next : Ring} (setUp : SetUp ring)
    (works : startWork ring = some next) :
    1 ≤ next.global.index ∧ Started next.global.index next.global.metaBlkCount next := by
  obtain ⟨nonempty, metaSize, metaCount, rfl⟩ := startWork_some works
  have counted := setUp.setMetaCount metaSize metaCount
  exact ⟨nonempty, rfl, rfl, counted.mapped, counted.cursorZero, counted.tailZero,
    counted.cleared⟩

/-- A ring of given dimensions with its views mapped at address zero. -/
def freshRing (modules blocks capacity slots : Nat) : Ring :=
  { Ring.zero with global :=
    { Global.zero with
      blockSize := slots * averagePacketSize
      metaPoolSize := slots * sizeofPacketMeta
      metaCount := slots - 1
      metaSize := sizeofPacketMeta
      metaBlkCapacity := capacity
      index := modules
      metaBlkCount := blocks
      moduleInfo := fun id =>
        if id < modules then
          { ModuleInfo.zero with
            blockViewStart := some 0, metaViewStart := some 0, metaBlkViewStart := some 0 }
        else ModuleInfo.zero } }

/-- Such a ring is started, whatever its capacity and its number of slots. -/
theorem freshRing_started (modules blocks capacity slots : Nat) :
    Started modules blocks (freshRing modules blocks capacity slots) where
  registered := rfl
  blockCount := rfl
  mapped id inside := by simp [freshRing, inside, ModuleInfo.mapped]
  cursorZero id _ := by
    simp only [Ring.blkPtr, freshRing]
    split <;> rfl
  tailZero := rfl
  cleared _ := rfl

/-- The cursors of a ring on which nothing has happened. -/
def noCursors : Cursors where
  tail := 0
  passed := fun _ => 0

/-- A started ring represents cursors that all stand at zero. -/
theorem Started.represents {modules blocks : Nat} {ring : Ring}
    (started : Started modules blocks ring) : Represents modules blocks ring noCursors where
  registered := started.registered
  blockCount := started.blockCount
  narrow _ := by simp [noCursors]
  mapped := started.mapped
  stored id inside := by simpa [noCursors] using started.cursorZero id inside
  storedTail := by simpa [noCursors] using started.tailZero
  ordered := ordered_of_aligned modules (blocks - 2) noCursors (fun _ => rfl)

namespace Represents

variable {modules blocks : Nat} {ring : Ring} {cursors : Cursors}

/-- A position that has been claimed is stored as a small number. -/
theorem stored_lt (represents : Represents modules blocks ring cursors) (positive : 0 < blocks)
    (position : Nat) (claimed : position ≤ cursors.tail) : position % blocks < 2 ^ 27 := by
  by_cases wide : 2 ^ 27 ≤ blocks
  · have small := represents.narrow wide
    have bound := Nat.mod_le position blocks
    omega
  · have bound := Nat.mod_lt position positive
    omega

/-- A stored position that has wrapped belongs to an array of few blocks. -/
theorem narrow_of_wrapped (represents : Represents modules blocks ring cursors)
    (first second : Nat) (ahead : first ≤ second) (claimed : second ≤ cursors.tail)
    (wrapped : second % blocks < first % blocks) : blocks < 2 ^ 27 := by
  by_contra wide
  have small := represents.narrow (by omega)
  rw [Nat.mod_eq_of_lt (by omega), Nat.mod_eq_of_lt (by omega)] at wrapped
  omega

/-- The stored limit of a module stands for the cursor it follows. -/
theorem limPtr_eq (represents : Represents modules blocks ring cursors) (id : Nat)
    (inside : id < modules) : limPtr ring id = limit modules cursors id % blocks := by
  have same : depModId ring.global id = follows modules id := by
    simp only [depModId, follows, represents.registered]
  simp only [limPtr, limit, same]
  split
  · rw [represents.storedTail, represents.blockCount, Nat.mod_mod]
  · apply represents.stored
    simp only [follows]
    split <;> omega

/-- The cursors a module compares are less than one lap apart. -/
theorem limit_within (represents : Represents modules blocks ring cursors) (several : 2 ≤ blocks)
    (id : Nat) (inside : id < modules) :
    limit modules cursors id < cursors.passed id + blocks := by
  have belowTail := represents.ordered.limit_le_tail id inside
  have bounded := represents.ordered.bounded
  have lastBehind := represents.ordered.last_le id inside
  omega

/-- Module 0 exists and is mapped in a ring with modules. -/
theorem module_zero (represents : Represents modules blocks ring cursors) (nonempty : 1 ≤ modules) :
    getModuleInfo ring 0 = some (ring.global.moduleInfo 0) := by
  have valid : checkModValid ring.global 0 = true := by
    simp [checkModValid, maxModuleCount, represents.mapped 0 (by omega)]
  simp [getModuleInfo, valid]

/-- The shared memory after the tail block has been taken. -/
def afterClaim (ring : Ring) (blocks : Nat) (cursors : Cursors) : Ring :=
  (ring.setTailMetaBlk ((cursors.tail + 1) % blocks)).setMetaBlk (cursors.tail % blocks)
    (claimedBlock ring (cursors.tail % blocks))

/-- A claim decides by the cursors: it is refused when the lead is used up or the
block of an earlier lap has not been freed, and takes the tail block otherwise. It
cannot go on where the request for the block array ends. -/
theorem claim_eq (represents : Represents modules blocks ring cursors) (several : 2 ≤ blocks)
    (nonempty : 1 ≤ modules) :
    claimPass ring =
      if cursors.tail = cursors.passed 0 + (blocks - 2) then .full
      else if ¬ blockInside blocks (cursors.tail % blocks) then .trapped
      else if (ring.metaBlk (cursors.tail % blocks)).size ≠ 0 then .busy
      else .claimed (cursors.tail % blocks) (afterClaim ring blocks cursors) := by
  have tailBound := represents.stored_lt (by omega) cursors.tail (Nat.le_refl _)
  have lastBehind := represents.ordered.le_tail 0 (by omega)
  have storedZero : (ring.global.moduleInfo 0).blkPtr = cursors.passed 0 % blocks :=
    represents.stored 0 (by omega)
  have fullIff : (cursors.tail % blocks + 2) % blocks = cursors.passed 0 % blocks ↔
      cursors.tail = cursors.passed 0 + (blocks - 2) :=
    full_mod_iff several lastBehind represents.ordered.bounded
  have notLost : cursors.tail % blocks = ring.global.tailMetaBlk := represents.storedTail.symm
  have next : u32 (cursors.tail % blocks + 1) % blocks = (cursors.tail + 1) % blocks := by
    rw [u32_of_lt (by omega), advance_mod]
  have check : u32 (cursors.tail % blocks + safeDistance) = cursors.tail % blocks + 2 :=
    u32_of_lt (by simp only [safeDistance]; omega)
  simp only [claimPass, represents.module_zero nonempty, represents.blockCount]
  rw [if_neg (by omega), ← notLost, Nat.mod_mod, check, next, storedZero]
  simp only [fullIff, afterClaim, ne_eq, not_true_eq_false, ↓reduceIte]

/-- `GetEmptyMetaBlk` without waiting returns the block at the tail exactly when
there is room and the block is inside the array and free. -/
theorem getEmptyMetaBlk_eq (represents : Represents modules blocks ring cursors)
    (several : 2 ≤ blocks) (nonempty : 1 ≤ modules) :
    getEmptyMetaBlk ring =
      if cursors.tail < cursors.passed 0 + (blocks - 2) ∧
          blockInside blocks (cursors.tail % blocks) = true ∧
          (ring.metaBlk (cursors.tail % blocks)).size = 0 then
        (some (cursors.tail % blocks), afterClaim ring blocks cursors)
      else (none, ring) := by
  have bounded := represents.ordered.bounded
  simp only [getEmptyMetaBlk, represents.claim_eq several nonempty]
  by_cases full : cursors.tail = cursors.passed 0 + (blocks - 2)
  · rw [if_pos full, if_neg (by omega)]
  · by_cases outside : ¬ blockInside blocks (cursors.tail % blocks) = true
    · rw [if_neg full, if_pos outside, if_neg (fun free => outside free.2.1)]
    · by_cases busy : (ring.metaBlk (cursors.tail % blocks)).size ≠ 0
      · rw [if_neg full, if_neg outside, if_pos busy, if_neg (fun free => busy free.2.2)]
      · rw [if_neg full, if_neg outside, if_neg busy,
          if_pos ⟨by omega, not_not.mp outside, not_not.mp busy⟩]

/-- A module moves exactly when its cursor stays at or behind its limit. -/
theorem move_eq (represents : Represents modules blocks ring cursors) (several : 2 ≤ blocks)
    (id count : Nat) (inside : id < modules) (counted : count < 2 ^ 31) :
    move2NextMetaBlk ring id count =
      if cursors.passed id + count ≤ limit modules cursors id then
        ((((cursors.passed id + count) % blocks : Nat) : Int),
          ring.setBlkPtr id ((cursors.passed id + count) % blocks))
      else (-3, ring) := by
  have belowTail := represents.ordered.limit_le_tail id inside
  have behind := represents.ordered.behind id inside
  have within := represents.limit_within several id inside
  have curBound := represents.stored_lt (by omega) (cursors.passed id) (behind.trans belowTail)
  have limBound : limit modules cursors id % blocks < blocks := Nat.mod_lt _ (by omega)
  -- The one-lap correction is exact and stays inside 32 bits.
  have corrected :
      (if limit modules cursors id % blocks < cursors.passed id % blocks then
        u32 (limit modules cursors id % blocks + blocks)
       else limit modules cursors id % blocks) =
      cursors.passed id % blocks + (limit modules cursors id - cursors.passed id) := by
    rw [← lifted_mod behind within, lifted]
    split
    · rename_i wrapped
      have bound := represents.narrow_of_wrapped _ _ behind belowTail wrapped
      exact u32_of_lt (by omega)
    · rfl
  have sum : u32 (cursors.passed id % blocks + count) = cursors.passed id % blocks + count :=
    u32_of_lt (by omega)
  have accepted : cursors.passed id % blocks + count ≤
      cursors.passed id % blocks + (limit modules cursors id - cursors.passed id) ↔
      cursors.passed id + count ≤ limit modules cursors id := by omega
  simp only [move2NextMetaBlk, represents.mapped id inside, not_true_eq_false, ↓reduceIte,
    represents.limPtr_eq id inside, represents.stored id inside, getMetaBlkCount,
    represents.blockCount, corrected, sum, advance_mod, accepted]
  by_cases fits : cursors.passed id + count ≤ limit modules cursors id
  · have codeBound := represents.stored_lt (by omega) _ (fits.trans belowTail)
    rw [if_pos fits, if_pos fits, i32, if_pos (by omega)]
  · rw [if_neg fits, if_neg fits]

/-- `IsRingEmpty` holds exactly when module 0 has passed every claimed block. -/
theorem isRingEmpty_iff (represents : Represents modules blocks ring cursors)
    (several : 2 ≤ blocks) (nonempty : 1 ≤ modules) :
    isRingEmpty ring = true ↔ cursors.tail = cursors.passed 0 := by
  have lastBehind := represents.ordered.le_tail 0 (by omega)
  have bounded := represents.ordered.bounded
  have storedZero : (ring.global.moduleInfo 0).blkPtr = cursors.passed 0 % blocks :=
    represents.stored 0 (by omega)
  simp only [isRingEmpty, represents.module_zero nonempty, represents.storedTail,
    represents.blockCount, Nat.mod_mod, storedZero, beq_iff_eq]
  rw [eq_comm, mod_eq_iff lastBehind (by omega), eq_comm]

/-- Writing a meta block, its size included, moves no cursor. -/
theorem setMetaBlk (represents : Represents modules blocks ring cursors) (position : Nat)
    (block : PktMetaBlk) : Represents modules blocks (ring.setMetaBlk position block) cursors where
  registered := represents.registered
  blockCount := represents.blockCount
  narrow := represents.narrow
  mapped := represents.mapped
  stored := represents.stored
  storedTail := represents.storedTail
  ordered := represents.ordered

/-- A claim with room appends one block to the pipeline. -/
theorem claim (represents : Represents modules blocks ring cursors)
    (room : cursors.tail < cursors.passed 0 + (blocks - 2))
    (inside : blockInside blocks (cursors.tail % blocks) = true) :
    Represents modules blocks (afterClaim ring blocks cursors) cursors.append := by
  apply setMetaBlk
  exact {
    registered := represents.registered
    blockCount := represents.blockCount
    narrow := fun wide => by
      have small := represents.narrow wide
      rw [Nat.mod_eq_of_lt (by omega)] at inside
      exact lt_of_blockInside inside
    mapped := represents.mapped
    stored := represents.stored
    storedTail := rfl
    ordered := represents.ordered.append room }

/-- A successful move advances one stage of the pipeline. -/
theorem move (represents : Represents modules blocks ring cursors) (id count : Nat)
    (within : cursors.passed id + count ≤ limit modules cursors id) :
    Represents modules blocks (ring.setBlkPtr id ((cursors.passed id + count) % blocks))
      (cursors.advance id count) where
  registered := represents.registered
  blockCount := represents.blockCount
  narrow := represents.narrow
  mapped other inside := by simpa using represents.mapped other inside
  stored other inside := by
    by_cases same : other = id
    · subst same
      simp
    · rw [setBlkPtr_other ring id other _ same, advance_passed_other cursors id other count same]
      exact represents.stored other inside
  storedTail := represents.storedTail
  ordered := represents.ordered.advance id count within

end Represents

/-! ## Runs of whole operations -/

/-- One operation on a started ring, taken as one atomic step. -/
inductive RingStep where
  /-- `GetEmptyMetaBlk` with `_wait = false`. -/
  | claim
  /-- A producer gives a block a positive size. -/
  | publish (position size : Nat)
  /-- `Move2NextMetaBlk`. -/
  | move (id count : Nat)
  /-- `FreeFullMetaBlk`. -/
  | free (position : Nat)
deriving DecidableEq

/-- A ring and its history: the number of successful claims, and for each module
the sum of the counts it has successfully moved by. -/
structure Tracked where
  ring : Ring
  cursors : Cursors

/-- Perform one operation and account for its result code. Sizes are positive
32-bit numbers and counts are `int` values that are not negative. -/
def Tracked.step (tracked : Tracked) : RingStep → Option Tracked
  | .claim =>
      match getEmptyMetaBlk tracked.ring with
      | (some _, ring) => some ⟨ring, tracked.cursors.append⟩
      | (none, ring) => some ⟨ring, tracked.cursors⟩
  | .publish position size =>
      if 0 < size ∧ size < 2 ^ 32 then
        some ⟨publishMetaBlk tracked.ring position size, tracked.cursors⟩
      else none
  | .move id count =>
      if id < tracked.ring.global.index ∧ count < 2 ^ 31 then
        match move2NextMetaBlk tracked.ring id count with
        | (code, ring) =>
          some ⟨ring, if 0 ≤ code then tracked.cursors.advance id count else tracked.cursors⟩
      else none
  | .free position => some ⟨freeFullMetaBlk tracked.ring position, tracked.cursors⟩

/-- Every step keeps the representation, whichever module takes it. -/
theorem represents_step {modules blocks : Nat} (several : 2 ≤ blocks) (nonempty : 1 ≤ modules)
    (tracked : Tracked) (label : RingStep) (next : Tracked)
    (represents : Represents modules blocks tracked.ring tracked.cursors)
    (stepped : tracked.step label = some next) :
    Represents modules blocks next.ring next.cursors := by
  cases label with
  | claim =>
    simp only [Tracked.step, represents.getEmptyMetaBlk_eq several nonempty] at stepped
    by_cases free : tracked.cursors.tail < tracked.cursors.passed 0 + (blocks - 2) ∧
        blockInside blocks (tracked.cursors.tail % blocks) = true ∧
        (tracked.ring.metaBlk (tracked.cursors.tail % blocks)).size = 0
    · rw [if_pos free] at stepped
      cases stepped
      exact represents.claim free.1 free.2.1
    · rw [if_neg free] at stepped
      cases stepped
      exact represents
  | publish position size =>
    simp only [Tracked.step] at stepped
    split at stepped
    · cases stepped
      exact represents.setMetaBlk _ _
    · cases stepped
  | move id count =>
    simp only [Tracked.step] at stepped
    split at stepped
    · rename_i allowed
      have inside : id < modules := represents.registered ▸ allowed.1
      rw [represents.move_eq several id count inside allowed.2] at stepped
      by_cases within : tracked.cursors.passed id + count ≤ limit modules tracked.cursors id
      · simp only [within, ↓reduceIte, Int.natCast_nonneg, Option.some.injEq] at stepped
        subst stepped
        exact represents.move id count within
      · simp only [within, ↓reduceIte, Int.reduceNeg, Option.some.injEq] at stepped
        subst stepped
        exact represents
    · cases stepped
  | free position =>
    cases stepped
    exact represents.setMetaBlk _ _

/-- Every state of every run of a started ring represents the cursors of its
history. -/
theorem represents_run {modules blocks : Nat} (several : 2 ≤ blocks) (nonempty : 1 ≤ modules)
    {ring : Ring} (started : Started modules blocks ring) (labels : List RingStep) (final : Tracked)
    (ran : Runs.run Tracked.step ⟨ring, noCursors⟩ labels = some final) :
    Represents modules blocks final.ring final.cursors :=
  Runs.run_invariant Tracked.step
    (fun tracked => Represents modules blocks tracked.ring tracked.cursors)
    (fun tracked label next represents stepped =>
      represents_step several nonempty tracked label next represents stepped)
    ⟨ring, noCursors⟩ final labels started.represents ran

/-! ## The assertions of a claim -/

/-- The assertions of `GetEmptyMetaBlk` hold of whichever block is taken next. -/
def ClaimAsserted (ring : Ring) : Prop := ∀ position, claimAsserts ring position = true

/-- In a started ring no module has a cursor behind which anything was claimed, so that the
assertion holds. -/
theorem Started.claimAsserted {modules blocks : Nat} {ring : Ring}
    (started : Started modules blocks ring) : ClaimAsserted ring := by
  intro position
  rw [claimAsserts, started.cleared position]
  rfl

/-- A block is written with the position and the offset it has, or with those a claim
gives it. -/
theorem ClaimAsserted.setMetaBlk {ring : Ring} (asserted : ClaimAsserted ring) (position : Nat)
    (block : PktMetaBlk)
    (place : block.blkPos = (ring.metaBlk position).blkPos ∨ block.blkPos = position)
    (offset : block.offset = (ring.metaBlk position).offset ∨
      block.offset = u32 (position * ring.global.metaBlkCapacity)) :
    ClaimAsserted (ring.setMetaBlk position block) := by
  intro other
  have before := asserted other
  by_cases same : other = position
  · subst same
    simp only [claimAsserts, Bool.and_eq_true, Bool.or_eq_true, beq_iff_eq, setMetaBlk_self,
      setMetaBlk_global] at before ⊢
    constructor
    · rcases place with kept | written
      · exact kept ▸ before.1
      · exact .inr written
    · rcases offset with kept | written
      · exact kept ▸ before.2
      · exact .inr written
  · rw [claimAsserts, setMetaBlk_other ring position other block same]
    exact before

/-- A pass of `GetEmptyMetaBlk` writes the position and the offset of the block it takes. -/
theorem ClaimAsserted.getEmptyMetaBlk {ring : Ring} (asserted : ClaimAsserted ring) :
    ClaimAsserted (getEmptyMetaBlk ring).2 := by
  simp only [OpenTaker.getEmptyMetaBlk]
  split
  · rename_i position claimed pass
    rw [(claimPass_taken pass).written]
    have moved : ClaimAsserted
        (ring.setTailMetaBlk (u32 (position + 1) % ring.global.metaBlkCount)) := asserted
    exact moved.setMetaBlk position _ (.inr rfl) (.inr rfl)
  · exact asserted

/-- Moving a module writes no block, so that the assertion about the next one stays. -/
theorem ClaimAsserted.move2NextMetaBlk {ring : Ring} (asserted : ClaimAsserted ring)
    (id count : Nat) : ClaimAsserted (move2NextMetaBlk ring id count).2 := by
  simp only [OpenTaker.move2NextMetaBlk]
  split_ifs <;> exact asserted

/-- Every step keeps the assertion of `GetEmptyMetaBlk`, of whichever party it is. -/
theorem claimAsserted_step (tracked : Tracked) (label : RingStep) (next : Tracked)
    (asserted : ClaimAsserted tracked.ring) (stepped : tracked.step label = some next) :
    ClaimAsserted next.ring := by
  cases label with
  | claim =>
    have after := asserted.getEmptyMetaBlk
    simp only [Tracked.step] at stepped
    split at stepped
    · rename_i claimed
      cases stepped
      rw [claimed] at after
      exact after
    · rename_i refused
      cases stepped
      rw [refused] at after
      exact after
  | publish position size =>
    simp only [Tracked.step] at stepped
    split at stepped
    · cases stepped
      exact asserted.setMetaBlk position _ (.inl rfl) (.inl rfl)
    · cases stepped
  | move id count =>
    simp only [Tracked.step] at stepped
    split at stepped
    · cases stepped
      exact asserted.move2NextMetaBlk id count
    · cases stepped
  | free position =>
    cases stepped
    exact asserted.setMetaBlk position _ (.inl rfl) (.inl rfl)

/-- No claim of a run violates an assertion of `GetEmptyMetaBlk`, whichever blocks are
published and freed. -/
theorem claimAsserted_run {modules blocks : Nat} {ring : Ring}
    (started : Started modules blocks ring) (labels : List RingStep) (final : Tracked)
    (ran : Runs.run Tracked.step ⟨ring, noCursors⟩ labels = some final) :
    ClaimAsserted final.ring :=
  Runs.run_invariant Tracked.step (fun tracked => ClaimAsserted tracked.ring)
    claimAsserted_step ⟨ring, noCursors⟩ final labels started.claimAsserted ran

/-! ## The order -/

/-- The order of the ring in its unbounded positions: module 0 is behind the last
module, each module from 2 on is behind the one before it, every module is behind
the tail, and the tail leads module 0 by at most two blocks less than a lap. -/
structure InOrder (modules blocks : Nat) (cursors : Cursors) : Prop where
  lastBehind : cursors.passed 0 ≤ cursors.passed (modules - 1)
  chained : ∀ id, 2 ≤ id → id < modules → cursors.passed id ≤ cursors.passed (id - 1)
  behindTail : ∀ id < modules, cursors.passed id ≤ cursors.tail
  lapped : cursors.tail + 2 ≤ cursors.passed 0 + blocks

/-- The pipeline's order, spelled out for the modules of a ring. -/
theorem inOrder_of_ordered {modules blocks : Nat} {cursors : Cursors} (several : 2 ≤ blocks)
    (nonempty : 1 ≤ modules) (ordered : Ordered modules (blocks - 2) cursors) :
    InOrder modules blocks cursors where
  lastBehind := ordered.last_le (modules - 1) (by omega)
  chained id later inside := by
    have behind := ordered.behind id inside
    rwa [limit_of_later modules cursors id later] at behind
  behindTail := ordered.le_tail
  lapped := by
    have bounded := ordered.bounded
    omega

/-- In every run of a started ring the stored positions are the remainders of
cursors that count the history: the tail counts the claims that returned a block
and a module's cursor sums the counts it was allowed to move by. These cursors
are in ring order, no module passes its limit, and the ring is empty exactly
when module 0 has passed every claimed block. -/
theorem ring_order_along_runs {modules blocks : Nat} {ring : Ring}
    (started : Started modules blocks ring) (nonempty : 1 ≤ modules) (several : 3 ≤ blocks)
    (labels : List RingStep) (final : Tracked)
    (ran : Runs.run Tracked.step ⟨ring, noCursors⟩ labels = some final) :
    InOrder modules blocks final.cursors ∧
      (∀ id < modules, final.ring.blkPtr id = final.cursors.passed id % blocks) ∧
      final.ring.global.tailMetaBlk = final.cursors.tail % blocks ∧
      (isRingEmpty final.ring = true ↔ final.cursors.tail = final.cursors.passed 0) := by
  have represents := represents_run (by omega) nonempty started labels final ran
  exact ⟨inOrder_of_ordered (by omega) nonempty represents.ordered, represents.stored,
    represents.storedTail, represents.isRingEmpty_iff (by omega) nonempty⟩

/-- Two modules over four blocks: a block is claimed, published, passed by both modules in order and
freed, while a second one has been claimed. -/
theorem ring_order_two_modules :
    ∃ final, Runs.run Tracked.step ⟨freshRing 2 4 4 16, noCursors⟩
        [.claim, .publish 0 3, .claim, .move 1 1, .move 0 1, .free 0] = some final ∧
      InOrder 2 4 final.cursors := by
  have completes : (Runs.run Tracked.step ⟨freshRing 2 4 4 16, noCursors⟩
      [.claim, .publish 0 3, .claim, .move 1 1, .move 0 1, .free 0]).isSome = true := by decide
  have ran := (Option.some_get completes).symm
  exact ⟨_, ran, (ring_order_along_runs (freshRing_started 2 4 4 16) (by decide)
    (by decide) _ _ ran).1⟩

end OpenTaker
