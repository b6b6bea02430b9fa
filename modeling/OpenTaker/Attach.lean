import OpenTaker.PacketSpace

/-!
# Attaching to a running ring

`InitRing` does not distinguish a first start from a restart or a late join: once
the meta pool is mapped it rewinds the module's `packetPtr`, and once the block
array is mapped its `blkPtr`, and a new name always extends the module table. On
a ring that is running this takes back the position of a module that restarts,
and puts a new module, which module 0 will follow from then on, at position 0.

The result below says exactly which calls leave a running ring alone.
-/

namespace OpenTaker

open CursorPipeline CyclicPositions

/-! ## Running rings -/

/-- One operation on a running ring, on its blocks or on its packets. -/
inductive LiveStep where
  | ring (label : RingStep)
  /-- `GetNextMetaSpace` with `_wait = false`. -/
  | takeSpace
  /-- `MoveToNextPacket`. -/
  | movePackets (id count : Nat)

/-- Perform one operation on a ring that is in use: a step of the parties, or an attach of another
module. -/
def Tracked.live (tracked : Tracked) : LiveStep → Option Tracked
  | .ring label => tracked.step label
  | .takeSpace => some ⟨(getNextMetaSpace tracked.ring).2, tracked.cursors⟩
  | .movePackets id count =>
      if id < tracked.ring.global.index ∧ count < 2 ^ 31 then
        some ⟨(moveToNextPacket tracked.ring id count).2, tracked.cursors⟩
      else none

/-- Each step of a live ring keeps it represented, attaches of known modules included. -/
theorem represents_live_step {modules blocks : Nat} (several : 2 ≤ blocks) (nonempty : 1 ≤ modules)
    (tracked : Tracked) (label : LiveStep) (next : Tracked)
    (represents : Represents modules blocks tracked.ring tracked.cursors)
    (stepped : tracked.live label = some next) :
    Represents modules blocks next.ring next.cursors := by
  cases label with
  | ring label => exact represents_step several nonempty tracked label next represents stepped
  | takeSpace =>
    cases stepped
    exact represents.getNextMetaSpace
  | movePackets id count =>
    simp only [Tracked.live] at stepped
    split at stepped
    · cases stepped
      exact represents.moveToNextPacket id count
    · cases stepped

/-- So the ring represents its cursors after every run of such steps. -/
theorem represents_live_run {modules blocks : Nat} (several : 2 ≤ blocks) (nonempty : 1 ≤ modules)
    {ring : Ring} (started : Started modules blocks ring) (labels : List LiveStep) (final : Tracked)
    (ran : Runs.run Tracked.live ⟨ring, noCursors⟩ labels = some final) :
    Represents modules blocks final.ring final.cursors :=
  Runs.run_invariant Tracked.live
    (fun tracked => Represents modules blocks tracked.ring tracked.cursors)
    (fun tracked label next represents stepped =>
      represents_live_step several nonempty tracked label next represents stepped)
    ⟨ring, noCursors⟩ final labels started.represents ran

/-! ## What attaching leaves unchanged -/

/-- The registered modules have table entries, and there are unwrapped positions
in ring order that the stored ones stand for. -/
def RingOrder (blocks : Nat) (ring : Ring) : Prop :=
  ring.global.index ≤ maxModuleCount ∧
    ∃ cursors : Cursors, InOrder ring.global.index blocks cursors ∧
      (∀ id < ring.global.index, ring.blkPtr id = cursors.passed id % blocks) ∧
      ring.global.tailMetaBlk = cursors.tail % blocks

/-- A registered module reads on where it was, and the ring is still in order. -/
structure Undisturbed (blocks : Nat) (before after : Ring) : Prop where
  cursors : ∀ id < before.global.index,
    after.blkPtr id = before.blkPtr id ∧ after.packetPtr id = before.packetPtr id
  order : RingOrder blocks after

/-- The block view and the meta pool are mapped. -/
def mapsPool (call : InitCall) (ring : Ring) : Bool :=
  (call.create .block (u64 (ring.global.blockSize + pageSize))).isSome &&
    (call.create .metaPool ring.global.metaPoolSize).isSome

/-- An attach that maps all three memories: the block array too, which is asked for last. -/
def mapsAll (call : InitCall) (ring : Ring) : Bool :=
  mapsPool call ring && (call.create .metaBlk (metaBlockSize ring.global)).isSome

/-- The stored position of what a new module will follow. -/
def joinPtr (ring : Ring) : Nat :=
  if ring.global.index = 1 then ring.global.tailMetaBlk else ring.blkPtr (ring.global.index - 1)

/-- The calls that leave a running ring alone. A module that restarts must not have
moved any cursor that the call gets as far as to rewind; a new module needs an
entry, and position 0 must lie between module 0 and what the new module follows. -/
def Harmless (call : InitCall) (ring : Ring) : Prop :=
  ∀ name, (call.create .global sizeofGlobal).isSome = true → call.moduleName = some name →
    match findModule ring.global (some name) with
    | some index => index < ring.global.index →
        (mapsPool call ring = true → ring.packetPtr index = 0) ∧
          (mapsAll call ring = true → ring.blkPtr index = 0)
    | none => mapsAll call ring = true → ring.global.index < maxModuleCount ∧
        (ring.blkPtr 0 = 0 ∨ joinPtr ring < ring.blkPtr 0)

/-- The effect of attaching on the positions and on the module count. -/
theorem attachModule_effect (call : InitCall) (name : CString) (index : Nat) (created : Bool)
    (ring : Ring) :
    (∀ other, other ≠ index → (attachModule call name index created ring).2.global.moduleInfo other =
      ring.global.moduleInfo other) ∧
    (attachModule call name index created ring).2.global.tailMetaBlk = ring.global.tailMetaBlk ∧
    (attachModule call name index created ring).2.global.index =
      (if mapsAll call ring && created then ring.global.index + 1 else ring.global.index) ∧
    (attachModule call name index created ring).2.packetPtr index =
      (if mapsPool call ring then 0 else ring.packetPtr index) ∧
    (attachModule call name index created ring).2.blkPtr index =
      (if mapsAll call ring then 0 else ring.blkPtr index) := by
  obtain ⟨first, firstBlk, firstPacket, -, firstMaps⟩ := mapBlockView_spec call name index ring
  simp only [attachModule]
  generalize mapBlockView call name index ring = stage at first firstBlk firstPacket firstMaps
  obtain ⟨_ | _, afterBlock⟩ := stage
  · have refused : mapsPool call ring = false := by simp only [mapsPool, ← firstMaps, Bool.false_and]
    simp only [mapsAll, refused, Bool.false_and, Bool.false_eq_true, ↓reduceIte]
    exact ⟨first.others, first.tail, first.registered, firstPacket, firstBlk⟩
  obtain ⟨second, secondBlk, -, secondPacket, -, secondMaps⟩ := mapMetaView_spec call index afterBlock
  simp only
  generalize mapMetaView call index afterBlock = stage at second secondBlk secondPacket secondMaps
  have poolMaps : mapsPool call ring = stage.1 := by
    rw [secondMaps, first.poolSize, mapsPool, ← firstMaps, Bool.true_and]
  obtain ⟨_ | _, afterMeta⟩ := stage
  · have both := first.trans second
    simp only [mapsAll, poolMaps, Bool.false_and, Bool.false_eq_true, ↓reduceIte]
    exact ⟨both.others, both.tail, both.registered, secondPacket.trans firstPacket,
      secondBlk.trans firstBlk⟩
  obtain ⟨third, thirdBlk, thirdPacket, -, thirdMaps⟩ := mapMetaBlkView_spec call index afterMeta
  simp only
  generalize mapMetaBlkView call index afterMeta = stage at third thirdBlk thirdPacket thirdMaps
  have both := first.trans second
  have allMaps : mapsAll call ring = stage.1 := by
    rw [thirdMaps, mapsAll, poolMaps, metaBlockSize, metaBlockSize, both.blockCount, Bool.true_and]
  have whole := both.trans third
  have rewoundPacket : stage.2.packetPtr index = 0 := thirdPacket.trans secondPacket
  obtain ⟨_ | _, afterBlk⟩ := stage
  · simp only [allMaps, poolMaps, Bool.false_and, Bool.false_eq_true, ↓reduceIte]
    exact ⟨whole.others, whole.tail, whole.registered, rewoundPacket,
      thirdBlk.trans (secondBlk.trans firstBlk)⟩
  · simp only [allMaps, poolMaps, Bool.true_and, ↓reduceIte]
    refine ⟨whole.others, whole.tail, ?_, rewoundPacket, thirdBlk⟩
    rw [← whole.registered]
    rfl

namespace Represents

variable {modules blocks : Nat} {ring next : Ring} {cursors : Cursors}

/-- Memory that agrees on the module count and the block positions is in order too. -/
theorem ringOrder (represents : Represents modules blocks ring cursors) (several : 2 ≤ blocks)
    (nonempty : 1 ≤ modules) (table : modules ≤ maxModuleCount)
    (registered : next.global.index = ring.global.index)
    (stored : ∀ id < modules, next.blkPtr id = ring.blkPtr id)
    (tail : next.global.tailMetaBlk = ring.global.tailMetaBlk) : RingOrder blocks next := by
  rw [represents.registered] at registered
  refine ⟨registered ▸ table, cursors, ?_, ?_, tail.trans represents.storedTail⟩
  · rw [registered]
    exact inOrder_of_ordered several nonempty represents.ordered
  · intro id inside
    rw [registered] at inside
    rw [stored id inside, represents.stored id inside]

/-- The cursor of what a new module would follow. -/
theorem joinPtr_eq (represents : Represents modules blocks ring cursors) (nonempty : 1 ≤ modules) :
    joinPtr ring = (if modules = 1 then cursors.tail else cursors.passed (modules - 1)) % blocks := by
  simp only [joinPtr, represents.registered]
  split
  · exact represents.storedTail
  · exact represents.stored (modules - 1) (by omega)

/-- One more module at position 0 is in ring order exactly when the table has room
and the ring starts over between module 0 and what the new module follows. -/
theorem ringOrder_join_iff (represents : Represents modules blocks ring cursors)
    (several : 2 ≤ blocks) (nonempty : 1 ≤ modules)
    (registered : next.global.index = modules + 1)
    (stored : ∀ id < modules, next.blkPtr id = ring.blkPtr id) (joined : next.blkPtr modules = 0)
    (tail : next.global.tailMetaBlk = ring.global.tailMetaBlk) :
    RingOrder blocks next ↔
      modules < maxModuleCount ∧ (ring.blkPtr 0 = 0 ∨ joinPtr ring < ring.blkPtr 0) := by
  have inOrder := inOrder_of_ordered several nonempty represents.ordered
  rw [represents.joinPtr_eq nonempty, represents.stored 0 (by omega), RingOrder, registered]
  apply and_congr (by omega)
  constructor
  · rintro ⟨unwrapped, order, positions, tailPosition⟩
    have atZero := positions modules (by omega)
    have first := positions 0 (by omega)
    rw [stored 0 (by omega), represents.stored 0 (by omega)] at first
    rw [tail, represents.storedTail] at tailPosition
    have lapped := order.lapped
    have behindFollowed : unwrapped.passed modules ≤
        if modules = 1 then unwrapped.tail else unwrapped.passed (modules - 1) := by
      split
      · exact order.behindTail modules (by omega)
      · exact order.chained modules (by omega) (by omega)
    have followedBehind : (if modules = 1 then unwrapped.tail else unwrapped.passed (modules - 1)) ≤
        unwrapped.tail := by
      split
      · exact Nat.le_refl _
      · exact order.behindTail (modules - 1) (by omega)
    have followed : (if modules = 1 then cursors.tail else cursors.passed (modules - 1)) % blocks =
        (if modules = 1 then unwrapped.tail else unwrapped.passed (modules - 1)) % blocks := by
      split
      · exact tailPosition
      · have last := positions (modules - 1) (by omega)
        rwa [stored _ (by omega), represents.stored _ (by omega)] at last
    rw [first, followed]
    have lastBehind := order.lastBehind
    rw [Nat.add_sub_cancel] at lastBehind
    exact (starts_over_iff (lastBehind.trans behindFollowed) (by omega)).mp
      ⟨unwrapped.passed modules, lastBehind, behindFollowed, atZero.symm.trans joined⟩
  · intro startsOver
    have lapped := inOrder.lapped
    have lastBehind := inOrder.lastBehind
    have topBehind := inOrder.behindTail (modules - 1) (by omega)
    have ahead : cursors.passed 0 ≤
        if modules = 1 then cursors.tail else cursors.passed (modules - 1) := by
      split <;> omega
    have within : (if modules = 1 then cursors.tail else cursors.passed (modules - 1)) <
        cursors.passed 0 + blocks := by
      split <;> omega
    obtain ⟨middle, after, before, zero⟩ := (starts_over_iff ahead within).mpr startsOver
    -- The new module stands where the ring starts over, the others stay.
    have others : ∀ id < modules, Function.update cursors.passed modules middle id =
        cursors.passed id := fun id inside => Function.update_of_ne (by omega) _ _
    have self : Function.update cursors.passed modules middle modules = middle :=
      Function.update_self _ _ _
    refine ⟨{ cursors with passed := Function.update cursors.passed modules middle }, ?_, ?_,
      tail.trans represents.storedTail⟩
    · constructor
      case lastBehind => simp only [Nat.add_sub_cancel, self, others 0 (by omega), after]
      case chained =>
        intro id later inside
        by_cases newest : id = modules
        · subst newest
          rw [if_neg (by omega)] at before
          simp only [self, others (id - 1) (by omega), before]
        · simp only [others id (by omega), others (id - 1) (by omega)]
          exact inOrder.chained id later (by omega)
      case behindTail =>
        intro id inside
        by_cases newest : id = modules
        · subst newest
          simp only [self]
          refine before.trans ?_
          split <;> omega
        · simp only [others id (by omega)]
          exact inOrder.behindTail id (by omega)
      case lapped =>
        simp only [others 0 (by omega)]
        exact lapped
    · intro id inside
      by_cases newest : id = modules
      · subst newest
        simp only [self, joined, zero]
      · simp only [others id (by omega)]
        rw [stored id (by omega), represents.stored id (by omega)]

/-- Attaching under a name that is found leaves the ring alone exactly when the
cursors it rewinds have not moved, or belong to no registered module. -/
theorem undisturbed_restart_iff (represents : Represents modules blocks ring cursors)
    (several : 2 ≤ blocks) (nonempty : 1 ≤ modules) (table : modules ≤ maxModuleCount)
    (call : InitCall) (name : CString) (index : Nat) :
    Undisturbed blocks ring (attachModule call name index false ring).2 ↔
      (index < ring.global.index → (mapsPool call ring = true → ring.packetPtr index = 0) ∧
        (mapsAll call ring = true → ring.blkPtr index = 0)) := by
  obtain ⟨others, tail, registered, packetPtr, blkPtr⟩ :=
    attachModule_effect call name index false ring
  simp only [Bool.and_false, Bool.false_eq_true, ↓reduceIte] at registered
  constructor
  · intro undisturbed inside
    obtain ⟨block, packet⟩ := undisturbed.cursors index inside
    rw [blkPtr] at block
    rw [packetPtr] at packet
    constructor
    · intro pool
      rw [← packet, if_pos pool]
    · intro all
      rw [← block, if_pos all]
  · intro unmoved
    have same : ∀ id < ring.global.index,
        (attachModule call name index false ring).2.blkPtr id = ring.blkPtr id ∧
          (attachModule call name index false ring).2.packetPtr id = ring.packetPtr id := by
      intro id inside
      by_cases rewound : id = index
      · subst rewound
        obtain ⟨packetZero, blockZero⟩ := unmoved inside
        rw [blkPtr, packetPtr]
        constructor
        · split
          · exact (blockZero (by assumption)).symm
          · rfl
        · split
          · exact (packetZero (by assumption)).symm
          · rfl
      · simp only [Ring.blkPtr, Ring.packetPtr, others id rewound, and_self]
    refine ⟨same, represents.ringOrder several nonempty table registered ?_ tail⟩
    intro id inside
    exact (same id (represents.registered ▸ inside)).1

/-- Attaching under a new name leaves the ring alone exactly when it stops early or
the new module is in order at position 0. -/
theorem undisturbed_join_iff (represents : Represents modules blocks ring cursors)
    (several : 2 ≤ blocks) (nonempty : 1 ≤ modules) (table : modules ≤ maxModuleCount)
    (call : InitCall) (name : CString) :
    Undisturbed blocks ring (attachModule call name ring.global.index true ring).2 ↔
      (mapsAll call ring = true → ring.global.index < maxModuleCount ∧
        (ring.blkPtr 0 = 0 ∨ joinPtr ring < ring.blkPtr 0)) := by
  obtain ⟨others, tail, registered, -, blkPtr⟩ :=
    attachModule_effect call name ring.global.index true ring
  have same : ∀ id < ring.global.index,
      (attachModule call name ring.global.index true ring).2.blkPtr id = ring.blkPtr id ∧
        (attachModule call name ring.global.index true ring).2.packetPtr id =
          ring.packetPtr id := by
    intro id inside
    simp only [Ring.blkPtr, Ring.packetPtr, others id (by omega), and_self]
  have stored : ∀ id < modules,
      (attachModule call name ring.global.index true ring).2.blkPtr id = ring.blkPtr id :=
    fun id inside => (same id (represents.registered ▸ inside)).1
  have whole : Undisturbed blocks ring (attachModule call name ring.global.index true ring).2 ↔
      RingOrder blocks (attachModule call name ring.global.index true ring).2 :=
    ⟨fun undisturbed => undisturbed.order, fun order => ⟨same, order⟩⟩
  rw [whole]
  cases all : mapsAll call ring with
  | false =>
    simp only [all, Bool.false_and, Bool.false_eq_true, ↓reduceIte] at registered
    simp only [Bool.false_eq_true, false_implies, iff_true]
    exact represents.ringOrder several nonempty table registered stored tail
  | true =>
    simp only [all, Bool.true_and, ↓reduceIte] at registered blkPtr
    rw [represents.registered] at registered blkPtr stored tail
    simp only [represents.registered, forall_const]
    exact represents.ringOrder_join_iff several nonempty registered stored blkPtr tail

end Represents

/-- On a running ring the calls of `InitRing` without reset that keep every read
position and the order of the ring are exactly the harmless ones. -/
theorem attach_undisturbed_iff {modules blocks : Nat} {ring : Ring}
    (started : Started modules blocks ring) (nonempty : 1 ≤ modules) (several : 2 ≤ blocks)
    (table : modules ≤ maxModuleCount) (labels : List LiveStep) (final : Tracked)
    (ran : Runs.run Tracked.live ⟨ring, noCursors⟩ labels = some final)
    (call : InitCall) (joins : call.reset = false) :
    Undisturbed blocks final.ring (initRing call final.ring).2 ↔ Harmless call final.ring := by
  have represents := represents_live_run several nonempty started labels final ran
  have unopened : openRing call final.ring = final.ring := by
    have running : final.ring.global.index ≠ 0 := by
      rw [represents.registered]
      omega
    simp [openRing, joins, running]
  have unchanged : Undisturbed blocks final.ring final.ring :=
    ⟨fun _ _ => ⟨rfl, rfl⟩,
      represents.ringOrder several nonempty table rfl (fun _ _ => rfl) rfl⟩
  simp only [initRing, unopened, Harmless]
  cases call.create .global sizeofGlobal with
  | none => simpa using unchanged
  | some header =>
    cases call.moduleName with
    | none => simpa using unchanged
    | some name =>
      simp only [Option.isSome_some, forall_const, Option.some.injEq, forall_eq']
      cases findModule final.ring.global (some name) with
      | some index => exact represents.undisturbed_restart_iff several nonempty table call name index
      | none => exact represents.undisturbed_join_iff several nonempty table call name

/-- A call of a module named `A` for a ring of 16 slots in four blocks. -/
def smallCall : InitCall where
  create := grantPossible
  moduleName := some nameA
  blockSize := 1000
  capacity := 4
  reset := false

/-- The condition is meant for rings in use: here a new module joins two others. -/
theorem attach_undisturbed_iff_two_modules :
    ∃ final, Runs.run Tracked.live ⟨freshRing 2 4 4 16, noCursors⟩
        [.ring .claim, .ring (.publish 0 3), .ring (.move 1 1), .takeSpace, .movePackets 1 1] =
          some final ∧
      (Undisturbed 4 final.ring (initRing smallCall final.ring).2 ↔
        Harmless smallCall final.ring) := by
  have completes : (Runs.run Tracked.live ⟨freshRing 2 4 4 16, noCursors⟩
      [.ring .claim, .ring (.publish 0 3), .ring (.move 1 1), .takeSpace,
        .movePackets 1 1]).isSome = true := by decide
  have ran := (Option.some_get completes).symm
  exact ⟨_, ran, attach_undisturbed_iff (freshRing_started 2 4 4 16) (by decide)
    (by decide) (by decide) _ _ ran smallCall rfl⟩

/-- The only module of a ring claims, publishes and passes a block and restarts: its cursor is taken
back from 1 to 0, to a block that it has passed. -/
theorem restart_rewinds_module :
    ∃ ring final, startWork (initRing smallCall Ring.zero).2 = some ring ∧
      Runs.run Tracked.live ⟨ring, noCursors⟩
        [.ring .claim, .ring (.publish 0 3), .ring (.move 0 1)] = some final ∧
      ¬ Undisturbed 4 final.ring (initRing smallCall final.ring).2 := by
  obtain ⟨ring, works, passed⟩ := (Option.any_eq_true _ _).mp
    (show (startWork (initRing smallCall Ring.zero).2).any (fun ring =>
      (Runs.run Tracked.live ⟨ring, noCursors⟩
        [.ring .claim, .ring (.publish 0 3), .ring (.move 0 1)]).any (fun final =>
          decide (0 < final.ring.global.index ∧ final.ring.blkPtr 0 = 1 ∧
            (initRing smallCall final.ring).2.blkPtr 0 = 0))) = true by decide)
  obtain ⟨final, ran, registered, before, after⟩ := Runs.run_reaches _ _ _ _ passed
  refine ⟨ring, final, works, ran, fun undisturbed => ?_⟩
  have kept := (undisturbed.cursors 0 registered).1
  omega

end OpenTaker
