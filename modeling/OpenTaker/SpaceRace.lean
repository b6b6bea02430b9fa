import OpenTaker.PacketSpace

/-!
# Packet slots under concurrent producers

`GetNextMetaSpace` tests for a full ring and then increments the tail, as two
separate accesses, and `MoveToNextPacket` advances a module's cursor by two
separate writes: it adds the count and then masks the sum. Any number of
producers and all modules run here with these accesses interleaved.

Two things can go wrong. A producer that is overtaken by another between its test
and its increment hands out a slot the test did not account for, and may close
the ring up on module 0. A move that reaches the end of the ring shows the sum
before it is masked. Runs without either keep the cursors in order.
-/

namespace OpenTaker

open CursorPipeline CyclicPositions

/-- Where a producer stands in `GetNextMetaSpace`. The number of slots handed out at
its load of the tail is kept for the history only. -/
inductive SpacePc where
  | start
  | loadedTail (tailPos seen : Nat)
  | tested (seen : Nat)
  | taken (tailPos : Nat)
deriving DecidableEq

/-- Where a module stands in `MoveToNextPacket`: it has loaded its limit, or has added to its cursor
and not masked it yet. -/
inductive MovePc where
  | idle
  | loadedLimit (limPtr count : Nat)
  | added
deriving DecidableEq

/-- The ring and its parties. The cursors count the slots handed out and the packets
each module has passed. -/
structure SpaceRace where
  ring : Ring
  cursors : Cursors
  producers : Nat → SpacePc
  movers : Nat → MovePc

/-- A started ring with idle parties, on which no slot was given out. -/
def SpaceRace.start (ring : Ring) : SpaceRace where
  ring := ring
  cursors := noCursors
  producers := fun _ => .start
  movers := fun _ => .idle

/-- One atomic step: an access of a producer or of a module, or a slot that gets its length. -/
inductive SpaceStep where
  /-- The next access of a producer inside `GetNextMetaSpace`. -/
  | access (producer : Nat) (wait : Bool)
  /-- A module calls `MoveToNextPacket` and loads its limit. -/
  | load (id count : Nat)
  /-- The next write of a module inside `MoveToNextPacket`. -/
  | write (id : Nat)
  /-- Any party writes the packet length of a slot. -/
  | fill (slot pktLen : Nat)

/-- Leave the producer at another place of its function. -/
def SpaceRace.produce (state : SpaceRace) (producer : Nat) (pc : SpacePc) : SpaceRace :=
  { state with producers := Function.update state.producers producer pc }

/-- Leave the module at another place of its function. -/
def SpaceRace.goto (state : SpaceRace) (id : Nat) (pc : MovePc) : SpaceRace :=
  { state with movers := Function.update state.movers id pc }

/-- The next access of a producer, by the place where it stands. -/
def SpaceRace.access (state : SpaceRace) (producer : Nat) (wait : Bool) : SpaceRace :=
  let global := state.ring.global
  match state.producers producer with
  | .start =>
      state.produce producer (.loadedTail (global.tailPacket &&& global.metaCount) state.cursors.tail)
  | .loadedTail tailPos seen =>
      if u32 (tailPos + 1) &&& global.metaCount = state.ring.packetPtr 0 then
        state.produce producer .start
      else state.produce producer (.tested seen)
  | .tested _ =>
      { state.produce producer (.taken (global.tailPacket &&& global.metaCount)) with
        ring := state.ring.setTailPacket (u32 (global.tailPacket + 1))
        cursors := state.cursors.append }
  | .taken tailPos =>
      if (state.ring.packetMeta (metaSlot state.ring tailPos)).basicAttr.pktLen ≠ 0 ∧ wait then state
      else state.produce producer .start

/-- The limit a module compares with, after the one-lap correction. -/
def liftedLimit (ring : Ring) (id limPtr : Nat) : Nat :=
  if limPtr < ring.packetPtr id then u32 (limPtr + getMetaCount ring) else limPtr

/-- Perform one step, of a party that is there and may take it. -/
def SpaceRace.step (state : SpaceRace) : SpaceStep → Option SpaceRace
  | .access producer wait => some (state.access producer wait)
  | .load id count =>
      if id < state.ring.global.index ∧ count < 2 ^ 31 ∧ state.movers id = .idle then
        if ¬ (state.ring.global.moduleInfo id).mapped then some state
        else some (state.goto id (.loadedLimit (limPacketPtr state.ring id) count))
      else none
  | .write id =>
      match state.movers id with
      | .idle => none
      | .loadedLimit limPtr count =>
          if u32 (state.ring.packetPtr id + count) ≤ liftedLimit state.ring id limPtr then
            some { state.goto id .added with
              ring := state.ring.setPacketPtr id (u32 (state.ring.packetPtr id + count))
              cursors := state.cursors.advance id count }
          else some (state.goto id .idle)
      | .added =>
          some { state.goto id .idle with
            ring := state.ring.setPacketPtr id
              (state.ring.packetPtr id &&& state.ring.global.metaCount) }
  | .fill slot pktLen => some { state with ring := state.ring.setPktLen slot pktLen }

/-- The step is the increment of a producer that another one has overtaken since its
load of the tail. -/
def SpaceRace.overtaken (state : SpaceRace) : SpaceStep → Bool
  | .access producer _ =>
      match state.producers producer with
      | .tested seen => decide (seen ≠ state.cursors.tail)
      | _ => false
  | _ => false

/-- The step adds to a cursor up to the end of the ring or beyond it. -/
def SpaceRace.reachesEnd (state : SpaceRace) : SpaceStep → Bool
  | .write id =>
      match state.movers id with
      | .loadedLimit limPtr count =>
          decide (u32 (state.ring.packetPtr id + count) ≤ liftedLimit state.ring id limPtr ∧
            getMetaCount state.ring ≤ u32 (state.ring.packetPtr id + count))
      | _ => false
  | _ => false

/-- The step loads a cursor of another party that is not below the end of the ring. -/
def SpaceRace.readsUnmasked (state : SpaceRace) : SpaceStep → Bool
  | .access producer _ =>
      match state.producers producer with
      | .loadedTail _ _ => decide (getMetaCount state.ring ≤ state.ring.packetPtr 0)
      | _ => false
  | .load id _ => decide (getMetaCount state.ring ≤ limPacketPtr state.ring id)
  | _ => false

/-! ## What a step can do -/

/-- What a step does, one case for each way on: where its party stands in front of it, what the party
finds, and what it leaves behind. -/
inductive SpaceMove (state : SpaceRace) : SpaceStep → SpaceRace → Prop where
  | loadedTail (producer : Nat) (wait : Bool) (place : state.producers producer = .start) :
      SpaceMove state (.access producer wait) (state.produce producer
        (.loadedTail (state.ring.global.tailPacket &&& state.ring.global.metaCount) state.cursors.tail))
  | foundFull (producer : Nat) (wait : Bool) (tailPos seen : Nat)
      (place : state.producers producer = .loadedTail tailPos seen)
      (full : u32 (tailPos + 1) &&& state.ring.global.metaCount = state.ring.packetPtr 0) :
      SpaceMove state (.access producer wait) (state.produce producer .start)
  | foundRoom (producer : Nat) (wait : Bool) (tailPos seen : Nat)
      (place : state.producers producer = .loadedTail tailPos seen)
      (notFull : ¬ u32 (tailPos + 1) &&& state.ring.global.metaCount = state.ring.packetPtr 0) :
      SpaceMove state (.access producer wait) (state.produce producer (.tested seen))
  | took (producer : Nat) (wait : Bool) (seen : Nat) (place : state.producers producer = .tested seen) :
      SpaceMove state (.access producer wait)
        { state.produce producer (.taken (state.ring.global.tailPacket &&& state.ring.global.metaCount)) with
          ring := state.ring.setTailPacket (u32 (state.ring.global.tailPacket + 1))
          cursors := state.cursors.append }
  | waited (producer : Nat) (wait : Bool) (tailPos : Nat) (place : state.producers producer = .taken tailPos)
      (busy : (state.ring.packetMeta (metaSlot state.ring tailPos)).basicAttr.pktLen ≠ 0 ∧ wait) :
      SpaceMove state (.access producer wait) state
  | returned (producer : Nat) (wait : Bool) (tailPos : Nat) (place : state.producers producer = .taken tailPos)
      (goes : ¬ ((state.ring.packetMeta (metaSlot state.ring tailPos)).basicAttr.pktLen ≠ 0 ∧ wait)) :
      SpaceMove state (.access producer wait) (state.produce producer .start)
  | unmapped (id count : Nat)
      (allowed : id < state.ring.global.index ∧ count < 2 ^ 31 ∧ state.movers id = .idle)
      (notMapped : ¬ (state.ring.global.moduleInfo id).mapped) : SpaceMove state (.load id count) state
  | loadedLimit (id count : Nat)
      (allowed : id < state.ring.global.index ∧ count < 2 ^ 31 ∧ state.movers id = .idle)
      (mapped : (state.ring.global.moduleInfo id).mapped = true) :
      SpaceMove state (.load id count) (state.goto id (.loadedLimit (limPacketPtr state.ring id) count))
  | added (id limPtr count : Nat) (place : state.movers id = .loadedLimit limPtr count)
      (fits : u32 (state.ring.packetPtr id + count) ≤ liftedLimit state.ring id limPtr) :
      SpaceMove state (.write id)
        { state.goto id .added with
          ring := state.ring.setPacketPtr id (u32 (state.ring.packetPtr id + count))
          cursors := state.cursors.advance id count }
  | refused (id limPtr count : Nat) (place : state.movers id = .loadedLimit limPtr count)
      (beyond : ¬ u32 (state.ring.packetPtr id + count) ≤ liftedLimit state.ring id limPtr) :
      SpaceMove state (.write id) (state.goto id .idle)
  | masked (id : Nat) (place : state.movers id = .added) :
      SpaceMove state (.write id)
        { state.goto id .idle with
          ring := state.ring.setPacketPtr id (state.ring.packetPtr id &&& state.ring.global.metaCount) }
  | filled (slot pktLen : Nat) :
      SpaceMove state (.fill slot pktLen) { state with ring := state.ring.setPktLen slot pktLen }

/-- Each access of a producer is one of these moves, by the place where it stands. -/
theorem SpaceRace.access_move (state : SpaceRace) (producer : Nat) (wait : Bool) :
    SpaceMove state (.access producer wait) (state.access producer wait) := by
  cases place : state.producers producer with
  | start =>
    simp only [SpaceRace.access, place]
    exact .loadedTail producer wait place
  | loadedTail tailPos seen =>
    simp only [SpaceRace.access, place]
    split
    · rename_i full
      exact .foundFull producer wait tailPos seen place full
    · rename_i notFull
      exact .foundRoom producer wait tailPos seen place notFull
  | tested seen =>
    simp only [SpaceRace.access, place]
    exact .took producer wait seen place
  | taken tailPos =>
    simp only [SpaceRace.access, place]
    split
    · rename_i busy
      exact .waited producer wait tailPos place busy
    · rename_i goes
      exact .returned producer wait tailPos place goes

/-- Each step is one of these moves. What is shown of all steps is shown on them. -/
theorem SpaceRace.step_move {state next : SpaceRace} {label : SpaceStep}
    (stepped : state.step label = some next) : SpaceMove state label next := by
  cases label with
  | access producer wait =>
    cases stepped
    exact state.access_move producer wait
  | load id count =>
    obtain ⟨allowed, loads⟩ := Option.ite_none_right_eq_some.mp stepped
    split at loads
    · rename_i notMapped
      cases loads
      exact .unmapped id count allowed notMapped
    · rename_i mapped
      cases loads
      exact .loadedLimit id count allowed (not_not.mp mapped)
  | write id =>
    cases place : state.movers id with
    | idle => simp [SpaceRace.step, place] at stepped
    | loadedLimit limPtr count =>
      simp only [SpaceRace.step, place] at stepped
      split at stepped
      · rename_i fits
        cases stepped
        exact .added id limPtr count place fits
      · rename_i beyond
        cases stepped
        exact .refused id limPtr count place beyond
    | added =>
      simp only [SpaceRace.step, place] at stepped
      cases stepped
      exact .masked id place
  | fill slot pktLen =>
    cases stepped
    exact .filled slot pktLen

/-! ## The invariant -/

/-- A ring after `StartWork` with a power of two of slots. -/
structure StartedSpace (modules bits : Nat) (ring : Ring) : Prop where
  registered : ring.global.index = modules
  mask : ring.global.metaCount = 2 ^ bits - 1
  narrow : bits ≤ 31
  packetZero : ∀ id < modules, ring.packetPtr id = 0
  tailZero : ring.global.tailPacket = 0

/-- `StartWork` on a ring that has only been set up starts the packet positions too. -/
theorem startedSpace_of_startWork {ring next : Ring} {bits : Nat} (setUp : SetUp ring)
    (works : startWork ring = some next) (slots : getMetaCount next = 2 ^ bits) :
    StartedSpace next.global.index bits next := by
  have narrowCount : next.global.metaCount < 2 ^ 32 := by
    simp only [startWork] at works
    split at works
    · cases works
    · cases works
      exact u32_lt _
  have whole : next.global.metaCount + 1 = 2 ^ bits := by
    simp only [getMetaCount, u32] at slots
    have positive := Nat.two_pow_pos bits
    omega
  have narrow : bits ≤ 31 := by
    have bound : 2 ^ bits < 2 ^ 32 := by
      rw [← slots]
      exact u32_lt _
    have below := (Nat.pow_lt_pow_iff_right (by decide)).mp bound
    omega
  obtain ⟨-, metaSize, metaCount, rfl⟩ := startWork_some works
  exact ⟨rfl, by omega, narrow, setUp.packetZero, setUp.tailPacketZero⟩

/-- What a producer's loads say about the present state. -/
def Tested (slots : Nat) (cursors : Cursors) : SpacePc → Prop
  | .loadedTail tailPos seen => tailPos = seen % slots ∧ seen ≤ cursors.tail
  | .tested seen => seen ≤ cursors.tail ∧
      (seen = cursors.tail → cursors.tail < cursors.passed 0 + (slots - 1))
  | _ => True

/-- What a module's load says: it stands for a position between its cursor and its
limit. -/
def Loaded (modules slots id : Nat) (cursors : Cursors) : MovePc → Prop
  | .loadedLimit limPtr count => count < 2 ^ 31 ∧ ∃ position, limPtr = position % slots ∧
      cursors.passed id ≤ position ∧ position ≤ limit modules cursors id
  | _ => True

/-- The shared memory represents cursors in order; a stored cursor may exceed the ring
only between the two writes of a move. -/
structure Spaced (modules bits : Nat) (state : SpaceRace) : Prop where
  registered : state.ring.global.index = modules
  mask : state.ring.global.metaCount = 2 ^ bits - 1
  narrow : bits ≤ 31
  ordered : Ordered modules (2 ^ bits - 1) state.cursors
  storedTail : state.ring.global.tailPacket = state.cursors.tail % 2 ^ 32
  stored : ∀ id < modules,
    state.ring.packetPtr id % 2 ^ bits = state.cursors.passed id % 2 ^ bits
  masked : ∀ id < modules, state.movers id ≠ .added → state.ring.packetPtr id < 2 ^ bits
  tested : ∀ producer, Tested (2 ^ bits) state.cursors (state.producers producer)
  loaded : ∀ id < modules, Loaded modules (2 ^ bits) id state.cursors (state.movers id)
  /-- Only registered modules move. -/
  moving : ∀ id, state.movers id ≠ .idle → id < modules

/-- A started ring meets the invariant of the race for packet slots, with everybody outside of the
functions. -/
theorem StartedSpace.spaced {modules bits : Nat} {ring : Ring}
    (started : StartedSpace modules bits ring) : Spaced modules bits (SpaceRace.start ring) where
  registered := started.registered
  mask := started.mask
  narrow := started.narrow
  ordered := ordered_of_aligned modules (2 ^ bits - 1) noCursors (fun _ => rfl)
  storedTail := started.tailZero
  stored id inside := by simp [SpaceRace.start, noCursors, started.packetZero id inside]
  masked id inside _ := by
    simp only [SpaceRace.start, started.packetZero id inside]
    exact Nat.two_pow_pos bits
  tested _ := trivial
  loaded _ _ := trivial
  moving _ impossible := absurd rfl impossible

/-- A producer's test stays true while modules move, and loses its subject when
another slot is handed out. -/
theorem Tested.mono {slots : Nat} {cursors after : Cursors} {pc : SpacePc}
    (tested : Tested slots cursors pc) (forward : cursors.tail ≤ after.tail)
    (kept : after.tail = cursors.tail → cursors.passed 0 ≤ after.passed 0) :
    Tested slots after pc := by
  cases pc with
  | start => trivial
  | taken tailPos => trivial
  | loadedTail tailPos seen => exact ⟨tested.1, tested.2.trans forward⟩
  | tested seen =>
    obtain ⟨behind, room⟩ := tested
    refine ⟨behind.trans forward, fun same => ?_⟩
    have passed := kept (by omega)
    have limit := room (by omega)
    omega

/-- A module's load stays valid while its own cursor rests. -/
theorem Loaded.mono {modules slots id : Nat} {cursors after : Cursors} {pc : MovePc}
    (loaded : Loaded modules slots id cursors pc) (rests : after.passed id = cursors.passed id)
    (forward : limit modules cursors id ≤ limit modules after id) :
    Loaded modules slots id after pc := by
  cases pc with
  | idle => trivial
  | added => trivial
  | loadedLimit limPtr count =>
    obtain ⟨counted, position, same, ahead, within⟩ := loaded
    exact ⟨counted, position, same, rests ▸ ahead, within.trans forward⟩

namespace Spaced

variable {modules bits : Nat} {state : SpaceRace}

/-- A ring has at most `2 ^ 31` slots, so that positions and their differences fit in 32 bits. -/
theorem slots_le (spaced : Spaced modules bits state) : 2 ^ bits ≤ 2 ^ 31 :=
  Nat.pow_le_pow_right (by decide) spaced.narrow

/-- The number of slots is a power of two, of which the mask is one less. -/
theorem getMetaCount_eq (spaced : Spaced modules bits state) :
    getMetaCount state.ring = 2 ^ bits := by
  have positive := Nat.two_pow_pos bits
  have bound := spaced.slots_le
  rw [getMetaCount, spaced.mask, Nat.sub_add_cancel positive, u32_of_lt (by omega)]

/-- Masking with the slot count less one takes the remainder. -/
theorem and_mask (spaced : Spaced modules bits state) (position : Nat) :
    position &&& state.ring.global.metaCount = position % 2 ^ bits := by
  rw [spaced.mask, Nat.and_two_pow_sub_one_eq_mod]

/-- The masked tail is the position of the next number, as the tail itself wraps at a multiple of
the slots. -/
theorem maskedTail (spaced : Spaced modules bits state) :
    state.ring.global.tailPacket &&& state.ring.global.metaCount =
      state.cursors.tail % 2 ^ bits := by
  have divides : 2 ^ bits ∣ 2 ^ 32 := Nat.pow_dvd_pow 2 (by have := spaced.narrow; omega)
  rw [spaced.and_mask, spaced.storedTail, Nat.mod_mod_of_dvd _ divides]

/-- A cursor that is read below the end of the ring is the remainder of its position. -/
theorem packetPtr_eq (spaced : Spaced modules bits state) (id : Nat) (inside : id < modules)
    (below : state.ring.packetPtr id < 2 ^ bits) :
    state.ring.packetPtr id = state.cursors.passed id % 2 ^ bits := by
  rw [← spaced.stored id inside, Nat.mod_eq_of_lt below]

/-- The same for what a module loads as its limit. -/
theorem limPacketPtr_eq (spaced : Spaced modules bits state) (id : Nat) (inside : id < modules)
    (below : limPacketPtr state.ring id < 2 ^ bits) :
    limPacketPtr state.ring id = limit modules state.cursors id % 2 ^ bits := by
  have same : depModId state.ring.global id = follows modules id := by
    simp only [depModId, follows, spaced.registered]
  simp only [limPacketPtr, limit, same] at below ⊢
  split
  · exact spaced.maskedTail
  · rename_i chained
    rw [if_neg chained] at below
    refine spaced.packetPtr_eq _ ?_ below
    simp only [follows]
    split <;> omega

/-- Moving one producer to a place whose test holds keeps the invariant. -/
theorem produce (spaced : Spaced modules bits state) (producer : Nat) (pc : SpacePc)
    (tested : Tested (2 ^ bits) state.cursors pc) :
    Spaced modules bits (state.produce producer pc) where
  registered := spaced.registered
  mask := spaced.mask
  narrow := spaced.narrow
  ordered := spaced.ordered
  storedTail := spaced.storedTail
  stored := spaced.stored
  masked := spaced.masked
  tested other := by
    by_cases same : other = producer
    · subst same
      simpa [SpaceRace.produce] using tested
    · simpa [SpaceRace.produce, same] using spaced.tested other
  loaded := spaced.loaded
  moving := spaced.moving

/-- Moving one module, whose stored cursor is masked, to a place whose load holds keeps
the invariant. -/
theorem goto (spaced : Spaced modules bits state) (id : Nat) (pc : MovePc)
    (inside : id < modules) (resting : state.movers id ≠ .added)
    (loaded : Loaded modules (2 ^ bits) id state.cursors pc) :
    Spaced modules bits (state.goto id pc) where
  registered := spaced.registered
  mask := spaced.mask
  narrow := spaced.narrow
  ordered := spaced.ordered
  storedTail := spaced.storedTail
  stored := spaced.stored
  masked other bound moving := by
    refine spaced.masked other bound fun added => ?_
    by_cases same : other = id
    · exact resting (same ▸ added)
    · simp [SpaceRace.goto, same, added] at moving
  tested := spaced.tested
  loaded other bound := by
    by_cases same : other = id
    · subst same
      simpa [SpaceRace.goto] using loaded
    · simpa [SpaceRace.goto, same] using spaced.loaded other bound
  moving other busy := by
    by_cases same : other = id
    · rwa [same]
    · exact spaced.moving other (by simpa [SpaceRace.goto, same] using busy)

/-- Handing out one more slot within the lead keeps the invariant. -/
theorem take (spaced : Spaced modules bits state) (producer tailPos : Nat)
    (room : state.cursors.tail < state.cursors.passed 0 + (2 ^ bits - 1)) :
    Spaced modules bits
      { state.produce producer (.taken tailPos) with
        ring := state.ring.setTailPacket (u32 (state.ring.global.tailPacket + 1))
        cursors := state.cursors.append } where
  registered := spaced.registered
  mask := spaced.mask
  narrow := spaced.narrow
  ordered := spaced.ordered.append room
  storedTail := by
    simp only [Ring.setTailPacket, append_tail, u32, spaced.storedTail, Nat.mod_add_mod]
  stored := spaced.stored
  masked := spaced.masked
  tested other := by
    have others := (spaced.produce producer (.taken tailPos) trivial).tested other
    apply others.mono
    · simp [SpaceRace.produce]
    · intro unmoved
      simp [SpaceRace.produce] at unmoved
  loaded id inside :=
    (spaced.loaded id inside).mono rfl (limit_le_append modules state.cursors id)
  moving := spaced.moving

/-- An access keeps the invariant unless it is an overtaken increment or sees a cursor
that is not masked. -/
theorem access (spaced : Spaced modules bits state) (nonempty : 1 ≤ modules) (producer : Nat)
    (wait : Bool) (current : state.overtaken (.access producer wait) = false)
    (masked : state.readsUnmasked (.access producer wait) = false) :
    Spaced modules bits (state.access producer wait) := by
  have tested := spaced.tested producer
  have small := spaced.slots_le
  simp only [SpaceRace.access]
  cases place : state.producers producer with
  | start => exact spaced.produce producer _ ⟨spaced.maskedTail, Nat.le_refl _⟩
  | loadedTail tailPos seen =>
    rw [place] at tested
    obtain ⟨rfl, behind⟩ := tested
    simp only [spaced.and_mask]
    split
    · exact spaced.produce producer .start trivial
    · rename_i notFull
      refine spaced.produce producer _ ⟨behind, fun same => ?_⟩
      have below : state.ring.packetPtr 0 < 2 ^ bits := by
        simpa [SpaceRace.readsUnmasked, place, spaced.getMetaCount_eq] using masked
      have positionBound : seen % 2 ^ bits < 2 ^ bits := Nat.mod_lt _ (Nat.two_pow_pos bits)
      have bounded := spaced.ordered.bounded
      rw [spaced.packetPtr_eq 0 (by omega) below, u32_of_lt (by omega), advance_mod, same] at notFull
      -- With the lead used up the next position would be module 0's of the next lap.
      have distinct : state.cursors.tail + 1 ≠ state.cursors.passed 0 + 2 ^ bits := by
        intro full
        rw [full, Nat.add_mod_right] at notFull
        exact notFull rfl
      omega
  | tested seen =>
    rw [place] at tested
    have same : seen = state.cursors.tail := by
      simpa [SpaceRace.overtaken, place] using current
    exact spaced.take producer _ (tested.2 same)
  | taken tailPos =>
    simp only
    split
    · exact spaced
    · exact spaced.produce producer .start trivial

/-- A module that loads a masked limit keeps the invariant. -/
theorem load (spaced : Spaced modules bits state) (id count : Nat) (next : SpaceRace)
    (masked : state.readsUnmasked (.load id count) = false)
    (stepped : state.step (.load id count) = some next) : Spaced modules bits next := by
  cases SpaceRace.step_move stepped with
  | unmapped => exact spaced
  | loadedLimit _ _ allowed mapped =>
    obtain ⟨registered, counted, idle⟩ := allowed
    have inside : id < modules := spaced.registered ▸ registered
    refine spaced.goto id _ inside (by simp [idle]) ⟨counted, ?_⟩
    have below : limPacketPtr state.ring id < 2 ^ bits := by
      simpa [SpaceRace.readsUnmasked, spaced.getMetaCount_eq] using masked
    exact ⟨limit modules state.cursors id, spaced.limPacketPtr_eq id inside below,
      spaced.ordered.behind id inside, Nat.le_refl _⟩

/-- A module's first write adds the count exactly when its cursor stays at or behind
the position it has loaded. -/
theorem add_iff (spaced : Spaced modules bits state) (id count position : Nat)
    (inside : id < modules) (resting : state.movers id ≠ .added) (counted : count < 2 ^ 31)
    (ahead : state.cursors.passed id ≤ position)
    (within : position ≤ limit modules state.cursors id) :
    u32 (state.ring.packetPtr id + count) = state.cursors.passed id % 2 ^ bits + count ∧
      (u32 (state.ring.packetPtr id + count) ≤
          liftedLimit state.ring id (position % 2 ^ bits) ↔
        state.cursors.passed id + count ≤ position) := by
  have small := spaced.slots_le
  have below := spaced.masked id inside resting
  have stored := spaced.packetPtr_eq id inside below
  have positionBound : position % 2 ^ bits < 2 ^ bits := Nat.mod_lt _ (Nat.two_pow_pos bits)
  have belowTail := spaced.ordered.limit_le_tail id inside
  have bounded := spaced.ordered.bounded
  have lastBehind := spaced.ordered.last_le id inside
  have corrected : liftedLimit state.ring id (position % 2 ^ bits) =
      state.cursors.passed id % 2 ^ bits + (position - state.cursors.passed id) := by
    rw [← lifted_mod ahead (by omega), lifted, liftedLimit, spaced.getMetaCount_eq, stored,
      u32_of_lt (by omega)]
  have sum : u32 (state.ring.packetPtr id + count) =
      state.cursors.passed id % 2 ^ bits + count := by
    rw [u32_of_lt (by omega), stored]
  rw [corrected, sum]
  omega

/-- The first write moves the cursor on, and stays behind the limit that was loaded. -/
theorem write_advance {id limPtr count : Nat} (spaced : Spaced modules bits state)
    (place : state.movers id = .loadedLimit limPtr count)
    (fits : u32 (state.ring.packetPtr id + count) ≤ liftedLimit state.ring id limPtr) :
    Spaced modules bits { state.goto id .added with
      ring := state.ring.setPacketPtr id (u32 (state.ring.packetPtr id + count))
      cursors := state.cursors.advance id count } := by
  have inside := spaced.moving id (by simp [place])
  have loaded := spaced.loaded id inside
  rw [place] at loaded
  obtain ⟨counted, position, rfl, ahead, within⟩ := loaded
  have resting : state.movers id ≠ .added := by simp [place]
  obtain ⟨sum, accepted⟩ := spaced.add_iff id count position inside resting counted ahead within
  have reached := accepted.mp fits
  exact {
    registered := spaced.registered
    mask := spaced.mask
    narrow := spaced.narrow
    ordered := spaced.ordered.advance id count (reached.trans within)
    storedTail := spaced.storedTail
    stored := fun other bound => by
      by_cases same : other = id
      · subst same
        simp only [setPacketPtr_self, advance_passed_self]
        rw [sum, advance_mod]
      · rw [setPacketPtr_other _ _ _ _ same, advance_passed_other _ _ _ _ same]
        exact spaced.stored other bound
    masked := fun other bound moving => by
      by_cases same : other = id
      · simp [SpaceRace.goto, same] at moving
      · rw [setPacketPtr_other _ _ _ _ same]
        exact spaced.masked other bound (by simpa [SpaceRace.goto, same] using moving)
    tested := fun producer => (spaced.tested producer).mono (Nat.le_refl _) fun _ =>
      passed_le_advance state.cursors id 0 count
    loaded := fun other bound => by
      by_cases same : other = id
      · subst same
        simp [SpaceRace.goto, Loaded]
      · simp only [SpaceRace.goto, Function.update_of_ne same]
        exact (spaced.loaded other bound).mono (advance_passed_other _ _ _ _ same)
          (limit_le_advance modules state.cursors other id count)
    moving := fun other moves => by
      by_cases same : other = id
      · rwa [same]
      · exact spaced.moving other (by simpa [SpaceRace.goto, same] using moves) }

/-- The second write masks the cursor, which stood unmasked since the first one. -/
theorem write_mask {id : Nat} (spaced : Spaced modules bits state) (place : state.movers id = .added) :
    Spaced modules bits { state.goto id .idle with
      ring := state.ring.setPacketPtr id (state.ring.packetPtr id &&& state.ring.global.metaCount) } := by
  have inside := spaced.moving id (by simp [place])
  rw [spaced.and_mask]
  exact {
    registered := spaced.registered
    mask := spaced.mask
    narrow := spaced.narrow
    ordered := spaced.ordered
    storedTail := spaced.storedTail
    stored := fun other bound => by
      by_cases same : other = id
      · subst same
        rw [setPacketPtr_self, Nat.mod_mod]
        exact spaced.stored other bound
      · rw [setPacketPtr_other _ _ _ _ same]
        exact spaced.stored other bound
    masked := fun other bound moving => by
      by_cases same : other = id
      · subst same
        rw [setPacketPtr_self]
        exact Nat.mod_lt _ (Nat.two_pow_pos bits)
      · rw [setPacketPtr_other _ _ _ _ same]
        exact spaced.masked other bound (by simpa [SpaceRace.goto, same] using moving)
    tested := spaced.tested
    loaded := fun other bound => by
      by_cases same : other = id
      · subst same
        simp [SpaceRace.goto, Loaded]
      · simpa only [SpaceRace.goto, Function.update_of_ne same] using spaced.loaded other bound
    moving := fun other moves => by
      by_cases same : other = id
      · rwa [same]
      · exact spaced.moving other (by simpa [SpaceRace.goto, same] using moves) }

/-- Each write of a cursor by its module keeps the invariant, as it goes no further than the limit
that was loaded. -/
theorem write (spaced : Spaced modules bits state) (id : Nat) (next : SpaceRace)
    (stepped : state.step (.write id) = some next) : Spaced modules bits next := by
  cases SpaceRace.step_move stepped with
  | added _ limPtr count place fits => exact spaced.write_advance place fits
  | refused _ limPtr count place =>
    have inside := spaced.moving id (by simp [place])
    exact spaced.goto id .idle inside (by simp [place]) trivial
  | masked _ place => exact spaced.write_mask place

/-- A step that is neither an overtaken increment nor a load of a cursor that is not
masked keeps the invariant. -/
theorem step (spaced : Spaced modules bits state) (nonempty : 1 ≤ modules) (label : SpaceStep)
    (next : SpaceRace) (current : state.overtaken label = false)
    (masked : state.readsUnmasked label = false) (stepped : state.step label = some next) :
    Spaced modules bits next := by
  cases label with
  | access producer wait =>
    cases stepped
    exact spaced.access nonempty producer wait current masked
  | load id count => exact spaced.load id count next masked stepped
  | write id => exact spaced.write id next stepped
  | fill slot pktLen =>
    cases stepped
    exact ⟨spaced.registered, spaced.mask, spaced.narrow, spaced.ordered, spaced.storedTail,
      spaced.stored, spaced.masked, spaced.tested, spaced.loaded, spaced.moving⟩

/-- Where every cursor is below the end of the ring, no load sees anything else. -/
theorem reads_masked (spaced : Spaced modules bits state) (nonempty : 1 ≤ modules)
    (below : ∀ id < modules, state.ring.packetPtr id < 2 ^ bits) (label : SpaceStep)
    (next : SpaceRace) (stepped : state.step label = some next) :
    state.readsUnmasked label = false := by
  have slots := spaced.getMetaCount_eq
  cases label with
  | access producer wait =>
    simp only [SpaceRace.readsUnmasked]
    split
    · simpa [slots] using below 0 (by omega)
    · rfl
  | load id count =>
    have inside : id < modules := by
      cases SpaceRace.step_move stepped with
      | unmapped _ _ allowed | loadedLimit _ _ allowed => exact spaced.registered ▸ allowed.1
    have loaded : limPacketPtr state.ring id < 2 ^ bits := by
      simp only [limPacketPtr]
      split
      · rw [spaced.maskedTail]
        exact Nat.mod_lt _ (Nat.two_pow_pos bits)
      · apply below
        simp only [depModId, spaced.registered]
        split <;> omega
    simpa [SpaceRace.readsUnmasked, slots] using loaded
  | write id => rfl
  | fill slot pktLen => rfl

/-- A step that does not reach the end of the ring leaves every cursor below it. -/
theorem below_step (spaced : Spaced modules bits state) (label : SpaceStep) (next : SpaceRace)
    (below : ∀ id < modules, state.ring.packetPtr id < 2 ^ bits)
    (short : state.reachesEnd label = false) (stepped : state.step label = some next) :
    ∀ id < modules, next.ring.packetPtr id < 2 ^ bits := by
  have slots := spaced.getMetaCount_eq
  have written : ∀ id, ∀ position < 2 ^ bits, ∀ other < modules,
      (state.ring.setPacketPtr id position).packetPtr other < 2 ^ bits := by
    intro id position small other bound
    by_cases same : other = id
    · rwa [same, setPacketPtr_self]
    · rw [setPacketPtr_other _ _ _ _ same]
      exact below other bound
  cases SpaceRace.step_move stepped with
  | loadedTail | foundFull | foundRoom | took | waited | returned | unmapped | loadedLimit | refused | filled =>
    exact below
  | added id limPtr count place fits =>
    have inside : u32 (state.ring.packetPtr id + count) < 2 ^ bits := by
      simpa [SpaceRace.reachesEnd, place, fits, slots] using short
    exact written id _ inside
  | masked id place =>
    rw [spaced.and_mask]
    exact written id _ (Nat.mod_lt _ (Nat.two_pow_pos bits))

end Spaced

/-! ## Runs -/

/-- The slots handed out and not passed by module 0 leave at least one free, and every
stored packet cursor is below the number of slots. -/
structure SpaceSound (modules slots : Nat) (state : SpaceRace) : Prop where
  room : state.cursors.tail ≤ state.cursors.passed 0 + (slots - 1)
  below : ∀ id < modules, state.ring.packetPtr id < slots

/-- In every run in which no increment is overtaken and no load sees a cursor between
the two writes of a move that passes the end, the ring never closes up on module 0. -/
theorem space_room_along_runs {modules bits : Nat} {ring : Ring}
    (started : StartedSpace modules bits ring) (nonempty : 1 ≤ modules) (labels : List SpaceStep)
    (final : SpaceRace)
    (careful : Runs.Meets SpaceRace.step
      (fun state label => state.overtaken label = false ∧ state.readsUnmasked label = false)
      (SpaceRace.start ring) labels)
    (ran : Runs.run SpaceRace.step (SpaceRace.start ring) labels = some final) :
    final.cursors.tail ≤ final.cursors.passed 0 + (2 ^ bits - 1) := by
  have spaced := Runs.run_invariant_meets SpaceRace.step
    (fun state label => state.overtaken label = false ∧ state.readsUnmasked label = false)
    (Spaced modules bits)
    (fun _ label next spaced both stepped =>
      spaced.step nonempty label next both.1 both.2 stepped)
    (SpaceRace.start ring) final labels started.spaced careful ran
  exact spaced.ordered.bounded

/-- In every run in which no increment is overtaken and no move reaches the end of the
ring, the ring never closes up on module 0 and every stored cursor is below the end. -/
theorem space_sound_unless_overtaken {modules bits : Nat} {ring : Ring}
    (started : StartedSpace modules bits ring) (nonempty : 1 ≤ modules) (labels : List SpaceStep)
    (final : SpaceRace)
    (careful : Runs.Meets SpaceRace.step
      (fun state label => state.overtaken label = false ∧ state.reachesEnd label = false)
      (SpaceRace.start ring) labels)
    (ran : Runs.run SpaceRace.step (SpaceRace.start ring) labels = some final) :
    SpaceSound modules (getMetaCount final.ring) final := by
  have initial : ∀ id < modules, (SpaceRace.start ring).ring.packetPtr id < 2 ^ bits := by
    intro id inside
    simp only [SpaceRace.start, started.packetZero id inside]
    exact Nat.two_pow_pos bits
  obtain ⟨spaced, below⟩ := Runs.run_invariant_meets SpaceRace.step
    (fun state label => state.overtaken label = false ∧ state.reachesEnd label = false)
    (fun state => Spaced modules bits state ∧
      ∀ id < modules, state.ring.packetPtr id < 2 ^ bits)
    (fun _ label next both careful stepped =>
      ⟨both.1.step nonempty label next careful.1
          (both.1.reads_masked nonempty both.2 label next stepped) stepped,
        both.1.below_step label next both.2 careful.2 stepped⟩)
    (SpaceRace.start ring) final labels ⟨started.spaced, initial⟩ careful ran
  rw [spaced.getMetaCount_eq]
  exact ⟨spaced.ordered.bounded, below⟩

/-- The small rings of the examples are started ones. -/
theorem freshRing_startedSpace (modules blocks capacity bits : Nat) (narrow : bits ≤ 31) :
    StartedSpace modules bits (freshRing modules blocks capacity (2 ^ bits)) where
  registered := rfl
  mask := rfl
  narrow := narrow
  packetZero id _ := by
    simp only [Ring.packetPtr, freshRing]
    split <;> rfl
  tailZero := rfl

/-- Two modules over eight slots: two producers take turns and both modules move, and no increment
of the tail is overtaken. -/
theorem space_sound_unless_overtaken_two_modules :
    ∃ final, Runs.run SpaceRace.step (SpaceRace.start (freshRing 2 4 2 (2 ^ 3)))
        [.access 0 true, .access 0 true, .access 0 true, .access 1 true, .access 1 true,
          .access 1 true, .fill 0 60, .load 1 2, .write 1, .load 0 1, .write 1, .write 0] =
            some final ∧
      SpaceSound 2 (getMetaCount final.ring) final := by
  have completes : (Runs.run SpaceRace.step (SpaceRace.start (freshRing 2 4 2 (2 ^ 3)))
      [.access 0 true, .access 0 true, .access 0 true, .access 1 true, .access 1 true,
        .access 1 true, .fill 0 60, .load 1 2, .write 1, .load 0 1, .write 1, .write 0]).isSome =
          true := by decide
  have ran := (Option.some_get completes).symm
  exact ⟨_, ran, space_sound_unless_overtaken (freshRing_startedSpace 2 4 2 3 (by decide))
    (by decide) _ _ (by decide) ran⟩

/-- One module over eight slots. After six slots two producers pass the test for the
seventh together and hand out eight: the ring is full and looks empty. And after
seven slots have been passed, a move over the eighth shows the cursor 8 before it is
masked to 0. -/
theorem space_overtaken_and_unmasked :
    (∃ final, Runs.run SpaceRace.step (SpaceRace.start (freshRing 1 4 2 (2 ^ 3)))
        (List.replicate 24 (.access 0 true) ++
          [.access 0 true, .access 0 true, .access 1 true, .access 1 true,
            .access 0 true, .access 1 true]) = some final ∧
      getMetaCount final.ring = 8 ∧ ¬ final.cursors.tail ≤ final.cursors.passed 0 + (8 - 1)) ∧
    (∃ final, Runs.run SpaceRace.step (SpaceRace.start (freshRing 1 4 2 (2 ^ 3)))
        (List.replicate 28 (.access 0 true) ++ [.load 0 7, .write 0, .write 0] ++
          List.replicate 4 (.access 0 true) ++ [.load 0 1, .write 0]) = some final ∧
      getMetaCount final.ring = 8 ∧ ¬ final.ring.packetPtr 0 < 8) := by
  constructor
  · exact Runs.run_reaches SpaceRace.step _ _ (fun final => getMetaCount final.ring = 8 ∧
      ¬ final.cursors.tail ≤ final.cursors.passed 0 + (8 - 1)) (by decide)
  · exact Runs.run_reaches SpaceRace.step _ _ (fun final => getMetaCount final.ring = 8 ∧
      ¬ final.ring.packetPtr 0 < 8) (by decide)

end OpenTaker
