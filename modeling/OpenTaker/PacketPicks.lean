import OpenTaker.PacketReads

/-!
# A module that picks packets up while the ring is running

One registered module reads in batches while the producers and the other modules take
their steps. A batch loads the limit once, when it is called, and then looks at one
packet after the other; its index and the collected packets belong to the caller, who keeps
both from call to call. The caller's thread is also the one that moves the
module's cursor.

The packets are counted here, which the source does not do: `picked` is how many have been
collected so far. As long as the module moves over no more than it has collected, the
collection is the sequence of positions that the calls of `GetNextMetaSpace` have moved the tail
over, and none of those it still holds is taken again.

A call that has moved the tail looks at its slot only then, and waits or gives up while the slot
has a length. The module cannot tell such a slot from a filled one. So the history also says which
calls have returned their slot: all that are collected, where each slot is empty when its position
is taken and stays so until the call returns.
-/

namespace OpenTaker

open CursorPipeline CyclicPositions

/-- Which positions have been taken from the tail and which of them were returned to a caller. No step
of the ring reads this. -/
structure Handing where
  /-- The producers between their increment of the tail and their return. -/
  taking : List Nat
  /-- The position a producer has taken last, not yet reduced to the ring. -/
  took : Nat → Nat
  returned : List Nat

/-- The ring with the reading module's variables, which neither a producer nor another module sees. -/
structure PickingRace where
  race : SpaceRace
  /-- The caller's `_index`. -/
  index : Nat
  /-- The caller's `_packets`. -/
  packets : List Nat
  /-- The `distance` of a batch that has not returned. -/
  left : Option Nat
  picked : Nat
  handing : Handing

/-- A started ring whose reading module has collected nothing. -/
def PickingRace.start (ring : Ring) : PickingRace where
  race := SpaceRace.start ring
  index := 0
  packets := []
  left := none
  picked := 0
  handing := ⟨[], fun _ => 0, []⟩

/-- One atomic step: of a producer or a module that moves, a call of the batch, or a turn of its
loop. -/
inductive PickStep where
  /-- A step of a producer or of a module that moves. -/
  | race (label : SpaceStep)
  /-- The reading module calls the batch, which loads the limit. -/
  | call
  /-- The next turn of the batch's loop. -/
  | pick

/-- The step begins a move of the module, which a caller inside of a batch does not do. -/
def SpaceStep.movesModule (id : Nat) : SpaceStep → Bool
  | .load moved _ => moved == id
  | _ => false

/-- Append the packet at the index and move the index on. -/
def PickingRace.push (state : PickingRace) (reader distance : Nat) : PickingRace :=
  { state with
    index := nextIndex state.race.ring state.index
    packets := state.packets ++ [packetAt state.race.ring reader state.index]
    left := some distance
    picked := state.picked + 1 }

/-- What the history notes of a step of the ring: who takes a position, and whether the call that has
taken one returns its slot or NULL. -/
def Handing.note (handing : Handing) (race : SpaceRace) : SpaceStep → Handing
  | .access producer wait =>
      match race.producers producer with
      | .tested _ =>
          { handing with
            taking := producer :: handing.taking
            took := Function.update handing.took producer race.cursors.tail }
      | .taken tailPos =>
          if packetReady race.ring tailPos then
            if wait then handing
            else { handing with taking := handing.taking.filter (· ≠ producer) }
          else
            { handing with
              taking := handing.taking.filter (· ≠ producer)
              returned := handing.returned ++ [handing.took producer] }
      | _ => handing
  | _ => handing

/-- Perform one step. The reading module does not move while it is in a batch. -/
def PickingRace.step (reader : Nat) (state : PickingRace) : PickStep → Option PickingRace
  | .race label =>
      if state.left.isSome && label.movesModule reader then none
      else
        (state.race.step label).map fun race =>
          { state with race := race, handing := state.handing.note state.race label }
  | .call =>
      if state.left = none ∧ state.race.movers reader = .idle then
        if ¬ (state.race.ring.global.moduleInfo reader).mapped then some state
        else some { state with left := some (packetDistance state.race.ring reader state.index) }
      else none
  | .pick =>
      match state.left with
      | none => none
      | some 0 => some { state with left := none }
      | some (distance + 1) =>
          if packetReady state.race.ring state.index then some (state.push reader distance)
          else some { state with left := none }

/-- The step is an increment of the tail by a producer that has been overtaken. -/
def PickingRace.overtaken (state : PickingRace) : PickStep → Bool
  | .race label => state.race.overtaken label
  | _ => false

/-- The step loads a cursor between the two writes of a move that passes the end. -/
def PickingRace.readsUnmasked (reader : Nat) (state : PickingRace) : PickStep → Bool
  | .race label => state.race.readsUnmasked label
  | .call => decide (getMetaCount state.race.ring ≤ limPacketPtr state.race.ring reader)
  | .pick => false

/-- The step begins a move of the reading module over packets it has not collected. -/
def PickingRace.movesBeyond (reader : Nat) (state : PickingRace) : PickStep → Bool
  | .race (.load id count) =>
      decide (id = reader ∧ state.picked < state.race.cursors.passed reader + count)
  | _ => false

/-- The step takes the position of a slot that still has a length, or gives one to a slot whose call
has not returned. -/
def PickingRace.spoilsSlot (state : PickingRace) : PickStep → Bool
  | .race (.access producer _) =>
      match state.race.producers producer with
      | .tested _ =>
          packetReady state.race.ring
            (state.race.ring.global.tailPacket &&& state.race.ring.global.metaCount)
      | _ => false
  | .race (.fill slot pktLen) =>
      pktLen ≠ 0 && state.handing.taking.any fun producer =>
        metaSlot state.race.ring (state.handing.took producer % getMetaCount state.race.ring) = slot
  | _ => false

/-! ## What one step of the ring does -/

/-- A step of the ring leaves the cursors, hands out a slot, or advances one module that
has loaded its limit; it changes the place of one module at most. -/
theorem SpaceRace.step_cases {state next : SpaceRace} {label : SpaceStep}
    (stepped : state.step label = some next) :
    ((next.cursors = state.cursors ∨ next.cursors = state.cursors.append) ∧
        next.movers = state.movers) ∨
      (∃ id count limPtr, label = .load id count ∧ next.cursors = state.cursors ∧
        next.movers = Function.update state.movers id (.loadedLimit limPtr count)) ∨
      (∃ id limPtr count, label = .write id ∧ state.movers id = .loadedLimit limPtr count ∧
        next.cursors = state.cursors.advance id count ∧
        next.movers = Function.update state.movers id .added) ∨
      ∃ id, label = .write id ∧ next.cursors = state.cursors ∧
        next.movers = Function.update state.movers id .idle := by
  cases SpaceRace.step_move stepped with
  | loadedTail | foundFull | foundRoom | waited | returned | unmapped | filled => exact .inl ⟨.inl rfl, rfl⟩
  | took => exact .inl ⟨.inr rfl, rfl⟩
  | loadedLimit id count => exact .inr (.inl ⟨id, count, _, rfl, rfl, rfl⟩)
  | added id limPtr count place => exact .inr (.inr (.inl ⟨id, limPtr, count, rfl, place, rfl, rfl⟩))
  | refused id | masked id => exact .inr (.inr (.inr ⟨id, rfl, rfl, rfl⟩))

/-- No step moves the views or the size of a slot. -/
theorem SpaceRace.step_packetAt {state next : SpaceRace} {label : SpaceStep}
    (stepped : state.step label = some next) (id position : Nat) :
    packetAt next.ring id position = packetAt state.ring id position := by
  cases SpaceRace.step_move stepped with
  | added | masked => exact setPacketPtr_packetAt _ _ _ _ _
  | loadedTail | foundFull | foundRoom | took | waited | returned | unmapped | loadedLimit | refused | filled =>
    rfl

/-- No step takes back what a module may reach. -/
theorem SpaceRace.limit_le_step {state next : SpaceRace} {label : SpaceStep}
    (stepped : state.step label = some next) (modules id : Nat) :
    limit modules state.cursors id ≤ limit modules next.cursors id := by
  obtain ⟨same | appended, -⟩ | ⟨_, _, _, -, same, -⟩ | ⟨moved, _, count, -, -, advanced, -⟩ |
    ⟨_, -, same, -⟩ := SpaceRace.step_cases stepped
  · rw [same]
  · rw [appended]
    exact limit_le_append modules state.cursors id
  · rw [same]
  · rw [advanced]
    exact limit_le_advance modules state.cursors id moved count
  · rw [same]

/-! ## The invariant -/

/-- A module has passed no more than so many packets, nor is it moving beyond them. -/
structure WithinPicked (reader picked : Nat) (state : SpaceRace) : Prop where
  behind : state.cursors.passed reader ≤ picked
  pending : ∀ limPtr count, state.movers reader = .loadedLimit limPtr count →
    state.cursors.passed reader + count ≤ picked

/-- A step keeps this, unless it begins a move beyond. -/
theorem WithinPicked.step {reader picked : Nat} {state next : SpaceRace} {label : SpaceStep}
    (held : WithinPicked reader picked state)
    (within : ∀ count, label = .load reader count → state.cursors.passed reader + count ≤ picked)
    (stepped : state.step label = some next) : WithinPicked reader picked next := by
  obtain ⟨kept, movers⟩ | ⟨id, count, limPtr, rfl, kept, movers⟩ |
    ⟨id, limPtr, count, -, loaded, advanced, movers⟩ | ⟨id, -, kept, movers⟩ :=
      SpaceRace.step_cases stepped
  · have passed : next.cursors.passed = state.cursors.passed := by
      rcases kept with kept | kept <;> rw [kept]
      rfl
    refine ⟨by rw [passed]; exact held.behind, ?_⟩
    rw [passed, movers]
    exact held.pending
  · refine ⟨by rw [kept]; exact held.behind, fun loadedPtr loadedCount loading => ?_⟩
    rw [kept]
    rw [movers] at loading
    by_cases same : reader = id
    · subst same
      have counts : count = loadedCount := by
        simp only [Function.update_self, MovePc.loadedLimit.injEq] at loading
        exact loading.2
      exact counts ▸ within count rfl
    · rw [Function.update_of_ne same] at loading
      exact held.pending loadedPtr loadedCount loading
  · by_cases same : reader = id
    · subst same
      refine ⟨?_, fun loadedPtr loadedCount loading => ?_⟩
      · rw [advanced, advance_passed_self]
        exact held.pending limPtr count loaded
      · simp [movers] at loading
    · have passed : next.cursors.passed reader = state.cursors.passed reader := by
        rw [advanced, advance_passed_other _ _ _ _ same]
      refine ⟨by rw [passed]; exact held.behind, ?_⟩
      rw [passed, movers, Function.update_of_ne same]
      exact held.pending
  · refine ⟨by rw [kept]; exact held.behind, fun loadedPtr loadedCount loading => ?_⟩
    rw [kept]
    rw [movers] at loading
    by_cases same : reader = id
    · simp [same] at loading
    · rw [Function.update_of_ne same] at loading
      exact held.pending loadedPtr loadedCount loading

/-- An idle module stays idle until it begins a move. -/
theorem SpaceRace.idle_step {reader : Nat} {state next : SpaceRace} {label : SpaceStep}
    (idle : state.movers reader = .idle) (others : label.movesModule reader = false)
    (stepped : state.step label = some next) : next.movers reader = .idle := by
  obtain ⟨-, movers⟩ | ⟨id, count, limPtr, rfl, -, movers⟩ |
    ⟨id, limPtr, count, -, loaded, -, movers⟩ | ⟨id, -, -, movers⟩ := SpaceRace.step_cases stepped
  · rw [movers, idle]
  · have distinct : reader ≠ id := by
      rintro rfl
      simp [SpaceStep.movesModule] at others
    rw [movers, Function.update_of_ne distinct, idle]
  · have distinct : reader ≠ id := by
      rintro rfl
      simp [idle] at loaded
    rw [movers, Function.update_of_ne distinct, idle]
  · by_cases same : reader = id
    · rw [movers, same, Function.update_self]
    · rw [movers, Function.update_of_ne same, idle]

/-- The index stands for the number of packets collected, which are those handed out
first; the module has passed some of them and is not moving beyond them. -/
structure Picks (modules bits reader : Nat) (ring : Ring) (state : PickingRace) : Prop where
  spaced : Spaced modules bits state.race
  index : state.index = state.picked % 2 ^ bits
  held : WithinPicked reader state.picked state.race
  /-- What a running batch may still collect was within the limit when it was called. -/
  reach : state.picked + state.left.getD 0 ≤ limit modules state.race.cursors reader
  resting : state.left.isSome → state.race.movers reader = .idle
  views : ∀ position, packetAt state.race.ring reader position = packetAt ring reader position
  collected : state.packets =
    (List.range state.picked).map (fun number => packetAt ring reader (number % 2 ^ bits))

namespace Picks

variable {modules bits reader : Nat} {ring : Ring} {state next : PickingRace}

/-- At the start of the run the module has collected nothing, and nobody is inside of any function. -/
theorem start (started : StartedSpace modules bits ring) :
    Picks modules bits reader ring (PickingRace.start ring) where
  spaced := started.spaced
  index := (Nat.zero_mod _).symm
  held := ⟨Nat.le_refl _, fun _ _ loading => by simp [PickingRace.start, SpaceRace.start] at loading⟩
  reach := Nat.zero_le _
  resting called := by simp [PickingRace.start] at called
  views _ := rfl
  collected := rfl

/-- The index stands for a position of a stretch that ends at the limit. -/
theorem within (picks : Picks modules bits reader ring state) (inside : reader < modules) :
    state.picked ≤ limit modules state.race.cursors reader ∧
      limit modules state.race.cursors reader ≤ state.race.cursors.tail ∧
      state.race.cursors.tail < state.race.cursors.passed reader + 2 ^ bits := by
  have reach := picks.reach
  have belowTail := picks.spaced.ordered.limit_le_tail reader inside
  have lastBehind := picks.spaced.ordered.last_le reader inside
  have bounded := picks.spaced.ordered.bounded
  have positive := Nat.two_pow_pos bits
  omega

/-- A step of the ring keeps the invariant, if it is none of the three steps that go wrong. -/
theorem race (picks : Picks modules bits reader ring state) (nonempty : 1 ≤ modules)
    (label : SpaceStep) (current : state.race.overtaken label = false)
    (masked : state.race.readsUnmasked label = false)
    (held : state.movesBeyond reader (.race label) = false)
    (stepped : state.step reader (.race label) = some next) :
    Picks modules bits reader ring next := by
  simp only [PickingRace.step] at stepped
  split at stepped
  · cases stepped
  · rename_i allowed
    obtain ⟨race, raced, rfl⟩ := Option.map_eq_some_iff.mp stepped
    have within : ∀ count, label = .load reader count →
        state.race.cursors.passed reader + count ≤ state.picked := by
      rintro count rfl
      simpa [PickingRace.movesBeyond] using held
    exact {
      spaced := picks.spaced.step nonempty label race current masked raced
      index := picks.index
      held := picks.held.step within raced
      reach := picks.reach.trans (SpaceRace.limit_le_step raced modules reader)
      resting := fun called => SpaceRace.idle_step (picks.resting called)
        (by simpa [show state.left.isSome = true from called] using allowed) raced
      views := fun position => (SpaceRace.step_packetAt raced reader position).trans
        (picks.views position)
      collected := picks.collected }

/-- A call that sees a masked limit may collect what is left up to it. -/
theorem call (picks : Picks modules bits reader ring state) (inside : reader < modules)
    (masked : state.readsUnmasked reader .call = false)
    (stepped : state.step reader .call = some next) : Picks modules bits reader ring next := by
  simp only [PickingRace.step] at stepped
  split at stepped
  · rename_i allowed
    split at stepped
    · cases stepped
      exact picks
    · cases stepped
      have below : limPacketPtr state.race.ring reader < 2 ^ bits := by
        simpa [PickingRace.readsUnmasked, picks.spaced.getMetaCount_eq] using masked
      obtain ⟨reached, belowTail, room⟩ := picks.within inside
      have behind := picks.held.behind
      have distance : packetDistance state.race.ring reader state.index =
          limit modules state.race.cursors reader - state.picked := by
        rw [picks.index]
        exact packetDistance_mod picks.spaced.mask picks.spaced.narrow
          (picks.spaced.limPacketPtr_eq reader inside below) reached (by omega)
      exact { picks with
        reach := by
          simp only [Option.getD_some, distance]
          omega
        resting := fun _ => allowed.2 }
  · cases stepped

/-- A turn of the loop collects the next packet, or ends the batch. -/
theorem pick (picks : Picks modules bits reader ring state)
    (stepped : state.step reader .pick = some next) : Picks modules bits reader ring next := by
  have ended : Picks modules bits reader ring { state with left := none } :=
    { picks with
      reach := by
        have reach := picks.reach
        simp only [Option.getD_none]
        omega
      resting := fun called => by simp at called }
  simp only [PickingRace.step] at stepped
  split at stepped
  · cases stepped
  · cases stepped
    exact ended
  · rename_i distance left
    split at stepped
    · cases stepped
      have reach := picks.reach
      have held := picks.held
      rw [left, Option.getD_some] at reach
      exact {
        spaced := picks.spaced
        index := by
          simp only [PickingRace.push, picks.index]
          exact nextIndex_mod picks.spaced.mask picks.spaced.narrow state.picked
        held := ⟨held.behind.trans (Nat.le_succ _), fun limPtr count loading =>
          (held.pending limPtr count loading).trans (Nat.le_succ _)⟩
        reach := by
          simp only [PickingRace.push, Option.getD_some]
          omega
        resting := fun _ => picks.resting (by rw [left]; rfl)
        views := picks.views
        collected := by
          simp only [PickingRace.push, picks.collected, picks.views, picks.index, List.range_succ,
            List.map_append, List.map_cons, List.map_nil] }
    · cases stepped
      exact ended

/-- Every step that is none of the three that go wrong keeps the invariant. -/
theorem step (picks : Picks modules bits reader ring state) (inside : reader < modules)
    (label : PickStep)
    (careful : state.overtaken label = false ∧ state.readsUnmasked reader label = false ∧
      state.movesBeyond reader label = false)
    (stepped : state.step reader label = some next) : Picks modules bits reader ring next := by
  cases label with
  | race label => exact picks.race (by omega) label careful.1 careful.2.1 careful.2.2 stepped
  | call => exact picks.call inside careful.2.1 stepped
  | pick => exact picks.pick stepped

end Picks

/-! ## What was returned -/

/-- No step changes where the slots are, so that what has been handed out stays where it was. -/
theorem SpaceRace.step_metaSlot {state next : SpaceRace} {label : SpaceStep}
    (stepped : state.step label = some next) (position : Nat) :
    metaSlot next.ring position = metaSlot state.ring position := by
  cases SpaceRace.step_move stepped <;> rfl

/-- An empty slot stays empty, unless the step writes a length to it. -/
theorem SpaceRace.step_empty {state next : SpaceRace} {label : SpaceStep}
    (stepped : state.step label = some next) {position : Nat}
    (others : ∀ pktLen, label = .fill (metaSlot state.ring position) pktLen → pktLen = 0)
    (empty : packetReady state.ring position = false) : packetReady next.ring position = false := by
  have same : next.ring.packetMeta = state.ring.packetMeta ∨
      ∃ slot pktLen, label = .fill slot pktLen ∧ next.ring = state.ring.setPktLen slot pktLen := by
    cases SpaceRace.step_move stepped with
    | filled slot pktLen => exact .inr ⟨slot, pktLen, rfl, rfl⟩
    | loadedTail | foundFull | foundRoom | took | waited | returned | unmapped | loadedLimit | added | refused
      | masked => exact .inl rfl
  rw [packetReady, step_metaSlot stepped]
  rcases same with unwritten | ⟨slot, pktLen, rfl, written⟩
  · rw [unwritten]
    exact empty
  · rw [written]
    by_cases here : metaSlot state.ring position = slot
    · subst here
      simp [Ring.setPktLen, PacketMeta.setPktLen, others pktLen rfl]
    · simp only [Ring.setPktLen, Function.update_of_ne here]
      exact empty

/-- Each position below the tail was returned, or its call has not returned and its slot is empty; what
was collected was returned. -/
structure HandedOver (bits : Nat) (state : PickingRace) : Prop where
  known : ∀ number < state.race.cursors.tail,
    number ∈ state.handing.returned ∨ ∃ producer ∈ state.handing.taking, state.handing.took producer = number
  waiting : ∀ producer ∈ state.handing.taking,
    state.race.producers producer = .taken (state.handing.took producer % 2 ^ bits) ∧
      packetReady state.race.ring (state.handing.took producer % 2 ^ bits) = false
  given : ∀ number < state.picked, number ∈ state.handing.returned

namespace HandedOver

variable {modules bits reader : Nat} {ring : Ring} {state next : PickingRace}

/-- Nothing has been taken at the start, so that there is nothing to be handed over. -/
theorem start (bits : Nat) (ring : Ring) : HandedOver bits (PickingRace.start ring) where
  known _ below := absurd below (Nat.not_lt_zero _)
  waiting _ taking := absurd taking List.not_mem_nil
  given _ below := absurd below (Nat.not_lt_zero _)

/-- A producer that has no slot in its hand may go on to another place. -/
theorem elsewhere (handed : HandedOver bits state) {producer : Nat} (pc : SpacePc)
    (empty : ∀ tailPos, state.race.producers producer ≠ .taken tailPos) :
    HandedOver bits { state with race := state.race.produce producer pc } where
  known := handed.known
  waiting other taking := by
    obtain ⟨place, isEmpty⟩ := handed.waiting other taking
    have distinct : other ≠ producer := by
      rintro rfl
      exact empty _ place
    exact ⟨(Function.update_of_ne distinct _ _).trans place, isEmpty⟩
  given := handed.given

/-- A producer that takes a position is with it from then on; its slot must be empty. -/
theorem take (handed : HandedOver bits state) (spaced : Spaced modules bits state.race)
    {producer seen : Nat} (wait : Bool) (place : state.race.producers producer = .tested seen)
    (empty : packetReady state.race.ring
      (state.race.ring.global.tailPacket &&& state.race.ring.global.metaCount) = false) :
    HandedOver bits { state with
      race := state.race.access producer wait
      handing := state.handing.note state.race (.access producer wait) } := by
  rw [spaced.maskedTail] at empty
  simp only [SpaceRace.access, Handing.note, place, spaced.maskedTail]
  constructor
  case known =>
    intro number below
    rcases Nat.lt_succ_iff_lt_or_eq.mp below with before | rfl
    · refine (handed.known number before).imp_right ?_
      rintro ⟨other, taking, rfl⟩
      have distinct : other ≠ producer := by
        rintro rfl
        have taken := (handed.waiting other taking).1
        rw [place] at taken
        cases taken
      exact ⟨other, List.mem_cons_of_mem _ taking, Function.update_of_ne distinct _ _⟩
    · exact .inr ⟨producer, List.mem_cons_self, Function.update_self ..⟩
  case waiting =>
    intro other taking
    by_cases same : other = producer
    · subst same
      simp only [SpaceRace.produce, Function.update_self]
      exact ⟨trivial, empty⟩
    · have before := (List.mem_cons.mp taking).resolve_left same
      simp only [SpaceRace.produce, Function.update_of_ne same]
      exact handed.waiting other before
  case given => exact handed.given

/-- A producer that leaves must have had its position noted as returned, if it had one. -/
theorem leave (handed : HandedOver bits state) {producer : Nat} {returned : List Nat}
    (kept : ∀ number ∈ state.handing.returned, number ∈ returned)
    (noted : producer ∈ state.handing.taking → state.handing.took producer ∈ returned) :
    HandedOver bits { state with
      race := state.race.produce producer .start
      handing := { state.handing with
        taking := state.handing.taking.filter (· ≠ producer)
        returned := returned } } where
  known number below := by
    rcases handed.known number below with before | ⟨other, taking, rfl⟩
    · exact .inl (kept number before)
    · by_cases same : other = producer
      · subst same
        exact .inl (noted taking)
      · exact .inr ⟨other, List.mem_filter.mpr ⟨taking, decide_eq_true same⟩, rfl⟩
  waiting other taking := by
    obtain ⟨before, distinct⟩ := List.mem_filter.mp taking
    obtain ⟨place, empty⟩ := handed.waiting other before
    exact ⟨(Function.update_of_ne (of_decide_eq_true distinct) _ _).trans place, empty⟩
  given number below := kept number (handed.given number below)

/-- An access of a producer, by the place where it stands. In the last one a slot with a length belongs
to no call that is waited for. -/
theorem access (handed : HandedOver bits state) (spaced : Spaced modules bits state.race)
    (producer : Nat) (wait : Bool) (careful : state.spoilsSlot (.race (.access producer wait)) = false) :
    HandedOver bits { state with
      race := state.race.access producer wait
      handing := state.handing.note state.race (.access producer wait) } := by
  cases place : state.race.producers producer with
  | start =>
    simp only [SpaceRace.access, Handing.note, place]
    exact handed.elsewhere _ (by simp [place])
  | loadedTail tailPos seen =>
    simp only [SpaceRace.access, Handing.note, place]
    split <;> exact handed.elsewhere _ (by simp [place])
  | tested seen =>
    simp only [PickingRace.spoilsSlot, place] at careful
    exact handed.take spaced wait place careful
  | taken tailPos =>
    by_cases ready : packetReady state.race.ring tailPos
    · have absent : producer ∉ state.handing.taking := by
        intro taking
        obtain ⟨same, empty⟩ := handed.waiting producer taking
        rw [place, SpacePc.taken.injEq] at same
        rw [← same, ready] at empty
        cases empty
      have length := of_decide_eq_true ready
      cases wait with
      | true =>
        simp only [SpaceRace.access, Handing.note, place, ready, ↓reduceIte, length, not_false_eq_true,
          and_self, ne_eq]
        exact handed
      | false =>
        simp only [SpaceRace.access, Handing.note, place, ready, ↓reduceIte, Bool.false_eq_true, and_false]
        exact handed.leave (fun _ before => before) fun taking => absurd taking absent
    · have length : (state.race.ring.packetMeta (metaSlot state.race.ring tailPos)).basicAttr.pktLen = 0 := by
        by_contra long
        exact ready (decide_eq_true long)
      simp only [SpaceRace.access, Handing.note, place, ready, Bool.false_eq_true, ↓reduceIte, ne_eq, length,
        not_true_eq_false, false_and]
      exact handed.leave (fun _ before => List.mem_append_left _ before)
        fun _ => List.mem_append_right _ (List.mem_singleton_self _)

/-- Any other step of the ring leaves the producers where they are. -/
theorem quiet (handed : HandedOver bits state) (spaced : Spaced modules bits state.race) {race : SpaceRace}
    {label : SpaceStep} (stepped : state.race.step label = some race)
    (others : ∀ producer wait, label ≠ .access producer wait)
    (careful : state.spoilsSlot (.race label) = false) :
    HandedOver bits { state with race := race, handing := state.handing.note state.race label } := by
  obtain ⟨producers, tail, noted⟩ : race.producers = state.race.producers ∧
      race.cursors.tail = state.race.cursors.tail ∧
        state.handing.note state.race label = state.handing := by
    cases SpaceRace.step_move stepped with
    | loadedTail producer wait | foundFull producer wait | foundRoom producer wait | took producer wait
      | waited producer wait | returned producer wait => exact absurd rfl (others producer wait)
    | unmapped | loadedLimit | added | refused | masked | filled => exact ⟨rfl, rfl, rfl⟩
  rw [noted]
  constructor
  case known =>
    rw [tail]
    exact handed.known
  case waiting =>
    intro producer taking
    obtain ⟨place, empty⟩ := handed.waiting producer taking
    refine ⟨producers ▸ place, SpaceRace.step_empty stepped (fun pktLen fills => ?_) empty⟩
    by_contra long
    subst fills
    have spoiled : state.spoilsSlot (.race (.fill
        (metaSlot state.race.ring (state.handing.took producer % 2 ^ bits)) pktLen)) = true := by
      simp only [PickingRace.spoilsSlot, Bool.and_eq_true, List.any_eq_true, spaced.getMetaCount_eq]
      exact ⟨decide_eq_true long, producer, taking, decide_eq_true rfl⟩
    rw [careful] at spoiled
    cases spoiled
  case given => exact handed.given

/-- A step that spoils no slot keeps the account. A turn of the loop collects a filled slot, which is
with none of the calls that have not returned. -/
theorem step (handed : HandedOver bits state) (picks : Picks modules bits reader ring state)
    (inside : reader < modules) (label : PickStep) (careful : state.spoilsSlot label = false)
    (stepped : state.step reader label = some next) : HandedOver bits next := by
  cases label with
  | race label =>
    simp only [PickingRace.step] at stepped
    split at stepped
    · cases stepped
    · obtain ⟨race, raced, rfl⟩ := Option.map_eq_some_iff.mp stepped
      cases label with
      | access producer wait =>
        cases raced
        exact handed.access picks.spaced producer wait careful
      | load id count => exact handed.quiet picks.spaced raced (by simp) careful
      | write id => exact handed.quiet picks.spaced raced (by simp) careful
      | fill slot pktLen => exact handed.quiet picks.spaced raced (by simp) careful
  | call =>
    simp only [PickingRace.step] at stepped
    split at stepped
    · split at stepped <;> cases stepped <;> exact ⟨handed.known, handed.waiting, handed.given⟩
    · cases stepped
  | pick =>
    simp only [PickingRace.step] at stepped
    split at stepped
    · cases stepped
    · cases stepped
      exact ⟨handed.known, handed.waiting, handed.given⟩
    · rename_i distance left
      split at stepped
      · rename_i ready
        cases stepped
        refine ⟨handed.known, handed.waiting, fun number below => ?_⟩
        rcases Nat.lt_succ_iff_lt_or_eq.mp below with before | rfl
        · exact handed.given number before
        · have reach := picks.reach
          have belowTail := picks.spaced.ordered.limit_le_tail reader inside
          rw [left, Option.getD_some] at reach
          refine (handed.known state.picked (by omega)).resolve_right ?_
          rintro ⟨producer, taking, isPicked⟩
          have empty := (handed.waiting producer taking).2
          rw [isPicked, ← picks.index, ready] at empty
          cases empty
      · cases stepped
        exact ⟨handed.known, handed.waiting, handed.given⟩

end HandedOver

/-! ## Runs -/

/-- What the reading module has: the slots of the positions taken first, each once and in their order,
none beyond its limit. The position that is taken next is none of those it still holds. -/
structure PickedInOrder (modules reader : Nat) (ring : Ring) (state : PickingRace) : Prop where
  inOrder : state.packets = (List.range state.picked).map
    (fun number => packetAt ring reader (number % getMetaCount state.race.ring))
  reached : state.picked ≤ limit modules state.race.cursors reader
  passed : state.race.cursors.passed reader ≤ state.picked
  notReused : ∀ number, state.race.cursors.passed reader ≤ number → number < state.picked →
    state.race.ring.global.tailPacket &&& state.race.ring.global.metaCount ≠
      number % getMetaCount state.race.ring

/-- Along every run in which no increment of the tail is overtaken, no load sees a cursor that
is not masked, and the reading module moves only over packets it has collected, the
batches collect the slots in the order in which their positions were taken. If besides no
step spoils a slot, each of them was returned by the call that took its position. -/
theorem picks_in_order {modules bits reader : Nat} {ring : Ring}
    (started : StartedSpace modules bits ring) (inside : reader < modules) (labels : List PickStep)
    (final : PickingRace)
    (careful : Runs.Meets (PickingRace.step reader)
      (fun state label => state.overtaken label = false ∧ state.readsUnmasked reader label = false ∧
        state.movesBeyond reader label = false)
      (PickingRace.start ring) labels)
    (ran : Runs.run (PickingRace.step reader) (PickingRace.start ring) labels = some final) :
    PickedInOrder modules reader ring final ∧
      (Runs.Meets (PickingRace.step reader) (fun state label => state.spoilsSlot label = false)
          (PickingRace.start ring) labels →
        ∀ number < final.picked, number ∈ final.handing.returned) := by
  have picks := Runs.run_invariant_meets (PickingRace.step reader)
    (fun state label => state.overtaken label = false ∧ state.readsUnmasked reader label = false ∧
      state.movesBeyond reader label = false)
    (Picks modules bits reader ring)
    (fun _ label _ picks careful stepped => picks.step inside label careful stepped)
    (PickingRace.start ring) final labels (Picks.start started) careful ran
  obtain ⟨reached, belowTail, room⟩ := picks.within inside
  have slots := picks.spaced.getMetaCount_eq
  refine ⟨?_, fun clean => ?_⟩
  · exact {
      inOrder := by rw [slots]; exact picks.collected
      reached := reached
      passed := picks.held.behind
      notReused := fun number held collected same => by
        rw [picks.spaced.maskedTail, slots] at same
        have equal := (mod_eq_iff (by omega) (by omega)).mp same.symm
        omega }
  · -- The account needs the order of the cursors, so the two invariants are carried together.
    have both := Runs.run_invariant_meets (PickingRace.step reader) _
      (fun state => Picks modules bits reader ring state ∧ HandedOver bits state)
      (fun _ label _ held careful stepped => ⟨held.1.step inside label careful.1 stepped,
        held.2.step held.1 inside label careful.2 stepped⟩)
      (PickingRace.start ring) final labels ⟨Picks.start started, HandedOver.start bits ring⟩
      (careful.and clean) ran
    exact both.2.given

/-- Two modules over eight slots. The agent collects a packet, moves over it while the next is
being filled, and collects that one with its second batch. -/
def twoBatches : List PickStep :=
  List.replicate 8 (.race (.access 0 false)) ++
    [.race (.fill 0 60), .call, .pick, .race (.access 1 false), .pick,
      .race (.load 1 1), .race (.write 1), .race (.fill 1 60), .race (.write 1),
      .call, .pick, .pick]

/-- Both packets were returned to their producer before it filled them. The second batch goes on
where the first one has ended. -/
theorem picks_in_order_two_batches :
    ∃ final, Runs.run (PickingRace.step 1) (PickingRace.start (freshRing 2 4 2 (2 ^ 3))) twoBatches =
        some final ∧
      final.packets.length = 2 ∧ final.handing.returned = [0, 1] ∧
      PickedInOrder 2 1 (freshRing 2 4 2 (2 ^ 3)) final ∧
      ∀ number < final.picked, number ∈ final.handing.returned := by
  have completes : (Runs.run (PickingRace.step 1) (PickingRace.start (freshRing 2 4 2 (2 ^ 3)))
      twoBatches).isSome = true := by decide
  have ran := (Option.some_get completes).symm
  obtain ⟨inOrder, given⟩ := picks_in_order (freshRing_startedSpace 2 4 2 3 (by decide)) (by decide)
    twoBatches _ (by decide) ran
  exact ⟨_, ran, by rfl, by rfl, inOrder, given (by decide)⟩

end OpenTaker
