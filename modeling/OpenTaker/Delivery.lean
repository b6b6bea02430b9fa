import OpenTaker.ClaimHistory

/-!
# Delivery of meta blocks to the modules

A module reads the ring through a `CPacketRing`, which keeps a private pick
position ahead of the module's cursor and a list of blocks picked but not yet
handed out. The list is refilled in batches, when it has run empty, with the
ready blocks up to the module's limit.

The system below has any number of capture threads that claim blocks and publish
them in any order, the modules, each of which moves once per block it has
received, and module 0, which frees blocks it has received.
-/

namespace OpenTaker

open CursorPipeline CyclicPositions

/-- The reading state of a `CPacketRing`: its cached list of blocks, and how far it has picked from
it. -/
structure Reader where
  metaBlkPickPos : Nat
  metaBlks : List Nat

/-- Refill an empty list with the next ready blocks. -/
def refill (ring : Ring) (id : Nat) (reader : Reader) : Reader :=
  match reader.metaBlks with
  | [] =>
      let (blocks, pickPos) := getNextMetaBlks ring id reader.metaBlkPickPos
      ⟨pickPos, blocks⟩
  | _ :: _ => reader

/-- `CPacketRing::GetNextFullMetaBlk`: the first block of the list that is kept, which is filled
again when it is empty, or NULL. -/
def getNextFullMetaBlk (ring : Ring) (id : Nat) (reader : Reader) : Option Nat × Reader :=
  let filled := refill ring id reader
  match filled.metaBlks with
  | [] => (none, filled)
  | block :: rest => (some block, { filled with metaBlks := rest })

/-- The ring, its readers and the history of claims and deliveries. -/
structure Delivery where
  ring : Ring
  cursors : Cursors
  readers : Nat → Reader
  /-- The blocks returned by claims, in order. -/
  claims : List Nat
  /-- The blocks each module has received, in order. -/
  received : Nat → List Nat
  /-- The status of each claim number. -/
  status : Nat → BlkStatus

/-- A started ring with fresh readers, on which nothing was claimed or delivered. -/
def Delivery.start (ring : Ring) : Delivery where
  ring := ring
  cursors := noCursors
  readers := fun _ => ⟨0, []⟩
  claims := []
  received := fun _ => []
  status := fun _ => .unclaimed

/-- One atomic step of a capture thread or of a module. -/
inductive DeliveryStep where
  /-- A capture thread calls `GetEmptyMetaBlk`. -/
  | claim
  /-- A capture thread publishes the block of one of its claims. -/
  | publish (number size : Nat)
  /-- A module calls `GetNextFullMetaBlk`. -/
  | receive (id : Nat)
  /-- A module calls `Move2NextMetaBlk(1)` for a block it has received. -/
  | move (id : Nat)
  /-- Module 0 frees a block it has received. -/
  | free (number : Nat)

/-- Perform one step. A step outside the discipline of its party is refused. -/
def Delivery.step (state : Delivery) : DeliveryStep → Option Delivery
  | .claim =>
      match getEmptyMetaBlk state.ring with
      | (some block, ring) =>
          some { state with
            ring := ring
            cursors := state.cursors.append
            claims := state.claims ++ [block]
            status := Function.update state.status state.cursors.tail .claimed }
      | (none, ring) => some { state with ring := ring }
  | .publish number size =>
      if state.status number = .claimed ∧ 0 < size ∧ size < 2 ^ 32 then
        some { state with
          ring := publishMetaBlk state.ring (state.claims.getD number 0) size
          status := Function.update state.status number .published }
      else none
  | .receive id =>
      if id < state.ring.global.index then
        match getNextFullMetaBlk state.ring id (state.readers id) with
        | (some block, reader) =>
            some { state with
              readers := Function.update state.readers id reader
              received := Function.update state.received id (state.received id ++ [block]) }
        | (none, reader) =>
            some { state with readers := Function.update state.readers id reader }
      else none
  | .move id =>
      if id < state.ring.global.index ∧ state.cursors.passed id < (state.received id).length then
        match move2NextMetaBlk state.ring id 1 with
        | (code, ring) =>
            some { state with
              ring := ring
              cursors := if 0 ≤ code then state.cursors.advance id 1 else state.cursors }
      else none
  | .free number =>
      if number < (state.received 0).length ∧ state.status number = .published then
        some { state with
          ring := freeFullMetaBlk state.ring ((state.received 0).getD number 0)
          status := Function.update state.status number .freed }
      else none

/-! ### What a step can have done -/

namespace Delivery

variable {state next : Delivery}

/-- What a publication has been: of a block that its owner has claimed, with a size that is not
zero. -/
theorem step_publish_iff {number size : Nat} :
    state.step (.publish number size) = some next ↔
      (state.status number = .claimed ∧ 0 < size ∧ size < 2 ^ 32) ∧
        next = { state with
          ring := publishMetaBlk state.ring (state.claims.getD number 0) size
          status := Function.update state.status number .published } := by
  simp only [step, Option.ite_none_right_eq_some, Option.some.injEq, @eq_comm _ next]

/-- A module that is handed no block adds nothing to what it has received. -/
theorem step_receive_iff {id : Nat} :
    state.step (.receive id) = some next ↔
      id < state.ring.global.index ∧
        next = { state with
          readers := Function.update state.readers id
            (getNextFullMetaBlk state.ring id (state.readers id)).2
          received := Function.update state.received id (state.received id ++
            (getNextFullMetaBlk state.ring id (state.readers id)).1.toList) } := by
  simp only [step, Option.ite_none_right_eq_some]
  obtain ⟨handed, reader⟩ := getNextFullMetaBlk state.ring id (state.readers id)
  cases handed with
  | some block => simp only [Option.some.injEq, Option.toList_some, @eq_comm _ next]
  | none =>
    simp only [Option.some.injEq, Option.toList_none, List.append_nil, Function.update_eq_self,
      @eq_comm _ next]

/-- What a move has been: over a block that the module has received, successful or not. -/
theorem step_move_iff {id : Nat} :
    state.step (.move id) = some next ↔
      (id < state.ring.global.index ∧ state.cursors.passed id < (state.received id).length) ∧
        next = { state with
          ring := (move2NextMetaBlk state.ring id 1).2
          cursors := if 0 ≤ (move2NextMetaBlk state.ring id 1).1 then state.cursors.advance id 1
            else state.cursors } := by
  simp only [step, Option.ite_none_right_eq_some, Option.some.injEq, @eq_comm _ next]

/-- What a free has been: of a block that module 0 has received and nobody has freed. -/
theorem step_free_iff {number : Nat} :
    state.step (.free number) = some next ↔
      (number < (state.received 0).length ∧ state.status number = .published) ∧
        next = { state with
          ring := freeFullMetaBlk state.ring ((state.received 0).getD number 0)
          status := Function.update state.status number .freed } := by
  simp only [step, Option.ite_none_right_eq_some, Option.some.injEq, @eq_comm _ next]

end Delivery

/-! ## What a reader takes from the ring -/

/-- A batch is the longest run of ready blocks within the distance. -/
theorem pickMetaBlks_spec (ring : Ring) (start distance : Nat) :
    ∃ count ≤ distance,
      pickMetaBlks ring distance (start % ring.global.metaBlkCount) =
        (blocksFrom ring.global.metaBlkCount start count,
          (start + count) % ring.global.metaBlkCount) ∧
      (∀ offset < count,
        (ring.metaBlk ((start + offset) % ring.global.metaBlkCount)).size ≠ 0) ∧
      (count < distance →
        (ring.metaBlk ((start + count) % ring.global.metaBlkCount)).size = 0) := by
  induction distance generalizing start with
  | zero => exact ⟨0, Nat.le_refl 0, by simp [pickMetaBlks, blocksFrom], by simp, by simp⟩
  | succ distance inductionHypothesis =>
    by_cases notReady : (ring.metaBlk (start % ring.global.metaBlkCount)).size = 0
    · exact ⟨0, Nat.zero_le _, by simp [pickMetaBlks, notReady, blocksFrom], by simp,
        fun _ => notReady⟩
    · obtain ⟨count, bound, picked, ready, stopped⟩ := inductionHypothesis (start + 1)
      refine ⟨count + 1, by omega, ?_, ?_, ?_⟩
      · rw [pickMetaBlks, if_neg notReady, advance_mod, picked, blocksFrom_cons]
        rw [Nat.add_right_comm, Nat.add_assoc]
      · intro offset inside
        cases offset with
        | zero => exact notReady
        | succ offset =>
          rw [← Nat.add_assoc, Nat.add_right_comm]
          exact ready offset (by omega)
      · intro short
        rw [← Nat.add_assoc, Nat.add_right_comm]
        exact stopped (by omega)

/-- From any position between a module's cursor and its limit, `GetNextMetaBlks`
picks the ready blocks that follow and stops at the limit or at a block that is
not ready. -/
theorem Represents.getNextMetaBlks_spec {modules blocks : Nat} {ring : Ring} {cursors : Cursors}
    (represents : Represents modules blocks ring cursors) (several : 2 ≤ blocks)
    (id start : Nat) (inside : id < modules) (ahead : cursors.passed id ≤ start)
    (within : start ≤ limit modules cursors id) :
    ∃ count, start + count ≤ limit modules cursors id ∧
      getNextMetaBlks ring id (start % blocks) =
        (blocksFrom blocks start count, (start + count) % blocks) ∧
      (∀ offset < count, (ring.metaBlk ((start + offset) % blocks)).size ≠ 0) ∧
      (start + count < limit modules cursors id →
        (ring.metaBlk ((start + count) % blocks)).size = 0) := by
  have belowTail := represents.ordered.limit_le_tail id inside
  have lap := represents.limit_within several id inside
  have limBound : limit modules cursors id % blocks < blocks := Nat.mod_lt _ (by omega)
  -- The modular distance is the distance of the positions.
  have distance :
      (if limit modules cursors id % blocks < start % blocks then
        u32 (limit modules cursors id % blocks + blocks - start % blocks)
       else limit modules cursors id % blocks - start % blocks) =
      limit modules cursors id - start := by
    have lapped : limit modules cursors id < start + blocks := by omega
    have corrected := lifted_mod within lapped
    have startBound : start % blocks < blocks := Nat.mod_lt _ (by omega)
    simp only [lifted] at corrected
    split
    · rename_i wrapped
      have bound := represents.narrow_of_wrapped _ _ within belowTail wrapped
      rw [if_pos wrapped] at corrected
      rw [u32_of_lt (by omega)]
      omega
    · rename_i straight
      rw [if_neg straight] at corrected
      omega
  obtain ⟨count, counted, picked, ready, stopped⟩ :=
    pickMetaBlks_spec ring start (limit modules cursors id - start)
  rw [represents.blockCount] at picked ready stopped
  refine ⟨count, by omega, ?_, ready, fun short => stopped (by omega)⟩
  simp only [getNextMetaBlks, represents.mapped id inside, not_true_eq_false, ↓reduceIte,
    represents.limPtr_eq id inside, getMetaBlkCount, represents.blockCount]
  rw [distance, picked]

/-- A reader's private state agrees with what it has received: the cached list
continues where the received blocks end, and the pick position where it ends. -/
structure Reading (blocks : Nat) (received : List Nat) (reader : Reader) : Prop where
  delivered : received = blocksFrom blocks 0 received.length
  cached : reader.metaBlks = blocksFrom blocks received.length reader.metaBlks.length
  pickPos : reader.metaBlkPickPos = (received.length + reader.metaBlks.length) % blocks

/-- Handing out the first cached block continues the received ones. -/
theorem Reading.handOut {blocks pickPos block : Nat} {received rest : List Nat}
    (reading : Reading blocks received ⟨pickPos, block :: rest⟩) :
    block = received.length % blocks ∧ Reading blocks (received ++ [block]) ⟨pickPos, rest⟩ := by
  have cached := reading.cached
  have whole := reading.delivered
  have position := reading.pickPos
  simp only [List.length_cons, blocksFrom_cons, List.cons.injEq] at cached position
  obtain ⟨next, following⟩ := cached
  refine ⟨next, ?_, ?_, ?_⟩
  · rw [List.length_append, List.length_singleton, blocksFrom_succ, ← whole, next]
  · simpa using following
  · simp only [List.length_append, List.length_singleton]
    rw [position, Nat.add_assoc, Nat.add_comm 1]

/-! ## The invariant -/

/-- How many claim numbers a module's reader has picked. -/
def Delivery.picked (state : Delivery) (id : Nat) : Nat :=
  (state.received id).length + (state.readers id).metaBlks.length

/-- The invariant of the system: the ring represents its cursors, and the readers, flags and
histories agree with them. -/
structure Delivering (modules blocks : Nat) (state : Delivery) : Prop where
  represents : Represents modules blocks state.ring state.cursors
  claimed : state.claims = blocksFrom blocks 0 state.cursors.tail
  reading : ∀ id < modules, Reading blocks (state.received id) (state.readers id)
  /-- A module moves behind what it has received and picks behind its limit. -/
  moved : ∀ id < modules, state.cursors.passed id ≤ (state.received id).length
  limited : ∀ id < modules, state.picked id ≤ limit modules state.cursors id
  /-- What has been picked had been published. -/
  ready : ∀ id < modules, ∀ number < state.picked id,
    state.status number = .published ∨ state.status number = .freed
  freed : ∀ number, state.status number = .freed → number < (state.received 0).length
  flagged : Flagged blocks state.cursors.tail state.ring.metaBlk state.status

/-- A started ring meets the invariant of a delivery, with nothing claimed and nothing received. -/
theorem Started.delivering {modules blocks : Nat} {ring : Ring}
    (started : Started modules blocks ring) : Delivering modules blocks (Delivery.start ring) where
  represents := started.represents
  claimed := rfl
  reading _ _ := ⟨rfl, rfl, by simp [Delivery.start]⟩
  moved _ _ := Nat.le_refl _
  limited _ _ := Nat.zero_le _
  ready _ _ number inside := absurd inside (Nat.not_lt_zero number)
  freed _ impossible := by cases impossible
  flagged := started.flagged

namespace Delivering

variable {modules blocks : Nat} {state : Delivery}

/-- What has been picked has been claimed: a module picks no further than the cursor it follows,
which the tail is never behind. -/
theorem picked_le_tail (delivering : Delivering modules blocks state) (id : Nat)
    (inside : id < modules) : state.picked id ≤ state.cursors.tail :=
  (delivering.limited id inside).trans (delivering.represents.ordered.limit_le_tail id inside)

/-- A claim that module 0 may have freed is behind every module. -/
theorem freed_lt (delivering : Delivering modules blocks state) (id number : Nat)
    (inside : id < modules) (freed : state.status number = .freed) :
    number < (state.received id).length := by
  have delivered := delivering.freed number freed
  by_cases last : id = 0
  · rwa [last]
  · have behind := delivering.represents.ordered.limit_last_le id inside last
    have limited := delivering.limited 0 (by omega)
    have moved := delivering.moved id inside
    simp only [Delivery.picked] at limited
    omega

/-- Between what module 0 has passed and the tail there is less than one lap. -/
theorem within_lap (delivering : Delivering modules blocks state) (several : 2 ≤ blocks)
    (id number : Nat) (inside : id < modules) (ahead : state.cursors.passed id ≤ number) :
    state.cursors.tail + 2 ≤ number + blocks := by
  have lastBehind := delivering.represents.ordered.last_le id inside
  have bounded := delivering.represents.ordered.bounded
  omega

/-- Between a module's cursor and its limit a block is ready exactly when it has
been published and not freed. -/
theorem size_iff (delivering : Delivering modules blocks state) (several : 2 ≤ blocks)
    (id number : Nat) (inside : id < modules) (ahead : state.cursors.passed id ≤ number)
    (within : number < limit modules state.cursors id) :
    (state.ring.metaBlk (number % blocks)).size ≠ 0 ↔ state.status number = .published := by
  have belowTail := delivering.represents.ordered.limit_le_tail id inside
  have lap := delivering.within_lap several id number inside ahead
  exact delivering.flagged.flag number (by omega) (by omega)

/-- A claim keeps the invariant, whether it gets a block or finds the ring full. -/
theorem claim (delivering : Delivering modules blocks state) (several : 3 ≤ blocks)
    (nonempty : 1 ≤ modules) (next : Delivery) (stepped : state.step .claim = some next) :
    Delivering modules blocks next := by
  simp only [Delivery.step,
    delivering.represents.getEmptyMetaBlk_eq (by omega) nonempty] at stepped
  by_cases free : state.cursors.tail < state.cursors.passed 0 + (blocks - 2) ∧
      blockInside blocks (state.cursors.tail % blocks) = true ∧
      (state.ring.metaBlk (state.cursors.tail % blocks)).size = 0
  · rw [if_pos free] at stepped
    cases stepped
    obtain ⟨room, inside, empty⟩ := free
    -- Module 0 has passed the claim of the earlier lap, so it had been published.
    have recycled : ∀ number, state.cursors.tail = number + blocks →
        state.status number = .freed := by
      intro number earlier
      have moved := delivering.moved 0 (by omega)
      have picked : number < state.picked 0 := by
        simp only [Delivery.picked]
        omega
      exact delivering.flagged.freed_of_empty (by omega) number earlier empty
        (delivering.ready 0 (by omega) number picked)
    constructor
    case represents => exact delivering.represents.claim room inside
    case claimed =>
      simp only [append_tail, blocksFrom_succ]
      rw [delivering.claimed]
    case reading => exact delivering.reading
    case moved => exact delivering.moved
    case limited =>
      intro id inside
      exact (delivering.limited id inside).trans (limit_le_append modules state.cursors id)
    case ready =>
      intro id inside number picked
      have old := delivering.picked_le_tail id inside
      have earlier : number ≠ state.cursors.tail := by
        have bound : number < state.picked id := picked
        omega
      simpa [earlier] using delivering.ready id inside number picked
    case freed =>
      intro number
      by_cases same : number = state.cursors.tail
      · simp [same]
      · simpa [same] using delivering.freed number
    case flagged =>
      exact delivering.flagged.append (by omega) (claimedBlock state.ring _) empty rfl recycled
  · rw [if_neg free] at stepped
    cases stepped
    exact delivering

/-- The number of a claim that is alive names its block. -/
theorem claims_getD (delivering : Delivering modules blocks state) (number : Nat)
    (claimed : state.status number ≠ .unclaimed) :
    state.claims.getD number 0 = number % blocks := by
  rw [delivering.claimed]
  apply blocksFrom_getD
  by_contra outside
  exact claimed ((delivering.flagged.unclaimed number).mpr (by omega))

/-- A publication keeps the invariant, in whatever order the claims are published. -/
theorem publish (delivering : Delivering modules blocks state) (number size : Nat)
    (next : Delivery) (stepped : state.step (.publish number size) = some next) :
    Delivering modules blocks next := by
  obtain ⟨⟨claimed, positive, -⟩, rfl⟩ := Delivery.step_publish_iff.mp stepped
  rw [delivering.claims_getD number (by simp [claimed])]
  constructor
  case represents => exact delivering.represents.setMetaBlk _ _
  case claimed => exact delivering.claimed
  case reading => exact delivering.reading
  case moved => exact delivering.moved
  case limited => exact delivering.limited
  case ready =>
    intro id inside other picked
    by_cases same : other = number
    · simp [same]
    · simpa [same] using delivering.ready id inside other picked
  case freed =>
    intro other
    by_cases same : other = number
    · simp [same]
    · simpa [same] using delivering.freed other
  case flagged =>
    exact delivering.flagged.rewrite number _ .published (.inl claimed) (.inl rfl)
      (by simpa using Nat.pos_iff_ne_zero.mp positive) rfl

/-- Freeing a block that module 0 has received keeps the invariant. -/
theorem free (delivering : Delivering modules blocks state) (nonempty : 1 ≤ modules)
    (number : Nat) (next : Delivery) (stepped : state.step (.free number) = some next) :
    Delivering modules blocks next := by
  obtain ⟨⟨delivered, published⟩, rfl⟩ := Delivery.step_free_iff.mp stepped
  have named : (state.received 0).getD number 0 = number % blocks := by
    rw [(delivering.reading 0 (by omega)).delivered]
    exact blocksFrom_getD blocks _ number delivered
  rw [named]
  constructor
  case represents => exact delivering.represents.setMetaBlk _ _
  case claimed => exact delivering.claimed
  case reading => exact delivering.reading
  case moved => exact delivering.moved
  case limited => exact delivering.limited
  case ready =>
    intro id inside other picked
    by_cases same : other = number
    · simp [same]
    · simpa [same] using delivering.ready id inside other picked
  case freed =>
    intro other
    by_cases same : other = number
    · simpa [same] using delivered
    · simpa [same] using delivering.freed other
  case flagged =>
    exact delivering.flagged.rewrite number _ .freed (.inr published) (.inr rfl) (by simp) rfl

/-- A module that has received more blocks than it has passed may move. -/
theorem move_eq (delivering : Delivering modules blocks state) (several : 2 ≤ blocks) (id : Nat)
    (inside : id < modules) (behind : state.cursors.passed id < (state.received id).length) :
    state.cursors.passed id + 1 ≤ limit modules state.cursors id ∧
      move2NextMetaBlk state.ring id 1 =
        ((((state.cursors.passed id + 1) % blocks : Nat) : Int),
          state.ring.setBlkPtr id ((state.cursors.passed id + 1) % blocks)) := by
  have limited := delivering.limited id inside
  have within : state.cursors.passed id + 1 ≤ limit modules state.cursors id := by
    simp only [Delivery.picked] at limited
    omega
  refine ⟨within, ?_⟩
  rw [delivering.represents.move_eq several id 1 inside (by decide), if_pos within]

/-- A move keeps the invariant, as it passes blocks that the module has received. -/
theorem move (delivering : Delivering modules blocks state) (several : 3 ≤ blocks) (id : Nat)
    (next : Delivery) (stepped : state.step (.move id) = some next) :
    Delivering modules blocks next := by
  obtain ⟨⟨registered, behind⟩, rfl⟩ := Delivery.step_move_iff.mp stepped
  have inside : id < modules := delivering.represents.registered ▸ registered
  obtain ⟨within, moved⟩ := delivering.move_eq (by omega) id inside behind
  simp only [moved, Int.natCast_nonneg, ↓reduceIte]
  constructor
  case represents => exact delivering.represents.move id 1 within
  case claimed => exact delivering.claimed
  case reading => exact delivering.reading
  case moved =>
    intro other bound
    by_cases same : other = id
    · subst same
      rw [advance_passed_self]
      exact behind
    · simpa [advance_passed_other state.cursors id other 1 same] using delivering.moved other bound
  case limited =>
    intro other bound
    exact (delivering.limited other bound).trans
      (limit_le_advance modules state.cursors other id 1)
  case ready => exact delivering.ready
  case freed => exact delivering.freed
  case flagged => exact delivering.flagged

/-- A reader's list after the refill is still in step with the ring; it is empty
only at the module's limit or at a block that is not ready. -/
theorem refill_spec (delivering : Delivering modules blocks state) (several : 2 ≤ blocks)
    (id : Nat) (inside : id < modules) :
    Reading blocks (state.received id) (refill state.ring id (state.readers id)) ∧
      (state.received id).length + (refill state.ring id (state.readers id)).metaBlks.length ≤
        limit modules state.cursors id ∧
      (∀ number, number < (state.received id).length +
          (refill state.ring id (state.readers id)).metaBlks.length →
        state.status number = .published ∨ state.status number = .freed) ∧
      ((refill state.ring id (state.readers id)).metaBlks = [] →
        (state.received id).length < limit modules state.cursors id →
        state.status (state.received id).length ≠ .published) := by
  have reading := delivering.reading id inside
  have limited := delivering.limited id inside
  have ready := delivering.ready id inside
  have moved := delivering.moved id inside
  simp only [Delivery.picked] at limited ready
  cases cached : (state.readers id).metaBlks with
  | cons block rest =>
    have kept : refill state.ring id (state.readers id) = state.readers id := by
      simp only [refill, cached]
    rw [kept]
    exact ⟨reading, limited, ready, fun vacant => by simp [cached] at vacant⟩
  | nil =>
    simp only [cached, List.length_nil, Nat.add_zero] at limited ready
    have start : (state.readers id).metaBlkPickPos = (state.received id).length % blocks := by
      rw [reading.pickPos, cached, List.length_nil, Nat.add_zero]
    obtain ⟨count, counted, picked, full, stopped⟩ :=
      delivering.represents.getNextMetaBlks_spec several id (state.received id).length inside
        moved limited
    have filled : refill state.ring id (state.readers id) =
        ⟨((state.received id).length + count) % blocks,
          blocksFrom blocks (state.received id).length count⟩ := by
      simp only [refill, cached, start, picked]
    rw [filled]
    simp only [blocksFrom_length]
    refine ⟨⟨reading.delivered, by simp, by simp⟩, counted, ?_, ?_⟩
    · intro number bound
      by_cases old : number < (state.received id).length
      · exact ready number old
      · obtain ⟨offset, rfl⟩ := Nat.exists_eq_add_of_le (Nat.le_of_not_lt old)
        have inBatch := full offset (by omega)
        exact .inl ((delivering.size_iff several id _ inside (by omega) (by omega)).mp inBatch)
    · intro vacant below published
      have none : count = 0 := by
        rw [← blocksFrom_length blocks (state.received id).length count, vacant, List.length_nil]
      subst none
      have empty := stopped below
      exact (delivering.size_iff several id _ inside moved below).mpr published empty

/-- `GetNextFullMetaBlk` hands out the next claim exactly when its block has been
published and the module's limit has passed it. -/
theorem getNextFullMetaBlk_eq (delivering : Delivering modules blocks state)
    (several : 2 ≤ blocks) (id : Nat) (inside : id < modules) :
    (getNextFullMetaBlk state.ring id (state.readers id)).1 =
      if (state.received id).length < limit modules state.cursors id ∧
          state.status (state.received id).length = .published then
        some ((state.received id).length % blocks)
      else none := by
  obtain ⟨reading, limited, ready, stopped⟩ := delivering.refill_spec several id inside
  simp only [getNextFullMetaBlk]
  cases filled : refill state.ring id (state.readers id) with
  | mk pickPos metaBlks =>
    rw [filled] at reading limited ready stopped
    cases metaBlks with
    | nil => exact (if_neg fun next => stopped rfl next.1 next.2).symm
    | cons block rest =>
      simp only [List.length_cons] at limited ready
      have notFreed : state.status (state.received id).length ≠ .freed := fun freed =>
        Nat.lt_irrefl _ (delivering.freed_lt id _ inside freed)
      have published := (ready (state.received id).length (by omega)).resolve_right notFreed
      rw [if_pos ⟨by omega, published⟩]
      exact congrArg some reading.handOut.1

/-- Receiving keeps the invariant, whether a block is handed out or not. -/
theorem receive (delivering : Delivering modules blocks state) (several : 3 ≤ blocks)
    (id : Nat) (next : Delivery) (stepped : state.step (.receive id) = some next) :
    Delivering modules blocks next := by
  obtain ⟨registered, rfl⟩ := Delivery.step_receive_iff.mp stepped
  have inside : id < modules := delivering.represents.registered ▸ registered
  obtain ⟨reading, limited, ready, -⟩ := delivering.refill_spec (by omega) id inside
  -- What is said of the receiving module in the new state.
  have updated : ∀ received reader, Reading blocks received reader →
      (state.received id).length ≤ received.length →
      received.length + reader.metaBlks.length =
        (state.received id).length + (refill state.ring id (state.readers id)).metaBlks.length →
      Delivering modules blocks { state with
        readers := Function.update state.readers id reader
        received := Function.update state.received id received } := by
    intro received reader inStep grows same
    have lengths : ∀ other, (state.received other).length ≤
        ((Function.update state.received id received) other).length := by
      intro other
      by_cases equal : other = id
      · subst equal
        simpa using grows
      · simp [equal]
    constructor
    case represents => exact delivering.represents
    case claimed => exact delivering.claimed
    case reading =>
      intro other bound
      by_cases equal : other = id
      · subst equal
        simpa using inStep
      · simpa [equal] using delivering.reading other bound
    case moved =>
      intro other bound
      exact (delivering.moved other bound).trans (lengths other)
    case limited =>
      intro other bound
      by_cases equal : other = id
      · subst equal
        simpa [Delivery.picked, same] using limited
      · simpa [Delivery.picked, equal] using delivering.limited other bound
    case ready =>
      intro other bound
      by_cases equal : other = id
      · subst equal
        simpa [Delivery.picked, same] using ready
      · simpa [Delivery.picked, equal] using delivering.ready other bound
    case freed =>
      intro number freed
      exact (delivering.freed number freed).trans_le (lengths 0)
    case flagged => exact delivering.flagged
  simp only [getNextFullMetaBlk]
  cases filled : refill state.ring id (state.readers id) with
  | mk pickPos metaBlks =>
    simp only [filled] at reading updated
    cases metaBlks with
    | nil =>
      refine updated _ _ ?_ (by simp) (by simp)
      rwa [Option.toList_none, List.append_nil]
    | cons block rest =>
      have handed := reading.handOut.2
      refine updated _ _ handed (by simp) ?_
      simp only [Option.toList_some, List.length_append, List.length_cons, List.length_nil]
      omega

end Delivering

/-! ## Runs -/

/-- Every step keeps the invariant, by the lemma for its kind. -/
theorem delivering_step {modules blocks : Nat} (several : 3 ≤ blocks) (nonempty : 1 ≤ modules)
    (state : Delivery) (label : DeliveryStep) (next : Delivery)
    (delivering : Delivering modules blocks state) (stepped : state.step label = some next) :
    Delivering modules blocks next := by
  cases label with
  | claim => exact delivering.claim several nonempty next stepped
  | publish number size => exact delivering.publish number size next stepped
  | receive id => exact delivering.receive several id next stepped
  | move id => exact delivering.move several id next stepped
  | free number => exact delivering.free nonempty number next stepped

/-- The invariant holds after every run, by the lemma for each step. What the claims say of
deliveries is read off from it. -/
theorem delivering_run {modules blocks : Nat} (several : 3 ≤ blocks) (nonempty : 1 ≤ modules)
    {ring : Ring} (started : Started modules blocks ring) (labels : List DeliveryStep)
    (final : Delivery) (ran : Runs.run Delivery.step (Delivery.start ring) labels = some final) :
    Delivering modules blocks final :=
  Runs.run_invariant Delivery.step (Delivering modules blocks)
    (fun state label next delivering stepped =>
      delivering_step several nonempty state label next delivering stepped)
    (Delivery.start ring) final labels started.delivering ran

/-- Delivery in one state of a run. The claims are the blocks 0, 1, 2, ... modulo
the number of blocks, and each carries its position. -/
structure DeliveredInOrder (modules blocks : Nat) (state : Delivery) : Prop where
  claimed : state.claims = blocksFrom blocks 0 state.cursors.tail
  placed : ∀ position ∈ state.claims, (state.ring.metaBlk position).blkPos = position
  /-- Each module has received the first claims, each once and in their order. -/
  delivered : ∀ id < modules, state.received id <+: state.claims
  /-- No block was received before it was published. -/
  published : ∀ id < modules, ∀ number < (state.received id).length,
    state.status number = .published ∨ state.status number = .freed
  /-- No block was received before the limit of the module had passed it. -/
  released : ∀ id < modules, (state.received id).length ≤ limit modules state.cursors id
  /-- The next block handed out is the next claim, and it is handed out as soon as
  it is published and released. -/
  next : ∀ id < modules, (getNextFullMetaBlk state.ring id (state.readers id)).1 =
    if (state.received id).length < limit modules state.cursors id ∧
        state.status (state.received id).length = .published then
      state.claims[(state.received id).length]?
    else none
  /-- Moving over a received block succeeds. -/
  moves : ∀ id < modules, state.cursors.passed id < (state.received id).length →
    0 ≤ (move2NextMetaBlk state.ring id 1).1

/-- In every run of claims, publications in any order, deliveries, moves over
received blocks and frees by module 0, every module receives the claimed blocks
in claim order, each exactly once. -/
theorem delivery_in_claim_order {modules blocks : Nat} {ring : Ring}
    (started : Started modules blocks ring) (nonempty : 1 ≤ modules) (several : 3 ≤ blocks)
    (labels : List DeliveryStep) (final : Delivery)
    (ran : Runs.run Delivery.step (Delivery.start ring) labels = some final) :
    DeliveredInOrder modules blocks final := by
  have delivering := delivering_run several nonempty started labels final ran
  have received : ∀ id < modules,
      (final.received id).length ≤ limit modules final.cursors id := by
    intro id inside
    have limited := delivering.limited id inside
    simp only [Delivery.picked] at limited
    omega
  constructor
  case claimed => exact delivering.claimed
  case placed =>
    intro position claimed
    rw [delivering.claimed, blocksFrom] at claimed
    obtain ⟨number, inside, rfl⟩ := List.mem_map.mp claimed
    exact delivering.flagged.placed number (by simpa using inside)
  case delivered =>
    intro id inside
    rw [delivering.claimed, (delivering.reading id inside).delivered]
    exact blocksFrom_prefix blocks
      ((received id inside).trans (delivering.represents.ordered.limit_le_tail id inside))
  case published =>
    intro id inside number bound
    exact delivering.ready id inside number (by simp only [Delivery.picked]; omega)
  case released => exact received
  case next =>
    intro id inside
    rw [delivering.getNextFullMetaBlk_eq (by omega) id inside]
    split
    · rename_i released
      have belowTail := delivering.represents.ordered.limit_le_tail id inside
      rw [delivering.claimed, blocksFrom_get blocks _ _ (by omega)]
    · rfl
  case moves =>
    intro id inside behind
    rw [(delivering.move_eq (by omega) id inside behind).2]
    exact Int.natCast_nonneg _

/-- Two capture threads publish in the opposite order of their claims; module 1
receives nothing until the first claim is published, then both. -/
theorem delivery_in_claim_order_two_modules :
    ∃ final, Runs.run Delivery.step (Delivery.start (freshRing 2 4 4 16))
        [.claim, .claim, .publish 1 2, .receive 1, .publish 0 3, .receive 1, .move 1,
          .receive 0, .receive 1, .free 0] = some final ∧
      DeliveredInOrder 2 4 final := by
  have completes : (Runs.run Delivery.step (Delivery.start (freshRing 2 4 4 16))
      [.claim, .claim, .publish 1 2, .receive 1, .publish 0 3, .receive 1, .move 1,
        .receive 0, .receive 1, .free 0]).isSome = true := by decide
  have ran := (Option.some_get completes).symm
  exact ⟨_, ran, delivery_in_claim_order (freshRing_started 2 4 4 16) (by decide)
    (by decide) _ _ ran⟩

end OpenTaker
