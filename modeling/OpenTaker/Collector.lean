import OpenTaker.Delivery

/-!
# The collector of the pipeline

The first stage of the pipeline takes the blocks of one `CPacketRing` and asserts for each
of them that its own counter `ringPos`, modulo the number of blocks, is the block's
position. The counter is a static `u_int32`. It starts from 0 again after a stop signal,
while the ring goes on where it is.

A ring that delivers its blocks in claim order delivers block `k` modulo the number of
blocks as the `k`-th one. The counter agrees with this as long as each start of the
pipeline finds the ring at block 0, and as long as it does not wrap, unless the number of
blocks divides `2 ^ 32`.
-/

namespace OpenTaker

/-- The static variables of `CCollectPacketTask::operator()`, which live through all runs of the
pipeline until a stop signal clears them. -/
structure Collector where
  ringPos : Nat
  isSeenStop : Bool
deriving DecidableEq

namespace Collector

/-- A collector as it is constructed for a pipeline run: it counts from zero, and has not seen the
stop signal. -/
def init : Collector := ⟨0, false⟩

/-- The collector's own test for the stop signal, made on the size of the block and on its
first packet. -/
def seesStop (curPackets : Nat) (firstPacket : PacketBasicAttr) : Bool :=
  curPackets == 1 && firstPacket.pktLen == 0 && firstPacket.ts == 0

/-- The assertion on a block that was handed out. -/
def inStep (collector : Collector) (metaBlockCount blkPos : Nat) : Bool :=
  collector.ringPos % metaBlockCount == blkPos

/-- One pass of the loop that is handed a block. -/
def collect (collector : Collector) (curPackets : Nat) (firstPacket : PacketBasicAttr) : Collector :=
  ⟨u32 (collector.ringPos + 1), collector.isSeenStop || seesStop curPackets firstPacket⟩

end Collector

/-- The collector over a ring that delivers its blocks in claim order. -/
structure Collecting where
  collector : Collector
  /-- The blocks delivered since the ring was initialised. -/
  delivered : Nat
  /-- What had been delivered when the pipeline was started last. -/
  started : Nat
  /-- No assertion has failed. -/
  asserted : Bool

/-- A pipeline at its first start, with nothing delivered and no assertion failed. -/
def Collecting.start : Collecting := ⟨.init, 0, 0, true⟩

/-- What happens to the collector: a pass with a block or without one, and a start of the pipeline
behind a stop. -/
inductive CollectingStep where
  /-- A pass finds no block. -/
  | idle
  /-- A pass is handed a block. -/
  | collect (curPackets : Nat) (firstPacket : PacketBasicAttr)
  /-- The call after the stop signal ends the pipeline, which is started again. -/
  | restart
deriving DecidableEq

namespace Collecting

/-- Perform one step. The loop runs until the stop signal has been seen. -/
def step (metaBlockCount : Nat) (state : Collecting) : CollectingStep → Option Collecting
  | .idle => if state.collector.isSeenStop then none else some state
  | .collect curPackets firstPacket =>
      if state.collector.isSeenStop then none
      else some
        { state with
          collector := state.collector.collect curPackets firstPacket
          delivered := state.delivered + 1
          asserted := state.asserted &&
            state.collector.inStep metaBlockCount (state.delivered % metaBlockCount) }
  | .restart =>
      if state.collector.isSeenStop then
        some { state with collector := .init, started := state.delivered }
      else none

/-- A block is collected only in a cycle of the pipeline that found the ring at block 0,
and only as one of its first `2 ^ 32` blocks unless their number divides `2 ^ 32`. -/
def Aligned (metaBlockCount : Nat) (state : Collecting) : CollectingStep → Prop
  | .collect _ _ =>
      state.collector.isSeenStop = false →
        state.started % metaBlockCount = 0 ∧
          (state.delivered < state.started + 2 ^ 32 ∨ 2 ^ 32 % metaBlockCount = 0)
  | _ => True

/-- The counter counts the blocks of the cycle, and so far every block was aligned. -/
structure InStep (metaBlockCount : Nat) (state : Collecting) : Prop where
  asserted : state.asserted = true
  counted : state.collector.ringPos = (state.delivered - state.started) % 2 ^ 32
  since : state.started ≤ state.delivered
  aligned : state.started < state.delivered → state.started % metaBlockCount = 0
  unwrapped : state.delivered ≤ state.started + 2 ^ 32 ∨ 2 ^ 32 % metaBlockCount = 0

variable {metaBlockCount : Nat} {state next : Collecting}

/-- Before the first block the counter agrees with the blocks delivered, as both are zero. -/
theorem inStep_start : InStep metaBlockCount start := by
  constructor <;> simp [start, Collector.init]

namespace InStep

/-- A multiple of the number of blocks shows in no position. -/
theorem mod_of_aligned {start count : Nat} (aligned : start % metaBlockCount = 0) :
    (start + count) % metaBlockCount = count % metaBlockCount := by
  rw [Nat.add_mod, aligned, Nat.zero_add, Nat.mod_mod]

/-- An aligned block is at the position the counter expects. -/
theorem agrees (inStep : InStep metaBlockCount state) (aligned : state.started % metaBlockCount = 0)
    (unwrapped : state.delivered < state.started + 2 ^ 32 ∨ 2 ^ 32 % metaBlockCount = 0) :
    state.collector.ringPos % metaBlockCount = state.delivered % metaBlockCount := by
  obtain ⟨count, counted⟩ := Nat.exists_eq_add_of_le inStep.since
  have ringPos := inStep.counted
  rw [counted, Nat.add_sub_cancel_left] at ringPos
  rw [ringPos, counted, mod_of_aligned aligned]
  rcases unwrapped with short | divides
  · have small : count < 2 ^ 32 := by omega
    rw [Nat.mod_eq_of_lt small]
  · exact Nat.mod_mod_of_dvd count (Nat.dvd_of_mod_eq_zero divides)

/-- The first block that is not aligned is not where the counter expects it. -/
theorem disagrees (inStep : InStep metaBlockCount state)
    (misaligned : ¬ (state.started % metaBlockCount = 0 ∧
      (state.delivered < state.started + 2 ^ 32 ∨ 2 ^ 32 % metaBlockCount = 0))) :
    state.collector.ringPos % metaBlockCount ≠ state.delivered % metaBlockCount := by
  have ringPos := inStep.counted
  by_cases aligned : state.started % metaBlockCount = 0
  · have wraps : ¬ (state.delivered < state.started + 2 ^ 32 ∨ 2 ^ 32 % metaBlockCount = 0) :=
      fun unwrapped => misaligned ⟨aligned, unwrapped⟩
    obtain ⟨late, undivided⟩ := not_or.mp wraps
    have bound := inStep.unwrapped.resolve_right undivided
    have lap : state.delivered = state.started + 2 ^ 32 := by omega
    rw [lap, Nat.add_sub_cancel_left, Nat.mod_self] at ringPos
    rw [ringPos, lap, mod_of_aligned aligned, Nat.zero_mod]
    exact Ne.symm undivided
  · have first : state.delivered = state.started := by
      have since := inStep.since
      by_contra later
      exact aligned (inStep.aligned (by omega))
    rw [first, Nat.sub_self, Nat.zero_mod] at ringPos
    rw [ringPos, first, Nat.zero_mod]
    exact Ne.symm aligned

/-- A block that is collected in an aligned step keeps the counter in step with the ring. -/
theorem collect (inStep : InStep metaBlockCount state) {curPackets : Nat}
    {firstPacket : PacketBasicAttr} (aligned : state.Aligned metaBlockCount (.collect curPackets firstPacket))
    (stepped : state.step metaBlockCount (.collect curPackets firstPacket) = some next) :
    InStep metaBlockCount next := by
  simp only [step, Option.ite_none_left_eq_some, Option.some.injEq, Bool.not_eq_true] at stepped
  obtain ⟨running, rfl⟩ := stepped
  obtain ⟨atStart, unwrapped⟩ := aligned running
  have since := inStep.since
  constructor
  case asserted =>
    simp only [inStep.asserted, Bool.true_and, Collector.inStep, beq_iff_eq]
    exact inStep.agrees atStart unwrapped
  case counted =>
    simp only [Collector.collect, u32, inStep.counted]
    omega
  case since => exact Nat.le_succ_of_le since
  case aligned => exact fun _ => atStart
  case unwrapped => exact unwrapped.imp_left fun short => short

/-- A step that collects aligned blocks only keeps the counter in step. -/
theorem step (inStep : InStep metaBlockCount state) {label : CollectingStep}
    (aligned : state.Aligned metaBlockCount label)
    (stepped : state.step metaBlockCount label = some next) : InStep metaBlockCount next := by
  cases label with
  | idle =>
    simp only [Collecting.step, Option.ite_none_left_eq_some, Option.some.injEq] at stepped
    exact stepped.2 ▸ inStep
  | collect curPackets firstPacket => exact inStep.collect aligned stepped
  | restart =>
    simp only [Collecting.step, Option.ite_none_right_eq_some, Option.some.injEq] at stepped
    obtain ⟨-, rfl⟩ := stepped
    constructor
    case asserted => exact inStep.asserted
    case counted => simp [Collector.init]
    case since => exact Nat.le_refl _
    case aligned => exact fun impossible => absurd impossible (Nat.lt_irrefl _)
    case unwrapped => exact .inl (Nat.le_add_right _ _)

end InStep

/-- The assertion never fails in exactly the runs that collect aligned blocks only: the counter of
the collector starts from zero with each cycle, and the ring does not. -/
theorem asserted_throughout_iff (metaBlockCount : Nat) (labels : List CollectingStep) :
    Runs.Throughout (step metaBlockCount) (fun state => state.asserted = true) start labels ↔
      Runs.Meets (step metaBlockCount) (Aligned metaBlockCount) start labels := by
  apply Runs.throughout_iff_meets (step metaBlockCount) _ (InStep metaBlockCount)
  · exact fun _ inStep => inStep.asserted
  · exact fun _ _ _ inStep aligned stepped => inStep.step aligned stepped
  · intro state label misaligned
    cases label with
    | idle => exact absurd trivial misaligned
    | restart => exact absurd trivial misaligned
    | collect curPackets firstPacket =>
      have running : state.collector.isSeenStop = false := (Classical.not_imp.mp misaligned).1
      simp [step, running]
  · intro state label next inStep misaligned stepped
    cases label with
    | idle => exact absurd trivial misaligned
    | restart => exact absurd trivial misaligned
    | collect curPackets firstPacket =>
      obtain ⟨running, outOfStep⟩ := Classical.not_imp.mp misaligned
      simp only [step, running, Bool.false_eq_true, if_false, Option.some.injEq] at stepped
      subst stepped
      simp only [inStep.asserted, Bool.true_and, Collector.inStep, beq_iff_eq]
      exact inStep.disagrees outOfStep
  · exact inStep_start

/-- A stop signal that is not the last block of a lap makes the next start fail: with four
blocks, the block after one stop signal is at position 1, and the counter is at 0. -/
theorem restart_out_of_step :
    ∃ final, Runs.run (step 4) start
        [.collect 1 PacketBasicAttr.zero, .restart, .collect 1 PacketBasicAttr.zero] = some final ∧
      final.asserted = false :=
  ⟨_, rfl, rfl⟩

end Collecting

/-! ## The collector on the ring

The collector is the module that receives the blocks of one reader of the ring. Its runs
are runs of the collector above: the ring delivers its blocks in claim order. What the
first packet of a block holds is left open. -/

/-- The ring with its collector: the deliveries of the ring, and what the collector has counted of
them. -/
structure CollectingRing where
  delivery : Delivery
  collector : Collector
  started : Nat
  asserted : Bool

/-- A started ring with a pipeline at its first start. -/
def CollectingRing.start (ring : Ring) : CollectingRing := ⟨.start ring, .init, 0, true⟩

/-- One step of the ring's other parties or of the collector. -/
inductive CollectingRingStep where
  | others (label : DeliveryStep)
  /-- One pass of the loop. -/
  | pass (firstPacket : PacketBasicAttr)
  | restart

namespace CollectingRing

/-- One pass of the loop: `GetNextFullMetaBlk`, and what follows for a block. -/
def pass (id : Nat) (state : CollectingRing) (firstPacket : PacketBasicAttr)
    (received : Delivery) : CollectingRing :=
  let ring := state.delivery.ring
  match (getNextFullMetaBlk ring id (state.delivery.readers id)).1 with
  | none => { state with delivery := received }
  | some position =>
      let block := ring.metaBlk position
      { state with
        delivery := received
        collector := state.collector.collect block.size firstPacket
        asserted := state.asserted &&
          state.collector.inStep (getMetaBlkCount ring) block.blkPos }

/-- Perform one step. Only the collector receives for its module. -/
def step (id : Nat) (state : CollectingRing) : CollectingRingStep → Option CollectingRing
  | .others label =>
      match label with
      | .receive other =>
          if other = id then none
          else (state.delivery.step label).map fun delivery => { state with delivery := delivery }
      | _ => (state.delivery.step label).map fun delivery => { state with delivery := delivery }
  | .pass firstPacket =>
      if state.collector.isSeenStop then none
      else (state.delivery.step (.receive id)).map (state.pass id firstPacket)
  | .restart =>
      if state.collector.isSeenStop then
        some { state with
          collector := .init
          started := (state.delivery.received id).length }
      else none

/-- The ring is where it should be, and the collector over it is the one above. -/
structure Shows (modules blocks id : Nat) (state : CollectingRing) (shown : Collecting) : Prop where
  delivering : Delivering modules blocks state.delivery
  collector : shown.collector = state.collector
  delivered : shown.delivered = (state.delivery.received id).length
  started : shown.started = state.started
  asserted : shown.asserted = state.asserted

variable {modules blocks id : Nat} {state next : CollectingRing} {shown : Collecting}

/-- The collector over a started ring shows the abstract one at its start. -/
theorem shows_start {ring : Ring} (started : Started modules blocks ring) :
    Shows modules blocks id (start ring) .start := ⟨started.delivering, rfl, rfl, rfl, rfl⟩

/-- What a module has received changes only when it receives. -/
theorem received_of_others {state next : Delivery} {label : DeliveryStep}
    (others : label ≠ .receive id) (stepped : state.step label = some next) :
    next.received id = state.received id := by
  cases label with
  | claim =>
    simp only [Delivery.step] at stepped
    split at stepped <;> cases stepped <;> rfl
  | publish number size =>
    obtain ⟨-, rfl⟩ := Delivery.step_publish_iff.mp stepped
    rfl
  | receive other =>
    have distinct : id ≠ other := fun same => others (same ▸ rfl)
    obtain ⟨-, rfl⟩ := Delivery.step_receive_iff.mp stepped
    exact Function.update_of_ne distinct _ _
  | move other =>
    obtain ⟨-, rfl⟩ := Delivery.step_move_iff.mp stepped
    rfl
  | free number =>
    obtain ⟨-, rfl⟩ := Delivery.step_free_iff.mp stepped
    rfl

/-- The reader of a module that is handed a block has received one more. -/
theorem received_of_receive {state next : Delivery}
    (stepped : state.step (.receive id) = some next) :
    next.received id =
      state.received id ++ (getNextFullMetaBlk state.ring id (state.readers id)).1.toList := by
  obtain ⟨-, rfl⟩ := Delivery.step_receive_iff.mp stepped
  exact Function.update_self _ _ _

namespace Shows

/-- A step of another party is no step of the collector. -/
theorem others (shows : Shows modules blocks id state shown) (several : 3 ≤ blocks)
    (nonempty : 1 ≤ modules) {label : DeliveryStep} (others : label ≠ .receive id)
    {delivery : Delivery} (stepped : state.delivery.step label = some delivery) :
    Shows modules blocks id { state with delivery := delivery } shown where
  delivering := delivering_step several nonempty _ label _ shows.delivering stepped
  collector := shows.collector
  delivered := by rw [received_of_others others stepped, shows.delivered]
  started := shows.started
  asserted := shows.asserted

/-- A pass is a pass of the collector over blocks that come in claim order. -/
theorem pass (shows : Shows modules blocks id state shown) (several : 3 ≤ blocks)
    (nonempty : 1 ≤ modules) (inside : id < modules) (firstPacket : PacketBasicAttr)
    (running : state.collector.isSeenStop = false) {delivery : Delivery}
    (stepped : state.delivery.step (.receive id) = some delivery) :
    ∃ label after, shown.step blocks label = some after ∧
      Shows modules blocks id (state.pass id firstPacket delivery) after := by
  have delivering := shows.delivering
  have kept := delivering_step several nonempty _ _ _ delivering stepped
  have received := received_of_receive stepped
  have shownRunning : shown.collector.isSeenStop = false := by rw [shows.collector, running]
  have handed := delivering.getNextFullMetaBlk_eq (by omega) id inside
  cases block : (getNextFullMetaBlk state.delivery.ring id (state.delivery.readers id)).1 with
  | none =>
    rw [block, Option.toList_none, List.append_nil] at received
    refine ⟨.idle, shown, by simp [Collecting.step, shownRunning], ?_⟩
    simp only [CollectingRing.pass, block]
    exact ⟨kept, shows.collector, by rw [received, shows.delivered], shows.started, shows.asserted⟩
  | some position =>
    rw [block, Option.toList_some] at received
    rw [block, eq_comm, Option.ite_none_right_eq_some, Option.some.injEq] at handed
    obtain ⟨⟨released, -⟩, place⟩ := handed
    have claimed : (state.delivery.received id).length < state.delivery.cursors.tail :=
      released.trans_le (delivering.represents.ordered.limit_le_tail id inside)
    have blkPos : (state.delivery.ring.metaBlk position).blkPos = shown.delivered % blocks := by
      rw [← place, delivering.flagged.placed _ claimed, shows.delivered]
    refine ⟨.collect (state.delivery.ring.metaBlk position).size firstPacket, _,
      if_neg (by simp only [shownRunning, Bool.false_eq_true, not_false_eq_true]), ?_⟩
    simp only [CollectingRing.pass, block]
    constructor
    case delivering => exact kept
    case collector => simp only [shows.collector]
    case delivered => simp only [received, List.length_append, List.length_singleton, shows.delivered]
    case started => exact shows.started
    case asserted =>
      simp only [getMetaBlkCount, delivering.represents.blockCount, blkPos, shows.asserted,
        shows.collector]

/-- Each step on the ring is matched by at most one step of the collector. -/
theorem step (shows : Shows modules blocks id state shown) (several : 3 ≤ blocks)
    (nonempty : 1 ≤ modules) (inside : id < modules) {label : CollectingRingStep}
    (stepped : state.step id label = some next) :
    ∃ labels after, Runs.run (Collecting.step blocks) shown labels = some after ∧
      Shows modules blocks id next after := by
  cases label with
  | others label =>
    have foreign : label ≠ .receive id ∧
        ∃ delivery, state.delivery.step label = some delivery ∧
          { state with delivery := delivery } = next := by
      simp only [CollectingRing.step] at stepped
      split at stepped
      · rename_i other
        rw [Option.ite_none_left_eq_some, Option.map_eq_some_iff] at stepped
        exact ⟨fun same => stepped.1 (DeliveryStep.receive.inj same), stepped.2⟩
      · rename_i unlike
        exact ⟨unlike id, Option.map_eq_some_iff.mp stepped⟩
    obtain ⟨others, delivery, taken, rfl⟩ := foreign
    exact ⟨[], shown, rfl, shows.others several nonempty others taken⟩
  | pass firstPacket =>
    simp only [CollectingRing.step, Option.ite_none_left_eq_some, Option.map_eq_some_iff,
      Bool.not_eq_true] at stepped
    obtain ⟨running, delivery, taken, rfl⟩ := stepped
    obtain ⟨label, after, matched, related⟩ :=
      shows.pass several nonempty inside firstPacket running taken
    exact ⟨[label], after, (Runs.run_cons _ _ _ _ _).mpr ⟨after, matched, rfl⟩, related⟩
  | restart =>
    simp only [CollectingRing.step, Option.ite_none_right_eq_some, Option.some.injEq] at stepped
    obtain ⟨seen, rfl⟩ := stepped
    have shownSeen : shown.collector.isSeenStop = true := by rw [shows.collector, seen]
    refine ⟨[.restart], { shown with collector := .init, started := shown.delivered }, ?_, ?_⟩
    · simp only [Runs.run, Collecting.step, shownSeen, if_true, Option.bind_some]
    · exact ⟨shows.delivering, rfl, shows.delivered, shows.delivered, shows.asserted⟩

end Shows

/-- Every run of a collector on a started ring is a run of the collector over blocks that
come in claim order, with the same assertions. -/
theorem simulated {ring : Ring} (started : Started modules blocks ring) (several : 3 ≤ blocks)
    (nonempty : 1 ≤ modules) (inside : id < modules) (labels : List CollectingRingStep)
    (final : CollectingRing) (ran : Runs.run (step id) (start ring) labels = some final) :
    ∃ matching after, Runs.run (Collecting.step blocks) .start matching = some after ∧
      Shows modules blocks id final after :=
  Runs.simulates (step id) (Collecting.step blocks) (Shows modules blocks id)
    (fun _ _ _ _ shows stepped => shows.step several nonempty inside stepped)
    (start ring) final labels .start (shows_start started) ran

end CollectingRing

end OpenTaker
