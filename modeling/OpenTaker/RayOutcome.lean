import OpenTaker.RayRuns

/-!
# What the pipeline does with the packets

The results about whole runs of the pipeline. What a task calls for a block is what the block
was published with, decoded, and checked packet by packet. A packet that is read beyond its end
may be decoded differently by what is behind it, and any other packet may not. Blocks in the
pipeline are neither freed nor claimed again, and whatever is inside can be brought to its end.
-/

namespace OpenTaker

open TokenPipelines CursorPipeline

/-- The numbers of the claims whose tokens a task has taken, in the order in which it took them. -/
def Ray.taken (state : Ray) (stage : Nat) : List Nat := (state.line.logs stage).map Ticket.number

/-- How many filters the tokens inside have still before them, the return task included. -/
def Ray.remaining (tasks : List PipelineTask) (state : Ray) : Nat :=
  (state.line.live.map fun token => tasks.length + 1 - token.2).sum

namespace RayOk

variable {modules blocks capacity slots id start : Nat} {tasks : List PipelineTask} {state next : Ray}

/-- The numbers of what has entered count from zero, as the collector takes the blocks in their
order. -/
theorem entered_numbers (ok : RayOk modules blocks capacity slots id start tasks state) :
    state.line.entered.map Ticket.number = List.range (state.delivery.received id).length := by
  rw [ok.numbered, List.map_map]
  exact List.map_id _

/-- The tokens that have left are the first ones. -/
theorem gone_numbers (ok : RayOk modules blocks capacity slots id start tasks state) :
    state.line.gone.map Ticket.number = List.range state.line.gone.length := by
  have entered := ok.entered_numbers
  obtain ⟨-, balance⟩ := ok.entered_length
  rw [Line.entered, List.map_append] at entered
  have front := congrArg (List.take state.line.gone.length) entered
  rwa [List.take_left' (List.length_map _), List.take_range,
    Nat.min_eq_left (by omega)] at front

/-- The live tokens are the others: they follow those that have left, without a gap. -/
theorem live_numbers (ok : RayOk modules blocks capacity slots id start tasks state) :
    state.line.live.map (fun token => token.1.number) =
      List.range' state.line.gone.length state.line.live.length := by
  apply List.ext_getElem?
  intro index
  cases here : state.line.live[index]? with
  | none =>
    rw [List.getElem?_map, here, List.getElem?_eq_none]
    · rfl
    · simpa using List.getElem?_eq_none_iff.mp here
  | some token =>
    have inside := (List.getElem?_eq_some_iff.mp here).1
    rw [List.getElem?_map, here, Option.map_some, List.getElem?_range' inside, (ok.live_at here).1]
    simp

end RayOk

/-- What a task has taken, and what it called. -/
structure Served (start : Nat) (tasks : List PipelineTask) (received gone stage : Nat) (state : Ray) :
    Prop where
  /-- No block is taken twice, and none that was not received. -/
  once : (state.taken stage).Nodup
  received : ∀ number ∈ state.taken stage, number < received
  /-- A serial task takes the blocks in the order of their claims. -/
  inOrder : Ray.serial tasks stage = true → state.taken stage = List.range (state.taken stage).length
  /-- A block whose token has left was taken. -/
  complete : ∀ number < gone, number ∈ state.taken stage
  /-- The calls for a block are made of what it was published with. -/
  called : ∀ number ∈ state.taken stage,
    CallsFor start tasks stage (state.sent number) (state.calls stage number)
  uncalled : ∀ number, number ∉ state.taken stage → state.calls stage number = none

/-- The invariant says of each task what `Served` asks: the logs of the line give the order, and the
calls were noted when they were made. -/
theorem RayOk.served {modules blocks capacity slots id start : Nat} {tasks : List PipelineTask}
    {state : Ray} (ok : RayOk modules blocks capacity slots id start tasks state) (stage : Nat)
    (within : stage < tasks.length) :
    Served start tasks (state.delivery.received id).length state.line.gone.length stage state := by
  constructor
  case once =>
    have entered : (state.line.entered.map Ticket.number).Nodup := by
      rw [ok.entered_numbers]
      exact List.nodup_range
    obtain ⟨part, perm, sublist⟩ := ok.logged.log_subperm stage within
    exact (perm.map Ticket.number).nodup_iff.mp ((sublist.map Ticket.number).nodup entered)
  case received =>
    intro number member
    obtain ⟨ticket, logged, rfl⟩ := List.mem_map.mp member
    exact ok.logged_lt within logged
  case inOrder =>
    intro isSerial
    have front := (ok.logged.log_first stage within isSerial).map Ticket.number
    rw [ok.entered_numbers] at front
    rw [Ray.taken]
    exact (List.prefix_iff_eq_take.mp front).trans (by
      rw [List.take_range, Nat.min_eq_left]
      simpa using front.length_le)
  case complete =>
    intro number below
    have member : number ∈ state.line.gone.map Ticket.number := by
      rw [ok.gone_numbers]
      exact List.mem_range.mpr below
    obtain ⟨ticket, left, rfl⟩ := List.mem_map.mp member
    exact List.mem_map_of_mem (ok.logged.log_of_gone stage within ticket left)
  case called =>
    intro number member
    obtain ⟨ticket, logged, rfl⟩ := List.mem_map.mp member
    exact ok.called stage within ticket logged
  case uncalled =>
    intro number free
    refine ok.uncalled stage number fun ticket logged same => free ?_
    rw [← same]
    exact List.mem_map_of_mem logged

/-! ## Draining -/

/-- No packet that the pipeline has still before it is read beyond its end. -/
def Ray.Decodable (start : Nat) (state : Ray) : Prop :=
  ∀ token ∈ state.line.live, ∀ packet ∈ (state.sent token.1.number).packets, ∀ times,
    (recordAfter start (state.sent token.1.number).type packet times).isSome

namespace RayOk

variable {modules blocks capacity slots id start : Nat} {tasks : List PipelineTask} {state next : Ray}

/-- The oldest token may pass every filter, also a serial one, as none stands in front of it. -/
theorem oldest_mayPass {ticket : Ticket} {stage : Nat} (oldest : state.line.live.head? = some (ticket, stage))
    (within : stage < tasks.length) :
    state.line.MayPass (Ray.serial tasks) tasks.length 0 (ticket, stage) := by
  refine ⟨by rw [← oldest, List.head?_eq_getElem?], within, fun _ earlier member => ?_⟩
  rw [List.take_zero] at member
  exact absurd member List.not_mem_nil

/-- The task of the oldest token runs, whatever is behind the packets, unless one of them is read beyond
its end. -/
theorem oldest_runs (ok : RayOk modules blocks capacity slots id start tasks state) (inside : id < modules)
    (other : id ≠ 0) (decodable : state.Decodable start) {ticket : Ticket} {stage : Nat}
    (oldest : state.line.live.head? = some (ticket, stage)) (within : stage < tasks.length)
    (behind : Nat → List UInt8) :
    ∃ ring made, state.runNext tasks 0 behind = some { state.setRing ring with
      line := state.line.pass 0 (ticket, stage)
      calls := Function.update state.calls stage
        (Function.update (state.calls stage) ticket.number made) } := by
  have may := oldest_mayPass oldest within
  have member := List.mem_of_getElem? may.1
  obtain ⟨⟨rest, isToken⟩, holding⟩ := ok.live_holds inside other member
  have isTask : tasks[stage]? = some tasks[stage] := List.getElem?_eq_getElem within
  have runs : ∃ ring made, runTask tasks[stage] state.packets behind state.ring
      (state.tokens ticket.obj) = some (ring, made) := by
    rw [isToken]
    cases tasks[stage] with
    | basic isSerial =>
      obtain ⟨ring, decoded⟩ := Option.isSome_iff_exists.mp
        (holding.basicProcessTask_isSome behind rest fun packet ofBlock => decodable _ member packet ofBlock _)
      exact ⟨ring, none, by rw [runTask, decoded, Option.map_some]⟩
    | app app => exact ⟨state.ring, _, by rw [runTask, holding.appTask_eq, Option.map_some]⟩
  obtain ⟨ring, made, ran⟩ := runs
  refine ⟨ring, made, ?_⟩
  have first := may.1
  simp only [Ray.runNext, first, may, if_true, isTask, Option.bind_some, ran, Option.map_some]

end RayOk

/-- A step of the tasks alone, after which less is left to do. -/
structure GoesOn (start : Nat) (tasks : List PipelineTask) (state next : Ray) : Prop where
  fewer : next.remaining tasks < state.remaining tasks
  received : next.delivery.received = state.delivery.received
  sent : next.sent = state.sent
  decodable : next.Decodable start

namespace RayOk

variable {modules blocks capacity slots id start : Nat} {tasks : List PipelineTask} {state next : Ray}

/-- As long as something is inside, the oldest token goes on. -/
theorem goesOn (ok : RayOk modules blocks capacity slots id start tasks state) (several : 3 ≤ blocks)
    (inside : id < modules) (other : id ≠ 0) (decodable : state.Decodable start)
    (occupied : state.line.live ≠ []) (behind : Nat → List UInt8) :
    ∃ label next, (label = .task 0 behind ∨ label = .giveBack) ∧ state.step id tasks label = some next ∧
      GoesOn start tasks state next := by
  obtain ⟨⟨ticket, stage⟩, rest, live⟩ := List.exists_cons_of_ne_nil occupied
  have oldest : state.line.live.head? = some (ticket, stage) := by rw [live, List.head?_cons]
  have staged : stage ≤ tasks.length :=
    ok.logged.staged (ticket, stage) (by rw [live]; exact List.mem_cons_self)
  have older : ∀ token ∈ rest, token ∈ state.line.live := by
    intro token member
    rw [live]
    exact List.mem_cons_of_mem _ member
  by_cases within : stage < tasks.length
  · obtain ⟨ring, made, ran⟩ := ok.oldest_runs inside other decodable oldest within behind
    refine ⟨.task 0 behind, _, .inl rfl, ran, ?_, rfl, rfl, ?_⟩
    · simp only [Ray.remaining, Line.pass, live, List.set_cons_zero, List.map_cons, List.sum_cons]
      omega
    · intro token member
      simp only [Line.pass, live, List.set_cons_zero, List.mem_cons] at member
      rcases member with rfl | old
      · exact decodable (ticket, stage) (List.mem_of_mem_head? oldest)
      · exact decodable token (older token old)
  · obtain rfl : stage = tasks.length := by omega
    obtain ⟨delivery, -, -, received, -, given⟩ := ok.giveBack_eq several inside oldest
    refine ⟨.giveBack, _, .inr rfl, given, ?_, received, rfl, ?_⟩
    · simp only [Ray.remaining, Ray.setDelivery, Line.leave, live, List.tail_cons, List.map_cons,
        List.sum_cons]
      omega
    · intro token member
      simp only [Ray.setDelivery, Line.leave, live, List.tail_cons] at member
      exact decodable token (older token member)

/-- The tasks bring everything inside to its end, with no help from the other parties, whatever is behind
the packets. The induction is on a bound for what is left to do. -/
theorem drains (several : 3 ≤ blocks) (few : modules ≤ maxModuleCount)
    (addressable : slots * sizeofPacketMeta ≤ 2 ^ 32) (inside : id < modules) (other : id ≠ 0)
    (behind : Nat → List UInt8) :
    ∀ (bound : Nat) (state : Ray), RayOk modules blocks capacity slots id start tasks state →
      state.Decodable start → state.remaining tasks ≤ bound →
      ∃ labels drained, (∀ label ∈ labels, label = .task 0 behind ∨ label = .giveBack) ∧
        Runs.run (Ray.step id tasks) state labels = some drained ∧
        RayOk modules blocks capacity slots id start tasks drained ∧ drained.line.live = [] ∧
        drained.delivery.received = state.delivery.received ∧ drained.sent = state.sent
  | bound, state, ok, decodable, within => by
    by_cases empty : state.line.live = []
    · exact ⟨[], state, by simp, rfl, ok, empty, rfl, rfl⟩
    · obtain ⟨label, next, byTasks, stepped, fewer, received, sent, still⟩ :=
        ok.goesOn several inside other decodable empty behind
      have nextOk := ok.step several few addressable inside other label stepped
      cases bound with
      | zero => omega
      | succ bound =>
        obtain ⟨labels, drained, byTasksAlone, ran, drainedOk, drainedEmpty, kept, keptSent⟩ :=
          drains several few addressable inside other behind bound next nextOk still (by omega)
        refine ⟨label :: labels, drained, ?_, (Runs.run_cons _ _ _ _ _).mpr ⟨next, stepped, ran⟩,
          drainedOk, drainedEmpty, kept.trans received, keptSent.trans sent⟩
        exact List.forall_mem_cons.mpr ⟨byTasks, byTasksAlone⟩

end RayOk

/-! ## Inside the pipeline -/

/-- What holds of the blocks whose tokens are in the pipeline, which the return task has still to
give back. -/
structure Carried (blocks capacity slots start : Nat) (tasks : List PipelineTask) (state : Ray) :
    Prop where
  /-- They follow those whose tokens have left. -/
  numbers : state.line.live.map (fun token => token.1.number) =
    List.range' state.line.gone.length state.line.live.length
  few : state.line.live.length ≤ maxTokenCount
  objects : (state.line.live.map fun token => token.1.obj).Nodup
  positions : (state.line.live.map fun token => token.1.number % blocks).Nodup
  /-- None has been freed, and none is given to a capture. -/
  published : ∀ token ∈ state.line.live, state.delivery.status token.1.number = .published
  unclaimable : ∀ token ∈ state.line.live, (getEmptyMetaBlk state.ring).1 ≠ some (token.1.number % blocks)
  /-- Each holds the packets it was published with, decoded as often as its token has passed a
  basic processing. -/
  intact : ∀ token ∈ state.line.live, Intact start capacity slots (token.1.number % blocks)
    (decodings tasks token.2) (state.sent token.1.number) state.ring state.packets
  /-- No move of the return task has failed. -/
  codes : state.codes = (List.range state.line.gone.length).map
    fun number => (((number + 1) % blocks : Nat) : Int)

/-- And it says of the blocks inside what `Carried` asks, by the tokens that hold them. -/
theorem RayOk.carried {modules blocks capacity slots id start : Nat} {tasks : List PipelineTask}
    {state : Ray} (ok : RayOk modules blocks capacity slots id start tasks state) (several : 3 ≤ blocks)
    (inside : id < modules) (other : id ≠ 0) : Carried blocks capacity slots start tasks state := by
  obtain ⟨entered, balance⟩ := ok.entered_length
  have bounded := ok.queueing.inUse.bounded
  simp only [Ray.queue, List.length_map, entered] at bounded
  have few : state.line.live.length ≤ maxTokenCount := by omega
  have published : ∀ token ∈ state.line.live, state.delivery.status token.1.number = .published :=
    fun token member => ok.live_published inside other member
  have numbers := ok.live_numbers
  -- What differs between two numbers of so short a stretch differs between two tokens.
  have distinct : ∀ size, (∀ first < state.line.live.length, ∀ second < state.line.live.length,
      (state.line.gone.length + first) % size = (state.line.gone.length + second) % size →
        first = second) →
      (state.line.live.map fun token => token.1.number % size).Nodup := by
    intro size apart
    have mapped : (state.line.live.map fun token => token.1.number % size) =
        (List.range state.line.live.length).map fun index => (state.line.gone.length + index) % size := by
      have composed := congrArg (List.map (· % size)) numbers
      rw [List.map_map, List.range'_eq_map_range, List.map_map] at composed
      exact composed
    rw [mapped]
    refine List.Nodup.map_on (fun first firstIn second secondIn same => ?_) List.nodup_range
    exact apart first (List.mem_range.mp firstIn) second (List.mem_range.mp secondIn) same
  have objects : (state.line.live.map fun token => token.1.obj) =
      state.line.live.map fun token => token.1.number % maxTokenCount := by
    refine List.map_congr_left fun token member => ?_
    obtain ⟨index, here⟩ := List.mem_iff_getElem?.mp member
    rw [(ok.live_at here).1]
  constructor
  case numbers => exact numbers
  case few => exact few
  case objects =>
    rw [objects]
    refine distinct maxTokenCount fun first firstIn second secondIn same => ?_
    have equal := CyclicPositions.cells_distinct (Nat.le_add_right state.line.gone.length first) (by omega)
      (Nat.le_add_right state.line.gone.length second) (by omega) same
    omega
  case positions =>
    refine distinct blocks fun first firstIn second secondIn same => ?_
    have one := published _ (List.getElem_mem firstIn)
    have two := published _ (List.getElem_mem secondIn)
    rw [(ok.live_at (List.getElem?_eq_getElem firstIn)).1] at one
    rw [(ok.live_at (List.getElem?_eq_getElem secondIn)).1] at two
    by_contra different
    exact ok.delivering.live_distinct (.inr two) (.inr one) (by simp only; omega) same
  case published => exact published
  case unclaimable =>
    intro token member taken
    have full := (ok.delivering.size_live (.inr (published token member))).mpr (published token member)
    have claim := ok.delivering.represents.getEmptyMetaBlk_eq (by omega) (by omega)
    rw [show state.ring = state.delivery.ring from rfl, claim] at taken
    split at taken
    · rename_i free
      rw [Option.some.injEq] at taken
      exact full (taken ▸ free.2.2)
    · cases taken
  case intact =>
    exact fun token member => ok.intact _ _ (published token member) (.inl ⟨token.1.obj, member⟩)
  case codes => exact ok.codes

/-! ## The results -/

section Runs

variable {modules blocks capacity slots id start : Nat} {tasks : List PipelineTask} {ring : Ring}

/-- The invariant holds after every run, of all parties in any order. -/
theorem rayOk_run (started : Started modules blocks ring) (sized : Sized blocks capacity slots ring.global)
    (viewed : (ring.global.moduleInfo id).blockViewStart = some start) (several : 3 ≤ blocks)
    (few : modules ≤ maxModuleCount) (addressable : slots * sizeofPacketMeta ≤ 2 ^ 32)
    (inside : id < modules) (other : id ≠ 0) (labels : List RayStep) (final : Ray)
    (ran : Runs.run (Ray.step id tasks) (Ray.start ring) labels = some final) :
    RayOk modules blocks capacity slots id start tasks final :=
  Runs.run_invariant (Ray.step id tasks) (RayOk modules blocks capacity slots id start tasks)
    (fun _ label _ ok stepped => ok.step several few addressable inside other label stepped) _ final labels
    (started.rayOk sized viewed tasks) ran

/-- In every run, whatever the order of the steps and whatever is behind the packets, each task has taken
blocks that were received, none of them twice, a serial task in the order of their claims, and has
called for each what follows from the packets the block was published with. -/
theorem applications_served (started : Started modules blocks ring)
    (sized : Sized blocks capacity slots ring.global)
    (viewed : (ring.global.moduleInfo id).blockViewStart = some start) (several : 3 ≤ blocks)
    (few : modules ≤ maxModuleCount) (addressable : slots * sizeofPacketMeta ≤ 2 ^ 32)
    (inside : id < modules) (other : id ≠ 0) (labels : List RayStep) (final : Ray)
    (ran : Runs.run (Ray.step id tasks) (Ray.start ring) labels = some final) (stage : Nat)
    (within : stage < tasks.length) :
    Served start tasks (final.delivery.received id).length final.line.gone.length stage final :=
  (rayOk_run started sized viewed several few addressable inside other labels final ran).served stage within

/-- An IPv4 packet of 34 bytes, without a transport header. -/
def ipv4Packet : List UInt8 :=
  [0, 0, 0, 0, 0, 0, 0, 0, 0, 0, 0, 0, 8, 0, 69, 0, 0, 20, 0, 0, 0, 0, 64, 1, 0, 0, 10, 0, 0, 1, 10, 0, 0, 2]

/-- The meta of that packet, as a capture fills it before it publishes the block. -/
def ipv4Meta : PacketMeta :=
  { PacketMeta.zero with basicAttr := { PacketBasicAttr.zero with ts := 7, pktLen := 34 } }

/-- The meta of a time-out signal, a slot with a time and no packet. -/
def signalMeta : PacketMeta :=
  { PacketMeta.zero with basicAttr := { PacketBasicAttr.zero with ts := 8 } }

/-- A block with the packet, and one with a signal that has no bytes of its own: the decoder reads what
is behind it, as it reads on behind every packet. Both are published and taken in. -/
def twoBlocks : List RayStep :=
  [.others .claim, .fill 0 0 ipv4Meta ipv4Packet, .publish 0 1,
    .others .claim, .fill 1 0 signalMeta [], .publish 1 1, .collect, .collect]

/-- The first block is decoded, served and given back while the second one has been decoded only, with a
word of zeros where its frame would have its type. -/
def firstGivenBack : List RayStep :=
  twoBlocks ++
    [.task 1 fun _ => List.replicate 14 0, .task 0 fun _ => [], .task 0 fun _ => [], .giveBack]

/-- The application gets the packet of the first block between a start and a stop. The second block
has been decoded, and is still inside. -/
theorem applications_served_one :
    ∃ final, Runs.run (Ray.step 1 [.basic false, .app ⟨true, true⟩]) (Ray.start (freshRing 2 4 4 16))
        firstGivenBack = some final ∧
      Served 0 [.basic false, .app ⟨true, true⟩] 2 1 1 final ∧
      (final.calls 1 0).map List.length = some 3 := by
  refine ⟨_, rfl, ?_, rfl⟩
  have nonzero : 1 ≠ 0 := by decide
  have second : 1 < [PipelineTask.basic false, .app ⟨true, true⟩].length := by decide
  exact applications_served (freshRing_started 2 4 4 16)
    (freshRing_sized 2 4 4 16 (by decide) (by decide) (by decide)) rfl (by decide) (by decide) (by decide)
    Nat.one_lt_two nonzero firstGivenBack _ rfl 1 second

/-- In every run the blocks inside the pipeline are neither freed nor given to a capture, hold
their packets, and are given back one by one, each by a move that succeeds. -/
theorem blocks_carried (started : Started modules blocks ring)
    (sized : Sized blocks capacity slots ring.global)
    (viewed : (ring.global.moduleInfo id).blockViewStart = some start) (several : 3 ≤ blocks)
    (few : modules ≤ maxModuleCount) (addressable : slots * sizeofPacketMeta ≤ 2 ^ 32)
    (inside : id < modules) (other : id ≠ 0) (labels : List RayStep) (final : Ray)
    (ran : Runs.run (Ray.step id tasks) (Ray.start ring) labels = some final) :
    Carried blocks capacity slots start tasks final :=
  (rayOk_run started sized viewed several few addressable inside other labels final ran).carried several
    inside other

/-- Module 0 frees the first block as well, which makes room for a third one, and that is taken in. -/
def thirdBlock : List RayStep :=
  [.others (.receive 0), .others (.free 0), .others (.move 0), .others .claim,
    .fill 2 0 ipv4Meta ipv4Packet, .publish 2 1, .collect]

/-- With a third block taken in, two tokens are inside: one decoded and one not, behind the one that was
given back. -/
theorem blocks_carried_two :
    ∃ final, Runs.run (Ray.step 1 [.basic false, .app ⟨true, true⟩]) (Ray.start (freshRing 2 4 4 16))
        (firstGivenBack ++ thirdBlock) = some final ∧
      final.line.live = [(⟨1, 1⟩, 1), (⟨2, 2⟩, 0)] ∧ final.codes = [1] ∧
      Carried 4 4 16 0 [.basic false, .app ⟨true, true⟩] final := by
  refine ⟨_, rfl, rfl, rfl, ?_⟩
  have nonzero : 1 ≠ 0 := by decide
  exact blocks_carried (freshRing_started 2 4 4 16)
    (freshRing_sized 2 4 4 16 (by decide) (by decide) (by decide)) rfl (by decide) (by decide) (by decide)
    Nat.one_lt_two nonzero (firstGivenBack ++ thirdBlock) _ rfl

/-- In every state that a run reaches, if no packet inside is read beyond its end, the tasks can
go on without the other parties until nothing is inside, whatever is behind the packets. Then the
module has passed all blocks it received, every task has been called for each of them, and every
object of the pool is free. -/
theorem pipeline_drains (started : Started modules blocks ring)
    (sized : Sized blocks capacity slots ring.global)
    (viewed : (ring.global.moduleInfo id).blockViewStart = some start) (several : 3 ≤ blocks)
    (few : modules ≤ maxModuleCount) (addressable : slots * sizeofPacketMeta ≤ 2 ^ 32)
    (inside : id < modules) (other : id ≠ 0) (labels : List RayStep) (final : Ray)
    (ran : Runs.run (Ray.step id tasks) (Ray.start ring) labels = some final)
    (decodable : final.Decodable start) (behind : Nat → List UInt8) :
    ∃ more drained, (∀ label ∈ more, label = .task 0 behind ∨ label = .giveBack) ∧
      Runs.run (Ray.step id tasks) final more = some drained ∧ drained.line.live = [] ∧
      drained.delivery.received = final.delivery.received ∧
      drained.delivery.cursors.passed id = (final.delivery.received id).length ∧
      (∀ stage < tasks.length, ∀ number < (final.delivery.received id).length,
        CallsFor start tasks stage (final.sent number) (drained.calls stage number)) ∧
      ∀ obj < maxTokenCount, drained.pool.used obj = false := by
  have ok := rayOk_run started sized viewed several few addressable inside other labels final ran
  obtain ⟨more, drained, byTasks, drainedRun, drainedOk, empty, received, sent⟩ :=
    RayOk.drains several few addressable inside other behind _ final ok decodable (Nat.le_refl _)
  obtain ⟨entered, balance⟩ := drainedOk.entered_length
  rw [empty, List.length_nil, Nat.add_zero, received] at balance
  refine ⟨more, drained, byTasks, drainedRun, empty, received, ?_, ?_, ?_⟩
  · rw [drainedOk.passed, balance]
  · intro stage within number below
    have served := drainedOk.served stage within
    rw [← sent]
    exact served.called number (served.complete number (by rw [balance]; exact below))
  · intro obj inPool
    have used := drainedOk.queueing.inUse.used obj inPool
    simp only [Ray.queue, List.length_map, entered, received, balance, Nat.sub_self, Nat.not_lt_zero,
      false_and, exists_false, iff_false, Bool.not_eq_true] at used
    exact used

/-- A packet that was decoded once from its own bytes is, however often, as after the first time. -/
theorem recordAfter_isSome {start : Nat} {type : PacketType} {packet : Packet} {record : PacketMeta}
    (once : basicRecord (basicData start type packet []) packet.1 = some record)
    (again : basicRecord (basicData start type packet []) record = some record) (times : Nat) :
    (recordAfter start type packet times).isSome := by
  have settled : recordAfter start type packet (times + 1) = some record := by
    induction times with
    | zero => exact once
    | succ times inductionHypothesis => rw [recordAfter, inductionHypothesis, Option.bind_some, again]
  obtain ⟨before, isBefore, -⟩ := Option.bind_eq_some_iff.mp settled
  rw [isBefore]
  rfl

/-- A block with a packet, taken in and not yet processed, is brought to its end: its packet is decoded
from its own bytes, however often. -/
theorem pipeline_drains_one :
    ∃ final, Runs.run (Ray.step 1 [.basic false, .app ⟨true, true⟩]) (Ray.start (freshRing 2 4 4 16))
        [.others .claim, .fill 0 0 ipv4Meta ipv4Packet, .publish 0 1, .collect] = some final ∧
      final.line.live.length = 1 ∧
      ∃ more drained, (∀ label ∈ more, label = .task 0 (fun _ => [8, 0]) ∨ label = .giveBack) ∧
        Runs.run (Ray.step 1 [.basic false, .app ⟨true, true⟩]) final more = some drained ∧
        drained.line.live = [] ∧ drained.delivery.received = final.delivery.received ∧
        drained.delivery.cursors.passed 1 = (final.delivery.received 1).length ∧
        (∀ stage < 2, ∀ number < (final.delivery.received 1).length,
          CallsFor 0 [.basic false, .app ⟨true, true⟩] stage (final.sent number)
            (drained.calls stage number)) ∧
        ∀ obj < maxTokenCount, drained.pool.used obj = false := by
  refine ⟨_, rfl, rfl, ?_⟩
  have nonzero : 1 ≠ 0 := by decide
  refine pipeline_drains (freshRing_started 2 4 4 16)
    (freshRing_sized 2 4 4 16 (by decide) (by decide) (by decide)) rfl (by decide) (by decide) (by decide)
    Nat.one_lt_two nonzero [.others .claim, .fill 0 0 ipv4Meta ipv4Packet, .publish 0 1, .collect] _ rfl ?_
    fun _ => [8, 0]
  intro token member packet ofBlock times
  obtain rfl := List.mem_singleton.mp member
  obtain rfl := List.mem_singleton.mp ofBlock
  exact recordAfter_isSome (by rfl) (by rfl) times

end Runs

end OpenTaker
