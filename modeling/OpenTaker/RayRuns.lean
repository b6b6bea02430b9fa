import OpenTaker.RayInvariant

/-!
# The pipeline over runs

Runs of the collector, the tasks and the return task together with the captures and the other
modules. The collector always finds a free token and the tasks always find their block as it was
published, so that what an application is called for does not depend on the order in which the
parties take their steps, nor, for packets that are decoded from their own bytes, on what is in
memory behind them.
-/

namespace OpenTaker

open TokenPipelines CursorPipeline

namespace RayOk

variable {modules blocks capacity slots id start : Nat} {tasks : List PipelineTask} {state next : Ray}

/-! ## The collector -/

/-- The collector does not touch the ring but for its reading position. -/
theorem received_ring {delivery received : Delivery} (stepped : delivery.step (.receive id) = some received) :
    received.ring = delivery.ring ∧ received.cursors = delivery.cursors ∧
      received.status = delivery.status := by
  obtain ⟨-, rfl⟩ := Delivery.step_receive_iff.mp stepped
  exact ⟨rfl, rfl, rfl⟩

/-- A pass that is handed no block keeps the invariant. -/
theorem collect_idle (ok : RayOk modules blocks capacity slots id start tasks state) (several : 3 ≤ blocks)
    (nonempty : 1 ≤ modules) {received : Delivery}
    (handed : (getNextFullMetaBlk state.delivery.ring id (state.delivery.readers id)).1 = none)
    (stepped : state.delivery.step (.receive id) = some received) :
    RayOk modules blocks capacity slots id start tasks (state.setDelivery received) := by
  obtain ⟨ring, cursors, status⟩ := received_ring stepped
  have same := CollectingRing.received_of_receive stepped
  rw [handed, Option.toList_none, List.append_nil] at same
  have delivering := delivering_step several nonempty _ _ _ ok.delivering stepped
  have located : Located blocks capacity slots received :=
    ⟨ring ▸ ok.located.sized, fun number live => by
      rw [ring]
      exact ok.located.offset number (by rwa [Delivery.Live, status] at live)⟩
  refine ok.outside delivering located (by rw [ring]; rfl) same (by rw [cursors]) (fun _ _ => rfl)
    fun number stage published atStage => ?_
  rw [status] at published
  rw [ring]
  exact ok.intact number stage published atStage

/-- The number of tokens inside is that of the blocks received and not yet given back. -/
theorem entered_length (ok : RayOk modules blocks capacity slots id start tasks state) :
    state.line.entered.length = (state.delivery.received id).length ∧
      state.line.gone.length + state.line.live.length = (state.delivery.received id).length := by
  have length := congrArg List.length ok.numbered
  rw [List.length_map, List.length_range] at length
  refine ⟨length, ?_⟩
  rw [← length, Line.entered, List.length_append, List.length_map]

/-- The collector's module is valid, so that its slots and packets have addresses. -/
theorem valid (ok : RayOk modules blocks capacity slots id start tasks state) (inside : id < modules)
    (few : modules ≤ maxModuleCount) :
    getModuleInfo state.ring id = some (state.ring.global.moduleInfo id) := by
  have mapped := ok.delivering.represents.mapped id inside
  have small : ¬ maxModuleCount ≤ id := by omega
  rw [getModuleInfo, checkModValid, if_neg small]
  exact if_pos mapped

/-- A pass that is handed a block finds a free object of the pool, and all its assertions on
packets hold. -/
theorem collect_eq (ok : RayOk modules blocks capacity slots id start tasks state) (several : 3 ≤ blocks)
    (inside : id < modules) (few : modules ≤ maxModuleCount)
    (addressable : slots * sizeofPacketMeta ≤ 2 ^ 32)
    (running : state.collecting.collector.isSeenStop = false) (ended : state.ended = false)
    (room : state.line.live.length < maxTokenCount) {position : Nat}
    (handed : (getNextFullMetaBlk state.ring id (state.delivery.readers id)).1 = some position) :
    ∃ received firstPacket rest,
      state.delivery.step (.receive id) = some received ∧
      state.delivery.status (state.delivery.received id).length = .published ∧
      position = (state.delivery.received id).length % blocks ∧
      state.collect id = some { state with
        collecting := state.collecting.pass id firstPacket received
        pool := state.pool.accesses 4
        tokens := Function.update state.tokens ((state.delivery.received id).length % maxTokenCount)
          (blockToken start capacity position (state.sent (state.delivery.received id).length) rest)
        line := state.line.enter ⟨(state.delivery.received id).length,
          (state.delivery.received id).length % maxTokenCount⟩ } := by
  have known := ok.delivering.getNextFullMetaBlk_eq (by omega) id inside
  have isHanded : (getNextFullMetaBlk state.delivery.ring id (state.delivery.readers id)).1 =
    some position := handed
  rw [isHanded, eq_comm, Option.ite_none_right_eq_some, Option.some.injEq] at known
  obtain ⟨⟨-, published⟩, rfl⟩ := known
  -- The module receives.
  have registered : id < state.delivery.ring.global.index := by
    rw [ok.delivering.represents.registered]
    exact inside
  obtain ⟨received, stepped⟩ : ∃ received, state.delivery.step (.receive id) = some received :=
    ⟨_, Delivery.step_receive_iff.mpr ⟨registered, rfl⟩⟩
  -- The pool has a free object.
  obtain ⟨entered, balance⟩ := ok.entered_length
  have taken := ok.queueing.getBlockCall_eq (by simp [Ray.queue]) (by
    simp only [Ray.queue, List.length_map, entered]
    omega)
  have object : state.pool.getBlockCall =
      some ((state.delivery.received id).length % maxTokenCount, state.pool.accesses 4) := by
    simpa only [Ray.queue, List.length_map, entered] using taken.1
  -- The block holds its packets.
  obtain ⟨fits, holding⟩ := ok.intact _ 0 published (.inr ⟨Nat.le_refl _, rfl⟩)
  have slotsThere : ∀ index < (state.sent (state.delivery.received id).length).packets.length,
      getMetaInBlk state.ring id (state.ring.metaBlk ((state.delivery.received id).length % blocks)) index =
        some (slotAt capacity ((state.delivery.received id).length % blocks) index) := by
    intro index within
    refine ok.located.getMetaInBlk_eq ok.delivering several addressable inside (.inr published)
      (within.trans_le fits) (.inr ?_)
    exact holding.size.symm ▸ within
  obtain ⟨rest, collected⟩ : ∃ rest,
      collectBlock state.ring id ((state.delivery.received id).length % blocks)
          (state.tokens ((state.delivery.received id).length % maxTokenCount)) =
        some (blockToken start capacity ((state.delivery.received id).length % blocks)
          (state.sent (state.delivery.received id).length) rest) :=
    ⟨_, holding.collectBlock_eq (ok.valid inside few) ok.viewed slotsThere _⟩
  have nonempty : 0 < (state.sent (state.delivery.received id).length).packets.length := by
    have full := (ok.delivering.size_live (.inr published)).mpr published
    rw [← holding.size]
    exact Nat.pos_of_ne_zero full
  have first := slotsThere 0 nonempty
  refine ⟨received,
    (state.ring.metaAt (slotAt capacity ((state.delivery.received id).length % blocks) 0)).basicAttr,
    rest, stepped, published, rfl, ?_⟩
  have unblocked : ¬ (state.ended = true ∨ maxTokenCount ≤ state.line.live.length) := by
    simp only [ended, Bool.false_eq_true, false_or]
    omega
  have receives : state.collecting.delivery.step (.receive id) = some received := stepped
  simp only [Ray.collect, if_neg unblocked, handed, object, Option.bind_some, collected,
    getPktMetaInBlk, first, Option.map_some, CollectingRing.step, running, Bool.false_eq_true, if_false,
    receives]

/-- Taking a block in keeps the invariant: its token gets the next number, and an object that no
other token has. -/
theorem enter (ok : RayOk modules blocks capacity slots id start tasks state) (several : 3 ≤ blocks)
    (nonempty : 1 ≤ modules) (room : state.line.live.length < maxTokenCount) {position : Nat}
    (handed : (getNextFullMetaBlk state.ring id (state.delivery.readers id)).1 = some position)
    {received : Delivery} {firstPacket : PacketBasicAttr} {rest : List PacketToken}
    (stepped : state.delivery.step (.receive id) = some received)
    (place : position = (state.delivery.received id).length % blocks) :
    RayOk modules blocks capacity slots id start tasks { state with
      collecting := state.collecting.pass id firstPacket received
      pool := state.pool.accesses 4
      tokens := Function.update state.tokens ((state.delivery.received id).length % maxTokenCount)
        (blockToken start capacity position (state.sent (state.delivery.received id).length) rest)
      line := state.line.enter ⟨(state.delivery.received id).length,
        (state.delivery.received id).length % maxTokenCount⟩ } := by
  obtain ⟨ring, cursors, status⟩ := received_ring stepped
  obtain ⟨entered, balance⟩ := ok.entered_length
  have now := CollectingRing.received_of_receive stepped
  have isHanded : (getNextFullMetaBlk state.delivery.ring id (state.delivery.readers id)).1 =
    some position := handed
  rw [isHanded, Option.toList_some] at now
  have more : (received.received id).length = (state.delivery.received id).length + 1 := by
    rw [now, List.length_append, List.length_singleton]
  have isDelivery : (state.collecting.pass id firstPacket received).delivery = received := by
    simp only [CollectingRing.pass]
    split <;> rfl
  have taken := ok.queueing.getBlockCall_eq (by simp [Ray.queue]) (by
    simp only [Ray.queue, List.length_map, entered]
    omega)
  constructor
  case delivering =>
    simp only [Ray.delivery, isDelivery]
    exact delivering_step several nonempty _ _ _ ok.delivering stepped
  case located =>
    simp only [Ray.delivery, isDelivery]
    refine ⟨ring ▸ ok.located.sized, fun number live => ?_⟩
    rw [ring]
    exact ok.located.offset number (by rwa [Delivery.Live, status] at live)
  case viewed =>
    simp only [Ray.ring, Ray.delivery, isDelivery, ring]
    exact ok.viewed
  case logged => exact ok.logged.enter _
  case numbered =>
    simp only [Ray.delivery, isDelivery, more, Line.entered_enter]
    rw [List.range_succ, List.map_append, List.map_singleton, ok.numbered]
    rfl
  case passed =>
    simp only [Ray.delivery, isDelivery, cursors]
    exact ok.passed
  case queueing =>
    have queueing := taken.2
    simp only [Ray.queue, List.length_map, entered] at queueing
    simp only [Ray.queue, Line.entered_enter, List.map_append, List.map_singleton, List.length_append,
      List.length_singleton, entered]
    exact queueing
  case intact =>
    intro number stage published atStage
    simp only [Ray.delivery, isDelivery, status] at published
    simp only [Ray.ring, Ray.delivery, isDelivery, ring]
    refine ok.intact number stage published ?_
    rcases atStage with ⟨obj, live⟩ | ⟨ahead, first⟩
    · rcases List.mem_append.mp live with old | new
      · exact .inl ⟨obj, old⟩
      · obtain ⟨ticket, rfl⟩ := Prod.mk.inj (List.mem_singleton.mp new)
        refine .inr ⟨?_, rfl⟩
        rw [(Ticket.mk.inj ticket).1]
    · simp only [Ray.delivery, isDelivery, more] at ahead
      refine .inr ⟨?_, first⟩
      simp only [Ray.delivery]
      omega
  case tokens =>
    intro token member
    rcases List.mem_append.mp member with old | new
    · obtain ⟨index, here⟩ := List.mem_iff_getElem?.mp old
      obtain ⟨ticket, below⟩ := ok.live_at here
      have inside := (List.getElem?_eq_some_iff.mp here).1
      have other : token.1.obj ≠ (state.delivery.received id).length % maxTokenCount := by
        rw [ticket]
        intro same
        have equal := CyclicPositions.cells_distinct (Nat.le_add_right state.line.gone.length index)
          (by omega) (show state.line.gone.length ≤ _ by omega) (by omega) same
        omega
      obtain ⟨before, isToken⟩ := ok.tokens token old
      exact ⟨before, (Function.update_of_ne other _ _).trans isToken⟩
    · rw [List.mem_singleton.mp new]
      exact ⟨rest, by simp only [Function.update_self, place]⟩
  case called => exact ok.called
  case uncalled => exact ok.uncalled
  case codes => exact ok.codes

/-- A pass of the collector keeps the invariant, whether it takes a block in or finds none. -/
theorem collect (ok : RayOk modules blocks capacity slots id start tasks state) (several : 3 ≤ blocks)
    (few : modules ≤ maxModuleCount) (addressable : slots * sizeofPacketMeta ≤ 2 ^ 32)
    (inside : id < modules) (collected : state.collect id = some next) :
    RayOk modules blocks capacity slots id start tasks next := by
  have nonempty : 1 ≤ modules := by omega
  have allowed := collected
  simp only [Ray.collect, Option.ite_none_left_eq_some] at allowed
  obtain ⟨unblocked, allowed⟩ := allowed
  rw [not_or, Bool.not_eq_true, Nat.not_le] at unblocked
  cases handed : (getNextFullMetaBlk state.ring id (state.delivery.readers id)).1 with
  | none =>
    rw [handed] at allowed
    simp only [Option.map_eq_some_iff, CollectingRing.step, Option.ite_none_left_eq_some] at allowed
    obtain ⟨collecting, ⟨-, received, stepped, rfl⟩, rfl⟩ := allowed
    have isHanded : (getNextFullMetaBlk state.collecting.delivery.ring id
      (state.collecting.delivery.readers id)).1 = none := handed
    simp only [CollectingRing.pass, isHanded]
    exact ok.collect_idle several nonempty handed stepped
  | some position =>
    have running : state.collecting.collector.isSeenStop = false := by
      rw [handed] at allowed
      simp only [Option.bind_eq_some_iff, Option.map_eq_some_iff, CollectingRing.step,
        Option.ite_none_left_eq_some] at allowed
      obtain ⟨-, -, -, -, -, -, -, ⟨running, -⟩, -⟩ := allowed
      exact Bool.eq_false_iff.mpr running
    obtain ⟨received, firstPacket, rest, stepped, -, place, isNext⟩ :=
      ok.collect_eq several inside few addressable running unblocked.1 unblocked.2 handed
    obtain rfl := Option.some.inj (isNext.symm.trans collected)
    exact ok.enter several nonempty unblocked.2 handed stepped place

/-- The collector's counter and the end of a cycle do not matter for the invariant. -/
theorem sameDelivery (ok : RayOk modules blocks capacity slots id start tasks state)
    (collecting : CollectingRing) (same : collecting.delivery = state.collecting.delivery)
    (ended : Bool) :
    RayOk modules blocks capacity slots id start tasks
      { state with collecting := collecting, ended := ended } := by
  obtain ⟨delivery, collector, started, asserted⟩ := collecting
  cases same
  exact ⟨ok.delivering, ok.located, ok.viewed, ok.logged, ok.numbered, ok.passed, ok.queueing, ok.intact,
    ok.tokens, ok.called, ok.uncalled, ok.codes⟩

/-! ## The tasks -/

/-- A token that passes a basic processing has its packets decoded once more. -/
theorem decodings_succ {stage : Nat} {task : PipelineTask} (isTask : tasks[stage]? = some task) :
    decodings tasks (stage + 1) = decodings tasks stage + if task.isBasic then 1 else 0 := by
  rw [decodings, decodings, List.take_add_one, isTask, Option.toList_some, List.countP_append,
    List.countP_singleton]

/-- Where the tokens stand after one of them has passed a task. -/
theorem atStage_pass (ok : RayOk modules blocks capacity slots id start tasks state) {index : Nat}
    {ticket : Ticket} {stage number other : Nat}
    (here : state.line.live[index]? = some (ticket, stage)) {after : Ray}
    (atStage : after.AtStage id number other)
    (line : after.line = state.line.pass index (ticket, stage))
    (received : after.delivery.received id = state.delivery.received id) :
    (number = ticket.number ∧ other = stage + 1) ∨
      (number ≠ ticket.number ∧ state.AtStage id number other) := by
  rcases atStage with ⟨obj, live⟩ | ⟨ahead, first⟩
  · rw [line] at live
    obtain ⟨place, found⟩ := List.mem_iff_getElem?.mp live
    by_cases same : place = index
    · subst same
      have inside := (List.getElem?_eq_some_iff.mp here).1
      simp only [Line.pass, List.getElem?_set_self inside, Option.some.injEq, Prod.mk.injEq] at found
      obtain ⟨rfl, rfl⟩ := found
      exact .inl ⟨rfl, rfl⟩
    · simp only [Line.pass, List.getElem?_set_ne (Ne.symm same)] at found
      refine .inr ⟨fun equal => same (ok.live_unique found here equal), .inl ⟨obj, ?_⟩⟩
      exact List.mem_of_getElem? found
  · rw [received] at ahead
    refine .inr ⟨?_, .inr ⟨ahead, first⟩⟩
    have below := (ok.live_bounds (List.mem_of_getElem? here)).2
    simp only at below
    omega

/-- A task keeps the invariant, whatever it did to the slots of its own block, if it called what
it should. -/
theorem task (ok : RayOk modules blocks capacity slots id start tasks state) {index stage : Nat}
    {ticket : Ticket} (may : state.line.MayPass (Ray.serial tasks) tasks.length index (ticket, stage))
    (inside : id < modules) (other : id ≠ 0) {ring : Ring}
    {made : Option (List AppCall)}
    (writes : DecodesAt capacity (ticket.number % blocks) (state.sent ticket.number).packets.length
      state.ring ring)
    (holding : Holding start capacity (ticket.number % blocks) (state.sent ticket.number)
      (decodings tasks (stage + 1)) ring state.packets)
    (calls : CallsFor start tasks stage (state.sent ticket.number) made) :
    RayOk modules blocks capacity slots id start tasks { state.setRing ring with
      line := state.line.pass index (ticket, stage)
      calls := Function.update state.calls stage
        (Function.update (state.calls stage) ticket.number made) } := by
  have here := may.1
  have member := List.mem_of_getElem? here
  have published := ok.live_published inside other member
  have entered := Line.entered_pass here
  constructor
  case delivering => exact ok.delivering.sameBlocks writes.global writes.metaBlk
  case located => exact ok.located.sameBlocks writes.global writes.metaBlk
  case viewed =>
    exact (congrArg (fun global : Global => (global.moduleInfo id).blockViewStart) writes.global).trans
      ok.viewed
  case logged => exact ok.logged.pass may
  case numbered => exact entered.trans ok.numbered
  case passed => exact ok.passed
  case queueing =>
    have queueing := ok.queueing
    simp only [Ray.queue] at queueing ⊢
    rw [entered]
    exact queueing
  case intact =>
    intro number reached isPublished atStage
    rcases ok.atStage_pass here atStage rfl rfl with ⟨rfl, rfl⟩ | ⟨different, before⟩
    · obtain ⟨fits, -⟩ := ok.intact ticket.number stage published (.inl ⟨ticket.obj, member⟩)
      exact ⟨fits, holding⟩
    · obtain ⟨fits, held⟩ := ok.intact number reached isPublished before
      have cells := ok.delivering.live_distinct (.inr published) (.inr isPublished) different
      refine ⟨fits, held.kept ?_ ?_ (fun place within => ?_) fun _ _ => rfl⟩
      · exact congrArg (fun metaBlk : Nat → PktMetaBlk => (metaBlk (number % blocks)).size) writes.metaBlk
      · exact congrArg (fun metaBlk : Nat → PktMetaBlk => (metaBlk (number % blocks)).type) writes.metaBlk
      · refine writes.metas _ fun own ownInside same => cells ?_
        have ownFits := (ok.intact ticket.number stage published (.inl ⟨ticket.obj, member⟩)).fits
        refine ok.located.sized.slotAt_distinct (within.trans_le fits) (ownInside.trans_le ownFits) ?_
        simp only [slotAt, sizeofPacketMeta] at same ⊢
        omega
  case tokens =>
    intro token isLive
    obtain ⟨place, found⟩ := List.mem_iff_getElem?.mp isLive
    by_cases same : place = index
    · subst same
      have within := (List.getElem?_eq_some_iff.mp here).1
      simp only [Line.pass, List.getElem?_set_self within, Option.some.injEq] at found
      subst found
      exact ok.tokens (ticket, stage) member
    · simp only [Line.pass, List.getElem?_set_ne (Ne.symm same)] at found
      exact ok.tokens token (List.mem_of_getElem? found)
  case called =>
    intro taken within item logged
    by_cases same : taken = stage
    · subst same
      simp only [Line.pass, Function.update_self, List.mem_append, List.mem_singleton] at logged ⊢
      by_cases own : item.number = ticket.number
      · rw [own, Function.update_self]
        exact calls
      · rw [Function.update_of_ne own]
        have before := logged.resolve_right fun equal => own (congrArg Ticket.number equal)
        exact ok.called taken within item before
    · simp only [Line.pass, Function.update_of_ne same] at logged ⊢
      exact ok.called taken within item logged
  case uncalled =>
    intro taken number unlogged
    by_cases same : taken = stage
    · subst same
      simp only [Line.pass, Function.update_self, List.mem_append, List.mem_singleton] at unlogged ⊢
      have own : number ≠ ticket.number := Ne.symm (unlogged ticket (.inr rfl))
      rw [Function.update_of_ne own]
      exact ok.uncalled taken number fun item before => unlogged item (.inl before)
    · simp only [Line.pass, Function.update_of_ne same] at unlogged ⊢
      exact ok.uncalled taken number unlogged
  case codes => exact ok.codes

/-- What a live token has and what its block holds. -/
theorem live_holds (ok : RayOk modules blocks capacity slots id start tasks state) (inside : id < modules)
    (other : id ≠ 0) {ticket : Ticket} {stage : Nat} (member : (ticket, stage) ∈ state.line.live) :
    (∃ rest, state.tokens ticket.obj =
      blockToken start capacity (ticket.number % blocks) (state.sent ticket.number) rest) ∧
    Holding start capacity (ticket.number % blocks) (state.sent ticket.number)
      (decodings tasks stage) state.ring state.packets := by
  have published := ok.live_published inside other member
  exact ⟨ok.tokens _ member, (ok.intact _ stage published (.inl ⟨ticket.obj, member⟩)).holding⟩

/-- A task that runs keeps the invariant: it writes metas of the block of its own token, and the
token moves on. -/
theorem runNext (ok : RayOk modules blocks capacity slots id start tasks state)
    (inside : id < modules) (other : id ≠ 0) {index : Nat} {behind : Nat → List UInt8}
    (ran : state.runNext tasks index behind = some next) :
    RayOk modules blocks capacity slots id start tasks next := by
  simp only [Ray.runNext] at ran
  cases here : state.line.live[index]? with
  | none => simp [here] at ran
  | some token =>
    obtain ⟨ticket, stage⟩ := token
    simp only [here] at ran
    split at ran
    · rename_i may
      rw [Option.bind_eq_some_iff] at ran
      obtain ⟨task, isTask, ran⟩ := ran
      rw [Option.map_eq_some_iff] at ran
      obtain ⟨⟨ring, made⟩, taskRan, rfl⟩ := ran
      obtain ⟨⟨rest, isToken⟩, holding⟩ :=
        ok.live_holds inside other (List.mem_of_getElem? here)
      rw [isToken] at taskRan
      have succ := decodings_succ isTask
      cases task with
      | basic isSerial =>
        simp only [runTask, Option.map_eq_some_iff, Prod.mk.injEq] at taskRan
        obtain ⟨after, decodes, rfl, rfl⟩ := taskRan
        obtain ⟨held, writes⟩ := holding.basicProcessTask_spec rest decodes
        refine ok.task may inside other writes ?_ (by simp only [CallsFor, isTask])
        rw [succ]
        exact held
      | app app =>
        obtain ⟨calls, called, follows⟩ := holding.appTask_calls rest app
        simp only [runTask, called, Option.map_some, Option.some.injEq, Prod.mk.injEq] at taskRan
        obtain ⟨rfl, rfl⟩ := taskRan
        have follows : CallsFor start tasks stage (state.sent ticket.number) (some calls) := by
          simpa only [CallsFor, isTask] using ⟨calls, rfl, follows⟩
        refine ok.task may inside other (.refl _ _ _ _) ?_ follows
        rw [succ]
        exact holding
    · cases ran

/-! ## The return task -/

/-- The return task moves the module by one block, which its limit allows, and releases the
oldest object. -/
theorem giveBack_eq (ok : RayOk modules blocks capacity slots id start tasks state) (several : 3 ≤ blocks)
    (inside : id < modules) {ticket : Ticket} (may : state.line.MayLeave tasks.length ticket) :
    ∃ delivery, state.delivery.step (.move id) = some delivery ∧
      delivery.cursors = state.delivery.cursors.advance id 1 ∧
      delivery.received = state.delivery.received ∧ delivery.status = state.delivery.status ∧
      state.giveBack id tasks = some
        { ({ state with
            pool := state.pool.release ticket.obj, line := state.line.leave } : Ray).setDelivery delivery with
          codes := state.codes ++ [(((state.line.gone.length + 1) % blocks : Nat) : Int)] } := by
  obtain ⟨live, live_eq⟩ := List.head?_eq_some_iff.mp may
  have here : state.line.live[0]? = some (ticket, tasks.length) := by rw [live_eq]; rfl
  obtain ⟨isTicket, below⟩ := ok.live_at here
  rw [Nat.add_zero] at below
  have behind : state.delivery.cursors.passed id < (state.delivery.received id).length := by
    rw [ok.passed]
    exact below
  have registered : id < state.delivery.ring.global.index := by
    rw [ok.delivering.represents.registered]
    exact inside
  obtain ⟨-, moved⟩ := ok.delivering.move_eq (by omega) id inside behind
  have code : (move2NextMetaBlk state.ring id 1).1 =
      (((state.line.gone.length + 1) % blocks : Nat) : Int) := by
    rw [← ok.passed]
    exact congrArg Prod.fst moved
  obtain ⟨rest, isToken⟩ := ok.tokens _ (List.mem_of_getElem? here)
  refine ⟨_, Delivery.step_move_iff.mpr ⟨⟨registered, behind⟩, rfl⟩, ?_, rfl, rfl, ?_⟩
  · simp only [moved, Int.natCast_nonneg, if_true]
  · have stepped : state.delivery.step (.move id) = some _ :=
      Delivery.step_move_iff.mpr ⟨⟨registered, behind⟩, rfl⟩
    simp only [Line.MayLeave] at may
    have position : (state.tokens ticket.obj).pMetaBlk = some (ticket.number % blocks) := by
      rw [isToken]
      rfl
    simp only [Ray.giveBack, may, if_true, position, stepped, Option.map_some, code]

/-- Only a token that has passed all tasks is given back. -/
theorem mayLeave_of_giveBack (given : state.giveBack id tasks = some next) :
    ∃ ticket, state.line.MayLeave tasks.length ticket := by
  simp only [Ray.giveBack] at given
  cases first : state.line.live.head? with
  | none => simp [first] at given
  | some token =>
    obtain ⟨ticket, stage⟩ := token
    simp only [first] at given
    split at given
    · rename_i last
      exact ⟨ticket, by rw [Line.MayLeave, first, last]⟩
    · cases given

/-- Giving a token back keeps the invariant: the oldest one leaves, and the module moves over its
block. -/
theorem giveBack (ok : RayOk modules blocks capacity slots id start tasks state) (several : 3 ≤ blocks)
    (nonempty : 1 ≤ modules) (addressable : slots * sizeofPacketMeta ≤ 2 ^ 32) (inside : id < modules)
    (given : state.giveBack id tasks = some next) :
    RayOk modules blocks capacity slots id start tasks next := by
  obtain ⟨ticket, may⟩ := mayLeave_of_giveBack given
  obtain ⟨delivery, stepped, cursors, received, status, isNext⟩ := ok.giveBack_eq several inside may
  obtain rfl := Option.some.inj (isNext.symm.trans given)
  have keeps := ok.delivering.keeps several nonempty stepped
  obtain ⟨entered, gone, live⟩ := Line.entered_leave may
  have longer : state.line.leave.gone.length = state.line.gone.length + 1 := by
    rw [gone, List.length_append, List.length_singleton]
  have here : state.line.live[0]? = some (ticket, tasks.length) := by rw [live]; rfl
  obtain ⟨isTicket, below⟩ := ok.live_at here
  constructor
  case delivering => exact delivering_step several nonempty _ _ _ ok.delivering stepped
  case located => exact ok.located.step ok.delivering several nonempty addressable stepped
  case viewed => exact (keeps.blockViewStart id).trans ok.viewed
  case logged => exact ok.logged.leave may
  case numbered => exact entered.trans (ok.numbered.trans (by rw [← received]; rfl))
  case passed =>
    refine (congrArg (fun cursors => cursors.passed id) cursors).trans ?_
    simp only [advance_passed_self, ok.passed]
    exact longer.symm
  case queueing =>
    have oldest : (state.line.entered.map Ticket.obj)[state.line.gone.length]? = some ticket.obj := by
      simp [Line.entered, live]
    have releases : state.queue.step .release = some { state.queue with
        pool := state.pool.release ticket.obj, released := state.line.gone.length + 1 } := by
      simp only [TokenQueue.step, Ray.queue, oldest, Option.map_some]
    have released := ok.queueing.release releases
    simp only [Ray.queue] at released ⊢
    rw [← longer] at released
    simp only [Ray.setDelivery, entered]
    exact released
  case intact =>
    intro number stage published atStage
    have before : state.delivery.status number = .published := by
      rw [← status]
      exact published
    have known : state.AtStage id number stage := by
      rcases atStage with ⟨obj, member⟩ | ⟨ahead, first⟩
      · refine .inl ⟨obj, ?_⟩
        rw [live]
        exact List.mem_cons_of_mem _ member
      · exact .inr ⟨by rw [← received]; exact ahead, first⟩
    obtain ⟨fits, holding⟩ := ok.intact number stage before known
    have block := keeps.block number (.inr before) (by rw [status])
    refine ⟨fits, holding.kept (congrArg PktMetaBlk.size block) (congrArg PktMetaBlk.type block)
      (fun place within => ?_) fun _ _ => rfl⟩
    exact congrFun keeps.packetMeta (slotAt capacity (number % blocks) place / sizeofPacketMeta)
  case tokens =>
    intro token member
    apply ok.tokens token
    rw [live]
    exact List.mem_cons_of_mem _ member
  case called => exact ok.called
  case uncalled => exact ok.uncalled
  case codes =>
    show state.codes ++ _ = _
    simp only [Ray.setDelivery, longer, ok.codes]
    rw [List.range_succ, List.map_append, List.map_singleton]

/-! ## Runs -/

/-- Every step keeps the invariant, by the lemma for its kind. -/
theorem step (ok : RayOk modules blocks capacity slots id start tasks state) (several : 3 ≤ blocks)
    (few : modules ≤ maxModuleCount) (addressable : slots * sizeofPacketMeta ≤ 2 ^ 32)
    (inside : id < modules) (other : id ≠ 0) (label : RayStep)
    (stepped : state.step id tasks label = some next) :
    RayOk modules blocks capacity slots id start tasks next := by
  have nonempty : 1 ≤ modules := by omega
  cases label with
  | others label =>
    simp only [Ray.step, Option.ite_none_right_eq_some, Option.map_eq_some_iff] at stepped
    obtain ⟨foreign, delivery, taken, rfl⟩ := stepped
    exact ok.others several nonempty addressable foreign taken
  | enterType number type =>
    simp only [Ray.step, Option.ite_none_right_eq_some, Option.some.injEq] at stepped
    obtain ⟨claimed, rfl⟩ := stepped
    rw [ok.delivering.claims_getD number (by rw [claimed]; decide)]
    exact ok.enterType claimed type
  | fill number index record bytes =>
    simp only [Ray.step, Option.ite_none_right_eq_some, Option.map_eq_some_iff] at stepped
    obtain ⟨⟨claimed, bound⟩, offset, slot, rfl⟩ := stepped
    rw [ok.delivering.claims_getD number (by rw [claimed]; decide)] at bound slot
    have usable := bound.trans_eq (ok.located.usable several addressable (.inl claimed))
    have empty : (state.delivery.ring.metaBlk (number % blocks)).size = 0 := by
      by_contra full
      have published := (ok.delivering.size_live (.inl claimed)).mp full
      rw [claimed] at published
      cases published
    have isSlot := ok.located.getMetaInBlk_eq ok.delivering several addressable nonempty
      (.inl claimed) usable (.inl empty)
    obtain rfl := Option.some.inj (isSlot.symm.trans slot)
    exact ok.fill claimed usable record bytes
  | publish number size =>
    simp only [Ray.step, Option.ite_none_right_eq_some, Option.map_eq_some_iff] at stepped
    obtain ⟨bound, delivery, taken, rfl⟩ := stepped
    have claimed := (Delivery.step_publish_iff.mp taken).1.1
    rw [ok.delivering.claims_getD number (by rw [claimed]; decide)] at bound ⊢
    have usable := bound.trans_eq (ok.located.usable several addressable (.inl claimed))
    exact ok.publish several inside addressable usable taken
  | collect => exact ok.collect several few addressable inside stepped
  | finish =>
    simp only [Ray.step, Option.ite_none_left_eq_some, Option.map_eq_some_iff] at stepped
    obtain ⟨-, collecting, restarted, rfl⟩ := stepped
    simp only [CollectingRing.step, Option.ite_none_right_eq_some, Option.some.injEq] at restarted
    obtain ⟨-, rfl⟩ := restarted
    exact ok.sameDelivery { state.collecting with
      collector := .init, started := (state.delivery.received id).length } rfl true
  | restart =>
    simp only [Ray.step, Option.ite_none_right_eq_some, Option.some.injEq] at stepped
    obtain ⟨-, rfl⟩ := stepped
    exact ok.sameDelivery state.collecting rfl false
  | task index behind => exact ok.runNext inside other stepped
  | giveBack => exact ok.giveBack several nonempty addressable inside stepped

end RayOk

end OpenTaker
