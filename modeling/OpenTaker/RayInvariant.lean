import OpenTaker.RayPipeline

/-!
# What holds of the pipeline between two steps

The tokens inside carry the blocks that their module has received and not passed, one after
the other, and the pool's objects go round with them. Each of these blocks holds what it was
published with, its packets decoded as often as its token has passed a basic processing.
-/

namespace OpenTaker

open TokenPipelines CursorPipeline

/-- How often the packets of a token at a stage have been decoded. -/
def decodings (tasks : List PipelineTask) (stage : Nat) : Nat := (tasks.take stage).countP PipelineTask.isBasic

/-- What the task at a stage may call for a block, given what the block was published with. Only the
task of an application calls anything. -/
def CallsFor (start : Nat) (tasks : List PipelineTask) (stage : Nat) (sent : BlockPackets)
    (calls : Option (List AppCall)) : Prop :=
  match tasks[stage]? with
  | some (.app app) => ∃ made, calls = some made ∧ BlockCalls app start sent (decodings tasks stage) made
  | _ => calls = none

namespace Ray

/-- The token of the claim is at the stage, or the collector has still to take it. -/
def AtStage (id : Nat) (state : Ray) (number stage : Nat) : Prop :=
  (∃ obj, (⟨number, obj⟩, stage) ∈ state.line.live) ∨
    (state.delivery.received id).length ≤ number ∧ stage = 0

/-- The tokens of the pool that are in use, as a queue. -/
def queue (state : Ray) : TokenQueue :=
  ⟨state.pool, state.line.entered.map Ticket.obj, state.line.gone.length, 4 * state.line.entered.length⟩

end Ray

/-- A published block has room for what it was published with, and holds it. -/
structure Intact (start capacity slots position times : Nat) (sent : BlockPackets) (ring : Ring)
    (packets : Nat → List UInt8) : Prop where
  fits : sent.packets.length ≤ usableAt capacity slots position
  holding : Holding start capacity position sent times ring packets

/-- The invariant of the pipeline: where its tokens are, what their blocks hold, and what was called
for them. -/
structure RayOk (modules blocks capacity slots id start : Nat) (tasks : List PipelineTask)
    (state : Ray) : Prop where
  delivering : Delivering modules blocks state.delivery
  located : Located blocks capacity slots state.delivery
  viewed : (state.ring.global.moduleInfo id).blockViewStart = some start
  logged : Logged (Ray.serial tasks) tasks.length state.line
  /-- The tokens that have entered are those of the blocks that were received. -/
  numbered : state.line.entered = (List.range (state.delivery.received id).length).map
    fun number => ⟨number, number % maxTokenCount⟩
  /-- The module has passed the blocks whose tokens have left. -/
  passed : state.delivery.cursors.passed id = state.line.gone.length
  queueing : TokenQueue.Queueing maxTokenCount state.queue
  intact : ∀ number stage, state.delivery.status number = .published → state.AtStage id number stage →
    Intact start capacity slots (number % blocks) (decodings tasks stage) (state.sent number)
      state.ring state.packets
  tokens : ∀ token ∈ state.line.live, ∃ rest,
    state.tokens token.1.obj =
      blockToken start capacity (token.1.number % blocks) (state.sent token.1.number) rest
  called : ∀ stage < tasks.length, ∀ ticket ∈ state.line.logs stage,
    CallsFor start tasks stage (state.sent ticket.number) (state.calls stage ticket.number)
  uncalled : ∀ stage number, (∀ ticket ∈ state.line.logs stage, ticket.number ≠ number) →
    state.calls stage number = none
  codes : state.codes = (List.range state.line.gone.length).map
    fun number => (((number + 1) % blocks : Nat) : Int)

namespace RayOk

variable {modules blocks capacity slots id start : Nat} {tasks : List PipelineTask} {state : Ray}

/-- The live tokens are numbered on from those that have left. -/
theorem live_at (ok : RayOk modules blocks capacity slots id start tasks state) {index : Nat}
    {token : Ticket × Nat} (here : state.line.live[index]? = some token) :
    token.1 = ⟨state.line.gone.length + index, (state.line.gone.length + index) % maxTokenCount⟩ ∧
      state.line.gone.length + index < (state.delivery.received id).length := by
  have place : (state.line.entered)[state.line.gone.length + index]? = some token.1 := by
    rw [Line.entered, List.getElem?_append_right (Nat.le_add_right _ _), Nat.add_sub_cancel_left,
      List.getElem?_map, here, Option.map_some]
  rw [ok.numbered, List.getElem?_map, Option.map_eq_some_iff] at place
  obtain ⟨number, found, isTicket⟩ := place
  obtain ⟨below, same⟩ := List.getElem?_eq_some_iff.mp found
  rw [List.length_range] at below
  rw [List.getElem_range] at same
  exact ⟨by rw [← isTicket, same], below⟩

/-- The number of a live token lies between what the module has passed and what it has
received. -/
theorem live_bounds (ok : RayOk modules blocks capacity slots id start tasks state)
    {token : Ticket × Nat} (member : token ∈ state.line.live) :
    state.line.gone.length ≤ token.1.number ∧ token.1.number < (state.delivery.received id).length := by
  obtain ⟨index, here⟩ := List.mem_iff_getElem?.mp member
  obtain ⟨ticket, below⟩ := ok.live_at here
  rw [ticket]
  exact ⟨Nat.le_add_right _ _, below⟩

/-- A task has taken tokens of blocks that were received. -/
theorem logged_lt (ok : RayOk modules blocks capacity slots id start tasks state) {stage : Nat}
    (within : stage < tasks.length) {ticket : Ticket} (member : ticket ∈ state.line.logs stage) :
    ticket.number < (state.delivery.received id).length := by
  have entered := (ok.logged.log_subperm stage within).subset member
  rw [ok.numbered, List.mem_map] at entered
  obtain ⟨number, below, rfl⟩ := entered
  exact List.mem_range.mp below

/-- Live tokens differ in their numbers, so that a number names its token. -/
theorem live_unique (ok : RayOk modules blocks capacity slots id start tasks state)
    {first second : Nat} {token other : Ticket × Nat} (here : state.line.live[first]? = some token)
    (there : state.line.live[second]? = some other) (same : token.1.number = other.1.number) :
    first = second := by
  rw [(ok.live_at here).1, (ok.live_at there).1] at same
  exact Nat.add_left_cancel same

/-- A live token has a block that is published. -/
theorem live_published (ok : RayOk modules blocks capacity slots id start tasks state)
    (inside : id < modules) (other : id ≠ 0) {token : Ticket × Nat} (member : token ∈ state.line.live) :
    state.delivery.status token.1.number = .published := by
  obtain ⟨ahead, received⟩ := ok.live_bounds member
  exact ok.delivering.published_of_received inside other (by rw [ok.passed]; exact ahead) received

/-- A claim that has not been published was not received. -/
theorem received_le_of_claimed (ok : RayOk modules blocks capacity slots id start tasks state)
    (inside : id < modules) {number : Nat} (claimed : state.delivery.status number = .claimed) :
    (state.delivery.received id).length ≤ number := by
  by_contra received
  have ready := ok.delivering.ready id inside number (by simp only [Delivery.picked]; omega)
  rw [claimed] at ready
  rcases ready with impossible | impossible <;> cases impossible

end RayOk

/-- It holds at the start, when nothing has entered and nothing was called. -/
theorem Started.rayOk {modules blocks capacity slots id start : Nat} {ring : Ring}
    (started : Started modules blocks ring) (sized : Sized blocks capacity slots ring.global)
    (viewed : (ring.global.moduleInfo id).blockViewStart = some start) (tasks : List PipelineTask) :
    RayOk modules blocks capacity slots id start tasks (Ray.start ring) where
  delivering := started.delivering
  located := located_start sized
  viewed := viewed
  logged := logged_empty _ _
  numbered := rfl
  passed := rfl
  queueing := TokenQueue.queueing_start maxTokenCount
  intact _ _ published _ := by cases published
  tokens _ member := absurd member List.not_mem_nil
  called _ _ _ member := absurd member List.not_mem_nil
  uncalled _ _ _ := rfl
  codes := rfl

namespace RayOk

variable {modules blocks capacity slots id start : Nat} {tasks : List PipelineTask} {state : Ray}

/-- A step outside of the pipeline keeps the invariant, if the ring stays in order and every
published block that the pipeline has not passed is intact. -/
theorem outside (ok : RayOk modules blocks capacity slots id start tasks state) {delivery : Delivery}
    {packets : Nat → List UInt8} {sent : Nat → BlockPackets}
    (delivering : Delivering modules blocks delivery)
    (located : Located blocks capacity slots delivery)
    (viewed : (delivery.ring.global.moduleInfo id).blockViewStart =
      (state.ring.global.moduleInfo id).blockViewStart)
    (received : delivery.received id = state.delivery.received id)
    (passed : delivery.cursors.passed id = state.delivery.cursors.passed id)
    (kept : ∀ number < (state.delivery.received id).length, sent number = state.sent number)
    (intact : ∀ number stage, delivery.status number = .published → state.AtStage id number stage →
      Intact start capacity slots (number % blocks) (decodings tasks stage) (sent number)
        delivery.ring packets) :
    RayOk modules blocks capacity slots id start tasks
      { state.setDelivery delivery with packets := packets, sent := sent } := by
  constructor
  case delivering => exact delivering
  case located => exact located
  case viewed => exact viewed.trans ok.viewed
  case logged => exact ok.logged
  case numbered => exact ok.numbered.trans (by rw [← received]; rfl)
  case passed => exact passed.trans ok.passed
  case queueing => exact ok.queueing
  case intact =>
    intro number stage published atStage
    refine intact number stage published ?_
    rcases atStage with live | ⟨ahead, first⟩
    · exact .inl live
    · exact .inr ⟨by rw [← received]; exact ahead, first⟩
  case tokens =>
    intro token member
    obtain ⟨rest, isToken⟩ := ok.tokens token member
    refine ⟨rest, isToken.trans ?_⟩
    rw [← kept _ (ok.live_bounds member).2]
  case called =>
    intro stage within ticket member
    have before := ok.called stage within ticket member
    rwa [← kept _ (ok.logged_lt within member)] at before
  case uncalled => exact ok.uncalled
  case codes => exact ok.codes

/-- What the module has passed changes only when it moves. -/
theorem passed_of_foreign {delivery after : Delivery} {label : DeliveryStep}
    (foreign : Ray.foreign id label = true) (stepped : delivery.step label = some after) :
    after.cursors.passed id = delivery.cursors.passed id := by
  cases label with
  | claim =>
    simp only [Delivery.step] at stepped
    split at stepped <;> cases stepped <;> rfl
  | publish number size => cases foreign
  | receive other =>
    obtain ⟨-, rfl⟩ := Delivery.step_receive_iff.mp stepped
    rfl
  | move other =>
    have distinct : id ≠ other := Ne.symm (by simpa [Ray.foreign] using foreign)
    obtain ⟨-, rfl⟩ := Delivery.step_move_iff.mp stepped
    simp only
    split
    · exact advance_passed_other delivery.cursors other id 1 distinct
    · rfl
  | free number =>
    obtain ⟨-, rfl⟩ := Delivery.step_free_iff.mp stepped
    rfl

/-- No step but a publication publishes a block, and those of the other parties are none. -/
theorem published_of_foreign {delivery after : Delivery} {label : DeliveryStep}
    (foreign : Ray.foreign id label = true) (stepped : delivery.step label = some after)
    {number : Nat} (published : after.status number = .published) :
    delivery.status number = .published := by
  cases label with
  | claim =>
    simp only [Delivery.step] at stepped
    split at stepped <;> cases stepped
    · by_cases same : number = delivery.cursors.tail
      · subst same
        simp at published
      · simpa [Function.update_of_ne same] using published
    · exact published
  | publish number size => cases foreign
  | receive other =>
    obtain ⟨-, rfl⟩ := Delivery.step_receive_iff.mp stepped
    exact published
  | move other =>
    obtain ⟨-, rfl⟩ := Delivery.step_move_iff.mp stepped
    exact published
  | free freed =>
    obtain ⟨-, rfl⟩ := Delivery.step_free_iff.mp stepped
    by_cases same : number = freed
    · subst same
      simp at published
    · simpa [Function.update_of_ne same] using published

/-- A step of another party keeps the invariant: it touches no block whose token is in the pipeline. -/
theorem others (ok : RayOk modules blocks capacity slots id start tasks state) (several : 3 ≤ blocks)
    (nonempty : 1 ≤ modules) (addressable : slots * sizeofPacketMeta ≤ 2 ^ 32) {label : DeliveryStep}
    (foreign : Ray.foreign id label = true) {delivery : Delivery}
    (stepped : state.delivery.step label = some delivery) :
    RayOk modules blocks capacity slots id start tasks (state.setDelivery delivery) := by
  have keeps := ok.delivering.keeps several nonempty stepped
  have unlike : label ≠ .receive id := by
    rintro rfl
    simp [Ray.foreign] at foreign
  refine ok.outside (delivering_step several nonempty _ _ _ ok.delivering stepped)
    (ok.located.step ok.delivering several nonempty addressable stepped) (keeps.blockViewStart id)
    (CollectingRing.received_of_others unlike stepped) (passed_of_foreign foreign stepped)
    (fun _ _ => rfl) fun number stage published atStage => ?_
  have before := published_of_foreign foreign stepped published
  obtain ⟨fits, holding⟩ := ok.intact number stage before atStage
  have block := keeps.block number (.inr before) (published.trans before.symm)
  refine ⟨fits, holding.kept (by rw [block]; rfl) (by rw [block]; rfl) (fun index _ => ?_)
    fun _ _ => rfl⟩
  simp only [Ring.metaAt, keeps.packetMeta]
  rfl

/-- A published block is not that of a claim that has not been published. -/
theorem block_distinct (ok : RayOk modules blocks capacity slots id start tasks state)
    {number other : Nat} (claimed : state.delivery.status number = .claimed)
    (published : state.delivery.status other = .published) : other % blocks ≠ number % blocks := by
  refine ok.delivering.live_distinct (.inl claimed) (.inr published) ?_
  rintro rfl
  rw [claimed] at published
  cases published

/-- Entering the type of a block that was claimed keeps the invariant. -/
theorem enterType (ok : RayOk modules blocks capacity slots id start tasks state) {number : Nat}
    (claimed : state.delivery.status number = .claimed) (type : PacketType) :
    RayOk modules blocks capacity slots id start tasks
      (state.setRing (state.ring.setMetaBlk (number % blocks)
        { state.ring.metaBlk (number % blocks) with type := type })) := by
  refine ok.outside (ok.delivering.touch _ _ rfl rfl) (ok.located.touch _ _ rfl) rfl rfl rfl
    (fun _ _ => rfl) fun other stage published atStage => ?_
  have different := ok.block_distinct claimed published
  obtain ⟨fits, holding⟩ := ok.intact other stage published atStage
  have block := setMetaBlk_other state.ring (number % blocks) (other % blocks)
    { state.ring.metaBlk (number % blocks) with type := type } different
  exact ⟨fits, holding.kept (congrArg PktMetaBlk.size block) (congrArg PktMetaBlk.type block)
    (fun _ _ => rfl) fun _ _ => rfl⟩

/-- Filling a slot of a block that was claimed keeps the invariant. -/
theorem fill (ok : RayOk modules blocks capacity slots id start tasks state) {number index : Nat}
    (claimed : state.delivery.status number = .claimed)
    (usable : index < usableAt capacity slots (number % blocks)) (record : PacketMeta)
    (bytes : List UInt8) :
    RayOk modules blocks capacity slots id start tasks
      { state.setRing (state.ring.setMetaAt (slotAt capacity (number % blocks) index) record) with
        packets := Function.update state.packets (slotAt capacity (number % blocks) index) bytes } := by
  refine ok.outside (ok.delivering.sameBlocks rfl rfl) (ok.located.sameBlocks rfl rfl) rfl rfl rfl
    (fun _ _ => rfl) fun other stage published atStage => ?_
  obtain ⟨fits, holding⟩ := ok.intact other stage published atStage
  have apart : ∀ place < (state.sent other).packets.length,
      slotAt capacity (number % blocks) index ≠ slotAt capacity (other % blocks) place :=
    fun place inside same => ok.block_distinct claimed published
      (ok.located.sized.slotAt_distinct usable (inside.trans_le fits) same).symm
  exact ⟨fits, holding.kept rfl rfl
    (fun place inside => metaAt_setMetaAt_slotAt _ _ record (apart place inside))
    fun place inside => Function.update_of_ne (apart place inside).symm _ _⟩

/-- The packets of a block are the contents of its slots and what was captured into them, slot by
slot. -/
theorem slotPackets_eq {position size : Nat} {block : PktMetaBlk}
    (slots : ∀ index < size,
      getMetaInBlk state.ring 0 block index = some (slotAt capacity position index)) :
    state.slotPackets block size = (List.range size).map fun index =>
      (state.ring.metaAt (slotAt capacity position index), state.packets (slotAt capacity position index)) := by
  rw [Ray.slotPackets, ← List.filterMap_eq_map]
  refine List.filterMap_congr fun index member => ?_
  rw [slots index (List.mem_range.mp member)]
  rfl

/-- Publishing a block that was claimed keeps the invariant. -/
theorem publish (ok : RayOk modules blocks capacity slots id start tasks state) (several : 3 ≤ blocks)
    (inside : id < modules) (addressable : slots * sizeofPacketMeta ≤ 2 ^ 32) {number size : Nat}
    {delivery : Delivery} (usable : size ≤ usableAt capacity slots (number % blocks))
    (stepped : state.delivery.step (.publish number size) = some delivery) :
    RayOk modules blocks capacity slots id start tasks
      { state.setDelivery delivery with
        sent := Function.update state.sent number
          ⟨(state.ring.metaBlk (number % blocks)).type,
            state.slotPackets (state.ring.metaBlk (number % blocks)) size⟩ } := by
  have keeps := ok.delivering.keeps several (by omega) stepped
  have delivering := ok.delivering.publish number size _ stepped
  have located := ok.located.step ok.delivering several (by omega) addressable stepped
  obtain ⟨⟨claimed, -, -⟩, rfl⟩ := Delivery.step_publish_iff.mp stepped
  have place := ok.delivering.claims_getD number (by rw [claimed]; decide)
  have late := ok.received_le_of_claimed inside claimed
  have empty : (state.ring.metaBlk (number % blocks)).size = 0 := by
    by_contra full
    have published := (ok.delivering.size_live (.inl claimed)).mp full
    rw [claimed] at published
    cases published
  have packets : state.slotPackets (state.ring.metaBlk (number % blocks)) size =
      (List.range size).map fun index =>
        (state.ring.metaAt (slotAt capacity (number % blocks) index),
          state.packets (slotAt capacity (number % blocks) index)) :=
    slotPackets_eq fun index within => ok.located.getMetaInBlk_eq ok.delivering several addressable
      (by omega) (.inl claimed) (within.trans_le usable) (.inl empty)
  refine ok.outside delivering located (keeps.blockViewStart id) rfl rfl
    (fun other received => Function.update_of_ne (by omega) _ _) fun other stage published atStage => ?_
  by_cases same : other = number
  · subst same
    have first : stage = 0 := by
      rcases atStage with ⟨obj, live⟩ | ⟨-, first⟩
      · have received := (ok.live_bounds live).2
        simp only at received
        omega
      · exact first
    subst first
    rw [Function.update_self]
    have block : (publishMetaBlk state.delivery.ring (state.delivery.claims.getD other 0) size).metaBlk
        (other % blocks) = { state.delivery.ring.metaBlk (other % blocks) with size := size } := by
      rw [place, publishMetaBlk, setMetaBlk_self]
    rw [packets]
    refine ⟨by simpa using usable, ?_, ?_, ?_, ?_⟩
    · exact (congrArg PktMetaBlk.size block).trans (by simp)
    · exact (congrArg PktMetaBlk.type block).trans rfl
    · intro index _
      simp only [List.getElem_map, List.getElem_range]
      rfl
    · intro index _
      simp only [List.getElem_map, List.getElem_range]
      rfl
  · have before : state.delivery.status other = .published := by
      simpa [Function.update_of_ne same] using published
    rw [Function.update_of_ne same]
    obtain ⟨fits, holding⟩ := ok.intact other stage before atStage
    have block := keeps.block other (.inr before) (published.trans before.symm)
    exact ⟨fits, holding.kept (congrArg PktMetaBlk.size block) (congrArg PktMetaBlk.type block)
      (fun _ _ => rfl) fun _ _ => rfl⟩

end RayOk

end OpenTaker
