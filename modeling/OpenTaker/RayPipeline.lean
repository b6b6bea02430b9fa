import OpenTaker.TokenPipelines
import OpenTaker.PacketTokens
import OpenTaker.TokenQueue
import OpenTaker.BlockContents

/-!
# The processing pipeline on the ring

The collector, the tasks and the return task of `PacketRay` run as filters of a pipeline over
the blocks that a module of the ring receives. The pipeline has at most `MAX_TOKEN_COUNT`
tokens inside. Beside it run the captures, which claim blocks, fill their slots and publish
them, and the other modules, which receive, pass and free them.

A task works in place: the basic processing writes into the slots of the ring. Where it reads
beyond a packet it sees what memory holds there, which comes with the step. The states keep
as history what each block was published with and what the applications called for it.
-/

namespace OpenTaker

open TokenPipelines

/-- `MAX_TOKEN_COUNT`: so many tokens may be inside, and so many objects the pool has. -/
def maxTokenCount : Nat := 1024

/-- A token inside the pipeline: the number of its claim, for the history only, and the object
of the pool. -/
structure Ticket where
  number : Nat
  obj : Nat
deriving DecidableEq

/-- The pipeline, with the ring and its other parties. -/
structure Ray where
  collecting : CollectingRing
  /-- The bytes that the data of a slot points to, by the offset of the slot. -/
  packets : Nat → List UInt8
  /-- `g_tokenPool`. -/
  pool : ObjectPool
  /-- The objects of the pool. -/
  tokens : Nat → BlockToken
  line : Line Ticket
  /-- The collector has returned NULL. -/
  ended : Bool
  /-- What each claim was published with. -/
  sent : Nat → BlockPackets
  /-- What each task called for each claim; `none` until it has run. -/
  calls : Nat → Nat → Option (List AppCall)
  /-- What the calls of `Move2NextMetaBlk` returned, in order. -/
  codes : List Int

namespace Ray

/-- A started ring with a pipeline at its first start. -/
def start (ring : Ring) : Ray where
  collecting := .start ring
  packets := fun _ => []
  pool := .init maxTokenCount
  tokens := fun _ => .zero
  line := .empty
  ended := false
  sent := fun _ => ⟨.unknown, []⟩
  calls := fun _ _ => none
  codes := []

/-- The blocks of the ring and their history, as the delivery of the ring has them. -/
def delivery (state : Ray) : Delivery := state.collecting.delivery

/-- The ring, on which captures, modules and tasks meet. -/
def ring (state : Ray) : Ring := state.delivery.ring

/-- Put another delivery in place, as the steps of other parties do. -/
def setDelivery (state : Ray) (delivery : Delivery) : Ray :=
  { state with collecting := { state.collecting with delivery := delivery } }

/-- Put another ring in place, as the tasks do that write slots. -/
def setRing (state : Ray) (ring : Ring) : Ray :=
  state.setDelivery { state.delivery with ring := ring }

/-- The packets in the first slots of a block. -/
def slotPackets (state : Ray) (block : PktMetaBlk) (size : Nat) : List Packet :=
  (List.range size).filterMap fun index =>
    (getMetaInBlk state.ring 0 block index).map fun offset =>
      (state.ring.metaAt offset, state.packets offset)

end Ray

/-- One step of the pipeline or of another party of the ring. -/
inductive RayStep where
  /-- A claim, or a step of another module. -/
  | others (label : DeliveryStep)
  /-- A capture enters the type of a block it has claimed. -/
  | enterType (number : Nat) (type : PacketType)
  /-- A capture fills a slot of a block it has claimed. -/
  | fill (number index : Nat) (record : PacketMeta) (bytes : List UInt8)
  /-- A capture publishes a block it has claimed. -/
  | publish (number size : Nat)
  /-- One pass of the collector's loop. -/
  | collect
  /-- The collector returns NULL. -/
  | finish
  /-- The pipeline is run again, after it has come to its end. -/
  | restart
  /-- A task takes the live token at an index, with the bytes behind the packets of the slots. -/
  | task (index : Nat) (behind : Nat → List UInt8)
  /-- The return task takes the oldest token. -/
  | giveBack

namespace Ray

/-- The steps that another party takes with the ring. Only the collector receives for its
module, and only the return task moves for it. -/
def foreign (id : Nat) : DeliveryStep → Bool
  | .receive other => other != id
  | .move other => other != id
  | .publish _ _ => false
  | .claim => true
  | .free _ => true

/-- One pass of the collector's loop. The `number`-th block it is handed is that of the
`number`-th claim. -/
def collect (id : Nat) (state : Ray) : Option Ray :=
  if state.ended = true ∨ maxTokenCount ≤ state.line.live.length then none
  else
    match (getNextFullMetaBlk state.ring id (state.delivery.readers id)).1 with
    | none =>
        (state.collecting.step id (.pass PacketBasicAttr.zero)).map fun collecting =>
          { state with collecting := collecting }
    | some position =>
        state.pool.getBlockCall.bind fun (obj, pool) =>
          (collectBlock state.ring id position (state.tokens obj)).bind fun token =>
            (getPktMetaInBlk state.ring id (state.ring.metaBlk position) 0).bind fun firstPacket =>
              (state.collecting.step id (.pass firstPacket.basicAttr)).map fun collecting =>
                { state with
                  collecting := collecting
                  pool := pool
                  tokens := Function.update state.tokens obj token
                  line := state.line.enter ⟨(state.delivery.received id).length, obj⟩ }

/-- The filter of a task is serial: tokens go through it one by one and in their order. -/
def serial (tasks : List PipelineTask) (stage : Nat) : Bool := tasks[stage]?.any PipelineTask.isSerial

/-- The next task of a live token is run, where its filter lets it pass. The token moves on by one
stage, and the calls made for it are noted. -/
def runNext (tasks : List PipelineTask) (state : Ray) (index : Nat) (behind : Nat → List UInt8) :
    Option Ray :=
  match state.line.live[index]? with
  | none => none
  | some (ticket, stage) =>
      if state.line.MayPass (serial tasks) tasks.length index (ticket, stage) then
        tasks[stage]?.bind fun task =>
          (runTask task state.packets behind state.ring (state.tokens ticket.obj)).map fun (ring, made) =>
            { state.setRing ring with
              line := state.line.pass index (ticket, stage)
              calls := Function.update state.calls stage
                (Function.update (state.calls stage) ticket.number made) }
      else none

/-- `CReturnPacketTask::operator()`: give the object of the oldest token back, and move over its
block. -/
def giveBack (id : Nat) (tasks : List PipelineTask) (state : Ray) : Option Ray :=
  match state.line.live.head? with
  | none => none
  | some (ticket, stage) =>
      if stage = tasks.length then
        let returned := { state with
          pool := state.pool.release ticket.obj
          line := state.line.leave }
        match (state.tokens ticket.obj).pMetaBlk with
        | none => some returned
        | some _ =>
            (state.delivery.step (.move id)).map fun delivery =>
              { returned.setDelivery delivery with
                codes := state.codes ++ [(move2NextMetaBlk state.ring id 1).1] }
      else none

/-- Perform one step, for the module of the collector. A capture uses the slots that a block
has, and publishes no more of them. -/
def step (id : Nat) (tasks : List PipelineTask) (state : Ray) : RayStep → Option Ray
  | .others label => if foreign id label then (state.delivery.step label).map state.setDelivery else none
  | .enterType number type =>
      let position := state.delivery.claims.getD number 0
      if state.delivery.status number = .claimed then
        some (state.setRing (state.ring.setMetaBlk position
          { state.ring.metaBlk position with type := type }))
      else none
  | .fill number index record bytes =>
      let block := state.ring.metaBlk (state.delivery.claims.getD number 0)
      if state.delivery.status number = .claimed ∧ index < max 1 (getMetaBlkCapacity state.ring block) then
        (getMetaInBlk state.ring 0 block index).map fun offset =>
          { state.setRing (state.ring.setMetaAt offset record) with
            packets := Function.update state.packets offset bytes }
      else none
  | .publish number size =>
      let block := state.ring.metaBlk (state.delivery.claims.getD number 0)
      if size ≤ max 1 (getMetaBlkCapacity state.ring block) then
        (state.delivery.step (.publish number size)).map fun delivery =>
          { state.setDelivery delivery with
            sent := Function.update state.sent number ⟨block.type, state.slotPackets block size⟩ }
      else none
  | .collect => state.collect id
  | .finish =>
      if state.ended = true ∨ maxTokenCount ≤ state.line.live.length then none
      else (state.collecting.step id .restart).map fun collecting =>
        { state with collecting := collecting, ended := true }
  | .restart =>
      if state.ended = true ∧ state.line.live = [] then some { state with ended := false } else none
  | .task index behind => state.runNext tasks index behind
  | .giveBack => state.giveBack id tasks

end Ray

end OpenTaker
