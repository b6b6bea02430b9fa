import OpenTaker.ProducerAccounting
import OpenTaker.Collector

/-!
# Signal blocks

Beside the blocks of the captures, the producer publishes blocks that carry no packet: a
stop signal and a timeout signal. Such a block has no data block, is final and has one
meta, with a packet length of 0 and a time stamp that tells the two apart. The meta slot
is one that earlier blocks have used, and nothing clears it.

The states here add the history of who claimed a block, and the slots that a capture was
given and has not filled. A capture fills the slots of a block before it is published.
-/

namespace OpenTaker

/-! ## The tests -/

/-- The meta at a byte offset of the meta view. -/
def Ring.metaAt (ring : Ring) (offset : Nat) : PacketMeta :=
  ring.packetMeta (offset / sizeofPacketMeta)

/-- Write the meta at a byte offset of the meta view. -/
def Ring.setMetaAt (ring : Ring) (offset : Nat) (record : PacketMeta) : Ring :=
  { ring with packetMeta := Function.update ring.packetMeta (offset / sizeofPacketMeta) record }

/-- The meta that `GetPktMetaInBlk` points to, or `none` for NULL. -/
def getPktMetaInBlk (ring : Ring) (id : Nat) (block : PktMetaBlk) (index : Nat) :
    Option PacketMeta :=
  (getMetaInBlk ring id block index).map ring.metaAt

/-- What the two tests for signals have in common; `none` when `assert(metaInfo)` fails. -/
def isSignal (ofTs : Nat → Bool) (ring : Ring) (id : Nat) (metaBlock : Option PktMetaBlk) :
    Option Bool :=
  match metaBlock with
  | none => some false
  | some block =>
      if block.dataBlk = none ∧ block.isFinal = true ∧ block.size = 1 then
        (getPktMetaInBlk ring id block 0).map fun metaInfo =>
          ofTs metaInfo.basicAttr.ts && metaInfo.basicAttr.pktLen == 0
      else some false

/-- `IsStopSignal`: a final block of one slot, without data, whose slot has neither a packet nor a
time. -/
def isStopSignal (ring : Ring) (id : Nat) (metaBlock : Option PktMetaBlk) : Option Bool :=
  isSignal (fun ts => ts == 0) ring id metaBlock

/-- `IsTimeoutSignal`: such a block with a time in its slot. -/
def isTimeoutSignal (ring : Ring) (id : Nat) (metaBlock : Option PktMetaBlk) : Option Bool :=
  isSignal (fun ts => ts != 0) ring id metaBlock

/-- The collector's test of a block it was handed; `none` without a first packet. -/
def collectorSeesStop (ring : Ring) (id : Nat) (block : PktMetaBlk) : Option Bool :=
  (getPktMetaInBlk ring id block 0).map fun firstPacket =>
    Collector.seesStop block.size firstPacket.basicAttr

/-! ## Sending -/

/-- The time stamp of a signal entered in a meta, and its packet length of 0. -/
def PacketMeta.setSignal (record : PacketMeta) (ts : Nat) : PacketMeta :=
  { record with basicAttr := { record.basicAttr with ts := ts, pktLen := 0 } }

/-- The shared memory with the meta of one slot written, as a capture fills it. -/
def Shared.setMetaAt (shared : Shared) (offset : Nat) (record : PacketMeta) : Shared :=
  { shared with ring := shared.ring.setMetaAt offset record }

/-- The middle of the two functions: enter the signal in the first meta of the claimed
block and make the block final. A NULL meta, which the source writes to, counts as a
failed assertion. -/
def enterSignal (ts position : Nat) (shared : Shared) : Shared :=
  let block := shared.ring.metaBlk position
  let asserted := shared.asserted && block.dataBlk == none
  match getMetaInBlk shared.ring 0 block 0 with
  | none => { shared with asserted := false }
  | some offset =>
      { (shared.setMetaAt offset ((shared.ring.metaAt offset).setSignal ts)).write position
          (finalBlock block) with asserted := asserted }

/-- What `SendStopSignal` and `SendTimeoutSignal` have in common, with one try to claim a
block: `none` when there is no empty block, and the call waits. -/
def sendSignal (ts : Nat) (shared : Shared) : Option Shared :=
  match getEmptyMetaBlk shared.ring with
  | (none, _) => none
  | (some position, ring) =>
      some ((enterSignal ts position (shared.claim position ring)).publish shared.cursors.tail
        position 1)

/-- `SendStopSignal`: claim a block, write its one slot, and publish it. -/
def sendStopSignal (shared : Shared) : Option Shared := sendSignal 0 shared

/-- `SendTimeoutSignal`: the same with a time in the slot. -/
def sendTimeoutSignal (ts : Nat) (shared : Shared) : Option Shared := sendSignal ts shared

/-! ## The system -/

/-- Who claimed a block: a capture, or one of the two signals. -/
inductive Sender where
  | capture
  | stopSignal
  | timeoutSignal
deriving DecidableEq

/-- The producer with its signals, and for each claim who made it. -/
structure Signalling where
  producing : Producing
  /-- Who claimed the block of a claim. -/
  senders : Nat → Sender
  /-- The slots a capture was given and has not filled. -/
  unfilled : Nat → List Nat

/-- A started ring with idle captures, and no signal sent. -/
def Signalling.start (ring : Ring) : Signalling where
  producing := .start ring
  senders := fun _ => .capture
  unfilled := fun _ => []

/-- One step of the producer or of a consumer. -/
inductive SignallingStep where
  /-- A capture or a consumer takes a step. -/
  | ring (step : ProducingStep)
  /-- A capture fills a slot it was given. -/
  | fill (captureId offset : Nat) (record : PacketMeta)
  /-- A try of `SendStopSignal` to claim a block, after which it sends or waits. -/
  | sendStop
  /-- A try of `SendTimeoutSignal`. -/
  | sendTimeout (ts : Nat)

/-- A capture calls for a step that may publish its block only when the slots of the block
are filled. -/
def Signalling.filled (state : Signalling) : ProducingStep → Bool
  | .getMeta captureId _ =>
      !isMetaBlkFull state.producing.shared.ring (state.producing.captures captureId) ||
        (state.unfilled captureId).isEmpty
  | .final captureId => (state.unfilled captureId).isEmpty
  | _ => true

/-- Put down the slot that was returned, which its capture has still to fill. -/
def Signalling.give (state : Signalling) (next : Producing) : Signalling :=
  { state with
    producing := next
    unfilled :=
      match next.returned with
      | some (captureId, some offset) =>
          Function.update state.unfilled captureId (state.unfilled captureId ++ [offset])
      | _ => state.unfilled }

/-- Put down who sent the signal that took the tail block. A call that waits changes
nothing. -/
def Signalling.send (state : Signalling) (sender : Sender) (sent : Option Shared) : Signalling :=
  match sent with
  | none => state
  | some shared =>
      { state with
        producing := { state.producing with shared := shared, returned := none }
        senders := Function.update state.senders state.producing.shared.cursors.tail sender }

/-- Perform one step: one of the captures, or a signal that is sent at once. -/
def Signalling.step (state : Signalling) : SignallingStep → Option Signalling
  | .ring label =>
      if state.filled label then (state.producing.step label).map state.give else none
  | .fill captureId offset record =>
      if offset ∈ state.unfilled captureId ∧ 0 < record.basicAttr.pktLen then
        some { state with
          producing :=
            { state.producing with
              shared := state.producing.shared.setMetaAt offset record, returned := none }
          unfilled :=
            Function.update state.unfilled captureId ((state.unfilled captureId).erase offset) }
      else none
  | .sendStop => some (state.send .stopSignal (sendStopSignal state.producing.shared))
  | .sendTimeout ts =>
      if ts ≠ 0 then
        some (state.send .timeoutSignal (sendTimeoutSignal ts state.producing.shared))
      else none

/-- The tests tell the published blocks apart, and no assertion has failed. -/
structure Recognised (state : Signalling) : Prop where
  asserted : state.producing.shared.asserted = true
  tests : ∀ number, state.producing.shared.status number = .published →
    ∀ id < state.producing.shared.ring.global.index, ∀ block,
      block = state.producing.shared.ring.metaBlk (state.producing.shared.claims.getD number 0) →
      isStopSignal state.producing.shared.ring id (some block) =
          some (decide (state.senders number = .stopSignal)) ∧
        isTimeoutSignal state.producing.shared.ring id (some block) =
          some (decide (state.senders number = .timeoutSignal)) ∧
        collectorSeesStop state.producing.shared.ring id block =
          isStopSignal state.producing.shared.ring id (some block)

end OpenTaker
