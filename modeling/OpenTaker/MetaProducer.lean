import OpenTaker.ClaimHistory

/-!
# Filling meta blocks

A capture thread asks a `CProducerRing` for one meta slot after the other with
`GetMeta4PktBlk`, all for one data block, and then calls `FinalMetaBlk`. The ring
keeps for each capture the block being filled and the number of slots used; a block
that is full is published and the next one claimed. A call that finds no empty block
waits, and other parties run until it tries again.

Beside the shared memory and the captures, the states here carry a history: the claim
a capture holds, what each published block contained, and for each data block the
slots returned and the claims published for it. No operation reads the history.
-/

namespace OpenTaker

open CursorPipeline

/-- The part of a `DataBlock_t` that the producer reads: its address and its type. -/
structure DataBlock where
  addr : Nat
  type : PacketType
deriving DecidableEq

/-- The pointer of a data block, which is NULL for a job without one. -/
def addrOf (dataBlk : Option DataBlock) : Option Nat := dataBlk.map DataBlock.addr

/-- The history of the calls for one data block. -/
structure Job where
  dataBlk : Option Nat
  /-- The slots the calls returned. -/
  slots : List (Option Nat)
  /-- The claims published for the data block. -/
  published : List Nat

/-- The ring, with the history of claims and of published contents. -/
structure Shared where
  ring : Ring
  cursors : Cursors
  claims : List Nat
  status : Nat → BlkStatus
  contents : Nat → PktMetaBlk
  /-- No assertion of the producer has fired. -/
  asserted : Bool

/-- The claim has been published, and perhaps freed since. -/
def Shared.sent (shared : Shared) (number : Nat) : Prop :=
  shared.status number = .published ∨ shared.status number = .freed

/-- Whether the block of a claim has been sent is read off the status of the claim, so that guards
with it can be decided. -/
instance (shared : Shared) (number : Nat) : Decidable (shared.sent number) :=
  inferInstanceAs (Decidable (_ ∨ _))

/-- The claim has not been freed, so that its block is in use. -/
def Shared.live (shared : Shared) (number : Nat) : Prop :=
  shared.status number = .claimed ∨ shared.status number = .published

/-- The shared memory with the header of one meta block written, as all operations of the producer
write it. -/
def Shared.write (shared : Shared) (position : Nat) (block : PktMetaBlk) : Shared :=
  { shared with ring := shared.ring.setMetaBlk position block }

/-- What `CProducerRing` keeps for one capture: `m_curMetaBlock` and
`m_usedMetaInBlk`. A waiting call remembers its data block. -/
structure Capture where
  curMetaBlock : Option Nat
  usedMetaInBlk : Nat
  waiting : Option (Option DataBlock)
  holds : Option Nat
  job : Option Job

/-- A capture before its first call, without a block and without a job. -/
def Capture.idle : Capture where
  curMetaBlock := none
  usedMetaInBlk := 0
  waiting := none
  holds := none
  job := none

/-- `IsMetaBlkFull`. NULL is tested before it is called, so that the branch for it is never taken. -/
def isMetaBlkFull (ring : Ring) (capture : Capture) : Bool :=
  match capture.curMetaBlock with
  | none => false
  | some position =>
      decide (getMetaBlkCapacity ring (ring.metaBlk position) ≤ capture.usedMetaInBlk)

/-- Publish the block of a claim and keep its contents in the history. -/
def Shared.publish (shared : Shared) (number position size : Nat) : Shared :=
  let ring := publishMetaBlk shared.ring position size
  { shared with
    ring := ring
    status := Function.update shared.status number .published
    contents := Function.update shared.contents number (ring.metaBlk position) }

/-- `DoneMetaBlk`: publish the current block, unless there is none or it is unused. -/
def doneMetaBlk (shared : Shared) (capture : Capture) : Shared × Capture :=
  match capture.curMetaBlock with
  | none => (shared, capture)
  | some position =>
      if capture.usedMetaInBlk = 0 then (shared, capture)
      else
        let number := capture.holds.getD 0
        (shared.publish number position capture.usedMetaInBlk,
          { capture with
            curMetaBlock := none
            holds := none
            job := capture.job.map fun job =>
              { job with published := job.published ++ [number] } })

/-- The end of `GetMeta4PktBlk`: return the next slot of the current block. -/
def takeMeta (dataBlk : Option DataBlock) (shared : Shared) (capture : Capture) :
    Shared × Capture :=
  let block := shared.ring.metaBlk (capture.curMetaBlock.getD 0)
  let slot := getMetaInBlk shared.ring 0 block capture.usedMetaInBlk
  ({ shared with asserted := shared.asserted && block.dataBlk == addrOf dataBlk },
    { capture with
      usedMetaInBlk := u32 (capture.usedMetaInBlk + 1)
      waiting := none
      job := capture.job.map fun job => { job with slots := job.slots ++ [slot] } })

/-- The block with its data block entered, whose type is copied where there is one. -/
def enteredBlock (dataBlk : Option DataBlock) (block : PktMetaBlk) : PktMetaBlk :=
  { block with
    dataBlk := addrOf dataBlk
    type := match dataBlk with
      | none => block.type
      | some dataBlk => dataBlk.type }

/-- The middle of `GetMeta4PktBlk`: make the claimed block the current one. -/
def enterMetaBlk (dataBlk : Option DataBlock) (position : Nat) (shared : Shared)
    (capture : Capture) : Shared × Capture :=
  let block := shared.ring.metaBlk position
  ({ shared.write position (enteredBlock dataBlk block) with
      asserted := shared.asserted && block.size == 0 && !block.isFinal },
    { capture with curMetaBlock := some position, usedMetaInBlk := 0 })

/-- The history after a claim: one number more, with its block, claimed. -/
def Shared.claim (shared : Shared) (position : Nat) (ring : Ring) : Shared :=
  { shared with
    ring := ring
    cursors := shared.cursors.append
    claims := shared.claims ++ [position]
    status := Function.update shared.status shared.cursors.tail .claimed }

/-- `WaitNextEmptyMetaBlk` inside `GetMeta4PktBlk`: one try to claim a block, after
which the call goes on or waits. -/
def waitNextEmptyMetaBlk (dataBlk : Option DataBlock) (shared : Shared) (capture : Capture) :
    Shared × Capture :=
  match getEmptyMetaBlk shared.ring with
  | (none, ring) => ({ shared with ring := ring }, { capture with waiting := some dataBlk })
  | (some position, ring) =>
      let (entered, capture) := enterMetaBlk dataBlk position (shared.claim position ring)
        { capture with holds := some shared.cursors.tail }
      takeMeta dataBlk entered capture

/-- `GetMeta4PktBlk`, up to its return or its first wait. -/
def getMeta4PktBlk (dataBlk : Option DataBlock) (shared : Shared) (capture : Capture) :
    Shared × Capture :=
  if capture.curMetaBlock = none ∨ isMetaBlkFull shared.ring capture = true then
    let (shared, capture) := doneMetaBlk shared capture
    waitNextEmptyMetaBlk dataBlk shared capture
  else takeMeta dataBlk shared capture

/-- The block with its `isFinal` set, as it is published for the last time. -/
def finalBlock (block : PktMetaBlk) : PktMetaBlk := { block with isFinal := true }

/-- `FinalMetaBlk`: mark the current block as the last one of the job, and publish it. -/
def finalMetaBlk (shared : Shared) (capture : Capture) : Shared × Capture :=
  match capture.curMetaBlock with
  | none => (shared, capture)
  | some position =>
      doneMetaBlk (shared.write position (finalBlock (shared.ring.metaBlk position))) capture

/-! ## The system -/

/-- `Move2NextMetaBlk` by a module, over blocks that were sent. -/
def Shared.move (shared : Shared) (id count : Nat) : Shared :=
  let (code, ring) := move2NextMetaBlk shared.ring id count
  { shared with
    ring := ring
    cursors := if 0 ≤ code then shared.cursors.advance id count else shared.cursors }

/-- `FreeFullMetaBlk` of the block of a claim, as the producer that reclaims the slots does it. -/
def Shared.free (shared : Shared) (number : Nat) : Shared :=
  { shared with
    ring := freeFullMetaBlk shared.ring (shared.claims.getD number 0)
    status := Function.update shared.status number .freed }

/-- The entries of `m_curMetaBlock` and of `m_usedMetaInBlk`: the constructor resizes both to the
larger one of `MAX_CAPTURE_THREAD` and `MAX_RINGS_PER_ANIC`, and no call tests its index. -/
def maxCaptures : Nat := 64

/-- The shared memory, the captures and the finished jobs. Only the captures below `maxCaptures`
have entries; the others stay idle. -/
structure Producing where
  shared : Shared
  captures : Nat → Capture
  finished : List Job
  /-- The capture whose call of `GetMeta4PktBlk` returned in the last step, and the
  slot it returned. -/
  returned : Option (Nat × Option Nat)

/-- A started ring with idle captures, for all of the entries that the vectors have. -/
def Producing.start (ring : Ring) : Producing where
  shared :=
    { ring := ring
      cursors := noCursors
      claims := []
      status := fun _ => .unclaimed
      contents := fun _ => PktMetaBlk.zero
      asserted := true }
  captures := fun _ => .idle
  finished := []
  returned := none

/-- One step of a capture or of a consumer. -/
inductive ProducingStep where
  /-- A capture calls `GetMeta4PktBlk`. -/
  | getMeta (captureId : Nat) (dataBlk : Option DataBlock)
  /-- A waiting call tries again. -/
  | resume (captureId : Nat)
  /-- A capture calls `FinalMetaBlk`. -/
  | final (captureId : Nat)
  /-- A module calls `Move2NextMetaBlk` over published blocks. -/
  | move (id count : Nat)
  /-- `FreeFullMetaBlk` of a published block. -/
  | free (number : Nat)

/-- Put back a capture after its step. A call that does not wait has returned the last
slot of its job. -/
def Producing.answer (state : Producing) (captureId : Nat) (result : Shared × Capture) :
    Producing :=
  { state with
    shared := result.1
    captures := Function.update state.captures captureId result.2
    returned :=
      match result.2.waiting, result.2.job with
      | none, some job => job.slots.getLast?.map fun slot => (captureId, slot)
      | _, _ => none }

/-- A capture with a job for the data block: the open one, or a new one. -/
def Capture.opened (capture : Capture) (dataBlk : Option DataBlock) : Capture :=
  { capture with job := some (capture.job.getD ⟨addrOf dataBlk, [], []⟩) }

/-- The capture may be called for the data block: it does not wait, and it works on no
other data block. -/
def Capture.accepts (capture : Capture) (dataBlk : Option DataBlock) : Bool :=
  capture.waiting == none &&
    match capture.job with
    | none => true
    | some job => job.dataBlk == addrOf dataBlk

/-- Perform one step. A call with a capture id that has no entry in the two vectors reads and writes
outside of them, so it has no step: what the program does from there on is undefined. -/
def Producing.step (state : Producing) : ProducingStep → Option Producing
  | .getMeta captureId dataBlk =>
      let capture := state.captures captureId
      if captureId < maxCaptures ∧ capture.accepts dataBlk = true then
        some (state.answer captureId
          (getMeta4PktBlk dataBlk state.shared (capture.opened dataBlk)))
      else none
  | .resume captureId =>
      let capture := state.captures captureId
      match capture.waiting with
      | none => none
      | some dataBlk =>
          some (state.answer captureId (waitNextEmptyMetaBlk dataBlk state.shared capture))
  | .final captureId =>
      let capture := state.captures captureId
      if captureId < maxCaptures ∧ capture.waiting = none then
        let (shared, done) := finalMetaBlk state.shared capture
        some { state with
          shared := shared
          captures := Function.update state.captures captureId { done with job := none }
          finished := state.finished ++ done.job.toList
          returned := none }
      else none
  | .move id count =>
      if id < state.shared.ring.global.index ∧ count < 2 ^ 31 ∧
          ∀ offset < count, state.shared.sent (state.shared.cursors.passed id + offset) then
        some { state with shared := state.shared.move id count, returned := none }
      else none
  | .free number =>
      if state.shared.status number = .published then
        some { state with shared := state.shared.free number, returned := none }
      else none

/-! ### What a step can have done -/

namespace Producing

variable {state next : Producing}

/-- What a call of `GetMeta4PktBlk` has been: allowed for its capture, and answered at once or left
waiting for a block. -/
theorem step_getMeta_iff {captureId : Nat} {dataBlk : Option DataBlock} :
    state.step (.getMeta captureId dataBlk) = some next ↔
      (captureId < maxCaptures ∧ (state.captures captureId).accepts dataBlk = true) ∧
        next = state.answer captureId (getMeta4PktBlk dataBlk state.shared
          ((state.captures captureId).opened dataBlk)) := by
  simp only [step, Option.ite_none_right_eq_some, Option.some.injEq, @eq_comm _ next]

/-- What a waiting call has been after one more try to get an empty meta block. -/
theorem step_resume_iff {captureId : Nat} :
    state.step (.resume captureId) = some next ↔
      ∃ dataBlk, (state.captures captureId).waiting = some dataBlk ∧
        next = state.answer captureId
          (waitNextEmptyMetaBlk dataBlk state.shared (state.captures captureId)) := by
  cases waiting : (state.captures captureId).waiting with
  | none => simp [step, waiting]
  | some dataBlk => simp [step, waiting, eq_comm]

/-- What a call of `FinalMetaBlk` has been: it ends the job of its capture, when that does not wait. -/
theorem step_final_iff {captureId : Nat} :
    state.step (.final captureId) = some next ↔
      (captureId < maxCaptures ∧ (state.captures captureId).waiting = none) ∧
        next =
          let done := finalMetaBlk state.shared (state.captures captureId)
          { state with
            shared := done.1
            captures := Function.update state.captures captureId { done.2 with job := none }
            finished := state.finished ++ done.2.job.toList
            returned := none } := by
  simp only [step, Option.ite_none_right_eq_some, Option.some.injEq, @eq_comm _ next]

/-- What a move of a module has been: over blocks that were sent, and no more of them than an int
counts. -/
theorem step_move_iff {id count : Nat} :
    state.step (.move id count) = some next ↔
      (id < state.shared.ring.global.index ∧ count < 2 ^ 31 ∧
        ∀ offset < count, state.shared.sent (state.shared.cursors.passed id + offset)) ∧
      next = { state with shared := state.shared.move id count, returned := none } := by
  simp only [step, Option.ite_none_right_eq_some, Option.some.injEq, @eq_comm _ next]

/-- What a free has been: of a block that is published, by the number of its claim. -/
theorem step_free_iff {number : Nat} :
    state.step (.free number) = some next ↔
      state.shared.status number = .published ∧
        next = { state with shared := state.shared.free number, returned := none } := by
  simp only [step, Option.ite_none_right_eq_some, Option.some.injEq, @eq_comm _ next]

end Producing

end OpenTaker
