import OpenTaker.PacketSpace
import OpenTaker.RingSizing

/-!
# Refused packet slots

`GetNextMetaSpace` without waiting gives up at two points: when the ring is full, and when
the slot at the tail still has the length of a packet, which it finds out only after it has
moved the tail. Then the position is passed by and no producer was given it. One caller
takes slots here, the modules move, and any party writes the length of a packet, when it is
filled or when it has been handled.

The positions that were handed out are kept beside the ring, for the history only.
-/

namespace OpenTaker

/-- The ring with the positions that were handed out, in their order. -/
structure PacketRun where
  ring : Ring
  granted : List Nat

/-- One operation: a slot is asked for, a module moves, or the length of a packet is written. -/
inductive PacketStep where
  | space
  | move (id count : Nat)
  | fill (slot pktLen : Nat)

namespace PacketRun

/-- A started ring of which no slot has been handed out. -/
def start (ring : Ring) : PacketRun where
  ring := ring
  granted := []

/-- Perform one operation of a run in which everybody works alone, one call after the other. -/
def step (state : PacketRun) : PacketStep → Option PacketRun
  | .space =>
      some { ring := (getNextMetaSpace state.ring).2
             granted := state.granted ++ (getNextMetaSpace state.ring).1.toList }
  | .move id count => some { state with ring := (moveToNextPacket state.ring id count).2 }
  | .fill slot pktLen => some { state with ring := state.ring.setPktLen slot pktLen }

/-- The slot at the tail, which is the next one that is given out. -/
def tailSlot (ring : Ring) : Nat := metaSlot ring (ring.global.tailPacket &&& ring.global.metaCount)

/-- The position behind the tail is that of module 0. -/
def full (ring : Ring) : Bool :=
  u32 ((ring.global.tailPacket &&& ring.global.metaCount) + 1) &&& ring.global.metaCount ==
    ring.packetPtr 0

/-- A refused slot has no effect: the tail and every slot are as before. -/
def RefusalUnchanged (state : PacketRun) : PacketStep → Prop
  | .space => (getNextMetaSpace state.ring).1 = none → (getNextMetaSpace state.ring).2 = state.ring
  | _ => True

/-- A slot is asked for while the ring is full or the slot at the tail has been cleared. -/
def TailCleared (state : PacketRun) : PacketStep → Prop
  | .space => full state.ring = true ∨ (state.ring.packetMeta (tailSlot state.ring)).basicAttr.pktLen = 0
  | _ => True

/-- Every position below the tail was handed out, one after the other. -/
def HandedOut (state : PacketRun) : Prop :=
  state.ring.global.tailPacket = u32 state.granted.length ∧
    state.granted = (List.range state.granted.length).map fun position =>
      u32 position &&& state.ring.global.metaCount

variable {state next : PacketRun}

/-- What the three ends of `GetNextMetaSpace` do: a full ring changes nothing, a slot still in use
moves the tail only, and an empty one is given. -/
theorem getNextMetaSpace_cases (ring : Ring) :
    (full ring = true ∧ getNextMetaSpace ring = (none, ring)) ∨
    (full ring = false ∧ (ring.packetMeta (tailSlot ring)).basicAttr.pktLen ≠ 0 ∧
      getNextMetaSpace ring = (none, ring.setTailPacket (u32 (ring.global.tailPacket + 1)))) ∨
    (full ring = false ∧ (ring.packetMeta (tailSlot ring)).basicAttr.pktLen = 0 ∧
      getNextMetaSpace ring = (some (ring.global.tailPacket &&& ring.global.metaCount),
        ring.setTailPacket (u32 (ring.global.tailPacket + 1)))) := by
  by_cases isFull : full ring = true
  · have same : u32 ((ring.global.tailPacket &&& ring.global.metaCount) + 1) &&& ring.global.metaCount =
        ring.packetPtr 0 := beq_iff_eq.mp isFull
    exact .inl ⟨isFull, by rw [getNextMetaSpace, if_pos same]⟩
  · have distinct : ¬ u32 ((ring.global.tailPacket &&& ring.global.metaCount) + 1) &&&
        ring.global.metaCount = ring.packetPtr 0 := fun same => isFull (beq_iff_eq.mpr same)
    have notFull : full ring = false := Bool.eq_false_iff.mpr isFull
    by_cases used : (ring.packetMeta (tailSlot ring)).basicAttr.pktLen ≠ 0
    · refine .inr (.inl ⟨notFull, used, ?_⟩)
      rw [getNextMetaSpace, if_neg distinct]
      exact if_pos used
    · refine .inr (.inr ⟨notFull, not_not.mp used, ?_⟩)
      rw [getNextMetaSpace, if_neg distinct]
      exact if_neg used

/-- A tail that is moved is another one, even where the counter wraps. -/
theorem u32_succ_ne (value : Nat) : u32 (value + 1) ≠ value := by
  simp only [u32]
  omega

/-- Cutting to 32 bits before adding makes no difference. -/
theorem u32_u32_succ (value : Nat) : u32 (u32 value + 1) = u32 (value + 1) := by
  simp only [u32]
  omega

/-- A refused slot has no effect exactly when it was refused for a full ring. -/
theorem refusalUnchanged_iff (state : PacketRun) (label : PacketStep) :
    RefusalUnchanged state label ↔ TailCleared state label := by
  cases label with
  | space =>
    simp only [RefusalUnchanged, TailCleared]
    rcases getNextMetaSpace_cases state.ring with ⟨isFull, asked⟩ | ⟨notFull, used, asked⟩ |
      ⟨notFull, cleared, asked⟩
    · simp [asked, isFull]
    · have moved : state.ring.setTailPacket (u32 (state.ring.global.tailPacket + 1)) ≠ state.ring :=
        fun same => u32_succ_ne _ (congrArg (fun ring => ring.global.tailPacket) same)
      simp [asked, notFull, used, moved]
    · simp [asked, cleared]
  | move id count => exact Iff.rfl
  | fill slot pktLen => exact Iff.rfl

/-- Moving a module moves no tail, so that it changes nothing about what is given out next. -/
theorem moveToNextPacket_tail (ring : Ring) (id count : Nat) :
    (moveToNextPacket ring id count).2.global.tailPacket = ring.global.tailPacket ∧
      (moveToNextPacket ring id count).2.global.metaCount = ring.global.metaCount := by
  simp only [moveToNextPacket]
  split
  · exact ⟨rfl, rfl⟩
  split
  · split <;> exact ⟨rfl, rfl⟩
  · split <;> exact ⟨rfl, rfl⟩

/-- The position that is handed out next is the one of the tail. -/
theorem HandedOut.append {ring : Ring} {granted : List Nat} (handedOut : HandedOut ⟨ring, granted⟩) :
    HandedOut ⟨ring.setTailPacket (u32 (ring.global.tailPacket + 1)),
      granted ++ [ring.global.tailPacket &&& ring.global.metaCount]⟩ := by
  obtain ⟨tail, listed⟩ := handedOut
  constructor
  · simp only [Ring.setTailPacket, List.length_append, List.length_singleton]
    rw [tail, u32_u32_succ]
  · have longer : (granted ++ [ring.global.tailPacket &&& ring.global.metaCount]).length =
        granted.length + 1 := by simp
    rw [longer, List.range_succ, List.map_append]
    simp only [Ring.setTailPacket, List.map_cons, List.map_nil]
    rw [← listed, tail]

/-- While slots are asked for only then, every position below the tail has been handed out. -/
theorem handedOut_step (state : PacketRun) (label : PacketStep) (next : PacketRun)
    (handedOut : HandedOut state) (cleared : TailCleared state label)
    (stepped : state.step label = some next) : HandedOut next := by
  cases label with
  | space =>
    simp only [TailCleared] at cleared
    rcases getNextMetaSpace_cases state.ring with ⟨-, asked⟩ | ⟨notFull, used, -⟩ | ⟨-, -, asked⟩
    · simp only [step, asked, Option.toList_none, List.append_nil] at stepped
      cases stepped
      exact handedOut
    · rcases cleared with isFull | empty
      · rw [notFull] at isFull
        cases isFull
      · exact absurd empty used
    · simp only [step, asked, Option.toList_some] at stepped
      cases stepped
      exact handedOut.append
  | move id count =>
    cases stepped
    obtain ⟨tail, mask⟩ := moveToNextPacket_tail state.ring id count
    exact ⟨tail.trans handedOut.1, by simp only [mask]; exact handedOut.2⟩
  | fill slot pktLen =>
    cases stepped
    exact handedOut

/-- Any other refusal passes by a position: the tail is moved, and the slot is given to nobody. -/
theorem passedBy_step (state : PacketRun) (label : PacketStep) (next : PacketRun)
    (handedOut : HandedOut state) (uncleared : ¬ TailCleared state label)
    (stepped : state.step label = some next) : ¬ HandedOut next := by
  cases label with
  | space =>
    simp only [TailCleared, not_or] at uncleared
    rcases getNextMetaSpace_cases state.ring with ⟨isFull, -⟩ | ⟨-, -, asked⟩ | ⟨-, empty, -⟩
    · exact absurd isFull uncleared.1
    · simp only [step, asked, Option.toList_none, List.append_nil] at stepped
      cases stepped
      rintro ⟨tail, -⟩
      simp only [Ring.setTailPacket] at tail
      rw [handedOut.1, u32_u32_succ] at tail
      simp only [u32] at tail
      omega
    · exact absurd empty uncleared.2
  | move id count => exact absurd trivial uncleared
  | fill slot pktLen => exact absurd trivial uncleared

/-- Slots can always be asked for: the call answers with one or with NULL, and ends. -/
theorem space_taken (state : PacketRun) (label : PacketStep) (_ : ¬ TailCleared state label) :
    ∃ next, state.step label = some next := by
  cases label <;> exact ⟨_, rfl⟩

/-- Nothing has been handed out when the ring is started. -/
theorem handedOut_start {opened ring : Ring} (setUp : SetUp opened) (works : startWork opened = some ring) :
    HandedOut (start ring) := by
  obtain ⟨-, metaSize, metaCount, rfl⟩ := startWork_some works
  exact ⟨setUp.tailPacketZero, rfl⟩

end PacketRun

open PacketRun

/-- On every started ring and in every run the refused slots have no effect, and every
position below the tail is handed out in each state, exactly when a slot is asked for only
while the ring is full or the slot at the tail is cleared. -/
theorem refusals_unchanged_iff {calls : List InitCall} {opened ring : Ring}
    (ran : Runs.run setupStep Ring.zero calls = some opened) (works : startWork opened = some ring)
    (labels : List PacketStep) :
    (Runs.Meets PacketRun.step RefusalUnchanged (PacketRun.start ring) labels ↔
        Runs.Meets PacketRun.step TailCleared (PacketRun.start ring) labels) ∧
      (Runs.Throughout PacketRun.step HandedOut (PacketRun.start ring) labels ↔
        Runs.Meets PacketRun.step TailCleared (PacketRun.start ring) labels) := by
  constructor
  · have same : RefusalUnchanged = TailCleared :=
      funext fun state => funext fun label => propext (refusalUnchanged_iff state label)
    rw [same]
  · exact Runs.throughout_iff_meets PacketRun.step TailCleared HandedOut HandedOut (fun _ handedOut => handedOut)
      handedOut_step space_taken passedBy_step (PacketRun.start ring) labels
      (handedOut_start (setUp_run calls opened ran) works)

/-- A ring of eight slots, of which one is taken. The next call has room, so that there is no
refusal to leave a trace. -/
theorem refusals_unchanged_eight_slots :
    ∃ opened ring, Runs.run setupStep Ring.zero [sizingCall 400 0] = some opened ∧
      startWork opened = some ring ∧ getMetaCount ring = 8 ∧
      (Runs.Throughout PacketRun.step HandedOut (PacketRun.start ring) [.space] ↔
        Runs.Meets PacketRun.step TailCleared (PacketRun.start ring) [.space]) := by
  obtain ⟨opened, ran, starts⟩ := (Option.any_eq_true _ _).mp
    (show (Runs.run setupStep Ring.zero [sizingCall 400 0]).any (fun opened =>
      (startWork opened).any fun ring => decide (getMetaCount ring = 8)) = true by decide)
  obtain ⟨ring, works, slots⟩ := (Option.any_eq_true _ _).mp starts
  exact ⟨opened, ring, ran, works, of_decide_eq_true slots, (refusals_unchanged_iff ran works [.space]).2⟩

/-- Take a slot and fill it, as a capture does with one packet. -/
def spaceAndFill (slot : Nat) : List PacketStep := [.space, .fill slot 60]

/-- Of eight slots seven are filled, module 0 moves over the first without clearing it, the
eighth is filled, and module 0 moves on. -/
def unclearedSlot : List PacketStep :=
  (List.range 7).flatMap spaceAndFill ++ [.move 0 1] ++ spaceAndFill 7 ++ [.move 0 1]

/-- The next slot is refused, but the tail has moved: it is incremented in front of the test for a
packet that nobody has passed. -/
theorem refusal_moves_tail :
    ∃ opened ring state, Runs.run setupStep Ring.zero [sizingCall 400 0] = some opened ∧
      startWork opened = some ring ∧
      Runs.run PacketRun.step (PacketRun.start ring) unclearedSlot = some state ∧
      state.granted = [0, 1, 2, 3, 4, 5, 6, 7] ∧ state.ring.global.tailPacket = 8 ∧
      (getNextMetaSpace state.ring).1 = none ∧
      (getNextMetaSpace state.ring).2.global.tailPacket = 9 ∧ ¬ RefusalUnchanged state .space := by
  obtain ⟨opened, ran, starts⟩ := (Option.any_eq_true _ _).mp
    (show (Runs.run setupStep Ring.zero [sizingCall 400 0]).any (fun opened =>
      (startWork opened).any fun ring =>
        (Runs.run PacketRun.step (PacketRun.start ring) unclearedSlot).any fun state =>
          decide (state.granted = [0, 1, 2, 3, 4, 5, 6, 7] ∧ state.ring.global.tailPacket = 8 ∧
            (getNextMetaSpace state.ring).1 = none ∧
            (getNextMetaSpace state.ring).2.global.tailPacket = 9)) = true by decide)
  obtain ⟨ring, works, reached⟩ := (Option.any_eq_true _ _).mp starts
  obtain ⟨state, arrived, checked⟩ := (Option.any_eq_true _ _).mp reached
  obtain ⟨granted, tail, refused, moved⟩ := of_decide_eq_true checked
  refine ⟨opened, ring, state, ran, works, arrived, granted, tail, refused, moved, fun unchanged => ?_⟩
  have same := unchanged refused
  rw [same, tail] at moved
  cases moved

end OpenTaker
