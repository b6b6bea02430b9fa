import OpenTaker.SpaceRace

/-!
# Reading packets one by one and in batches

A module reads the packets ahead of its cursor in one of two ways. `GetNextPacket`
gives the packet at the cursor and `MoveToNextPacket` moves over it. The second
`GetNextPacket` starts at an index that the caller keeps, loads the limit once and
collects every packet up to the first that is not ready, moving the index only.

On a ring at rest the batch collects what single reads and moves would give, and
leaves its index where they would leave the cursor.
-/

namespace OpenTaker

open CursorPipeline CyclicPositions

/-- The address of the packet at a stored position, in a module's own view. The views
have been checked where it is used. -/
def packetAt (ring : Ring) (id position : Nat) : Nat :=
  (ring.global.moduleInfo id).metaViewStart.getD 0 + u32 (ring.global.metaSize * position)

/-- A packet without a length has not been filled. -/
def packetReady (ring : Ring) (position : Nat) : Bool :=
  (ring.packetMeta (metaSlot ring position)).basicAttr.pktLen ≠ 0

/-- `GetNextPacket` of one packet, with nothing else running: its retries see the same. -/
def getNextPacket (ring : Ring) (id : Nat) : Option Nat :=
  if ¬ (ring.global.moduleInfo id).mapped then none
  else
    let curPtr := ring.packetPtr id
    if curPtr = limPacketPtr ring id then none
    else if packetReady ring curPtr then some (packetAt ring id curPtr)
    else none

/-- The distance of an index from the limit, in a `u_int32`. The two are compared as
`int`s. -/
def packetDistance (ring : Ring) (id curPtr : Nat) : Nat :=
  let lim := limPacketPtr ring id
  if i32 lim < i32 curPtr then u32 (lim + getMetaCount ring + (2 ^ 32 - curPtr))
  else u32 (lim + (2 ^ 32 - curPtr))

/-- Move an index to the next position, with the mask that takes it back to the start of the ring. -/
def nextIndex (ring : Ring) (curPtr : Nat) : Nat := u32 (curPtr + 1) &&& ring.global.metaCount

/-- The loop of the batch: the packets it collects and the index it leaves. -/
def pickPackets (ring : Ring) (id : Nat) : Nat → Nat → List Nat × Nat
  | 0, curPtr => ([], curPtr)
  | distance + 1, curPtr =>
      if packetReady ring curPtr then
        let picked := pickPackets ring id distance (nextIndex ring curPtr)
        (packetAt ring id curPtr :: picked.1, picked.2)
      else ([], curPtr)

/-- `GetNextPacket` of a batch, with the packets it appends and the index it leaves. -/
def getNextPackets (ring : Ring) (id index : Nat) : List Nat × Nat :=
  if ¬ (ring.global.moduleInfo id).mapped then ([], index)
  else pickPackets ring id (packetDistance ring id index) index

/-- Read the packet at the cursor and move over it, so often or until there is none. -/
def readAlong (id : Nat) : Nat → Ring → List Nat × Ring
  | 0, ring => ([], ring)
  | fuel + 1, ring =>
      match getNextPacket ring id with
      | none => ([], ring)
      | some packet =>
          let others := readAlong id fuel (moveToNextPacket ring id 1).2
          (packet :: others.1, others.2)

section Moved

variable (ring : Ring) (id other position : Nat)

/-- Where the packets stand does not depend on the cursors of modules. -/
@[simp] theorem setPacketPtr_packetAt (number : Nat) :
    packetAt (ring.setPacketPtr id position) other number = packetAt ring other number := by
  by_cases same : other = id
  · subst same
    simp [packetAt, Ring.setPacketPtr, Ring.setModuleInfo]
  · simp [packetAt, Ring.setPacketPtr, Ring.setModuleInfo, same]

/-- A cursor that is written as it is changes nothing. -/
theorem setPacketPtr_eq_self : ring.setPacketPtr id (ring.packetPtr id) = ring := by
  simp [Ring.setPacketPtr, Ring.setModuleInfo, Ring.packetPtr]

/-- Only the last of two positions written to a cursor stays. -/
theorem setPacketPtr_again :
    (ring.setPacketPtr id other).setPacketPtr id position = ring.setPacketPtr id position := by
  simp [Ring.setPacketPtr, Ring.setModuleInfo]

/-- A module's own cursor is not what limits it. -/
theorem setPacketPtr_limPacketPtr :
    limPacketPtr (ring.setPacketPtr id position) id = limPacketPtr ring id := by
  have same : depModId (ring.setPacketPtr id position).global id = depModId ring.global id := rfl
  simp only [limPacketPtr, same]
  split
  · rfl
  · rename_i chained
    exact setPacketPtr_other _ _ _ _ fun own => chained (.inr own.symm)

/-- The batch of a ring depends on no packet cursor. -/
theorem pickPackets_setPacketPtr (distance curPtr : Nat) :
    pickPackets (ring.setPacketPtr other position) id distance curPtr =
      pickPackets ring id distance curPtr := by
  induction distance generalizing curPtr with
  | zero => rfl
  | succ distance inductionHypothesis =>
    have ready : packetReady (ring.setPacketPtr other position) curPtr =
        packetReady ring curPtr := rfl
    have next : nextIndex (ring.setPacketPtr other position) curPtr = nextIndex ring curPtr := rfl
    simp only [pickPackets, ready, next, inductionHypothesis, setPacketPtr_packetAt]

end Moved

section Masked

variable {bits : Nat} {ring : Ring} (mask : ring.global.metaCount = 2 ^ bits - 1)
  (narrow : bits ≤ 31)

include mask narrow

/-- The number of slots is one more than the mask. -/
theorem getMetaCount_of_mask : getMetaCount ring = 2 ^ bits := by
  have positive := Nat.two_pow_pos bits
  have bound : 2 ^ bits ≤ 2 ^ 31 := Nat.pow_le_pow_right (by decide) narrow
  rw [getMetaCount, mask, Nat.sub_add_cancel positive, u32_of_lt (by omega)]

/-- An index that stands for a position moves on to the next position. -/
theorem nextIndex_mod (number : Nat) :
    nextIndex ring (number % 2 ^ bits) = (number + 1) % 2 ^ bits := by
  have bound : 2 ^ bits ≤ 2 ^ 31 := Nat.pow_le_pow_right (by decide) narrow
  have below : number % 2 ^ bits < 2 ^ bits := Nat.mod_lt _ (Nat.two_pow_pos bits)
  rw [nextIndex, mask, Nat.and_two_pow_sub_one_eq_mod, u32_of_lt (by omega), advance_mod]

/-- The distance from an index to a limit less than a lap ahead is exact. -/
theorem packetDistance_mod {id position limit : Nat}
    (reach : limPacketPtr ring id = limit % 2 ^ bits) (ahead : position ≤ limit)
    (within : limit < position + 2 ^ bits) :
    packetDistance ring id (position % 2 ^ bits) = limit - position := by
  have bound : 2 ^ bits ≤ 2 ^ 31 := Nat.pow_le_pow_right (by decide) narrow
  have below : position % 2 ^ bits < 2 ^ bits := Nat.mod_lt _ (Nat.two_pow_pos bits)
  have limitBelow : limit % 2 ^ bits < 2 ^ bits := Nat.mod_lt _ (Nat.two_pow_pos bits)
  have distance := lifted_mod ahead within
  -- Both positions are below 2^31, where an `int` keeps the order.
  have signed : i32 (limit % 2 ^ bits) < i32 (position % 2 ^ bits) ↔
      limit % 2 ^ bits < position % 2 ^ bits := by
    simp only [i32, if_pos (lt_of_lt_of_le below bound), if_pos (lt_of_lt_of_le limitBelow bound)]
    exact Int.ofNat_lt
  simp only [packetDistance, reach, signed, getMetaCount_of_mask mask narrow, u32]
  simp only [lifted] at distance
  split <;> rename_i wrapped
  · rw [if_pos wrapped] at distance
    omega
  · rw [if_neg wrapped] at distance
    omega

end Masked

/-- The stored positions a module reads: its cursor stands for `position`, its limit for
`limit`, less than a lap ahead. -/
structure Stretch (bits : Nat) (ring : Ring) (id position limit : Nat) : Prop where
  mask : ring.global.metaCount = 2 ^ bits - 1
  narrow : bits ≤ 31
  cursor : ring.packetPtr id = position % 2 ^ bits
  reach : limPacketPtr ring id = limit % 2 ^ bits
  ahead : position ≤ limit
  within : limit < position + 2 ^ bits

namespace Stretch

variable {bits : Nat} {ring : Ring} {id position limit : Nat}

/-- In a stretch of packets the number of slots fits in 31 bits. -/
theorem slots_le (stretch : Stretch bits ring id position limit) : 2 ^ bits ≤ 2 ^ 31 :=
  Nat.pow_le_pow_right (by decide) stretch.narrow

/-- The next index stands for the next position, also across the end of the ring. -/
theorem nextIndex_eq (stretch : Stretch bits ring id position limit) (number : Nat) :
    nextIndex ring (number % 2 ^ bits) = (number + 1) % 2 ^ bits :=
  nextIndex_mod stretch.mask stretch.narrow number

/-- The distance of the batch is the number of positions to the limit. -/
theorem packetDistance_eq (stretch : Stretch bits ring id position limit) :
    packetDistance ring id (position % 2 ^ bits) = limit - position :=
  packetDistance_mod stretch.mask stretch.narrow stretch.reach stretch.ahead stretch.within

/-- The cursor is at the limit exactly when no position is left. -/
theorem cursor_eq_iff (stretch : Stretch bits ring id position limit) :
    ring.packetPtr id = limPacketPtr ring id ↔ position = limit := by
  rw [stretch.cursor, stretch.reach, mod_eq_iff stretch.ahead stretch.within]

/-- With a position left, a move over one packet succeeds. -/
theorem move_one (stretch : Stretch bits ring id position limit)
    (mapped : (ring.global.moduleInfo id).mapped = true) (left : position < limit) :
    (moveToNextPacket ring id 1).2 = ring.setPacketPtr id ((position + 1) % 2 ^ bits) := by
  have bound := stretch.slots_le
  have below : position % 2 ^ bits < 2 ^ bits := Nat.mod_lt _ (Nat.two_pow_pos bits)
  have limitBelow : limit % 2 ^ bits < 2 ^ bits := Nat.mod_lt _ (Nat.two_pow_pos bits)
  have distance := lifted_mod stretch.ahead stretch.within
  have next := stretch.nextIndex_eq position
  simp only [lifted] at distance
  have corrected : (if limit % 2 ^ bits < position % 2 ^ bits then
      u32 (limit % 2 ^ bits + 2 ^ bits) else limit % 2 ^ bits) =
        position % 2 ^ bits + (limit - position) := by
    rw [← distance, u32_of_lt (by omega)]
  simp only [nextIndex] at next
  simp only [moveToNextPacket, mapped, not_true_eq_false, if_false, stretch.cursor, stretch.reach,
    getMetaCount_of_mask stretch.mask stretch.narrow, corrected, next]
  rw [u32_of_lt (by omega), if_pos (by omega)]

/-- The move leaves the rest of the stretch, which the module may still read. -/
theorem moved (stretch : Stretch bits ring id position limit) (left : position < limit) :
    Stretch bits (ring.setPacketPtr id ((position + 1) % 2 ^ bits)) id (position + 1) limit where
  mask := stretch.mask
  narrow := stretch.narrow
  cursor := setPacketPtr_self ring id _
  reach := (setPacketPtr_limPacketPtr ring id _).trans stretch.reach
  ahead := left
  within := by
    have within := stretch.within
    omega

/-- The loop of the batch collects the packets up to the first that is not ready. -/
theorem pickPackets_eq (stretch : Stretch bits ring id position limit) (left number : Nat) :
    pickPackets ring id left (number % 2 ^ bits) =
      (((List.range' number left).takeWhile (fun n => packetReady ring (n % 2 ^ bits))).map
          (fun n => packetAt ring id (n % 2 ^ bits)),
        (number + ((List.range' number left).takeWhile
          (fun n => packetReady ring (n % 2 ^ bits))).length) % 2 ^ bits) := by
  induction left generalizing number with
  | zero => rfl
  | succ left inductionHypothesis =>
    simp only [pickPackets, List.range'_succ, List.takeWhile_cons]
    split
    · rw [stretch.nextIndex_eq, inductionHypothesis, List.map_cons, List.length_cons,
        Nat.add_assoc, Nat.add_comm 1]
    · rfl

/-- Single reads and moves give what the loop of the batch collects, by induction on the
positions left. -/
theorem readAlong_eq (left fuel : Nat) (stretch : Stretch bits ring id position limit)
    (mapped : (ring.global.moduleInfo id).mapped = true) (distance : limit = position + left)
    (enough : left ≤ fuel) :
    readAlong id fuel ring =
      ((pickPackets ring id left (position % 2 ^ bits)).1,
        ring.setPacketPtr id (pickPackets ring id left (position % 2 ^ bits)).2) := by
  induction left generalizing fuel ring position with
  | zero =>
    have atLimit : ring.packetPtr id = limPacketPtr ring id :=
      stretch.cursor_eq_iff.mpr distance.symm
    have refused : getNextPacket ring id = none := by
      simp only [getNextPacket, mapped, not_true_eq_false, if_false, if_pos atLimit]
    have unmoved : ring.setPacketPtr id (position % 2 ^ bits) = ring := by
      rw [← stretch.cursor]
      exact setPacketPtr_eq_self ring id
    cases fuel with
    | zero => simp only [readAlong, pickPackets, unmoved]
    | succ fuel => simp only [readAlong, refused, pickPackets, unmoved]
  | succ left inductionHypothesis =>
    obtain ⟨fuel, rfl⟩ : ∃ fewer, fuel = fewer + 1 := ⟨fuel - 1, by omega⟩
    have inside : position < limit := by omega
    have notAtLimit : ¬ ring.packetPtr id = limPacketPtr ring id := by
      rw [stretch.cursor_eq_iff]
      omega
    by_cases ready : packetReady ring (position % 2 ^ bits) = true
    · have given : getNextPacket ring id = some (packetAt ring id (position % 2 ^ bits)) := by
        simp only [getNextPacket, mapped, not_true_eq_false, if_false, if_neg notAtLimit]
        rw [stretch.cursor, if_pos ready]
      have others := inductionHypothesis fuel (stretch.moved inside)
        (by rw [setPacketPtr_mapped, mapped]) (by omega) (by omega)
      rw [pickPackets_setPacketPtr] at others
      simp only [readAlong, given, stretch.move_one mapped inside, others, pickPackets, if_pos ready,
        stretch.nextIndex_eq, setPacketPtr_again]
    · have refused : getNextPacket ring id = none := by
        simp only [getNextPacket, mapped, not_true_eq_false, if_false, if_neg notAtLimit]
        rw [stretch.cursor, if_neg ready]
      have unmoved : ring.setPacketPtr id (position % 2 ^ bits) = ring := by
        rw [← stretch.cursor]
        exact setPacketPtr_eq_self ring id
      simp only [readAlong, refused, pickPackets, if_neg ready, unmoved]

end Stretch

/-- In a state with its cursors in order, an idle module that loads a masked limit reads a
stretch. -/
theorem Spaced.stretch {modules bits id : Nat} {state : SpaceRace}
    (spaced : Spaced modules bits state) (inside : id < modules) (resting : state.movers id ≠ .added)
    (masked : limPacketPtr state.ring id < getMetaCount state.ring) :
    Stretch bits state.ring id (state.cursors.passed id) (limit modules state.cursors id) where
  mask := spaced.mask
  narrow := spaced.narrow
  cursor := spaced.packetPtr_eq id inside (spaced.masked id inside resting)
  reach := spaced.limPacketPtr_eq id inside (spaced.getMetaCount_eq ▸ masked)
  ahead := spaced.ordered.behind id inside
  within := by
    have belowTail := spaced.ordered.limit_le_tail id inside
    have lastBehind := spaced.ordered.last_le id inside
    have bounded := spaced.ordered.bounded
    have positive := Nat.two_pow_pos bits
    omega

/-- The numbers of the packets a module may read that are ready without a gap. -/
def readyNumbers (modules : Nat) (state : SpaceRace) (id : Nat) : List Nat :=
  let position := state.cursors.passed id
  (List.range' position (limit modules state.cursors id - position)).takeWhile
    (fun number => packetReady state.ring (number % getMetaCount state.ring))

/-- Along the runs in which no increment is overtaken and no load sees a cursor that is not
masked, the batch from a module's cursor holds the packets of the consecutive numbers from
the cursor up to the limit or the first that is not ready. Single reads and moves give
the same packets and leave the cursor at the batch's index. -/
theorem batch_eq_single_reads {modules bits : Nat} {ring : Ring}
    (started : StartedSpace modules bits ring) (nonempty : 1 ≤ modules) (labels : List SpaceStep)
    (final : SpaceRace)
    (careful : Runs.Meets SpaceRace.step
      (fun state label => state.overtaken label = false ∧ state.readsUnmasked label = false)
      (SpaceRace.start ring) labels)
    (ran : Runs.run SpaceRace.step (SpaceRace.start ring) labels = some final)
    (id fuel : Nat) (inside : id < modules) (resting : final.movers id = .idle)
    (mapped : (final.ring.global.moduleInfo id).mapped = true)
    (masked : limPacketPtr final.ring id < getMetaCount final.ring)
    (enough : getMetaCount final.ring ≤ fuel) :
    let batch := getNextPackets final.ring id (final.ring.packetPtr id)
    let numbers := readyNumbers modules final id
    batch.1 = numbers.map (fun number => packetAt final.ring id (number % getMetaCount final.ring)) ∧
      batch.2 = (final.cursors.passed id + numbers.length) % getMetaCount final.ring ∧
      readAlong id fuel final.ring = (batch.1, final.ring.setPacketPtr id batch.2) := by
  have spaced := Runs.run_invariant_meets SpaceRace.step
    (fun state label => state.overtaken label = false ∧ state.readsUnmasked label = false)
    (Spaced modules bits)
    (fun _ label next spaced both stepped =>
      spaced.step nonempty label next both.1 both.2 stepped)
    (SpaceRace.start ring) final labels started.spaced careful ran
  have stretch := spaced.stretch inside (by simp [resting]) masked
  have slots := spaced.getMetaCount_eq
  have ahead := stretch.ahead
  have within := stretch.within
  have batch : getNextPackets final.ring id (final.ring.packetPtr id) =
      pickPackets final.ring id (limit modules final.cursors id - final.cursors.passed id)
        (final.cursors.passed id % 2 ^ bits) := by
    simp only [getNextPackets, mapped, not_true_eq_false, if_false, stretch.cursor,
      stretch.packetDistance_eq]
  have single := stretch.readAlong_eq (limit modules final.cursors id - final.cursors.passed id) fuel
    mapped (by omega) (by omega)
  simp only [batch, readyNumbers, slots]
  refine ⟨?_, ?_, single⟩
  · rw [stretch.pickPackets_eq]
  · rw [stretch.pickPackets_eq]

/-- Two modules over eight slots: three slots are handed out and two of them filled. -/
def twoFilled : List SpaceStep :=
  List.replicate 12 (.access 0 false) ++ [.fill 0 60, .fill 1 60]

/-- The state after these steps, with two packets that have their lengths. -/
def twoFilledState : SpaceRace :=
  (Runs.run SpaceRace.step (SpaceRace.start (freshRing 2 4 2 (2 ^ 3))) twoFilled).getD
    (SpaceRace.start (freshRing 2 4 2 (2 ^ 3)))

/-- The agent reads the two packets that are filled, in one batch and one by one, and comes to the
same place. -/
theorem batch_eq_single_reads_two_filled :
    (getNextPackets twoFilledState.ring 1 0).1 =
        [packetAt twoFilledState.ring 1 0, packetAt twoFilledState.ring 1 1] ∧
      readAlong 1 8 twoFilledState.ring =
        ([packetAt twoFilledState.ring 1 0, packetAt twoFilledState.ring 1 1],
          twoFilledState.ring.setPacketPtr 1 2) := by
  have ran : Runs.run SpaceRace.step (SpaceRace.start (freshRing 2 4 2 (2 ^ 3))) twoFilled =
      some twoFilledState := rfl
  have numbers : readyNumbers 2 twoFilledState 1 = [0, 1] := by decide
  have passed : twoFilledState.cursors.passed 1 = 0 := by decide
  have cursor : twoFilledState.ring.packetPtr 1 = 0 := by decide
  have slots : getMetaCount twoFilledState.ring = 8 := by decide
  obtain ⟨packets, index, single⟩ := batch_eq_single_reads
    (freshRing_startedSpace 2 4 2 3 (by decide)) (by decide) twoFilled _ (by decide) ran 1 8
    (by decide) (by decide) (by decide) (by decide) (by decide)
  rw [numbers, cursor, slots] at packets
  rw [numbers, cursor, slots, passed] at index
  rw [cursor, index, packets] at single
  exact ⟨packets, single⟩

end OpenTaker
