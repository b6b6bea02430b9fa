import OpenTaker.Delivery
import OpenTaker.RingSizing

/-!
# A drained ring accepts data

A ring is drained when every block claimed so far has been published, passed by
every module and freed. `GetEmptyMetaBlk` keeps two positions away from module 0,
so on a ring of one or two blocks its test for a full ring is met by the empty one.
From three blocks on a drained ring takes the next block, wherever its tail stands,
as long as that block lies inside the array that was requested.

When the request is too short, every drained state up to its end is reached by
bringing one block after the other through the ring, and the claim behind the last
requested block fails. So the two conditions are also necessary.
-/

namespace OpenTaker

open CursorPipeline CyclicPositions

/-- Every claimed block has been passed by every module and freed. -/
structure Drained (modules : Nat) (state : Delivery) : Prop where
  passed : ∀ id < modules, state.cursors.passed id = state.cursors.tail
  freed : ∀ number < state.cursors.tail, state.status number = .freed

/-- Nothing has been claimed on a fresh ring, and so everything that was has been freed. -/
theorem drained_start (modules : Nat) (ring : Ring) : Drained modules (Delivery.start ring) where
  passed _ _ := rfl
  freed number inside := absurd inside (Nat.not_lt_zero number)

/-- A fresh ring of fewer than three blocks refuses the first claim: without blocks the
remainder traps, with one or two the ring counts as full. -/
theorem Started.refuses {modules blocks : Nat} {ring : Ring} (started : Started modules blocks ring)
    (nonempty : 1 ≤ modules) (few : blocks < 3) : (getEmptyMetaBlk ring).1 = none := by
  have valid := started.represents.module_zero nonempty
  have atZero : (ring.global.moduleInfo 0).blkPtr = 0 := started.cursorZero 0 (by omega)
  have cases : blocks = 0 ∨ blocks = 1 ∨ blocks = 2 := by omega
  rcases cases with rfl | rfl | rfl
  · simp [getEmptyMetaBlk, claimPass, valid, started.blockCount]
  · simp [getEmptyMetaBlk, claimPass, valid, started.blockCount, atZero, Nat.mod_one]
  · simp [getEmptyMetaBlk, claimPass, valid, started.blockCount, started.tailZero, atZero,
      safeDistance, u32]

namespace Delivering

variable {modules blocks : Nat} {state : Delivery}

/-- A drained ring of at least three blocks takes a block that lies inside the array. -/
theorem claims_of_drained (delivering : Delivering modules blocks state) (several : 3 ≤ blocks)
    (nonempty : 1 ≤ modules) (drained : Drained modules state) :
    getEmptyMetaBlk state.ring =
      if blockInside blocks (state.cursors.tail % blocks) = true then
        (some (state.cursors.tail % blocks),
          Represents.afterClaim state.ring blocks state.cursors)
      else (none, state.ring) := by
  have room : state.cursors.tail < state.cursors.passed 0 + (blocks - 2) := by
    rw [drained.passed 0 (by omega)]
    omega
  have empty := delivering.flagged.empty_of_freed (by omega)
    fun number earlier => drained.freed number (by omega)
  rw [delivering.represents.getEmptyMetaBlk_eq (by omega) nonempty]
  simp only [room, empty, true_and, and_true]

/-- A module takes the next block once it is published and released to the module. -/
theorem takes (delivering : Delivering modules blocks state) (several : 3 ≤ blocks)
    (id number : Nat) (inside : id < modules) (received : (state.received id).length = number)
    (released : number < limit modules state.cursors id)
    (published : state.status number = .published) :
    ∃ next, state.step (.receive id) = some next ∧ Delivering modules blocks next ∧
      next.cursors = state.cursors ∧ next.status = state.status ∧
      (next.received id).length = number + 1 ∧
      ∀ other, other ≠ id → next.received other = state.received other := by
  have registered : id < state.ring.global.index := delivering.represents.registered ▸ inside
  have handed := delivering.getNextFullMetaBlk_eq (by omega) id inside
  rw [received, if_pos ⟨released, published⟩] at handed
  have stepped : state.step (.receive id) = some { state with
      readers := Function.update state.readers id
        (getNextFullMetaBlk state.ring id (state.readers id)).2
      received := Function.update state.received id (state.received id ++ [number % blocks]) } := by
    refine Delivery.step_receive_iff.mpr ⟨registered, ?_⟩
    rw [handed, Option.toList_some]
  exact ⟨_, stepped, delivering.receive several id _ stepped, rfl, rfl, by simp [received],
    fun other distinct => Function.update_of_ne distinct _ _⟩

/-- A module moves over a block it has received. -/
theorem moves (delivering : Delivering modules blocks state) (several : 3 ≤ blocks) (id : Nat)
    (inside : id < modules) (behind : state.cursors.passed id < (state.received id).length) :
    ∃ next, state.step (.move id) = some next ∧ Delivering modules blocks next ∧
      next.cursors = state.cursors.advance id 1 ∧ next.status = state.status ∧
      next.received = state.received := by
  have registered : id < state.ring.global.index := delivering.represents.registered ▸ inside
  obtain ⟨-, code⟩ := delivering.move_eq (by omega) id inside behind
  have stepped : state.step (.move id) = some { state with
      ring := state.ring.setBlkPtr id ((state.cursors.passed id + 1) % blocks)
      cursors := state.cursors.advance id 1 } := by
    refine Delivery.step_move_iff.mpr ⟨⟨registered, behind⟩, ?_⟩
    simp only [code, Int.natCast_nonneg, ↓reduceIte]
  exact ⟨_, stepped, delivering.move several id _ stepped, rfl, rfl, rfl⟩

end Delivering

/-! ## Bringing one block through the ring -/

/-- One block is under way: it has been published, modules 1 to `count` have passed it,
and the others have not received it. All earlier blocks have been freed. -/
structure UnderWay (modules blocks number count : Nat) (state : Delivery) : Prop where
  delivering : Delivering modules blocks state
  tail : state.cursors.tail = number + 1
  published : state.status number = .published
  earlier : ∀ other < number, state.status other = .freed
  ahead : ∀ id, 1 ≤ id → id ≤ count → state.cursors.passed id = number + 1
  behind : ∀ id < modules, id = 0 ∨ count < id →
    state.cursors.passed id = number ∧ (state.received id).length = number

namespace UnderWay

variable {modules blocks number count : Nat} {state : Delivery}

/-- The next module in the chain is released by what it follows. -/
theorem released (underWay : UnderWay modules blocks number count state) (id : Nat)
    (next : id = count + 1 ∨ id = 0 ∧ count + 1 = modules) :
    number < limit modules state.cursors id := by
  have tail := underWay.tail
  rcases next with rfl | ⟨rfl, last⟩
  · by_cases first : count = 0
    · subst first
      rw [limit_of_first]
      omega
    · rw [limit_of_later modules state.cursors (count + 1) (by omega), Nat.add_sub_cancel,
        underWay.ahead count (by omega) (Nat.le_refl _)]
      omega
  · by_cases alone : modules = 1
    · subst alone
      rw [limit_of_alone]
      omega
    · rw [limit_of_last modules state.cursors (by omega),
        underWay.ahead (modules - 1) (by omega) (by omega)]
      omega

/-- A module that has been released takes the block and moves over it; the others stay. -/
theorem serve (underWay : UnderWay modules blocks number count state) (several : 3 ≤ blocks)
    (id : Nat) (inside : id < modules) (waiting : id = 0 ∨ count < id)
    (released : number < limit modules state.cursors id) :
    ∃ next, Runs.run Delivery.step state [.receive id, .move id] = some next ∧
      Delivering modules blocks next ∧ next.cursors = state.cursors.advance id 1 ∧
      next.status = state.status ∧ (next.received id).length = number + 1 ∧
      ∀ other, other ≠ id → next.received other = state.received other := by
  obtain ⟨passed, received⟩ := underWay.behind id inside waiting
  obtain ⟨middle, took, delivering, cursors, status, longer, others⟩ :=
    underWay.delivering.takes several id number inside received released underWay.published
  obtain ⟨next, moved, after, advanced, sameStatus, sameReceived⟩ :=
    delivering.moves several id inside (by rw [cursors]; omega)
  refine ⟨next, ?_, after, by rw [advanced, cursors], sameStatus.trans status, ?_, ?_⟩
  · exact (Runs.run_cons _ _ _ _ _).mpr ⟨middle, took, (Runs.run_cons _ _ _ _ _).mpr
      ⟨next, moved, rfl⟩⟩
  · rw [sameReceived, longer]
  · intro other distinct
    rw [sameReceived, others other distinct]

/-- The block passes the next module of the chain. -/
theorem pass (underWay : UnderWay modules blocks number count state) (several : 3 ≤ blocks)
    (inside : count + 1 < modules) :
    ∃ next, Runs.run Delivery.step state [.receive (count + 1), .move (count + 1)] = some next ∧
      UnderWay modules blocks number (count + 1) next := by
  obtain ⟨next, ran, delivering, cursors, status, -, others⟩ :=
    underWay.serve several (count + 1) inside (.inr (by omega)) (underWay.released _ (.inl rfl))
  have passed := (underWay.behind (count + 1) inside (.inr (by omega))).1
  refine ⟨next, ran, ?_⟩
  constructor
  case delivering => exact delivering
  case tail => rw [cursors, advance_tail, underWay.tail]
  case published => rw [status, underWay.published]
  case earlier =>
    rw [status]
    exact underWay.earlier
  case ahead =>
    intro id positive bound
    by_cases same : id = count + 1
    · rw [same, cursors, advance_passed_self, passed]
    · rw [cursors, advance_passed_other _ _ _ _ same]
      exact underWay.ahead id positive (by omega)
  case behind =>
    intro id bound waiting
    have distinct : id ≠ count + 1 := by omega
    rw [cursors, advance_passed_other _ _ _ _ distinct, others id distinct]
    exact underWay.behind id bound (by omega)

/-- The block passes the modules of the chain one after the other. -/
theorem passAll (underWay : UnderWay modules blocks number 0 state) (several : 3 ≤ blocks)
    (count : Nat) (inside : count < modules) :
    ∃ labels next, Runs.run Delivery.step state labels = some next ∧
      UnderWay modules blocks number count next := by
  induction count with
  | zero => exact ⟨[], state, rfl, underWay⟩
  | succ count inductionHypothesis =>
    obtain ⟨labels, middle, reached, there⟩ := inductionHypothesis (by omega)
    obtain ⟨next, ran, passed⟩ := there.pass several inside
    exact ⟨labels ++ _, next, (Runs.run_append _ _ _ _ _).mpr ⟨middle, reached, ran⟩, passed⟩

/-- Behind the last module of the chain, module 0 takes the block and frees it. -/
theorem finish (underWay : UnderWay modules blocks number (modules - 1) state)
    (several : 3 ≤ blocks) (nonempty : 1 ≤ modules) :
    ∃ labels next, Runs.run Delivery.step state labels = some next ∧
      Delivering modules blocks next ∧ Drained modules next ∧ next.cursors.tail = number + 1 := by
  obtain ⟨middle, ran, delivering, cursors, status, longer, -⟩ :=
    underWay.serve several 0 (by omega) (.inl rfl) (underWay.released 0 (.inr ⟨rfl, by omega⟩))
  have passed := (underWay.behind 0 (by omega) (.inl rfl)).1
  have stepped : middle.step (.free number) = some { middle with
      ring := freeFullMetaBlk middle.ring ((middle.received 0).getD number 0)
      status := Function.update middle.status number .freed } :=
    Delivery.step_free_iff.mpr ⟨⟨by omega, by rw [status, underWay.published]⟩, rfl⟩
  refine ⟨[.receive 0, .move 0] ++ [.free number], _, (Runs.run_append _ _ _ _ _).mpr
    ⟨middle, ran, (Runs.run_cons _ _ _ _ _).mpr ⟨_, stepped, rfl⟩⟩,
    delivering.free nonempty number _ stepped, ?_, ?_⟩
  · constructor
    · intro id bound
      simp only [cursors, advance_tail, underWay.tail]
      by_cases same : id = 0
      · rw [same, advance_passed_self, passed]
      · rw [advance_passed_other _ _ _ _ same]
        exact underWay.ahead id (by omega) (by omega)
    · intro other bound
      simp only [cursors, advance_tail, underWay.tail] at bound
      by_cases same : other = number
      · simp [same]
      · simpa [same, status] using underWay.earlier other (by omega)
  · simp only [cursors, advance_tail, underWay.tail]

end UnderWay

namespace Delivering

variable {modules blocks : Nat} {state : Delivery}

/-- On a drained ring a claim and its publication set one block on its way. -/
theorem setOut (delivering : Delivering modules blocks state) (several : 3 ≤ blocks)
    (nonempty : 1 ≤ modules) (drained : Drained modules state)
    (inside : blockInside blocks (state.cursors.tail % blocks) = true) :
    ∃ next, Runs.run Delivery.step state [.claim, .publish state.cursors.tail 1] = some next ∧
      UnderWay modules blocks state.cursors.tail 0 next := by
  have claims := delivering.claims_of_drained several nonempty drained
  rw [if_pos inside] at claims
  obtain ⟨claimed, took, status, received, cursors⟩ : ∃ claimed, state.step .claim = some claimed ∧
      claimed.status = Function.update state.status state.cursors.tail .claimed ∧
      claimed.received = state.received ∧ claimed.cursors = state.cursors.append := by
    simp only [Delivery.step, claims]
    exact ⟨_, rfl, rfl, rfl, rfl⟩
  have middle := delivering.claim several nonempty claimed took
  have published : claimed.step (.publish state.cursors.tail 1) = some { claimed with
      ring := publishMetaBlk claimed.ring (claimed.claims.getD state.cursors.tail 0) 1
      status := Function.update claimed.status state.cursors.tail .published } :=
    Delivery.step_publish_iff.mpr ⟨⟨by simp [status], by decide, by decide⟩, rfl⟩
  refine ⟨_, (Runs.run_cons _ _ _ _ _).mpr ⟨claimed, took, (Runs.run_cons _ _ _ _ _).mpr
    ⟨_, published, rfl⟩⟩, ?_⟩
  constructor
  case delivering => exact middle.publish _ _ _ published
  case tail => simp only [cursors, append_tail]
  case published => simp
  case earlier =>
    intro other before
    simp only [status]
    rw [Function.update_of_ne (by omega), Function.update_of_ne (by omega)]
    exact drained.freed other before
  case ahead =>
    intro id positive bound
    omega
  case behind =>
    intro id bound _
    have passed := drained.passed id bound
    -- What a module has received lies between its cursor and the tail.
    have moved := delivering.moved id bound
    have limited := delivering.picked_le_tail id bound
    simp only [Delivery.picked] at limited
    simp only [cursors, append_passed, received]
    omega

/-- Each block in turn can be brought through the ring, up to the end of the array that
was requested. -/
theorem drained_at (delivering : Delivering modules blocks state) (several : 3 ≤ blocks)
    (nonempty : 1 ≤ modules) (drained : Drained modules state) (tail : state.cursors.tail = 0)
    (position : Nat) (requested : ∀ before < position, blockInside blocks (before % blocks) = true) :
    ∃ labels next, Runs.run Delivery.step state labels = some next ∧
      Delivering modules blocks next ∧ Drained modules next ∧ next.cursors.tail = position := by
  induction position with
  | zero => exact ⟨[], state, rfl, delivering, drained, tail⟩
  | succ position inductionHypothesis =>
    obtain ⟨first, middle, reached, there, empty, stands⟩ :=
      inductionHypothesis fun before below => requested before (by omega)
    obtain ⟨away, left, underWay⟩ := there.setOut several nonempty empty
      (stands ▸ requested position (by omega))
    obtain ⟨second, across, passed, ahead⟩ := underWay.passAll several (modules - 1) (by omega)
    obtain ⟨third, final, finished, after, drainedAgain, moved⟩ := ahead.finish several nonempty
    refine ⟨first ++ ([.claim, .publish middle.cursors.tail 1] ++ (second ++ third)), final, ?_,
      after, drainedAgain, moved.trans (by omega)⟩
    exact (Runs.run_append _ _ _ _ _).mpr ⟨middle, reached, (Runs.run_append _ _ _ _ _).mpr
      ⟨away, left, (Runs.run_append _ _ _ _ _).mpr ⟨across, passed, finished⟩⟩⟩

end Delivering

/-! ## Accepted configurations -/

/-- For every ring set up by any calls of `InitRing` and started, every drained state of
every run accepts a claim exactly when the ring has at least three blocks and their
array fits in its 32-bit request. -/
theorem drained_accepts_iff (calls : List InitCall) (opened ring : Ring)
    (setups : Runs.run setupStep Ring.zero calls = some opened)
    (works : startWork opened = some ring) :
    (∀ labels final, Runs.run Delivery.step (Delivery.start ring) labels = some final →
        Drained ring.global.index final → ∃ block, (getEmptyMetaBlk final.ring).1 = some block) ↔
      3 ≤ getMetaBlkCount ring ∧ getMetaBlkCount ring * sizeofPktMetaBlk < 2 ^ 32 := by
  obtain ⟨nonempty, started⟩ := started_of_startWork (setUp_run calls opened setups) works
  simp only [getMetaBlkCount]
  constructor
  · intro accepts
    have several : 3 ≤ ring.global.metaBlkCount := by
      by_contra few
      obtain ⟨block, accepted⟩ := accepts [] (Delivery.start ring) rfl (drained_start _ ring)
      have refused := started.refuses nonempty (by omega)
      rw [show (Delivery.start ring).ring = ring from rfl, refused] at accepted
      cases accepted
    refine ⟨several, ?_⟩
    by_contra wide
    -- The claim behind the last requested block leaves the array.
    have request := u32_lt (ring.global.metaBlkCount * 32)
    simp only [sizeofPktMetaBlk] at wide
    obtain ⟨labels, final, ran, delivering, drained, tail⟩ :=
      started.delivering.drained_at several nonempty (drained_start _ ring) rfl
        (u32 (ring.global.metaBlkCount * 32) / 32) fun before below => by
          rw [Nat.mod_eq_of_lt (by omega), blockInside_iff]
          omega
    obtain ⟨block, accepted⟩ := accepts labels final ran drained
    rw [delivering.claims_of_drained several nonempty drained, tail,
      Nat.mod_eq_of_lt (by omega), if_neg] at accepted
    · cases accepted
    · rw [blockInside_iff]
      omega
  · rintro ⟨several, fits⟩ labels final ran drained
    have delivering := delivering_run several nonempty started labels final ran
    have inside : final.cursors.tail % ring.global.metaBlkCount < ring.global.metaBlkCount :=
      Nat.mod_lt _ (by omega)
    rw [delivering.claims_of_drained several nonempty drained,
      if_pos (blockInside_of_lt fits inside)]
    exact ⟨_, rfl⟩

/-- The condition is meant for rings set up by real calls: here 16 slots in four blocks. -/
theorem drained_accepts_iff_four_blocks :
    ∃ opened ring, Runs.run setupStep Ring.zero [sizingCall 1000 4] = some opened ∧
      startWork opened = some ring ∧
      ((∀ labels final, Runs.run Delivery.step (Delivery.start ring) labels = some final →
        Drained ring.global.index final → ∃ block, (getEmptyMetaBlk final.ring).1 = some block) ↔
      3 ≤ getMetaBlkCount ring ∧ getMetaBlkCount ring * sizeofPktMetaBlk < 2 ^ 32) := by
  obtain ⟨opened, setups, started⟩ := Runs.run_reaches setupStep Ring.zero [sizingCall 1000 4]
    (fun opened => (startWork opened).isSome = true) (by decide)
  have works := (Option.some_get started).symm
  exact ⟨opened, _, setups, works, drained_accepts_iff [sizingCall 1000 4] opened _ setups works⟩

/-- A block of 100000 bytes with the default capacity makes a ring of one block, which refuses the
first claim, although nothing is in it. -/
theorem drained_refuses_one_block :
    ∃ opened ring, Runs.run setupStep Ring.zero [sizingCall 100000 0] = some opened ∧
      startWork opened = some ring ∧ startWorkAsserts ring.global = true ∧
      Drained ring.global.index (Delivery.start ring) ∧
      (getEmptyMetaBlk (Delivery.start ring).ring).1 = none := by
  obtain ⟨opened, setups, checked⟩ := Runs.run_reaches setupStep Ring.zero [sizingCall 100000 0]
    (fun opened => (startWork opened).any (fun ring =>
      decide (startWorkAsserts ring.global = true ∧ (getEmptyMetaBlk ring).1 = none)) = true)
    (by decide)
  obtain ⟨ring, works, facts⟩ := (Option.any_eq_true _ _).mp checked
  obtain ⟨asserted, refused⟩ := of_decide_eq_true facts
  exact ⟨opened, ring, setups, works, asserted, drained_start _ ring, refused⟩

end OpenTaker
