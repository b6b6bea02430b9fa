import OpenTaker.ProducerAccounting

/-!
# The last meta block of a data block

A data block is carried by several meta blocks, and its producer may give it back when the one
that `FinalMetaBlk` has marked comes round. Other captures claim and publish in between, so that
the meta blocks of one data block are neither consecutive nor published in the order of the ring.
A capture claims them one after the other all the same, and marks the one it has claimed last;
modules pass them in the order of the claims.
-/

namespace OpenTaker

open CursorPipeline

variable {modules blocks capacity slots : Nat}

/-! ## What an operation of a capture publishes -/

/-- What a capture has published for its data block. -/
def Capture.published (capture : Capture) : List Nat :=
  (capture.job.map Job.published).getD []

/-- A capture publishes in the order of its claims, and fills the one it has claimed last. -/
structure Capture.InTurn (capture : Capture) : Prop where
  increasing : capture.published.Pairwise (· < ·)
  older : ∀ number, capture.holds = some number → ∀ other ∈ capture.published, other < number

/-- An operation publishes at most what the capture holds, and takes at most the next claim. -/
structure Turn (shared : Shared) (capture : Capture) (result : Shared × Capture) : Prop where
  published : result.2.published = capture.published ∨
    ∃ number, capture.holds = some number ∧ result.2.published = capture.published ++ [number]
  holds : (result.2.holds = capture.holds ∧ result.2.published = capture.published) ∨
    ∀ number, result.2.holds = some number → number = shared.cursors.tail
  sent : ∀ number, result.1.sent number → shared.sent number ∨ number ∈ result.2.published

namespace Turn

variable {shared middle : Shared} {capture between : Capture} {result : Shared × Capture}

/-- An operation that publishes nothing and takes nothing is a turn: what the capture holds it held
before. -/
theorem same (published : result.2.published = capture.published)
    (holds : result.2.holds = capture.holds)
    (sent : ∀ number, result.1.sent number → shared.sent number) : Turn shared capture result where
  published := .inl published
  holds := .inl ⟨holds, published⟩
  sent number isSent := .inl (sent number isSent)

/-- A capture that holds nothing any more may go on with the next claim. -/
theorem next (first : Turn shared capture (middle, between)) (released : between.holds = none)
    (tail : middle.cursors.tail = shared.cursors.tail) (second : Turn middle between result) :
    Turn shared capture result where
  published := by
    have unchanged : result.2.published = between.published := by
      rcases second.published with unchanged | ⟨number, holds, -⟩
      · exact unchanged
      · rw [released] at holds
        cases holds
    rw [unchanged]
    exact first.published
  holds := by
    refine .inr fun number holds => ?_
    rcases second.holds with ⟨unchanged, -⟩ | taken
    · rw [unchanged, released] at holds
      cases holds
    · rw [taken number holds, tail]
  sent number isSent := by
    rcases second.sent number isSent with before | listed
    · rcases first.sent number before with earlier | published
      · exact .inl earlier
      · right
        rcases second.published with unchanged | ⟨other, holds, -⟩
        · rw [unchanged]
          exact published
        · rw [released] at holds
          cases holds
    · exact .inr listed

/-- What was published for the data block stays so. -/
theorem grows (turn : Turn shared capture result) {number : Nat}
    (listed : number ∈ capture.published) : number ∈ result.2.published := by
  rcases turn.published with unchanged | ⟨other, -, extended⟩
  · rw [unchanged]
    exact listed
  · rw [extended]
    exact List.mem_append_left _ listed

/-- The order of the claims is kept, since the next claim is younger than all others. -/
theorem inTurn (turn : Turn shared capture result) (inTurn : capture.InTurn)
    (claimed : ∀ number ∈ capture.published, number < shared.cursors.tail)
    (held : ∀ number, capture.holds = some number → number < shared.cursors.tail) :
    result.2.InTurn := by
  have below : ∀ number ∈ result.2.published, number < shared.cursors.tail := by
    intro number listed
    rcases turn.published with unchanged | ⟨last, holds, extended⟩
    · rw [unchanged] at listed
      exact claimed number listed
    · rw [extended, List.mem_append, List.mem_singleton] at listed
      rcases listed with earlier | rfl
      · exact claimed number earlier
      · exact held number holds
  constructor
  · rcases turn.published with unchanged | ⟨last, holds, extended⟩
    · rw [unchanged]
      exact inTurn.increasing
    · rw [extended, List.pairwise_append]
      refine ⟨inTurn.increasing, List.pairwise_singleton _ _, ?_⟩
      intro number listed other isLast
      rw [List.mem_singleton.mp isLast]
      exact inTurn.older last holds number listed
  · intro number holds other listed
    rcases turn.holds with ⟨sameHolds, samePublished⟩ | taken
    · rw [samePublished] at listed
      exact inTurn.older number (sameHolds ▸ holds) other listed
    · rw [taken number holds]
      exact below other listed

end Turn

section Operations

variable (dataBlk : Option DataBlock) (shared : Shared) (capture : Capture)

/-- Opening a job publishes nothing. The lemmas say which fields an operation leaves, for the cases
of a turn. -/
@[simp] theorem published_opened : (capture.opened dataBlk).published = capture.published := by
  cases working : capture.job <;> simp [Capture.opened, Capture.published, working]

/-- Nor does it change which block the capture holds. -/
@[simp] theorem opened_holds : (capture.opened dataBlk).holds = capture.holds := rfl

/-- Taking a slot of the current block publishes nothing. -/
@[simp] theorem takeMeta_published :
    (takeMeta dataBlk shared capture).2.published = capture.published := by
  cases working : capture.job <;> simp [takeMeta, Capture.published, working]

/-- Taking a slot is a turn that neither publishes nor claims. -/
theorem takeMeta_turn : Turn shared capture (takeMeta dataBlk shared capture) :=
  .same (takeMeta_published dataBlk shared capture) rfl fun _ sent => sent

/-- One try to claim a block is a turn of the capture: it takes the next claim, or nothing. -/
theorem waitNextEmptyMetaBlk_turn :
    Turn shared capture (waitNextEmptyMetaBlk dataBlk shared capture) := by
  rw [waitNextEmptyMetaBlk]
  generalize getEmptyMetaBlk shared.ring = tried
  obtain ⟨_ | position, ring⟩ := tried
  · exact .same rfl rfl fun _ sent => sent
  · simp only [enterMetaBlk]
    constructor
    case published => exact .inl (takeMeta_published ..)
    case holds =>
      refine .inr fun number holds => ?_
      exact (Option.some.inj holds).symm
    case sent =>
      intro number sent
      refine .inl ?_
      by_cases isTail : number = shared.cursors.tail
      · subst isTail
        simp [takeMeta, Shared.sent, Shared.write, Shared.claim] at sent
      · simpa [takeMeta, Shared.sent, Shared.write, Shared.claim, isTail] using sent

/-- `DoneMetaBlk` of a capture that fills a block is a turn: the block is published, and nothing is
held behind it. -/
theorem doneMetaBlk_turn {used : Nat} (positive : 1 ≤ used) (number position : Nat)
    (waiting : Option (Option DataBlock)) (job : Job) :
    Turn shared ⟨some position, used, waiting, some number, some job⟩
      (doneMetaBlk shared ⟨some position, used, waiting, some number, some job⟩) := by
  rw [doneMetaBlk_eq positive]
  refine ⟨.inr ⟨number, rfl, rfl⟩, .inr (by simp), ?_⟩
  intro other sent
  by_cases isNew : other = number
  · exact .inr (by simp [Capture.published, isNew])
  · exact .inl (by simpa [Shared.sent, Shared.publish, isNew] using sent)

/-- `GetMeta4PktBlk` of a capture that does not wait is a turn, whether the block has room, a new
one is claimed or none is there. -/
theorem getMeta4PktBlk_turn (ok : CaptureOk blocks capacity slots shared capture)
    (accepts : capture.accepts dataBlk = true) :
    Turn shared (capture.opened dataBlk)
      (getMeta4PktBlk dataBlk shared (capture.opened dataBlk)) := by
  cases ok with
  | idle used =>
    simp only [getMeta4PktBlk, Capture.opened, true_or, ↓reduceIte, doneMetaBlk]
    exact waitNextEmptyMetaBlk_turn ..
  | waits used other job same filling => simp [Capture.accepts] at accepts
  | fills number used job held positive usable filling =>
    simp only [getMeta4PktBlk, Capture.opened, Option.getD_some, reduceCtorEq, false_or]
    by_cases full : isMetaBlkFull shared.ring
        ⟨some (number % blocks), used, none, some number, some job⟩ = true
    · have published := doneMetaBlk_turn shared positive number (number % blocks) none job
      rw [if_pos full]
      rw [doneMetaBlk_eq positive] at published ⊢
      exact published.next rfl rfl (waitNextEmptyMetaBlk_turn ..)
    · rw [if_neg full]
      exact takeMeta_turn ..

/-- `FinalMetaBlk` of a capture that does not wait is a turn: the block is published as it is,
unless it is empty. -/
theorem finalMetaBlk_turn (ok : CaptureOk blocks capacity slots shared capture)
    (returned : capture.waiting = none) : Turn shared capture (finalMetaBlk shared capture) := by
  cases ok with
  | idle used => exact .same rfl rfl fun _ sent => sent
  | waits used other job same filling => cases returned
  | fills number used job held positive usable filling =>
    have published := doneMetaBlk_turn
      (shared.write (number % blocks) (finalBlock (shared.ring.metaBlk (number % blocks))))
      positive number (number % blocks) none job
    exact ⟨published.published, published.holds, published.sent⟩

end Operations

/-! ## The order of the claims -/

/-- The claim was published for a finished job, or for the one a capture works on. -/
def Producing.Known (state : Producing) (number : Nat) : Prop :=
  (∃ job ∈ state.finished, number ∈ job.published) ∨
    ∃ captureId, number ∈ (state.captures captureId).published

/-- Every job publishes in the order of its claims, and nothing is published for no job. -/
structure InClaimOrder (state : Producing) : Prop where
  captures : ∀ captureId, (state.captures captureId).InTurn
  finished : ∀ job ∈ state.finished, job.published.Pairwise (· < ·)
  known : ∀ number, state.shared.sent number → state.Known number

namespace ProducingOk

variable {state : Producing}

/-- What has been claimed is below the tail, also where it has been published or freed since. -/
theorem lt_tail (ok : ProducingOk modules blocks capacity slots state) {number : Nat}
    (claimed : state.shared.status number ≠ .unclaimed) : number < state.shared.cursors.tail := by
  by_contra beyond
  exact claimed ((ok.accounting.ledger.flagged.unclaimed number).mpr (Nat.le_of_not_lt beyond))

/-- What is sent has been claimed, so that its number is below the tail. -/
theorem sent_lt_tail (ok : ProducingOk modules blocks capacity slots state) {number : Nat}
    (sent : state.shared.sent number) : number < state.shared.cursors.tail := by
  refine ok.lt_tail fun unclaimed => ?_
  simp [Shared.sent, unclaimed] at sent

/-- What a capture has published and what it holds is below the tail. -/
theorem published_lt_tail (ok : ProducingOk modules blocks capacity slots state) (captureId : Nat) :
    (∀ number ∈ (state.captures captureId).published, number < state.shared.cursors.tail) ∧
      ∀ number, (state.captures captureId).holds = some number →
        number < state.shared.cursors.tail := by
  have captureOk := ok.captures captureId
  generalize state.captures captureId = capture at captureOk
  cases captureOk with
  | idle used => exact ⟨fun _ listed => absurd listed List.not_mem_nil, fun _ holds => by cases holds⟩
  | waits used dataBlk job same filling =>
    exact ⟨fun number listed => ok.sent_lt_tail (filling.sent number listed).sent,
      fun _ holds => by cases holds⟩
  | fills claim used job held positive usable filling =>
    refine ⟨fun number listed => ok.sent_lt_tail (filling.sent number listed).sent, ?_⟩
    intro number holds
    cases holds
    exact ok.lt_tail (by simp [held.claimed])

end ProducingOk

/-- A capture publishes for its job only, so that what it has published belongs to that job. -/
theorem Capture.mem_published {capture : Capture} {number : Nat} :
    number ∈ capture.published ↔ ∃ job, capture.job = some job ∧ number ∈ job.published := by
  cases working : capture.job <;> simp [Capture.published, working]

namespace InClaimOrder

variable {state : Producing}

/-- At the start nothing is published, so that every job is in order. -/
theorem start (ring : Ring) : InClaimOrder (Producing.start ring) where
  captures _ := ⟨List.Pairwise.nil, fun _ holds => by cases holds⟩
  finished _ listed := absurd listed List.not_mem_nil
  known _ sent := by simp [Producing.start, Shared.sent] at sent

/-- After an operation of a capture, what was published is known again: for the job the capture
works on, or elsewhere as before. -/
theorem known_after (order : InClaimOrder state) {captureId : Nat} {result : Shared × Capture}
    (turn : Turn state.shared (state.captures captureId) result) {number : Nat}
    (sent : result.1.sent number) :
    number ∈ result.2.published ∨ (∃ job ∈ state.finished, number ∈ job.published) ∨
      ∃ other, other ≠ captureId ∧ number ∈ (state.captures other).published := by
  rcases turn.sent number sent with before | listed
  · rcases order.known number before with finished | ⟨other, listed⟩
    · exact .inr (.inl finished)
    · by_cases here : other = captureId
      · exact .inl (turn.grows (here ▸ listed))
      · exact .inr (.inr ⟨other, here, listed⟩)
  · exact .inl listed

/-- After an operation the captures are still in turn, since a new claim is younger than all others. -/
theorem inTurn_after (order : InClaimOrder state)
    (ok : ProducingOk modules blocks capacity slots state) {captureId : Nat}
    {result : Shared × Capture} (turn : Turn state.shared (state.captures captureId) result) :
    result.2.InTurn :=
  turn.inTurn (order.captures captureId) (ok.published_lt_tail captureId).1
    (ok.published_lt_tail captureId).2

/-- A call of `GetMeta4PktBlk`, or the next try of a waiting one. -/
theorem answer (order : InClaimOrder state) (ok : ProducingOk modules blocks capacity slots state)
    {captureId : Nat} {result : Shared × Capture}
    (turn : Turn state.shared (state.captures captureId) result) :
    InClaimOrder (state.answer captureId result) where
  captures other := by
    by_cases here : other = captureId
    · simpa [Producing.answer, here] using order.inTurn_after ok turn
    · simpa [Producing.answer, here] using order.captures other
  finished := order.finished
  known number sent := by
    rcases order.known_after turn sent with listed | finished | ⟨other, notHere, listed⟩
    · exact .inr ⟨captureId, by simpa [Producing.answer] using listed⟩
    · exact .inl finished
    · exact .inr ⟨other, by simpa [Producing.answer, notHere] using listed⟩

/-- `FinalMetaBlk` finishes the job of the capture: what it published is known, and in the order of
the claims. -/
theorem final (order : InClaimOrder state) (ok : ProducingOk modules blocks capacity slots state)
    {captureId : Nat} {result : Shared × Capture}
    (turn : Turn state.shared (state.captures captureId) result) :
    InClaimOrder { state with
      shared := result.1
      captures := Function.update state.captures captureId { result.2 with job := none }
      finished := state.finished ++ result.2.job.toList
      returned := none } where
  captures other := by
    by_cases here : other = captureId
    · subst here
      simp only [Function.update_self]
      exact ⟨List.Pairwise.nil, fun _ _ _ listed => absurd listed List.not_mem_nil⟩
    · simpa [here] using order.captures other
  finished job listed := by
    rcases List.mem_append.mp listed with before | now
    · exact order.finished job before
    · have increasing := (order.inTurn_after ok turn).increasing
      rw [Capture.published, Option.mem_toList.mp now] at increasing
      exact increasing
  known number sent := by
    rcases order.known_after turn sent with listed | ⟨job, finished, listed⟩ | ⟨other, notHere, listed⟩
    · obtain ⟨job, works, listed⟩ := Capture.mem_published.mp listed
      exact .inl ⟨job, by simp [works], listed⟩
    · exact .inl ⟨job, List.mem_append_left _ finished, listed⟩
    · exact .inr ⟨other, by simpa [notHere] using listed⟩

/-- A module that moves or frees publishes nothing, and so keeps the order of what was published. -/
theorem consumer (order : InClaimOrder state) {shared : Shared}
    (sent : ∀ number, shared.sent number → state.shared.sent number) :
    InClaimOrder { state with shared := shared, returned := none } where
  captures := order.captures
  finished := order.finished
  known number isSent := order.known number (sent number isSent)

/-- Each step keeps the order in which the jobs publish. -/
theorem step (order : InClaimOrder state) (ok : ProducingOk modules blocks capacity slots state)
    {label : ProducingStep} {next : Producing} (stepped : state.step label = some next) :
    InClaimOrder next := by
  cases label with
  | getMeta captureId dataBlk =>
    obtain ⟨accepts, rfl⟩ := Producing.step_getMeta_iff.mp stepped
    have turn := getMeta4PktBlk_turn dataBlk state.shared _ (ok.captures captureId) accepts.2
    exact order.answer ok ⟨by simpa using turn.published, by simpa using turn.holds, turn.sent⟩
  | resume captureId =>
    obtain ⟨dataBlk, waiting, rfl⟩ := Producing.step_resume_iff.mp stepped
    exact order.answer ok (waitNextEmptyMetaBlk_turn ..)
  | final captureId =>
    obtain ⟨returned, rfl⟩ := Producing.step_final_iff.mp stepped
    exact order.final ok (finalMetaBlk_turn state.shared _ (ok.captures captureId) returned.2)
  | move id count =>
    obtain ⟨-, rfl⟩ := Producing.step_move_iff.mp stepped
    exact order.consumer fun _ sent => sent
  | free number =>
    obtain ⟨published, rfl⟩ := Producing.step_free_iff.mp stepped
    refine order.consumer fun other sent => ?_
    by_cases isFreed : other = number
    · exact .inl (isFreed ▸ published)
    · simpa [Shared.sent, Shared.free, isFreed] using sent

end InClaimOrder

/-- Along every run of captures and modules, both invariants hold. -/
theorem inClaimOrder_run {ring : Ring} (started : Started modules blocks ring)
    (sized : Sized blocks capacity slots ring.global) (nonempty : 1 ≤ modules) (several : 3 ≤ blocks)
    (addressable : slots * sizeofPacketMeta ≤ 2 ^ 32) (labels : List ProducingStep)
    (final : Producing) (ran : Runs.run Producing.step (Producing.start ring) labels = some final) :
    ProducingOk modules blocks capacity slots final ∧ InClaimOrder final :=
  Runs.run_invariant Producing.step
    (fun state => ProducingOk modules blocks capacity slots state ∧ InClaimOrder state)
    (fun _ label next both stepped =>
      ⟨both.1.step several nonempty addressable label next stepped, both.2.step both.1 stepped⟩)
    (Producing.start ring) final labels ⟨started.producingOk sized, .start ring⟩ ran

/-! ## The final block comes last -/

/-- What a final block says when module 0 may read it. -/
structure LastOfJob (modules : Nat) (state : Producing) (number : Nat) (job : Job) : Prop where
  finished : job ∈ state.finished
  carries : (state.shared.ring.metaBlk (state.shared.claims.getD number 0)).dataBlk = job.dataBlk
  last : job.published.getLast? = some number
  /-- The other modules have passed all blocks of the data block, module 0 stands at the last. -/
  passed : ∀ other ∈ job.published, other ≤ number ∧
    ∀ id < modules, id ≠ 0 → other < state.shared.cursors.passed id

/-- In every run of any number of captures, each working on one data block at a time, and of
modules that pass and free published blocks: when the limit of module 0 has passed a published
block that is marked as final, the job of its data block is finished, the block is the last one of
the job, and every other module has passed all blocks of the job. -/
theorem final_block_comes_last {ring : Ring} (started : Started modules blocks ring)
    (sized : Sized blocks capacity slots ring.global) (nonempty : 1 ≤ modules) (several : 3 ≤ blocks)
    (addressable : slots * sizeofPacketMeta ≤ 2 ^ 32) (labels : List ProducingStep)
    (final : Producing) (ran : Runs.run Producing.step (Producing.start ring) labels = some final)
    {number : Nat} (published : final.shared.status number = .published)
    (isFinal : (final.shared.ring.metaBlk (final.shared.claims.getD number 0)).isFinal = true)
    (readable : number < limit modules final.shared.cursors 0) :
    ∃ job, LastOfJob modules final number job := by
  obtain ⟨ok, order⟩ := inClaimOrder_run started sized nonempty several addressable labels final ran
  have ledger := ok.accounting.ledger
  have sent : final.shared.sent number := .inl published
  have stored : final.shared.ring.metaBlk (final.shared.claims.getD number 0) =
      final.shared.contents number := by
    rw [ledger.claims_getD number (by simp [published])]
    exact ok.accounting.frozen number published
  rw [stored] at isFinal
  have fromFinished : ∃ job ∈ final.finished, number ∈ job.published := by
    rcases order.known number sent with finished | ⟨captureId, listed⟩
    · exact finished
    · -- A job that is not finished has published no final block.
      have captureOk := ok.captures captureId
      generalize final.captures captureId = capture at listed captureOk
      cases captureOk with
      | idle used => exact absurd listed List.not_mem_nil
      | waits used dataBlk job same filling =>
        exact absurd isFinal (by simp [filling.notFinal number listed])
      | fills claim used job held positive usable filling =>
        exact absurd isFinal (by simp [filling.notFinal number listed])
  obtain ⟨job, finished, listed⟩ := fromFinished
  have jobOk := ok.finished job finished
  obtain ⟨before, last, shape, notFinal, -⟩ := jobOk.final
  have isLast : number = last := by
    rw [shape, List.mem_append, List.mem_singleton] at listed
    rcases listed with earlier | isLast
    · exact absurd isFinal (by simp [notFinal number earlier])
    · exact isLast
  subst isLast
  have increasing := order.finished job finished
  rw [shape, List.pairwise_append] at increasing
  refine ⟨job, finished, ?_, by rw [shape, List.getLast?_concat], ?_⟩
  · rw [stored]
    exact (jobOk.sent number listed).carried
  · intro other isListed
    have notYounger : other ≤ number := by
      rw [shape, List.mem_append, List.mem_singleton] at isListed
      rcases isListed with earlier | same
      · exact Nat.le_of_lt (increasing.2.2 other earlier number (List.mem_singleton_self number))
      · exact Nat.le_of_eq same
    refine ⟨notYounger, fun id inside notZero => ?_⟩
    have passes := ledger.represents.ordered.limit_last_le id inside notZero
    omega

/-- Capture 0 fills the claims 0 and 2 for its data block, capture 1 the claim 1 in between, and
publishes first. -/
def interleavedJobs : List ProducingStep :=
  [.getMeta 0 (some ⟨1, .pcap⟩), .getMeta 0 (some ⟨1, .pcap⟩), .getMeta 0 (some ⟨1, .pcap⟩),
    .getMeta 0 (some ⟨1, .pcap⟩), .getMeta 1 (some ⟨2, .pcap⟩), .final 1,
    .getMeta 0 (some ⟨1, .pcap⟩), .final 0, .move 1 3]

/-- Two captures fill their jobs in turns, and the final block of one of them is the last of its
job, although the other one has published in between. -/
theorem final_block_comes_last_two_captures :
    ∃ final, Runs.run Producing.step (Producing.start (freshRing 2 8 4 32)) interleavedJobs =
        some final ∧ ∃ job, LastOfJob 2 final 2 job := by
  obtain ⟨final, ran, published, isFinal, readable⟩ := Runs.run_reaches Producing.step
    (Producing.start (freshRing 2 8 4 32)) interleavedJobs
    (fun final => final.shared.status 2 = .published ∧
      (final.shared.ring.metaBlk (final.shared.claims.getD 2 0)).isFinal = true ∧
      2 < limit 2 final.shared.cursors 0) (by decide)
  exact ⟨final, ran, final_block_comes_last (freshRing_started 2 8 4 32)
    (freshRing_sized 2 8 4 32 (by decide) (by decide) (by decide)) (by decide) (by decide)
    (by decide) _ _ ran published isFinal readable⟩

end OpenTaker
