import OpenTaker.SocketReceives

/-!
# Sending a whole buffer

`CSocketBase::send` offers the kernel what is left of the buffer until nothing is left or a
call fails. The bytes go out once and in order. But the result of each call is kept in a
variable of the loop's own, which hides the one that is returned: the function returns -1 in
any case.
-/

namespace OpenTaker

/-- What `::send` does: it takes some of the bytes, or there is an error. -/
inductive SendOutcome where
  | accepted (count : Nat)
  | failed (errno : Nat)
deriving DecidableEq

/-- The kernel, by the number of the call and the number of bytes that are offered. -/
structure SendKernel where
  answer : Nat → Nat → SendOutcome
  accepted_bounds : ∀ call offered count, answer call offered = .accepted count → 0 < count ∧ count ≤ offered
  errno_positive : ∀ call offered errno, answer call offered = .failed errno → 0 < errno

/-- A call of `::send`, with the bytes it was given and what the kernel did. -/
structure SendCall where
  offered : List UInt8
  outcome : SendOutcome
deriving DecidableEq

/-- The bytes of a call that the kernel has accepted: the first ones of those offered, or none. -/
def SendCall.sent (call : SendCall) : List UInt8 :=
  match call.outcome with
  | .accepted count => call.offered.take count
  | .failed _ => []

/-- All bytes that the kernel has accepted, in order. -/
def allSent (calls : List SendCall) : List UInt8 := calls.flatMap SendCall.sent

/-- The variables of `send`, and the calls so far. -/
structure Sending where
  /-- How far `_buffer` has moved. -/
  position : Nat
  count : Nat
  /-- The variable of the function; that of the loop is another one. -/
  ret : Int
  calls : List SendCall
deriving DecidableEq

/-- `while (count > 0)`: send what is left, until nothing is. -/
def Sending.loop (kernel : SendKernel) (buffer : List UInt8) : Nat → Sending → Option Sending
  | 0, _ => none
  | fuel + 1, state =>
      if state.count = 0 then some state
      else
        let offered := (buffer.drop state.position).take state.count
        let outcome := kernel.answer state.calls.length state.count
        let called := { state with calls := state.calls ++ [⟨offered, outcome⟩] }
        match outcome with
        -- `ret = net_errno` is of the variable that ends with the loop
        | .failed _ => some called
        | .accepted count =>
            loop kernel buffer fuel
              { called with position := state.position + count, count := state.count - count }

/-- `CSocketBase::send`: the loop over what is left, for a length of 16 bits. -/
def send (kernel : SendKernel) (buffer : List UInt8) (len : UInt16) : Option Sending :=
  Sending.loop kernel buffer (len.toNat + 1) ⟨0, len.toNat, -1, []⟩

/-- The last call of the loop has failed with this error, which the loop was left for. -/
def Sending.FailedWith (after : Sending) (errno : Nat) : Prop :=
  after.calls.getLast?.map SendCall.outcome = some (.failed errno)

/-- A value that is returned by some call of `send` that fails. -/
def FailureResult (value : Int) : Prop :=
  ∃ kernel buffer len after errno, buffer.length = UInt16.toNat len ∧ send kernel buffer len = some after ∧
    after.FailedWith errno ∧ after.ret = value

/-- What a full send leaves behind: all bytes sent in their order, or the error that came in
between. -/
structure FullSend (buffer : List UInt8) (after : Sending) : Prop where
  /-- Each call is offered all that was not accepted before. -/
  inOrder : ∀ before call later, after.calls = before ++ call :: later →
    allSent before ++ call.offered = buffer
  failure : ∀ errno, after.FailedWith errno → after.ret = errno ∨ after.ret = socketError
  complete : (∀ errno, ¬ after.FailedWith errno) → allSent after.calls = buffer ∧ ¬ FailureResult after.ret

/-- The kernel refuses some of so many bytes, in this call or in one of those that follow it. -/
inductive SendKernel.Refuses (kernel : SendKernel) : Nat → Nat → Prop where
  | now {call offered : Nat} (errno : Nat) (answer : kernel.answer call offered = .failed errno)
      (left : 0 < offered) : Refuses kernel call offered
  | later {call offered : Nat} (count : Nat) (answer : kernel.answer call offered = .accepted count)
      (refuses : Refuses kernel (call + 1) (offered - count)) : Refuses kernel call offered

/-! ## The loop -/

/-- What was sent in two rows of calls is what each of them has sent. -/
@[simp] theorem allSent_append (first second : List SendCall) :
    allSent (first ++ second) = allSent first ++ allSent second := List.flatMap_append

/-- And one call has sent the bytes the kernel took. -/
@[simp] theorem allSent_singleton (call : SendCall) : allSent [call] = call.sent := by simp [allSent]

/-- Nothing is refused when nothing is left, since no call is made then. -/
theorem SendKernel.not_refuses_zero (kernel : SendKernel) (call : Nat) : ¬ kernel.Refuses call 0 := by
  intro refuses
  cases refuses with
  | now errno answer left => omega
  | later count answer refuses =>
    have bounds := kernel.accepted_bounds call 0 count answer
    omega

/-- The last call decides whether the row has failed. -/
theorem failedWith_append (state : Sending) (calls : List SendCall) (call : SendCall) (errno : Nat)
    (last : state.calls = calls ++ [call]) : state.FailedWith errno ↔ call.outcome = .failed errno := by
  simp [Sending.FailedWith, last]

namespace Sending

/-- What has been accepted is the start of the buffer, and the rest is still to be sent. -/
structure Sound (buffer : List UInt8) (state : Sending) : Prop where
  sent : allSent state.calls = buffer.take state.position
  remaining : state.position + state.count = buffer.length
  inOrder : ∀ before call later, state.calls = before ++ call :: later →
    allSent before ++ call.offered = buffer
  ret : state.ret = -1

variable {kernel : SendKernel} {buffer : List UInt8} {state : Sending}

/-- The call is offered what is left, from the position to the end of the buffer. -/
theorem Sound.offered (sound : state.Sound buffer) :
    (buffer.drop state.position).take state.count = buffer.drop state.position := by
  have remaining := sound.remaining
  apply List.take_of_length_le
  rw [List.length_drop]
  omega

/-- One more call keeps the order, as it goes on behind what was sent. -/
theorem Sound.called (sound : state.Sound buffer) (outcome : SendOutcome) (before : List SendCall)
    (call : SendCall) (later : List SendCall)
    (calls : state.calls ++ [⟨(buffer.drop state.position).take state.count, outcome⟩] = before ++ call :: later) :
    allSent before ++ call.offered = buffer := by
  rcases List.eq_nil_or_concat later with rfl | ⟨earlier, last, rfl⟩
  · obtain ⟨same, rfl⟩ := List.append_inj' calls rfl |>.imp_right (fun equal => (List.cons.inj equal).1)
    rw [← same, sound.sent, sound.offered]
    exact List.take_append_drop ..
  · rw [List.concat_eq_append, ← List.cons_append, ← List.append_assoc] at calls
    exact sound.inOrder before call earlier (List.append_inj' calls rfl).1

/-- A call that is refused leaves the rest unsent. -/
theorem Sound.refused (sound : state.Sound buffer) (errno : Nat) :
    Sound buffer { state with
      calls := state.calls ++ [⟨(buffer.drop state.position).take state.count, .failed errno⟩] } where
  sent := by simp [SendCall.sent, sound.sent]
  remaining := sound.remaining
  inOrder := sound.called _
  ret := sound.ret

/-- A call that accepts some bytes moves on by as many. -/
theorem Sound.accepted (sound : state.Sound buffer) {count : Nat} (some : count ≤ state.count) :
    Sound buffer { state with
      position := state.position + count
      count := state.count - count
      calls := state.calls ++ [⟨(buffer.drop state.position).take state.count, .accepted count⟩] } where
  sent := by
    rw [allSent_append, allSent_singleton, sound.sent, List.take_add]
    simp [SendCall.sent, List.take_take, some]
  remaining := by
    have remaining := sound.remaining
    dsimp only
    omega
  inOrder := sound.called _
  ret := sound.ret

/-- The loop ends; it has failed when the kernel refuses some of the rest, and is complete otherwise. -/
theorem loop_ends (fuel : Nat) (state : Sending) (sound : state.Sound buffer)
    (accepting : ∀ errno, ¬ state.FailedWith errno) (enough : state.count < fuel) :
    ∃ after, loop kernel buffer fuel state = some after ∧ after.Sound buffer ∧
      ((∃ errno, after.FailedWith errno) ↔ kernel.Refuses state.calls.length state.count) ∧
      ((∀ errno, ¬ after.FailedWith errno) → after.count = 0) := by
  induction fuel generalizing state with
  | zero => omega
  | succ fuel inductionHypothesis =>
    by_cases nothing : state.count = 0
    · refine ⟨state, by rw [loop, if_pos nothing], sound, ?_, fun _ => nothing⟩
      rw [nothing]
      exact iff_of_false (fun ⟨errno, failed⟩ => accepting errno failed) (kernel.not_refuses_zero _)
    · cases answer : kernel.answer state.calls.length state.count with
      | failed errno =>
        refine ⟨_, by rw [loop, if_neg nothing]; simp only [answer], sound.refused errno, ?_, ?_⟩
        · refine iff_of_true ⟨errno, ?_⟩ (.now errno answer (by omega))
          exact (failedWith_append _ _ _ errno rfl).mpr rfl
        · intro notFailed
          exact absurd ((failedWith_append _ _ _ errno rfl).mpr rfl) (notFailed errno)
      | accepted count =>
        have bounds := kernel.accepted_bounds _ _ count answer
        obtain ⟨after, loops, soundAfter, refused, complete⟩ := inductionHypothesis _ (sound.accepted bounds.2)
          (fun errno failed => by cases (failedWith_append _ _ _ errno rfl).mp failed)
          (by dsimp only; omega)
        refine ⟨after, by rw [loop, if_neg nothing]; simpa only [answer] using loops, soundAfter, ?_, complete⟩
        rw [refused, List.length_append, List.length_singleton]
        constructor
        · exact .later count answer
        · intro refuses
          cases refuses with
          | now errno answered left => cases answer.symm.trans answered
          | later other answered refuses =>
            cases answer.symm.trans answered
            exact refuses

end Sending

variable {kernel : SendKernel} {buffer : List UInt8} {len : UInt16}

/-- `send` returns -1, and the bytes that the kernel has accepted went out once and in order. -/
theorem send_ends (kernel : SendKernel) (whole : buffer.length = len.toNat) :
    ∃ after, send kernel buffer len = some after ∧ after.Sound buffer ∧
      ((∃ errno, after.FailedWith errno) ↔ kernel.Refuses 0 len.toNat) ∧
      ((∀ errno, ¬ after.FailedWith errno) → after.count = 0) := by
  have initial : Sending.Sound buffer ⟨0, len.toNat, -1, []⟩ := by
    refine ⟨rfl, by dsimp only; omega, ?_, rfl⟩
    intro before call later calls
    cases before <;> cases calls
  refine Sending.loop_ends _ _ initial ?_ (Nat.lt_succ_self _)
  intro errno failed
  cases failed

/-- A kernel that refuses at once, for a connection that was closed. -/
def SendKernel.closed : SendKernel where
  answer _ _ := .failed 32
  accepted_bounds := by
    intro call offered count answer
    cases answer
  errno_positive := by
    intro call offered errno answer
    cases answer
    decide

/-- -1 is what a failed call returns, as one to a peer that has closed does. -/
theorem failureResult_socketError : FailureResult socketError :=
  ⟨.closed, [0], 1, ⟨0, 1, -1, [⟨[0], .failed 32⟩]⟩, 32, rfl, by decide, rfl, rfl⟩

/-- The result of a send tells how it went just when the kernel refuses some of the bytes. When all
of them are sent, it is -1 as well. -/
theorem fullSend_iff (kernel : SendKernel) (buffer : List UInt8) (len : UInt16)
    (whole : buffer.length = len.toNat) :
    (∃ after, send kernel buffer len = some after ∧ FullSend buffer after) ↔ kernel.Refuses 0 len.toNat := by
  obtain ⟨found, sends, sound, refused, complete⟩ := send_ends kernel whole
  rw [← refused]
  constructor
  · rintro ⟨after, returns, full⟩
    cases sends.symm.trans returns
    by_contra accepted
    obtain ⟨all, told⟩ := full.complete fun errno failed => accepted ⟨errno, failed⟩
    rw [sound.ret] at told
    exact told failureResult_socketError
  · rintro ⟨errno, failed⟩
    refine ⟨found, sends, sound.inOrder, fun _ _ => Or.inr sound.ret, fun accepted => ?_⟩
    exact absurd failed (accepted errno)

/-- A kernel that takes two bytes in its first call and refuses the next. -/
def SendKernel.twoOnly : SendKernel where
  answer call offered := if call = 0 ∧ 2 ≤ offered then .accepted 2 else .failed 32
  accepted_bounds := by
    intro call offered count answer
    split_ifs at answer with first
    cases answer
    omega
  errno_positive := by
    intro call offered errno answer
    split_ifs at answer
    cases answer
    decide

/-- Three bytes, of which the kernel accepts two and refuses the third. It is the outcome in which
the value that is returned tells of the failure. -/
theorem fullSend_iff_three :
    (∃ after, send .twoOnly [1, 2, 3] 3 = some after ∧ FullSend [1, 2, 3] after) ↔
      SendKernel.twoOnly.Refuses 0 3 :=
  fullSend_iff .twoOnly [1, 2, 3] 3 rfl

/-- A kernel that takes one byte in each call. -/
def SendKernel.byByte : SendKernel where
  answer _ offered := if 0 < offered then .accepted 1 else .failed 32
  accepted_bounds := by
    intro call offered count answer
    split_ifs at answer with first
    cases answer
    omega
  errno_positive := by
    intro call offered errno answer
    split_ifs at answer
    cases answer
    decide

/-- Two bytes are sent, one by one, and -1 is returned, as when the first call fails. The number of
bytes sent is never assigned. -/
theorem sent_as_failed :
    (¬ ∃ after, send .byByte [1, 2] 2 = some after ∧ FullSend [1, 2] after) ∧
    send .byByte [1, 2] 2 = some ⟨2, 0, -1, [⟨[1, 2], .accepted 1⟩, ⟨[2], .accepted 1⟩]⟩ ∧
    send .closed [1, 2] 2 = some ⟨0, 2, -1, [⟨[1, 2], .failed 32⟩]⟩ := by
  have sent : send .byByte [1, 2] 2 = some ⟨2, 0, -1, [⟨[1, 2], .accepted 1⟩, ⟨[2], .accepted 1⟩]⟩ := by decide
  refine ⟨?_, sent, by decide⟩
  rintro ⟨after, returns, full⟩
  cases sent.symm.trans returns
  have accepted : ∀ errno, ¬ Sending.FailedWith
      ⟨2, 0, -1, [⟨[1, 2], .accepted 1⟩, ⟨[2], .accepted 1⟩]⟩ errno := by
    intro errno failed
    cases failed
  exact (full.complete accepted).2 failureResult_socketError

end OpenTaker
