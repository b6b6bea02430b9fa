import OpenTaker.BlockFiles

/-!
# Receiving a whole buffer

`CSocketBase::recv` is to fill its buffer, however the bytes arrive. It calls `::recv` once,
before its loop: the loop advances by the same result again until nothing is left to count.
So the first answer decides. After an interruption the loop goes on with the number `EINTR`
as if so many bytes had come.

What the kernel answers is arbitrary, within the documented bounds.
-/

namespace OpenTaker

/-- What `::recv` does: some bytes come, the peer has closed, or there is an error. -/
inductive RecvOutcome where
  | chunk (bytes : List UInt8)
  /-- The end of the stream. -/
  | eof
  | failed (errno : Nat)
deriving DecidableEq

/-- The kernel, by the number of the call and the number of bytes that are asked for. -/
structure RecvKernel where
  answer : Nat → Nat → RecvOutcome
  chunk_bounds : ∀ call asked bytes, answer call asked = .chunk bytes → 0 < bytes.length ∧ bytes.length ≤ asked
  errno_positive : ∀ call asked errno, answer call asked = .failed errno → 0 < errno

/-- `SOCKET_ERROR`, which is -1, and which a receive is told apart from its count by. -/
def socketError : Int := -1

/-- `EINTR`, whose number 4 is what the source counts as bytes. -/
def eintr : Nat := 4

namespace RecvOutcome

/-- The result of `::recv`: the number of bytes, zero at the end, or -1. -/
def result : RecvOutcome → Int
  | .chunk bytes => bytes.length
  | .eof => 0
  | .failed _ => socketError

/-- What came in with the call, and nothing when it has failed. -/
def bytes : RecvOutcome → List UInt8
  | .chunk bytes => bytes
  | _ => []

/-- `errno`, if the call sets it; a success leaves what was there. -/
def errno : RecvOutcome → Nat
  | .failed errno => errno
  | _ => 0

end RecvOutcome

/-- The variables of `recv`, the buffer, and the answers so far. -/
structure Receiving where
  buffer : List UInt8
  /-- How far `_buffer` has moved. -/
  position : Int
  count : Int
  ret : Int
  errno : Nat
  outcomes : List RecvOutcome
deriving DecidableEq

namespace Receiving

/-- `::recv(m_hSocket, _buffer, count, _flag)`, at the position reached and for what is left. -/
def call (kernel : RecvKernel) (state : Receiving) : Receiving :=
  let outcome := kernel.answer state.outcomes.length state.count.toNat
  { state with
    buffer := overwrite state.buffer state.position.toNat outcome.bytes
    ret := outcome.result
    errno := outcome.errno
    outcomes := state.outcomes ++ [outcome] }

/-- `while (count > 0)`: look at the last result, without a further call. -/
def loop (len : Nat) : Nat → Receiving → Option Receiving
  | 0, _ => none
  | fuel + 1, state =>
      if state.count ≤ 0 then some state
      else if state.ret = socketError then
        -- errno takes the place of the result, and the loop is continued without a call
        if state.errno = eintr then loop len fuel { state with ret := state.errno }
        else some { state with ret := state.errno }
      else if state.ret = 0 then some { state with ret := len - state.count }
      else loop len fuel { state with position := state.position + state.ret, count := state.count - state.ret }

end Receiving

/-- `CSocketBase::recv`: one call, and the loop over its result. -/
def recv (kernel : RecvKernel) (buffer : List UInt8) (len : UInt16) : Option Receiving :=
  Receiving.loop len.toNat (len.toNat + 2)
    (Receiving.call kernel ⟨buffer, 0, len.toNat, 0, 0, []⟩)

/-- The bytes that have come in, of all calls together. -/
def received (outcomes : List RecvOutcome) : List UInt8 := outcomes.flatMap RecvOutcome.bytes

/-- What a full receive leaves behind: as many bytes as were asked for, or the reason why there are
fewer. -/
structure FullReceive (before : List UInt8) (len : Nat) (after : Receiving) : Prop where
  stored : after.buffer = received after.outcomes ++ before.drop (received after.outcomes).length
  counted : after.position = (received after.outcomes).length
  retried : ∀ outcome ∈ after.outcomes.dropLast, ∀ errno, outcome = .failed errno → errno = eintr
  result :
    match after.outcomes.getLast? with
    | some .eof => after.ret = (received after.outcomes).length
    | some (.failed errno) => errno ≠ eintr ∧ (after.ret = errno ∨ after.ret = socketError)
    | _ => (received after.outcomes).length = len ∧ after.ret = len

/-- The buffer is filled at once, unless the stream ends or fails. -/
def RecvKernel.AtOnce (kernel : RecvKernel) (len : Nat) : Prop :=
  match kernel.answer 0 len with
  | .chunk bytes => bytes.length = len
  | .eof => True
  | .failed errno => errno ≠ eintr

/-! ## The loop -/

namespace Receiving

variable {state : Receiving} {len : Nat}

/-! A round of the loop, by what is left to count and by the result. -/

/-- With nothing left to receive the loop ends. There is one lemma for each way through a round. -/
theorem loop_done (fuel : Nat) (done : state.count ≤ 0) : loop len (fuel + 1) state = some state := if_pos done

/-- A positive answer is counted, and the loop goes on with the rest, without another call of
`::recv`. -/
theorem loop_advance (fuel : Nat) (left : 0 < state.count) (positive : 0 < state.ret) :
    loop len (fuel + 1) state = loop len fuel
      { state with position := state.position + state.ret, count := state.count - state.ret } := by
  have notError : state.ret ≠ socketError := by
    rw [socketError]
    omega
  rw [loop, if_neg (by omega), if_neg notError, if_neg (by omega)]

/-- An answer of zero says that the peer has closed, and ends the loop. -/
theorem loop_eof (fuel : Nat) (left : 0 < state.count) (eof : state.ret = 0) :
    loop len (fuel + 1) state = some { state with ret := len - state.count } := by
  have notError : state.ret ≠ socketError := by
    rw [socketError]
    omega
  rw [loop, if_neg (by omega), if_neg notError, if_pos eof]

/-- An error other than `EINTR` ends the loop, and is the result. -/
theorem loop_failed (fuel : Nat) (left : 0 < state.count) (failed : state.ret = socketError)
    (other : state.errno ≠ eintr) : loop len (fuel + 1) state = some { state with ret := state.errno } := by
  rw [loop, if_neg (by omega), if_pos failed, if_neg other]

/-- An interruption lets the loop go on, with the number of the error as if so many bytes had come. -/
theorem loop_interrupted (fuel : Nat) (left : 0 < state.count) (failed : state.ret = socketError)
    (interrupted : state.errno = eintr) :
    loop len (fuel + 1) state = loop len fuel { state with ret := state.errno } := by
  rw [loop, if_neg (by omega), if_pos failed, if_pos interrupted]

/-- Once the result is positive, it is added until the count is used up. -/
theorem loop_positive (len fuel : Nat) (state : Receiving) (positive : 0 < state.ret)
    (enough : state.count < fuel) (nonempty : 0 < fuel) :
    ∃ after, loop len fuel state = some after ∧ after.outcomes = state.outcomes ∧
      after.buffer = state.buffer ∧ after.ret = state.ret ∧ after.count ≤ 0 ∧
      after.position + after.count = state.position + state.count := by
  induction fuel generalizing state with
  | zero => omega
  | succ fuel inductionHypothesis =>
    by_cases done : state.count ≤ 0
    · exact ⟨state, loop_done fuel done, rfl, rfl, rfl, done, rfl⟩
    · rw [loop_advance fuel (by omega) positive]
      obtain ⟨after, loops, outcomes, buffer, ret, used, sum⟩ := inductionHypothesis
        { state with position := state.position + state.ret, count := state.count - state.ret }
        positive (by dsimp only; omega) (by omega)
      exact ⟨after, loops, outcomes, buffer, ret, used, by dsimp only at sum; omega⟩

/-- The state in which the loop is entered, by the only answer there is. -/
def entered (buffer : List UInt8) (len : Nat) (outcome : RecvOutcome) : Receiving where
  buffer := outcome.bytes ++ buffer.drop outcome.bytes.length
  position := 0
  count := len
  ret := outcome.result
  errno := outcome.errno
  outcomes := [outcome]

/-- At the entry everything is left to receive, as the count begins with the length. -/
@[simp] theorem entered_count (buffer : List UInt8) (len : Nat) (outcome : RecvOutcome) :
    (entered buffer len outcome).count = len := rfl

/-- The only call of `::recv` is made before the loop, and its result stands there. -/
@[simp] theorem entered_ret (buffer : List UInt8) (len : Nat) (outcome : RecvOutcome) :
    (entered buffer len outcome).ret = outcome.result := rfl

/-- The kernel is asked once, at the start of the buffer and for its whole length. -/
theorem call_entered (kernel : RecvKernel) (buffer : List UInt8) (len : Nat) :
    call kernel ⟨buffer, 0, len, 0, 0, []⟩ = entered buffer len (kernel.answer 0 len) := by
  simp [call, entered, overwrite]

/-- A positive result, of the call or for `EINTR`, counts all positions. -/
theorem counts_all (len fuel : Nat) (state : Receiving) (start : state.position = 0) (all : state.count = len)
    (positive : 0 < state.ret) (enough : len < fuel) :
    ∃ after, loop len fuel state = some after ∧ after.outcomes = state.outcomes ∧
      after.buffer = state.buffer ∧ after.ret = state.ret ∧ (len : Int) ≤ after.position := by
  obtain ⟨after, loops, outcomes, buffer, ret, used, sum⟩ :=
    loop_positive len fuel state positive (by omega) (by omega)
  exact ⟨after, loops, outcomes, buffer, ret, by omega⟩

end Receiving

open Receiving

variable {kernel : RecvKernel} {buffer : List UInt8} {len : UInt16}

/-- After one chunk everything is counted: the loop takes its size again and again, without a
further call. -/
theorem recv_chunk (buffer : List UInt8) {bytes : List UInt8} (answer : kernel.answer 0 len.toNat = .chunk bytes) :
    ∃ after, recv kernel buffer len = some after ∧ after.outcomes = [.chunk bytes] ∧
      after.buffer = bytes ++ buffer.drop bytes.length ∧ after.ret = bytes.length ∧
      (len.toNat : Int) ≤ after.position := by
  have bounds := kernel.chunk_bounds 0 len.toNat bytes answer
  rw [recv, call_entered, answer]
  exact counts_all _ _ _ rfl rfl (by simp only [entered, RecvOutcome.result]; omega) (by omega)

/-- A full chunk leaves nothing to count, and the call returns with the whole length. -/
theorem recv_full {bytes : List UInt8} (answer : kernel.answer 0 len.toNat = .chunk bytes)
    (full : bytes.length = len.toNat) :
    recv kernel buffer len = some { entered buffer len.toNat (.chunk bytes) with
      position := len.toNat, count := 0 } := by
  have bounds := kernel.chunk_bounds 0 len.toNat bytes answer
  rw [recv, call_entered, answer, loop_advance, loop_done]
  · simp [entered, RecvOutcome.result, full]
  · simp [RecvOutcome.result, full]
  · rw [entered_count]
    omega
  · rw [entered_ret, RecvOutcome.result]
    omega

/-- A peer that has closed before gives zero, and the buffer is as it was. -/
theorem recv_eof (answer : kernel.answer 0 len.toNat = .eof) :
    recv kernel buffer len = some (entered buffer len.toNat .eof) := by
  rw [recv, call_entered, answer]
  by_cases empty : len.toNat = 0
  · apply loop_done
    rw [entered_count]
    omega
  · rw [loop_eof _ (by rw [entered_count]; omega) rfl]
    simp [entered, RecvOutcome.result]

/-- The error is reported, as `-1` when no bytes were asked for. -/
theorem recv_failed {errno : Nat} (answer : kernel.answer 0 len.toNat = .failed errno) (other : errno ≠ eintr) :
    recv kernel buffer len = some { entered buffer len.toNat (.failed errno) with
      ret := if len.toNat = 0 then socketError else errno } := by
  rw [recv, call_entered, answer]
  by_cases empty : len.toNat = 0
  · rw [if_pos empty]
    apply loop_done
    rw [entered_count]
    omega
  · rw [if_neg empty]
    apply loop_failed
    · rw [entered_count]
      omega
    · rfl
    · exact other

/-- After an interruption, everything is counted though nothing came, or the result is `-1`. -/
theorem recv_interrupted (buffer : List UInt8) (answer : kernel.answer 0 len.toNat = .failed eintr) :
    ∃ after, recv kernel buffer len = some after ∧ after.outcomes = [.failed eintr] ∧
      (len.toNat : Int) ≤ after.position ∧ (after.ret = eintr ∨ len.toNat = 0) := by
  rw [recv, call_entered, answer]
  by_cases empty : len.toNat = 0
  · rw [loop_done _ (by rw [entered_count]; omega)]
    exact ⟨_, rfl, rfl, by simp only [entered]; omega, Or.inr empty⟩
  · rw [loop_interrupted _ (by rw [entered_count]; omega) rfl rfl]
    obtain ⟨after, loops, outcomes, stored, ret, counted⟩ :=
      counts_all len.toNat (len.toNat + 1)
        { entered buffer len.toNat (.failed eintr) with ret := eintr } rfl rfl (by simp [eintr]) (by omega)
    exact ⟨after, loops, outcomes, counted, Or.inl ret⟩

/-- `recv` returns, and the kernel has been called once, whatever it answered. -/
theorem recv_returns (kernel : RecvKernel) (buffer : List UInt8) (len : UInt16) :
    ∃ after, recv kernel buffer len = some after ∧ after.outcomes = [kernel.answer 0 len.toNat] := by
  cases answer : kernel.answer 0 len.toNat with
  | chunk bytes =>
    obtain ⟨after, returns, outcomes, -⟩ := recv_chunk buffer answer
    exact ⟨after, returns, outcomes⟩
  | eof => exact ⟨_, recv_eof answer, rfl⟩
  | failed errno =>
    by_cases interrupted : errno = eintr
    · subst interrupted
      obtain ⟨after, returns, outcomes, -⟩ := recv_interrupted buffer answer
      exact ⟨after, returns, outcomes⟩
    · exact ⟨_, recv_failed answer interrupted, rfl⟩

/-- A receive is as it should be just when the first call fills the buffer, finds the end of
the stream, or fails but for an interruption. -/
theorem fullReceive_iff (kernel : RecvKernel) (buffer : List UInt8) (len : UInt16) :
    (∃ after, recv kernel buffer len = some after ∧ FullReceive buffer len.toNat after) ↔
      kernel.AtOnce len.toNat := by
  rw [RecvKernel.AtOnce]
  cases answer : kernel.answer 0 len.toNat with
  | chunk bytes =>
    constructor
    · rintro ⟨after, returns, full⟩
      obtain ⟨found, finds, outcomes, -, -, -⟩ := recv_chunk buffer answer
      cases finds.symm.trans returns
      have result := full.result
      rw [outcomes] at result
      simpa [received, RecvOutcome.bytes] using result.1
    · intro all
      refine ⟨_, recv_full answer all, ?_, ?_, ?_, ?_⟩
      all_goals simp [entered, received, RecvOutcome.bytes, RecvOutcome.result, all]
  | eof =>
    refine ⟨fun _ => trivial, fun _ => ⟨_, recv_eof answer, ?_, ?_, ?_, ?_⟩⟩
    all_goals simp [entered, received, RecvOutcome.bytes, RecvOutcome.result]
  | failed errno =>
    constructor
    · rintro ⟨after, returns, full⟩ rfl
      obtain ⟨found, finds, outcomes, -⟩ := recv_interrupted buffer answer
      cases finds.symm.trans returns
      have result := full.result
      rw [outcomes] at result
      exact result.1 rfl
    · intro other
      refine ⟨_, recv_failed answer other, ?_, ?_, ?_, ?_⟩
      · simp [entered, received, RecvOutcome.bytes]
      · simp [entered, received, RecvOutcome.bytes]
      · simp [entered]
      · refine ⟨other, ?_⟩
        by_cases empty : len.toNat = 0
        · exact Or.inr (if_pos empty)
        · exact Or.inl (if_neg empty)

/-- Ten bytes that come as four and six, so that one receive does not get them all. -/
def RecvKernel.fourAndSix : RecvKernel where
  answer call asked :=
    if call = 0 ∧ asked = 10 then .chunk [1, 2, 3, 4]
    else if call = 1 ∧ asked = 6 then .chunk [5, 6, 7, 8, 9, 10]
    else .eof
  chunk_bounds := by
    intro call asked bytes answer
    split_ifs at answer with first second
    · cases answer
      simp [first]
    · cases answer
      simp [second]
  errno_positive := by
    intro call asked errno answer
    split_ifs at answer

/-- Four of the ten bytes are received, twelve positions are counted, and the result is 4. -/
theorem six_bytes_skipped :
    (¬ ∃ after, recv .fourAndSix (List.replicate 10 0) 10 = some after ∧
      FullReceive (List.replicate 10 0) 10 after) ∧
    recv .fourAndSix (List.replicate 10 0) 10 =
      some ⟨[1, 2, 3, 4, 0, 0, 0, 0, 0, 0], 12, -2, 4, 0, [.chunk [1, 2, 3, 4]]⟩ := by
  refine ⟨?_, by decide⟩
  rintro ⟨after, returns, full⟩
  have twelve : recv .fourAndSix (List.replicate 10 0) 10 =
      some ⟨[1, 2, 3, 4, 0, 0, 0, 0, 0, 0], 12, -2, 4, 0, [.chunk [1, 2, 3, 4]]⟩ := by decide
  cases twelve.symm.trans returns
  exact absurd full.counted (by decide)

end OpenTaker
