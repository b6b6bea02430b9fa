import Mathlib.Tactic.Common

/-!
# Connecting with a timeout

`CSocketBase::connect` starts to connect, waits with `select` when the connection is in
progress, and leaves the verdict to `isConnect`. That reads `SO_ERROR` twice. Reading it also
clears it, so the second read finds no error, and its result, which is `errno` when it fails,
is never negative. When nothing is ready, the code is what the first read gives, which is 0
as long as the peer has not refused.
-/

namespace OpenTaker

/-- What `::connect` does; it fails with `EINPROGRESS` while it is in progress. -/
inductive ConnectOutcome where
  | succeeded
  | failed (errno : Nat)
deriving DecidableEq

/-- What `::select` does, with the sets that have the socket afterwards. -/
inductive SelectOutcome where
  | timedOut
  | failed (errno : Nat)
  | ready (rd wr ex : Bool)
deriving DecidableEq

/-- The kernel, as far as this socket is concerned. -/
structure ConnectKernel where
  /-- For a socket that blocks, or one that does not. -/
  connect : Bool → ConnectOutcome
  /-- For the seconds and microseconds to wait. -/
  select : Int → Int → SelectOutcome
  /-- The error that is pending after `select`; 0 for none. -/
  pending : Nat
  /-- The `errno` of the calls of `::getsockopt` that fail. -/
  getsockopt : Nat → Option Nat
  connect_errno : ∀ blocking errno, connect blocking = .failed errno → 0 < errno
  select_errno : ∀ seconds microseconds errno, select seconds microseconds = .failed errno → 0 < errno
  select_ready : ∀ seconds microseconds rd wr ex, select seconds microseconds = .ready rd wr ex →
    rd = true ∨ wr = true

/-- `EINPROGRESS`, which is also `WSAEWOULDBLOCK` on Linux: the connection is under way. -/
def einprogress : Nat := 115

namespace ConnectKernel

/-- `SO_ERROR`, the number of reads, and the last error of the thread, once it is set. -/
structure SocketState where
  soError : Nat
  reads : Nat
  lastError : Option Int
deriving DecidableEq

/-- `getOption` of `SO_ERROR` into `err`: the result, the value, and the state. -/
def getOption (kernel : ConnectKernel) (err : Int) (state : SocketState) : Int × Int × SocketState :=
  match kernel.getsockopt state.reads with
  | some errno => (errno, err, { state with reads := state.reads + 1 })
  | none => (0, state.soError, { state with soError := 0, reads := state.reads + 1 })

/-- `isConnect`. The third set is looked at elsewhere than here. -/
def isConnect (kernel : ConnectKernel) (rd wr _ex : Bool) (state : SocketState) : Int × SocketState :=
  let (_, err, once) := kernel.getOption 0 state
  if !rd && !wr then (err, { once with lastError := some err })
  else
    let (ret, errAgain, twice) := kernel.getOption err once
    if ret < 0 then (errAgain, twice) else (0, twice)

/-- `CSocketBase::connect`, with a time-out: start, wait with `select`, and ask for the error that
is pending. -/
def connectWithin (kernel : ConnectKernel) (timeout : Int) : Int × SocketState :=
  let state : SocketState := ⟨kernel.pending, 0, none⟩
  -- setBlockMode
  match kernel.connect (timeout = 0) with
  | .succeeded => (0, state)
  | .failed errno =>
      if errno ≠ einprogress then (errno, state)
      else
        match kernel.select (timeout.tdiv 1000) (timeout.tmod 1000 * 1000) with
        | .failed errno => (errno, state)
        | .timedOut => kernel.isConnect false false false state
        | .ready rd wr ex => kernel.isConnect rd wr ex state

/-- What `select` answers, if it is called, which is when the connection is in progress. -/
def awaited (kernel : ConnectKernel) (timeout : Int) : Option SelectOutcome :=
  if kernel.connect (timeout = 0) = .failed einprogress then
    some (kernel.select (timeout.tdiv 1000) (timeout.tmod 1000 * 1000))
  else none

/-- The connection is there at once, or it is there when the socket gets ready in time: then
no error is pending. -/
def Established (kernel : ConnectKernel) (timeout : Int) : Prop :=
  kernel.connect (timeout = 0) = .succeeded ∨
    ∃ rd wr ex, kernel.awaited timeout = some (.ready rd wr ex) ∧ kernel.pending = 0

/-- The time does not expire unless an error is pending and can be read, and no error is
pending when the socket is ready. -/
structure Evident (kernel : ConnectKernel) (timeout : Int) : Prop where
  expired : kernel.awaited timeout = some .timedOut → kernel.pending ≠ 0 ∧ kernel.getsockopt 0 = none
  ready : ∀ rd wr ex, kernel.awaited timeout = some (.ready rd wr ex) → kernel.pending = 0

/-! ## The three functions -/

variable {kernel : ConnectKernel} {timeout : Int}

/-- Its result is 0 or `errno`, and so never negative. -/
theorem getOption_not_negative (kernel : ConnectKernel) (err : Int) (state : SocketState) :
    ¬ (kernel.getOption err state).1 < 0 := by
  rw [getOption]
  cases kernel.getsockopt state.reads with
  | some errno => exact Int.not_lt.mpr (Int.natCast_nonneg errno)
  | none => exact Int.lt_irrefl 0

/-- A socket that is ready is connected, whatever error is pending. -/
theorem isConnect_ready {rd wr ex : Bool} (some : rd = true ∨ wr = true) (state : SocketState) :
    (kernel.isConnect rd wr ex state).1 = 0 := by
  have notBoth : ¬ (!rd && !wr) = true := by
    rcases some with rfl | rfl <;> simp
  simp only [isConnect, if_neg notBoth, getOption_not_negative, if_false]

/-- Otherwise the code is the error that can be read. -/
theorem isConnect_expired (kernel : ConnectKernel) (state : SocketState) :
    (kernel.isConnect false false false state).1 = (kernel.getOption 0 state).2.1 := rfl

/-- When the time has expired, the result is the pending error, and zero where there is none. -/
theorem expired_code (expired : kernel.awaited timeout = some .timedOut) :
    (kernel.connectWithin timeout).1 = if kernel.getsockopt 0 = none then (kernel.pending : Int) else 0 := by
  rw [awaited] at expired
  split_ifs at expired with progress
  have outcome := Option.some.inj expired
  simp only [connectWithin, progress, outcome, ne_eq, not_true, if_false, isConnect_expired, getOption]
  cases kernel.getsockopt 0 <;> rfl

/-- When the socket is ready the result is zero, whatever it is ready for. -/
theorem ready_code {rd wr ex : Bool} (ready : kernel.awaited timeout = some (.ready rd wr ex)) :
    (kernel.connectWithin timeout).1 = 0 := by
  rw [awaited] at ready
  split_ifs at ready with progress
  have outcome := Option.some.inj ready
  simp only [connectWithin, progress, outcome, ne_eq, not_true, if_false]
  exact isConnect_ready (kernel.select_ready _ _ rd wr ex outcome) _

/-- A call that fails otherwise gives its `errno`, so that its failure is seen in the code. -/
theorem failed_code (kernel : ConnectKernel) (timeout : Int) (notConnected : kernel.connect (timeout = 0) ≠ .succeeded)
    (notExpired : kernel.awaited timeout ≠ some .timedOut)
    (notReady : ∀ rd wr ex, kernel.awaited timeout ≠ some (.ready rd wr ex)) :
    (kernel.connectWithin timeout).1 ≠ 0 := by
  cases connected : kernel.connect (timeout = 0) with
  | succeeded => exact absurd connected notConnected
  | failed errno =>
    by_cases progress : errno = einprogress
    · subst progress
      rw [awaited, if_pos connected] at notExpired
      simp only [awaited, if_pos connected] at notReady
      cases outcome : kernel.select (timeout.tdiv 1000) (timeout.tmod 1000 * 1000) with
      | timedOut => exact absurd (congrArg some outcome) notExpired
      | ready rd wr ex => exact absurd (congrArg some outcome) (notReady rd wr ex)
      | failed errno =>
        have positive := kernel.select_errno _ _ errno outcome
        simp only [connectWithin, connected, outcome, ne_eq, not_true, if_false]
        omega
    · have positive := kernel.connect_errno _ errno connected
      simp only [connectWithin, connected, ne_eq, progress, not_false_eq_true, if_true]
      omega

/-! ## What a code of 0 says -/

/-- `select` is called only while the connection is in progress. -/
theorem progress_of_awaited {outcome : SelectOutcome} (awaited : kernel.awaited timeout = some outcome) :
    kernel.connect (timeout = 0) = .failed einprogress := by
  rw [ConnectKernel.awaited] at awaited
  split_ifs at awaited with progress
  exact progress

/-- So there is a connection only if `select` finds the socket ready, without an error. -/
theorem established_awaited {outcome : SelectOutcome} (awaited : kernel.awaited timeout = some outcome)
    (established : kernel.Established timeout) :
    (∃ rd wr ex, outcome = .ready rd wr ex) ∧ kernel.pending = 0 := by
  rcases established with succeeded | ⟨rd, wr, ex, ready, none⟩
  · cases succeeded.symm.trans (progress_of_awaited awaited)
  · exact ⟨⟨rd, wr, ex, Option.some.inj (awaited.symm.trans ready)⟩, none⟩

/-- A code of 0 means a connection just when the outcome is evident, that is, when the pending error
agrees with what `select` has said. -/
theorem reported_iff (kernel : ConnectKernel) (timeout : Int) :
    ((kernel.connectWithin timeout).1 = 0 → kernel.Established timeout) ↔ kernel.Evident timeout := by
  constructor
  · intro reported
    constructor
    · intro expired
      have code := expired_code expired
      have notZero : (kernel.connectWithin timeout).1 ≠ 0 := by
        intro zero
        obtain ⟨⟨rd, wr, ex, ready⟩, -⟩ := established_awaited expired (reported zero)
        cases ready
      rw [code] at notZero
      by_cases reads : kernel.getsockopt 0 = none
      · rw [if_pos reads] at notZero
        exact ⟨by omega, reads⟩
      · rw [if_neg reads] at notZero
        exact absurd rfl notZero
    · intro rd wr ex ready
      exact (established_awaited ready (reported (ready_code ready))).2
  · intro evident zero
    by_contra notEstablished
    refine failed_code kernel timeout ?_ ?_ ?_ zero
    · exact fun succeeded => notEstablished (Or.inl succeeded)
    · intro expired
      obtain ⟨pending, reads⟩ := evident.expired expired
      rw [expired_code expired, if_pos reads] at zero
      omega
    · exact fun rd wr ex ready => notEstablished (Or.inr ⟨rd, wr, ex, ready, evident.ready rd wr ex ready⟩)

/-- A peer that refuses while the socket waits: `select` finds the socket ready, and the error is
pending. -/
def refusing : ConnectKernel where
  connect _ := .failed einprogress
  select _ _ := .ready true true false
  pending := 111
  getsockopt _ := none
  connect_errno := by
    intro blocking errno outcome
    cases outcome
    decide
  select_errno := by
    intro seconds microseconds errno outcome
    cases outcome
  select_ready := by
    intro seconds microseconds rd wr ex outcome
    cases outcome
    exact Or.inl rfl

/-- A peer that does not answer, in which case `select` comes back without a socket. -/
def silent : ConnectKernel where
  connect _ := .failed einprogress
  select _ _ := .timedOut
  pending := 0
  getsockopt _ := none
  connect_errno := by
    intro blocking errno outcome
    cases outcome
    decide
  select_errno := by
    intro seconds microseconds errno outcome
    cases outcome
  select_ready := by
    intro seconds microseconds rd wr ex outcome
    cases outcome

/-- A refused connection is reported as success, and so is an expired timeout: when the socket is
ready, zero is returned whatever is pending. -/
theorem refused_reported :
    (¬ ((refusing.connectWithin 1000).1 = 0 → refusing.Established 1000) ∧
      (refusing.connectWithin 1000).1 = 0) ∧
    ¬ ((silent.connectWithin 1000).1 = 0 → silent.Established 1000) ∧ (silent.connectWithin 1000).1 = 0 := by
  have refusedCode : (refusing.connectWithin 1000).1 = 0 := by decide
  have silentCode : (silent.connectWithin 1000).1 = 0 := by decide
  refine ⟨⟨fun reported => ?_, refusedCode⟩, fun reported => ?_, silentCode⟩
  · have ready : refusing.awaited 1000 = some (.ready true true false) := rfl
    obtain ⟨-, none⟩ := established_awaited ready (reported refusedCode)
    cases none
  · have expired : silent.awaited 1000 = some .timedOut := rfl
    obtain ⟨⟨rd, wr, ex, ready⟩, -⟩ := established_awaited expired (reported silentCode)
    cases ready

end ConnectKernel

end OpenTaker
