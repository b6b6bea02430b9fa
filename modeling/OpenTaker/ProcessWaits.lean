import Mathlib.Data.Nat.Find
import Mathlib.Tactic.Common

/-!
# Waiting for a process

`WaitProcess` polls every 10 milliseconds until the process has exited or the time-out has been
counted down. The count is unsigned and goes down before it is compared, so a time-out below 10
milliseconds wraps around, and the wait goes on for weeks.
-/

namespace OpenTaker.ProcessWaits

/-- What a call returns, how often it polls and how long it sleeps. -/
structure Waited where
  ret : Int
  polls : Nat
  sleptMs : Nat
deriving DecidableEq

/-- One step of the countdown brings the next one closer to zero. -/
theorem countdown {timeoutMs : UInt32} (retry : 10 < timeoutMs) : (timeoutMs - 10).toNat < timeoutMs.toNat := by
  rw [UInt32.toNat_sub_of_le _ _ (UInt32.le_of_lt retry)]
  have large : 10 < timeoutMs.toNat := retry
  change timeoutMs.toNat - 10 < _
  omega

/-- `while (retry)`. `waitpid` answers by the number of the poll. -/
def waitLoop (process : Int) (waitpid : Nat → Int) (timeoutMs : UInt32) (polls sleptMs : Nat) : Waited :=
  let ret := waitpid polls
  if ret = process then ⟨0, polls + 1, sleptMs⟩
  else if 10 < timeoutMs - 10 then waitLoop process waitpid (timeoutMs - 10) (polls + 1) (sleptMs + 10)
  else ⟨-1, polls + 1, sleptMs + 10⟩
termination_by (timeoutMs - 10).toNat
decreasing_by exact countdown ‹_›

/-- `WaitProcess`: ask for the process every ten milliseconds, while the unsigned rest of the
time-out lasts. -/
def waitProcess (process : Int) (waitpid : Nat → Int) (timeoutMs : UInt32) : Waited :=
  waitLoop process waitpid timeoutMs 0 0

/-- How often a process is polled that does not exit. -/
def rounds (timeoutMs : UInt32) : Nat := ((timeoutMs - 10).toNat - 1) / 10 + 1

/-- The number of polls that fit into a time-out, with one at either end. -/
def bound (timeoutMs : UInt32) : Nat := (timeoutMs.toNat + 9) / 10 + 1

/-- The time-out is kept: a process that does not exit is polled only as often as fits, and one that is seen
to have exited is reported. -/
structure KeepsTimeout (timeoutMs : UInt32) : Prop where
  never : ∀ process waitpid, (∀ poll, waitpid poll ≠ process) →
    (waitProcess process waitpid timeoutMs).ret = -1 ∧
    (waitProcess process waitpid timeoutMs).polls ≤ bound timeoutMs ∧
    (waitProcess process waitpid timeoutMs).sleptMs = 10 * (waitProcess process waitpid timeoutMs).polls
  seen : ∀ process waitpid poll, poll < bound timeoutMs → poll < (waitProcess process waitpid timeoutMs).polls →
    waitpid poll = process → (waitProcess process waitpid timeoutMs).ret = 0

variable {process : Int} {waitpid : Nat → Int} {timeoutMs : UInt32} {polls sleptMs : Nat}

/-! ## The countdown -/

/-- The step that is taken before the first comparison. -/
theorem sub_toNat (timeoutMs : UInt32) : (timeoutMs - 10).toNat =
    if 10 ≤ timeoutMs.toNat then timeoutMs.toNat - 10 else timeoutMs.toNat + 4294967286 := by
  have small := timeoutMs.toNat_lt
  rw [UInt32.toNat_sub]
  change (4294967296 - 10 + timeoutMs.toNat) % 4294967296 = _
  split
  · omega
  · omega

/-- The comparison of the source is one of unsigned numbers. -/
theorem lt_iff_toNat (timeoutMs : UInt32) : 10 < timeoutMs ↔ 10 < timeoutMs.toNat := Iff.rfl

/-- At least one round is made, also for a time-out of zero. -/
theorem rounds_pos (timeoutMs : UInt32) : 0 < rounds timeoutMs := Nat.succ_pos _

/-- Another round is one of those that are left. -/
theorem rounds_succ (retry : 10 < timeoutMs - 10) : rounds timeoutMs = rounds (timeoutMs - 10) + 1 := by
  rw [lt_iff_toNat] at retry
  rw [rounds, rounds, sub_toNat (timeoutMs - 10), if_pos (by omega)]
  omega

/-- In the last round no further ten milliseconds are left, by a difference that wraps below zero. -/
theorem rounds_last (last : ¬ 10 < timeoutMs - 10) : rounds timeoutMs = 1 := by
  rw [lt_iff_toNat] at last
  rw [rounds]
  omega

/-- With more rounds to come the loop tries again. -/
theorem retry_of_rounds (more : 1 < rounds timeoutMs) : 10 < timeoutMs - 10 := by
  by_contra last
  exact absurd (rounds_last last) (Nat.ne_of_gt more)

/-- From 10 milliseconds on the rounds fit into the time-out, below they do not. -/
theorem rounds_le_bound_iff : rounds timeoutMs ≤ bound timeoutMs ↔ 10 ≤ timeoutMs.toNat := by
  have small := timeoutMs.toNat_lt
  rw [rounds, bound, sub_toNat]
  split
  · omega
  · omega

/-! ## Runs -/

/-- A wait without an exit goes through all its rounds, and answers that the time is over. -/
theorem waitLoop_never (never : ∀ poll < rounds timeoutMs, waitpid (polls + poll) ≠ process) :
    waitLoop process waitpid timeoutMs polls sleptMs =
      ⟨-1, polls + rounds timeoutMs, sleptMs + 10 * rounds timeoutMs⟩ := by
  obtain ⟨left, isLeft⟩ : ∃ left, rounds timeoutMs = left + 1 := ⟨_, rfl⟩
  induction left generalizing timeoutMs polls sleptMs with
  | zero =>
    have last : ¬ 10 < timeoutMs - 10 := fun retry => by
      have more := rounds_succ retry
      have positive := rounds_pos (timeoutMs - 10)
      omega
    have now : waitpid polls ≠ process := never 0 (rounds_pos timeoutMs)
    rw [waitLoop, if_neg now, if_neg last, isLeft]
  | succ left inductionHypothesis =>
    have retry : 10 < timeoutMs - 10 := retry_of_rounds (by omega)
    have rest := rounds_succ retry
    have now : waitpid polls ≠ process := never 0 (rounds_pos timeoutMs)
    rw [waitLoop, if_neg now, if_pos retry, inductionHypothesis ?_ (by omega), Waited.mk.injEq]
    · omega
    · intro poll before
      rw [Nat.add_assoc, Nat.add_comm 1]
      exact never (poll + 1) (by omega)

/-- A wait until an exit that comes in time. -/
theorem waitLoop_exit {exit : Nat} (inTime : exit < rounds timeoutMs) (exits : waitpid (polls + exit) = process)
    (first : ∀ poll < exit, waitpid (polls + poll) ≠ process) :
    waitLoop process waitpid timeoutMs polls sleptMs = ⟨0, polls + exit + 1, sleptMs + 10 * exit⟩ := by
  induction exit generalizing timeoutMs polls sleptMs with
  | zero =>
    rw [waitLoop]
    exact if_pos exits
  | succ exit inductionHypothesis =>
    have retry : 10 < timeoutMs - 10 := retry_of_rounds (by omega)
    have rest := rounds_succ retry
    have now : waitpid polls ≠ process := first 0 (Nat.succ_pos exit)
    rw [waitLoop, if_neg now, if_pos retry, inductionHypothesis (by omega), Waited.mk.injEq]
    · omega
    · rwa [Nat.add_assoc, Nat.add_comm 1]
    · intro poll before
      rw [Nat.add_assoc, Nat.add_comm 1]
      exact first (poll + 1) (Nat.succ_lt_succ before)

/-- The loop ends at the first exit that comes in time, or after all its rounds. -/
theorem waitProcess_cases (process : Int) (waitpid : Nat → Int) (timeoutMs : UInt32) :
    (∃ exit < rounds timeoutMs, waitpid exit = process ∧
      waitProcess process waitpid timeoutMs = ⟨0, exit + 1, 10 * exit⟩) ∨
    (∀ poll < rounds timeoutMs, waitpid poll ≠ process) ∧
      waitProcess process waitpid timeoutMs = ⟨-1, rounds timeoutMs, 10 * rounds timeoutMs⟩ := by
  rw [waitProcess]
  by_cases exited : ∃ exit, exit < rounds timeoutMs ∧ waitpid exit = process
  · left
    obtain ⟨inTime, exits⟩ := Nat.find_spec exited
    refine ⟨Nat.find exited, inTime, exits, ?_⟩
    rw [waitLoop_exit inTime (by rwa [Nat.zero_add]) fun poll before same => ?_, Nat.zero_add, Nat.zero_add]
    rw [Nat.zero_add] at same
    exact Nat.find_min exited before ⟨Nat.lt_trans before inTime, same⟩
  · right
    have never (poll : Nat) (before : poll < rounds timeoutMs) : waitpid poll ≠ process :=
      fun same => exited ⟨poll, before, same⟩
    refine ⟨never, ?_⟩
    rw [waitLoop_never (by simpa only [Nat.zero_add] using never), Nat.zero_add, Nat.zero_add]

/-- The time-out is kept just from 10 milliseconds on. Below that the unsigned countdown wraps, and
the loop goes round it once. -/
theorem keepsTimeout_iff (timeoutMs : UInt32) : KeepsTimeout timeoutMs ↔ 10 ≤ timeoutMs.toNat := by
  rw [← rounds_le_bound_iff]
  constructor
  · rintro ⟨never, -⟩
    have bounded := (never 1 (fun _ => 0) fun _ => by decide).2.1
    rcases waitProcess_cases 1 (fun _ => 0) timeoutMs with ⟨exit, -, exits, -⟩ | ⟨-, result⟩
    · cases exits
    · rwa [result] at bounded
  · intro bounded
    constructor
    · intro process waitpid never
      rcases waitProcess_cases process waitpid timeoutMs with ⟨exit, -, exits, -⟩ | ⟨-, result⟩
      · exact absurd exits (never exit)
      · rw [result]
        exact ⟨rfl, bounded, rfl⟩
    · intro process waitpid poll _ polled exits
      rcases waitProcess_cases process waitpid timeoutMs with ⟨exit, -, -, result⟩ | ⟨never, result⟩
      · rw [result]
      · rw [result] at polled
        exact absurd exits (never poll polled)

/-- A wait of no time at all polls more than four hundred million times, ten milliseconds apart. -/
theorem zero_waits_on : ¬ ∀ timeoutMs, KeepsTimeout timeoutMs := by
  intro claim
  have bounded := ((claim 0).never 1 (fun _ => 0) fun _ => by decide).2.1
  have result : waitProcess 1 (fun _ => 0) 0 = ⟨-1, 429496729, 4294967290⟩ :=
    @waitLoop_never 1 (fun _ => 0) 0 0 0 fun _ _ => by decide
  rw [result] at bounded
  exact absurd bounded (by decide)

end OpenTaker.ProcessWaits
