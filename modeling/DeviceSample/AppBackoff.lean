import DeviceSample.AppActions

/-!
The backoff between attempts to connect, in the widths of its C types. The retry count decides how far a
signed one is shifted, and only the calls of the backoff itself keep it small.
-/

namespace DeviceSample.App.Backoff

open Sample (sampleMaxExponentialBackoffInSec sampleInitialExponentialBackoffInSec
  sampleMaxExponentialBackoffJitterPercent)

/-- `(1 << exponential_retry_count) * SAMPLE_INITIAL_EXPONENTIAL_BACKOFF_IN_SEC`, which is an `int`. -/
def shiftedInterval (exponentialRetryCount : BitVec 32) : BitVec 32 :=
  (1#32 <<< exponentialRetryCount) * BitVec.ofNat 32 sampleInitialExponentialBackoffInSec

/-- The shift and the product stay below `INT_MAX`. -/
structure NoOverflow (exponentialRetryCount : BitVec 32) : Prop where
  shift : 2 ^ exponentialRetryCount.toNat < 2 ^ 31
  product : 2 ^ exponentialRetryCount.toNat * sampleInitialExponentialBackoffInSec < 2 ^ 31

/-- `base_delay` in front of the comparison with its maximum. The `int` is converted to 64 bits. -/
def unlimitedDelay (exponentialRetryCount : BitVec 32) : BitVec 32 :=
  let delay := (shiftedInterval exponentialRetryCount).signExtend 64
  if exponentialRetryCount < 32#32 ∧ delay ≤ 0xFFFFFFFF#64 then delay.setWidth 32
  else BitVec.ofNat 32 sampleMaxExponentialBackoffInSec

/-- The delay in seconds, with its jitter; the `double` arithmetic is exact. -/
def jittered (randMax rand baseDelay : Nat) : Nat :=
  let jitterPercent : ℚ := (sampleMaxExponentialBackoffJitterPercent / 100) * (rand / (randMax : ℚ))
  ⌊baseDelay * (1 + jitterPercent)⌋₊

/-- `base_delay`, the returned ticks and the next `exponential_retry_count`. -/
structure Delayed where
  baseDelay : BitVec 32
  ticks : BitVec 32
  exponentialRetryCount : BitVec 32

/-- `exponential_backoff_with_jitter`. -/
def exponentialBackoffWithJitter (nxIpPeriodicRate randMax rand : Nat) (exponentialRetryCount : BitVec 32) :
    Delayed :=
  let baseDelay := unlimitedDelay exponentialRetryCount
  let (baseDelay, exponentialRetryCount) :=
    if baseDelay > BitVec.ofNat 32 sampleMaxExponentialBackoffInSec then
      (BitVec.ofNat 32 sampleMaxExponentialBackoffInSec, exponentialRetryCount)
    else (baseDelay, exponentialRetryCount + 1)
  { baseDelay := baseDelay
    ticks := BitVec.ofNat 32 (jittered randMax rand baseDelay.toNat) * BitVec.ofNat 32 nxIpPeriodicRate
    exponentialRetryCount := exponentialRetryCount }

/-- The calls that change the count; each call of the backoff draws a number. -/
inductive BackoffCall
  | exponentialBackoffWithJitter (rand : Nat)
  | exponentialBackoffReset
  deriving DecidableEq, Repr

/-- The count after a call. It does not depend on the clock or on the number drawn. -/
def BackoffCall.retryCount (nxIpPeriodicRate randMax : Nat) (exponentialRetryCount : BitVec 32) :
    BackoffCall → BitVec 32
  | .exponentialBackoffWithJitter rand =>
      (Backoff.exponentialBackoffWithJitter nxIpPeriodicRate randMax rand exponentialRetryCount).exponentialRetryCount
  | .exponentialBackoffReset => 0

/-- `exponential_retry_count` after some calls. -/
def retryCount (nxIpPeriodicRate randMax : Nat) (calls : List BackoffCall) : BitVec 32 :=
  calls.foldl (BackoffCall.retryCount nxIpPeriodicRate randMax) 0

/-- The calls of the backoff since the last reset. -/
def callsSinceReset (calls : List BackoffCall) : Nat :=
  calls.foldl (fun n call => match call with
    | .exponentialBackoffWithJitter _ => n + 1
    | .exponentialBackoffReset => 0) 0

/-- The base delay of the call number `n` since a reset. -/
def schedule (n : Nat) : Nat := min 600 (3 * 2 ^ (n - 1))

section count

variable {nxIpPeriodicRate randMax rand : Nat}

theorem noOverflow_of_le {count : BitVec 32} (h : count.toNat ≤ 8) : NoOverflow count := by
  have hpow : 2 ^ count.toNat ≤ 2 ^ 8 := Nat.pow_le_pow_right (by decide) h
  exact ⟨by omega, by rw [sampleInitialExponentialBackoffInSec]; omega⟩

theorem backoff_step (n : Fin 9) :
    let base := unlimitedDelay (BitVec.ofNat 32 n)
    (if base > BitVec.ofNat 32 sampleMaxExponentialBackoffInSec then
        (BitVec.ofNat 32 sampleMaxExponentialBackoffInSec, BitVec.ofNat 32 n)
      else (base, BitVec.ofNat 32 n + 1)) =
      (BitVec.ofNat 32 (schedule (n + 1)), BitVec.ofNat 32 (min (n + 1) 8)) := by
  revert n
  decide

theorem schedule_le (n : Nat) : schedule n ≤ 600 := Nat.min_le_left ..

theorem schedule_mono {n m : Nat} (h : n ≤ m) : schedule n ≤ schedule m := by
  have hpow : 2 ^ (n - 1) ≤ 2 ^ (m - 1) := Nat.pow_le_pow_right (by decide) (by omega)
  exact min_le_min_left 600 (Nat.mul_le_mul_left 3 hpow)

theorem schedule_min (n : Nat) : schedule (min n 8 + 1) = schedule (n + 1) := by
  rcases Nat.le_total n 8 with h | h
  · rw [Nat.min_eq_left h]
  · have hfull : schedule (8 + 1) = 600 := by decide
    have hmore : schedule (8 + 1) ≤ schedule (n + 1) := schedule_mono (by omega)
    have hmost := schedule_le (n + 1)
    rw [Nat.min_eq_right h]
    omega

theorem schedule_toNat (n : Nat) : (BitVec.ofNat 32 (schedule n)).toNat = schedule n :=
  Nat.mod_eq_of_lt ((schedule_le n).trans_lt (by decide))

/-- A call of the backoff when `n` of them have been made since a reset. -/
theorem backoff_eq (n : Nat) : exponentialBackoffWithJitter nxIpPeriodicRate randMax rand (BitVec.ofNat 32 (min n 8)) =
    { baseDelay := BitVec.ofNat 32 (schedule (n + 1))
      ticks := BitVec.ofNat 32 (jittered randMax rand (schedule (n + 1)) * nxIpPeriodicRate)
      exponentialRetryCount := BitVec.ofNat 32 (min (n + 1) 8) } := by
  have hstep := backoff_step ⟨min n 8, by omega⟩
  have hcount : min (min n 8 + 1) 8 = min (n + 1) 8 := by omega
  simp only [schedule_min, hcount] at hstep
  rw [exponentialBackoffWithJitter, hstep]
  dsimp only
  rw [schedule_toNat, ← BitVec.ofNat_mul]

theorem callsSinceReset_concat (calls : List BackoffCall) (rand : Nat) :
    callsSinceReset (calls ++ [.exponentialBackoffWithJitter rand]) = callsSinceReset calls + 1 := by
  rw [callsSinceReset, List.foldl_concat]
  rfl

theorem callsSinceReset_reset (calls : List BackoffCall) :
    callsSinceReset (calls ++ [.exponentialBackoffReset]) = 0 := by
  rw [callsSinceReset, List.foldl_concat]

/-- The count follows the calls since the last reset up to eight. -/
theorem retryCount_eq (calls : List BackoffCall) :
    retryCount nxIpPeriodicRate randMax calls = BitVec.ofNat 32 (min (callsSinceReset calls) 8) := by
  induction calls using List.reverseRecOn with
  | nil => rfl
  | append_singleton calls call ih =>
      rw [retryCount] at ih
      rw [retryCount, List.foldl_concat, ih]
      cases call with
      | exponentialBackoffWithJitter rand => rw [BackoffCall.retryCount, backoff_eq, callsSinceReset_concat]
      | exponentialBackoffReset =>
          rw [callsSinceReset_reset]
          rfl

/-- The base delay of the call that follows some calls. -/
theorem baseDelay_eq (calls : List BackoffCall) (rand : Nat) :
    (exponentialBackoffWithJitter nxIpPeriodicRate randMax rand
      (retryCount nxIpPeriodicRate randMax calls)).baseDelay.toNat = schedule (callsSinceReset calls + 1) := by
  rw [retryCount_eq, backoff_eq]
  exact schedule_toNat _

/-- Without a reset, no call of the backoff is forgotten. -/
theorem callsSinceReset_append (calls : List BackoffCall) {more : List BackoffCall}
    (h : .exponentialBackoffReset ∉ more) : callsSinceReset calls ≤ callsSinceReset (calls ++ more) := by
  induction more using List.reverseRecOn with
  | nil => rw [List.append_nil]
  | append_singleton more call ih =>
      rw [List.mem_append, not_or, List.mem_singleton] at h
      have hrest := ih h.1
      rw [← List.append_assoc]
      cases call with
      | exponentialBackoffWithJitter rand =>
          rw [callsSinceReset_concat]
          exact Nat.le_succ_of_le hrest
      | exponentialBackoffReset => exact absurd rfl h.2

/-- The jitter adds at most sixty percent. -/
theorem jittered_bounds (hmax : 0 < randMax) (hrand : rand ≤ randMax) (base : Nat) :
    base ≤ jittered randMax rand base ∧ (jittered randMax rand base : ℚ) ≤ 8 / 5 * base := by
  have hpositive : (0 : ℚ) < randMax := Nat.cast_pos.mpr hmax
  have hfraction : (rand : ℚ) / randMax ≤ 1 := (div_le_one hpositive).mpr (Nat.cast_le.mpr hrand)
  have hnonneg : (0 : ℚ) ≤ rand / randMax := div_nonneg (Nat.cast_nonneg _) hpositive.le
  have hbase : (0 : ℚ) ≤ base := Nat.cast_nonneg _
  rw [jittered, sampleMaxExponentialBackoffJitterPercent]
  constructor
  · refine Nat.le_floor (le_mul_of_one_le_right hbase ?_)
    push_cast
    linarith
  · refine (Nat.floor_le (mul_nonneg hbase ?_)).trans ?_
    · push_cast
      linarith
    · rw [mul_comm]
      refine mul_le_mul_of_nonneg_right ?_ hbase
      push_cast
      linarith

end count

/-- The backoff in the whole sample counts as the one in the widths of the C types. -/
theorem sample_backoff_eq {μ : Type*} (cfg : Config μ) (rand n : Nat) :
    Sample.exponentialBackoffWithJitter cfg rand (min n 8) =
      let x := exponentialBackoffWithJitter cfg.nxIpPeriodicRate cfg.randMax rand (BitVec.ofNat 32 (min n 8))
      (x.ticks.toNat, x.exponentialRetryCount.toNat) := by
  have hstep : ∀ m : Fin 9,
      (if sampleMaxExponentialBackoffInSec <
          (if m.val < 32 ∧ 2 ^ m.val * sampleInitialExponentialBackoffInSec ≤ 2 ^ 32 - 1 then
            2 ^ m.val * sampleInitialExponentialBackoffInSec else sampleMaxExponentialBackoffInSec) then
        (sampleMaxExponentialBackoffInSec, m.val)
      else
        ((if m.val < 32 ∧ 2 ^ m.val * sampleInitialExponentialBackoffInSec ≤ 2 ^ 32 - 1 then
            2 ^ m.val * sampleInitialExponentialBackoffInSec else sampleMaxExponentialBackoffInSec), m.val + 1)) =
        (schedule (m.val + 1), min (m.val + 1) 8) := by decide
  have hchosen := hstep ⟨min n 8, by omega⟩
  have hcount : min (min n 8 + 1) 8 = min (n + 1) 8 := by omega
  dsimp only at hchosen
  rw [schedule_min, hcount] at hchosen
  rw [Sample.exponentialBackoffWithJitter, hchosen, backoff_eq]
  refine Prod.ext rfl ?_
  exact (Nat.mod_eq_of_lt (show min (n + 1) 8 < 2 ^ 32 by omega)).symm

/-- **The backoff follows its schedule**, after any calls of it and of its reset. -/
theorem backoff_follows_schedule {nxIpPeriodicRate randMax rand : Nat} (hmax : 0 < randMax)
    (hrand : rand ≤ randMax) (calls : List BackoffCall) :
    let count := retryCount nxIpPeriodicRate randMax calls
    let x := exponentialBackoffWithJitter nxIpPeriodicRate randMax rand count
    let n := callsSinceReset calls + 1
    let seconds := ⌊(schedule n : ℚ) * (1 + 6 / 10 * (rand / randMax))⌋₊
    count.toNat ≤ 8 ∧ NoOverflow count ∧ x.baseDelay.toNat = schedule n ∧
      x.ticks = BitVec.ofNat 32 (seconds * nxIpPeriodicRate) ∧
      (960 * nxIpPeriodicRate < 2 ^ 32 → x.ticks.toNat = seconds * nxIpPeriodicRate) ∧
      schedule n ≤ seconds ∧ (seconds : ℚ) ≤ 16 / 10 * schedule n ∧
      ∀ more rand', .exponentialBackoffReset ∉ more →
        let later := exponentialBackoffWithJitter nxIpPeriodicRate randMax rand'
          (retryCount nxIpPeriodicRate randMax (calls ++ more))
        x.baseDelay.toNat ≤ later.baseDelay.toNat ∧ (x.baseDelay.toNat = 600 → later.baseDelay.toNat = 600) := by
  intro count x n seconds
  have hcount : count = BitVec.ofNat 32 (min (callsSinceReset calls) 8) := retryCount_eq calls
  have hsmall : count.toNat ≤ 8 := by
    rw [hcount, BitVec.toNat_ofNat]
    omega
  have hx : x = _ := (congrArg _ hcount).trans (backoff_eq (callsSinceReset calls))
  have hseconds : jittered randMax rand (schedule n) = seconds := by
    have hpercent : ((sampleMaxExponentialBackoffJitterPercent : Nat) : ℚ) / 100 = 6 / 10 := by
      rw [sampleMaxExponentialBackoffJitterPercent]
      norm_num
    rw [jittered, hpercent]
  have hticks : x.ticks = BitVec.ofNat 32 (seconds * nxIpPeriodicRate) := by
    rw [hx, ← hseconds]
  obtain ⟨hlower, hupper⟩ := jittered_bounds hmax hrand (schedule n)
  rw [hseconds] at hlower hupper
  have hmost : seconds ≤ 960 := by
    have hscheduled : (schedule n : ℚ) ≤ 600 := by exact_mod_cast schedule_le n
    have hbound : (seconds : ℚ) ≤ 960 := by linarith
    exact_mod_cast hbound
  have hbaseDelay : x.baseDelay.toNat = schedule n := baseDelay_eq calls rand
  refine ⟨hsmall, noOverflow_of_le hsmall, hbaseDelay, hticks, fun hrate => ?_, hlower, ?_, ?_⟩
  · rw [hticks, BitVec.toNat_ofNat]
    exact Nat.mod_eq_of_lt ((Nat.mul_le_mul_right _ hmost).trans_lt hrate)
  · linarith
  · intro more rand' hmore later
    have hlater : later.baseDelay.toNat = schedule (callsSinceReset (calls ++ more) + 1) :=
      baseDelay_eq (calls ++ more) rand'
    have hgrows : schedule n ≤ schedule (callsSinceReset (calls ++ more) + 1) :=
      schedule_mono (Nat.succ_le_succ (callsSinceReset_append calls hmore))
    rw [hbaseDelay, hlater]
    exact ⟨hgrows, fun hfull => le_antisymm (schedule_le _) (hfull ▸ hgrows)⟩

/-- The ninth call after a reset, with the largest number that can be drawn. -/
theorem backoff_follows_schedule_ninth :
    let calls := .exponentialBackoffReset :: List.replicate 8 (.exponentialBackoffWithJitter 5)
    let x := exponentialBackoffWithJitter 100 32767 32767 (retryCount 100 32767 calls)
    x.baseDelay.toNat = 600 ∧ x.ticks.toNat = 96000 := by
  have hcalls : callsSinceReset (.exponentialBackoffReset :: List.replicate 8 (.exponentialBackoffWithJitter 5)) = 8 := by
    decide
  have hscheduled : schedule (8 + 1) = 600 := by decide
  have h := @backoff_follows_schedule 100 32767 32767 (by decide) le_rfl
    (.exponentialBackoffReset :: List.replicate 8 (.exponentialBackoffWithJitter 5))
  rw [hcalls] at h
  dsimp only at h
  rw [hscheduled] at h
  obtain ⟨-, -, hbase, -, hticks, -⟩ := h
  refine ⟨hbase, (hticks (by decide)).trans ?_⟩
  norm_num

end DeviceSample.App.Backoff
