import Mathlib.Algebra.Ring.Nat
import Mathlib.Logic.Function.Iterate

/-!
The tick timer of the fingerprints. `vt_tick_init` takes a maximum and a resolution, reports both back,
and programs a timer of 16 bits.
-/

namespace DeviceSample.VtTick

/-- `vt_tick_timer.Init`, and the two values that are handed back. -/
structure TickInit where
  prescaler : BitVec 32
  period : BitVec 32
  maxValue : BitVec 16
  resolutionUsec : BitVec 16
  deriving DecidableEq, Repr

/-- `vt_tick_init` for a timer with some clocks for each microsecond. -/
def vtTickInit (clocks : Nat) (maxValue resolutionUsec : BitVec 16) : TickInit :=
  let maxValue := if maxValue ≠ 0 then maxValue else 65535#16
  let resolutionUsec := if resolutionUsec ≠ 0 then resolutionUsec else 1#16
  { prescaler := BitVec.ofNat 32 clocks * resolutionUsec.setWidth 32 - 1#32
    period := 65535#32
    maxValue := maxValue
    resolutionUsec := resolutionUsec }

/-- `vt_tick_init` of the MXChip: `(96*default_tick_resolution) - 1`. -/
def mxVtTickInit (maxValue resolutionUsec : BitVec 16) : TickInit := vtTickInit 96 maxValue resolutionUsec

/-- `vt_tick_init` of the STM32L4: `(80 * default_tick_resolution) - 1`. -/
def stmVtTickInit (maxValue resolutionUsec : BitVec 16) : TickInit := vtTickInit 80 maxValue resolutionUsec

/-- The registers `PSC` and `ARR`, which have 16 bits, and the counts up to them. -/
structure Timer where
  psc : BitVec 16
  arr : BitVec 16
  prescalerCount : Nat
  cnt : Nat
  deriving DecidableEq, Repr

/-- The timer that `HAL_TIM_Base_Init` leaves. -/
def TickInit.timer (x : TickInit) : Timer where
  psc := x.prescaler.setWidth 16
  arr := x.period.setWidth 16
  prescalerCount := 0
  cnt := 0

/-- One clock of the timer. -/
def Timer.clock (t : Timer) : Timer :=
  if t.prescalerCount = t.psc.toNat then
    { t with prescalerCount := 0, cnt := if t.cnt = t.arr.toNat then 0 else t.cnt + 1 }
  else { t with prescalerCount := t.prescalerCount + 1 }

/-- `vt_tick`, when the timer has run for some clocks. -/
def TickInit.vtTick (x : TickInit) (clocks : Nat) : Nat := (Timer.clock^[clocks] x.timer).cnt

/-- The timer does what is handed back: its prescaler fits, a tick lasts the resolution, and the counter goes
up once for each tick and wraps behind the maximum. -/
structure TickInit.Honours (clocks : Nat) (x : TickInit) : Prop where
  prescaler_fits : x.prescaler.toNat < 2 ^ 16
  tick_lasts : x.prescaler.toNat + 1 = clocks * x.resolutionUsec.toNat
  period_is_max : x.period.toNat = x.maxValue.toNat
  wraps : ∀ n, x.vtTick n = n / (clocks * x.resolutionUsec.toNat) % (x.maxValue.toNat + 1)

section timer

/-- Division with remainder by `k + 1`, one number later. -/
theorem succ_divMod (m k : Nat) : (m % (k + 1) = k → (m + 1) % (k + 1) = 0 ∧ (m + 1) / (k + 1) = m / (k + 1) + 1) ∧
    (m % (k + 1) ≠ k → (m + 1) % (k + 1) = m % (k + 1) + 1 ∧ (m + 1) / (k + 1) = m / (k + 1)) := by
  have hm := Nat.div_add_mod m (k + 1)
  have hlt : m % (k + 1) < k + 1 := Nat.mod_lt m (Nat.succ_pos k)
  constructor
  · intro hlast
    have hnext : m + 1 = (k + 1) * (m / (k + 1) + 1) := by
      rw [Nat.mul_add, Nat.mul_one]
      omega
    rw [hnext]
    exact ⟨Nat.mul_mod_right .., Nat.mul_div_cancel_left _ (Nat.succ_pos k)⟩
  · intro hinside
    have hnext : m + 1 = (k + 1) * (m / (k + 1)) + (m % (k + 1) + 1) := by omega
    have hsmall : m % (k + 1) + 1 < k + 1 := by omega
    have hmod : (m + 1) % (k + 1) = m % (k + 1) + 1 := by
      rw [hnext, Nat.mul_add_mod, Nat.mod_eq_of_lt hsmall]
    refine ⟨hmod, ?_⟩
    have hsucc := Nat.div_add_mod (m + 1) (k + 1)
    rw [hmod] at hsucc
    exact Nat.eq_of_mul_eq_mul_left (show 0 < k + 1 from Nat.succ_pos k) (by omega)

/-- The counts after some clocks, one clock later. -/
theorem Timer.clock_eq (psc arr : BitVec 16) (n : Nat) :
    Timer.clock ⟨psc, arr, n % (psc.toNat + 1), n / (psc.toNat + 1) % (arr.toNat + 1)⟩ =
      ⟨psc, arr, (n + 1) % (psc.toNat + 1), (n + 1) / (psc.toNat + 1) % (arr.toNat + 1)⟩ := by
  obtain ⟨hlast, hinside⟩ := succ_divMod n psc.toNat
  obtain ⟨hmax, hbelow⟩ := succ_divMod (n / (psc.toNat + 1)) arr.toNat
  rw [Timer.clock]
  by_cases hprescaler : n % (psc.toNat + 1) = psc.toNat
  · rw [if_pos hprescaler, (hlast hprescaler).1, (hlast hprescaler).2]
    by_cases hcounter : n / (psc.toNat + 1) % (arr.toNat + 1) = arr.toNat
    · rw [if_pos hcounter, (hmax hcounter).1]
    · rw [if_neg hcounter, (hbelow hcounter).1]
  · rw [if_neg hprescaler, (hinside hprescaler).1, (hinside hprescaler).2]

theorem TickInit.vtTick_eq (x : TickInit) (n : Nat) :
    x.vtTick n = n / (x.timer.psc.toNat + 1) % (x.timer.arr.toNat + 1) := by
  have hcounts : ∀ n, Timer.clock^[n] x.timer =
      ⟨x.timer.psc, x.timer.arr, n % (x.timer.psc.toNat + 1),
        n / (x.timer.psc.toNat + 1) % (x.timer.arr.toNat + 1)⟩ := by
    intro n
    induction n with
    | zero =>
        rw [Nat.zero_mod, Nat.zero_div, Nat.zero_mod]
        rfl
    | succ n ih => rw [Function.iterate_succ_apply', ih, Timer.clock_eq]
  rw [TickInit.vtTick, hcounts]

/-- The resolution that is handed back. -/
theorem vtTickInit_resolution (clocks : Nat) (maxValue resolutionUsec : BitVec 16) :
    (vtTickInit clocks maxValue resolutionUsec).resolutionUsec.toNat = max resolutionUsec.toNat 1 := by
  rw [vtTickInit]
  dsimp only
  by_cases hzero : resolutionUsec = 0
  · rw [if_neg (not_not_intro hzero), hzero]
    rfl
  · have hpositive : resolutionUsec.toNat ≠ 0 := fun h => hzero (BitVec.eq_of_toNat_eq h)
    rw [if_pos hzero, Nat.max_eq_left (by omega)]

theorem vtTickInit_prescaler {clocks : Nat} (hclocks : 0 < clocks) (hfew : clocks ≤ 2 ^ 16)
    (maxValue resolutionUsec : BitVec 16) :
    (vtTickInit clocks maxValue resolutionUsec).prescaler.toNat + 1 =
      clocks * (vtTickInit clocks maxValue resolutionUsec).resolutionUsec.toNat := by
  have hresolution := vtTickInit_resolution clocks maxValue resolutionUsec
  generalize hx : vtTickInit clocks maxValue resolutionUsec = x at hresolution
  have hprescaler : x.prescaler = BitVec.ofNat 32 clocks * x.resolutionUsec.setWidth 32 - 1#32 := by
    rw [← hx]
    rfl
  have hlt := x.resolutionUsec.isLt
  have hproduct : clocks * x.resolutionUsec.toNat < 2 ^ 32 :=
    calc clocks * x.resolutionUsec.toNat ≤ 2 ^ 16 * x.resolutionUsec.toNat := Nat.mul_le_mul_right _ hfew
      _ < 2 ^ 32 := by omega
  have hpositive : 0 < clocks * x.resolutionUsec.toNat := Nat.mul_pos hclocks (by omega)
  have hwhole : (BitVec.ofNat 32 clocks * x.resolutionUsec.setWidth 32).toNat = clocks * x.resolutionUsec.toNat := by
    have hclocks32 : clocks % 2 ^ 32 = clocks := Nat.mod_eq_of_lt (by omega)
    have hresolution32 : x.resolutionUsec.toNat % 2 ^ 32 = x.resolutionUsec.toNat := Nat.mod_eq_of_lt (by omega)
    rw [BitVec.toNat_mul, BitVec.toNat_ofNat, BitVec.toNat_setWidth, hclocks32, hresolution32,
      Nat.mod_eq_of_lt hproduct]
  rw [hprescaler, BitVec.toNat_sub_of_le, hwhole]
  · exact Nat.sub_add_cancel hpositive
  · rw [BitVec.le_def, hwhole]
    exact hpositive

/-- The maximum that is handed back is the one of the timer exactly if it is asked for, or nothing is. -/
theorem vtTickInit_period (clocks : Nat) (maxValue resolutionUsec : BitVec 16) :
    (vtTickInit clocks maxValue resolutionUsec).period.toNat =
      (vtTickInit clocks maxValue resolutionUsec).maxValue.toNat ↔ maxValue = 0 ∨ maxValue = 65535 := by
  rw [vtTickInit]
  dsimp only
  by_cases hzero : maxValue = 0
  · rw [if_neg (not_not_intro hzero)]
    exact iff_of_true rfl (Or.inl hzero)
  · rw [if_pos hzero, or_iff_right hzero]
    exact ⟨fun h => BitVec.eq_of_toNat_eq h.symm, fun h => h ▸ rfl⟩

theorem honours_iff {clocks : Nat} (hclocks : 0 < clocks) (hfew : clocks ≤ 2 ^ 16)
    (maxValue resolutionUsec : BitVec 16) : (vtTickInit clocks maxValue resolutionUsec).Honours clocks ↔
      (maxValue = 0 ∨ maxValue = 65535) ∧ clocks * resolutionUsec.toNat ≤ 65536 := by
  have hprescaler := vtTickInit_prescaler hclocks hfew maxValue resolutionUsec
  have hresolution := vtTickInit_resolution clocks maxValue resolutionUsec
  have hperiod := vtTickInit_period clocks maxValue resolutionUsec
  have hbound : clocks * max resolutionUsec.toNat 1 ≤ 65536 ↔ clocks * resolutionUsec.toNat ≤ 65536 := by
    rw [← Nat.mul_max_mul_left]
    omega
  constructor
  · intro h
    have hfits := h.prescaler_fits
    refine ⟨hperiod.mp h.period_is_max, hbound.mp ?_⟩
    rw [← hresolution]
    omega
  · rintro ⟨hmax, hfits⟩
    have hsame := hperiod.mpr hmax
    have hproduct := hbound.mpr hfits
    rw [← hresolution] at hproduct
    have hsmall : (vtTickInit clocks maxValue resolutionUsec).prescaler.toNat < 2 ^ 16 := by omega
    refine ⟨hsmall, hprescaler, hsame, fun n => ?_⟩
    have hpsc : (vtTickInit clocks maxValue resolutionUsec).timer.psc.toNat =
        (vtTickInit clocks maxValue resolutionUsec).prescaler.toNat := by
      rw [TickInit.timer, BitVec.toNat_setWidth, Nat.mod_eq_of_lt hsmall]
    have harr : (vtTickInit clocks maxValue resolutionUsec).timer.arr.toNat =
        (vtTickInit clocks maxValue resolutionUsec).period.toNat := rfl
    rw [TickInit.vtTick_eq, hpsc, harr, hprescaler, hsame]

end timer

/-- **The timer honours what is handed back** exactly if the maximum is the one of the hardware, by request or by
default, and the prescaler of the resolution fits its register: up to 682 microseconds on the MXChip, and 819 on
the STM32L4. -/
theorem vtTick_honours_iff (maxValue resolutionUsec : BitVec 16) :
    ((mxVtTickInit maxValue resolutionUsec).Honours 96 ↔
        (maxValue = 0 ∨ maxValue = 65535) ∧ resolutionUsec.toNat ≤ 682) ∧
      ((stmVtTickInit maxValue resolutionUsec).Honours 80 ↔
        (maxValue = 0 ∨ maxValue = 65535) ∧ resolutionUsec.toNat ≤ 819) := by
  have hmx := honours_iff (show 0 < 96 by decide) (by decide) maxValue resolutionUsec
  have hstm := honours_iff (show 0 < 80 by decide) (by decide) maxValue resolutionUsec
  rw [mxVtTickInit, stmVtTickInit, hmx, hstm]
  constructor <;> refine and_congr_right fun _ => ?_ <;> omega

/-- A maximum of 1000 ticks is handed back, but the counter goes on to 65535; a resolution of a millisecond is
handed back, but the prescaler has more bits than its register. -/
theorem vtTick_ignores_request :
    ¬(mxVtTickInit 1000 1).Honours 96 ∧ ¬(stmVtTickInit 0 1000).Honours 80 :=
  ⟨fun h => absurd h.period_is_max (by decide), fun h => absurd h.prescaler_fits (by decide)⟩

end DeviceSample.VtTick
