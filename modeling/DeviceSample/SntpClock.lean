import DeviceSample.Sdk
import Mathlib.Algebra.Ring.Nat
import Mathlib.Data.List.Basic

/-!
The time of the device: the Unix seconds of the last synchronisation, and the ticks that the counter has
gone since. Seconds and ticks are `ULONG`s of 32 bits that wrap.
-/

namespace DeviceSample.SntpClock

/-- `UNIX_TO_NTP_EPOCH_SECS`. -/
def unixToNtpEpochSecs : BitVec 32 := 0x83AA7E80#32

/-- The variables of the clock and the tick counter that `tx_time_get` reads. -/
structure Clock where
  sntpLastTime : BitVec 32
  txLastTicks : BitVec 32
  txTime : BitVec 32
  deriving DecidableEq, Repr

/-- `set_sntp_time`; a status and the seconds are what `nx_sntp_client_get_local_time` gives. -/
def Clock.setSntpTime (c : Clock) (status : Status) (seconds : BitVec 32) : Clock :=
  if status ≠ .success then c
  else { c with sntpLastTime := seconds - unixToNtpEpochSecs, txLastTicks := c.txTime }

/-- `sntp_time_get`. -/
def Clock.sntpTimeGet (txTimerTicksPerSecond : BitVec 32) (c : Clock) : BitVec 32 :=
  c.sntpLastTime + (c.txTime - c.txLastTicks) / txTimerTicksPerSecond

/-- `sntp_time`. -/
def Clock.sntpTime (txTimerTicksPerSecond : BitVec 32) (c : Clock) : Status × BitVec 32 :=
  (.success, c.sntpTimeGet txTimerTicksPerSecond)

/-- What changes the clock. -/
inductive ClockEvent
  | tick
  | setSntpTime (status : Status) (seconds : BitVec 32)
  deriving DecidableEq, Repr

def Clock.step (c : Clock) : ClockEvent → Clock
  | .tick => { c with txTime := c.txTime + 1 }
  | .setSntpTime status seconds => c.setSntpTime status seconds

def Clock.run (c : Clock) (events : List ClockEvent) : Clock := events.foldl Clock.step c

/-- No synchronisation succeeds. -/
def Unsynchronised (events : List ClockEvent) : Prop :=
  ∀ status seconds, .setSntpTime status seconds ∈ events → status ≠ .success

/-- The ticks among some events. -/
def elapsed (events : List ClockEvent) : Nat := events.count .tick

/-- The clock shows a Unix time, after some ticks since it was set to it. -/
structure Clock.Shows (c : Clock) (t e : Nat) : Prop where
  last_time : c.sntpLastTime = BitVec.ofNat 32 t
  ticks : c.txTime - c.txLastTicks = BitVec.ofNat 32 e

section clock

variable {c : Clock} {t e : Nat} {events : List ClockEvent}

theorem setSntpTime_shows (c : Clock) (t : Nat) :
    (c.setSntpTime .success (BitVec.ofNat 32 (t + 0x83AA7E80))).Shows t 0 := by
  rw [Clock.setSntpTime, if_neg (not_not_intro rfl)]
  refine ⟨?_, BitVec.sub_self _⟩
  rw [BitVec.ofNat_add]
  exact BitVec.add_sub_cancel _ _

/-- A tick is counted, and a synchronisation that fails changes nothing. -/
theorem Clock.Shows.step (h : c.Shows t e) {event : ClockEvent} (hquiet : Unsynchronised [event]) :
    (c.step event).Shows t (e + elapsed [event]) := by
  cases event with
  | tick =>
      refine ⟨h.last_time, ?_⟩
      have hticks := h.ticks
      have hone : elapsed [.tick] = 1 := rfl
      rw [hone, BitVec.ofNat_add, ← hticks]
      show c.txTime + 1 - c.txLastTicks = c.txTime - c.txLastTicks + 1#32
      bv_omega
  | setSntpTime status seconds =>
      have hfailed := hquiet status seconds (List.mem_singleton.mpr rfl)
      rw [Clock.step, Clock.setSntpTime, if_pos hfailed]
      exact h

theorem Clock.Shows.run (h : c.Shows t e) (hquiet : Unsynchronised events) :
    (c.run events).Shows t (e + elapsed events) := by
  induction events generalizing c e with
  | nil => exact h
  | cons event events ih =>
      have hfirst : Unsynchronised [event] := fun status seconds hmem =>
        hquiet status seconds (List.mem_cons.mpr (Or.inl (List.mem_singleton.mp hmem)))
      have hrest : Unsynchronised events := fun status seconds hmem =>
        hquiet status seconds (List.mem_cons_of_mem _ hmem)
      have hcount : elapsed (event :: events) = elapsed [event] + elapsed events := by
        rw [elapsed, ← List.singleton_append, List.count_append]
        rfl
      rw [hcount, ← Nat.add_assoc]
      exact ih (h.step hfirst) hrest

/-- The difference of the ticks is exact as long as it fits its type. -/
theorem Clock.Shows.sntpTimeGet (h : c.Shows t e) (he : e < 2 ^ 32) (txTimerTicksPerSecond : BitVec 32) :
    c.sntpTimeGet txTimerTicksPerSecond = BitVec.ofNat 32 (t + e / txTimerTicksPerSecond.toNat) := by
  have hseconds : BitVec.ofNat 32 e / txTimerTicksPerSecond = BitVec.ofNat 32 (e / txTimerTicksPerSecond.toNat) := by
    apply BitVec.eq_of_toNat_eq
    rw [BitVec.toNat_udiv, BitVec.toNat_ofNat, BitVec.toNat_ofNat, Nat.mod_eq_of_lt he,
      Nat.mod_eq_of_lt (Nat.lt_of_le_of_lt (Nat.div_le_self _ _) he)]
  rw [Clock.sntpTimeGet, h.last_time, h.ticks, hseconds, BitVec.ofNat_add]

end clock

/-- **The device time is right** after a synchronisation with the Unix time `t`, whatever the tick counter was,
and it does not go back before it wraps. -/
theorem deviceTime_eq (txTimerTicksPerSecond : BitVec 32) (c : Clock) (t : Nat) {events : List ClockEvent}
    (hquiet : Unsynchronised events) (helapsed : elapsed events < 2 ^ 32) :
    let later := (c.setSntpTime .success (BitVec.ofNat 32 (t + 0x83AA7E80))).run events
    (later.sntpTimeGet txTimerTicksPerSecond).toNat = (t + elapsed events / txTimerTicksPerSecond.toNat) % 2 ^ 32 ∧
      later.sntpTime txTimerTicksPerSecond = (.success, later.sntpTimeGet txTimerTicksPerSecond) ∧
      ∀ more, Unsynchronised more → elapsed (events ++ more) < 2 ^ 32 →
        t + elapsed (events ++ more) / txTimerTicksPerSecond.toNat < 2 ^ 32 →
          later.sntpTimeGet txTimerTicksPerSecond ≤ (later.run more).sntpTimeGet txTimerTicksPerSecond := by
  intro later
  have hlater : later.Shows t (0 + elapsed events) := (setSntpTime_shows c t).run hquiet
  rw [Nat.zero_add] at hlater
  refine ⟨?_, rfl, fun more hmore hfits hbefore => ?_⟩
  · rw [hlater.sntpTimeGet helapsed, BitVec.toNat_ofNat]
  · have htotal : elapsed (events ++ more) = elapsed events + elapsed more := List.count_append
    have hgrows : elapsed events / txTimerTicksPerSecond.toNat ≤
        elapsed (events ++ more) / txTimerTicksPerSecond.toNat := Nat.div_le_div_right (by omega)
    have hmost := (hlater.run hmore).sntpTimeGet (htotal ▸ hfits) txTimerTicksPerSecond
    rw [hlater.sntpTimeGet helapsed, hmost, ← htotal, BitVec.le_def, BitVec.toNat_ofNat, BitVec.toNat_ofNat,
      Nat.mod_eq_of_lt hbefore, Nat.mod_eq_of_lt (by omega)]
    omega

/-- The last second in front of the era of the 2036 rollover, with a counter that wraps. -/
theorem deviceTime_eq_rollover :
    let c : Clock := ⟨0, 0, 0xFFFFFF9C#32⟩
    ((c.setSntpTime .success (BitVec.ofNat 32 (2085978495 + 0x83AA7E80))).run
      (List.replicate 200 .tick)).sntpTimeGet 100#32 = 2085978497#32 := by
  have hquiet : Unsynchronised (List.replicate 200 .tick) := fun status seconds hmem =>
    absurd (List.eq_of_mem_replicate hmem) (by simp)
  have helapsed : elapsed (List.replicate 200 .tick) = 200 := List.count_replicate_self ..
  have h := (deviceTime_eq 100#32 ⟨0, 0, 0xFFFFFF9C#32⟩ 2085978495 hquiet (by rw [helapsed]; decide)).1
  rw [helapsed] at h
  exact BitVec.eq_of_toNat_eq h

end DeviceSample.SntpClock
