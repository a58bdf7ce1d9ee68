import Mathlib.Data.Nat.ModEq

/-!
Sequences in which each value is computed from earlier ones: the whole sequence as a list, and a window
of `n` places that holds its last `n` values, the value with the number `t` at the place `t % n`, where
it replaces the value that is `n` numbers older.
-/

namespace DeviceSample.Base

variable {α σ : Type*} {n t u : Nat}

/-- The first `n` values of the sequence in which the value with the number `t` is `next t` of the
values before it. -/
def build (next : Nat → List α → α) : Nat → List α
  | 0 => []
  | t + 1 => build next t ++ [next t (build next t)]

@[simp]
theorem length_build (next : Nat → List α → α) (n : Nat) : (build next n).length = n := by
  induction n with
  | zero => rfl
  | succ n ih => rw [build, List.length_append, ih, List.length_singleton]

/-- A value does not change when the sequence grows. -/
theorem getElem?_build (next : Nat → List α → α) (hu : u < n) :
    (build next n)[u]? = some (next u (build next u)) := by
  induction n with
  | zero => exact absurd hu (Nat.not_lt_zero u)
  | succ n ih =>
      rw [build]
      rcases Nat.lt_succ_iff_lt_or_eq.mp hu with hlt | rfl
      · rw [List.getElem?_append_left (by rwa [length_build])]
        exact ih hlt
      · rw [List.getElem?_append_right (by rw [length_build]), length_build, Nat.sub_self]
        rfl

/-- Numbers less than `n` apart have places of their own. -/
theorem mod_ne_mod (hlt : u < t) (hnear : t < u + n) : u % n ≠ t % n := by
  intro hplace
  have hdvd : n ∣ t - u := (Nat.modEq_iff_dvd' hlt.le).mp hplace
  have hle : n ≤ t - u := Nat.le_of_dvd (Nat.sub_pos_of_lt hlt) hdvd
  omega

/-- The window before the value with the number `t` is stored. -/
structure Window (n : Nat) (W : Nat → α) (t : Nat) (w : List α) : Prop where
  length_eq : w.length = n
  getElem?_eq : ∀ u < t, t ≤ u + n → w[u % n]? = some (W u)

namespace Window

variable {W : Nat → α} {w : List α}

theorem nil (hlength : w.length = n) : Window n W 0 w where
  length_eq := hlength
  getElem?_eq := fun u hu _ => absurd hu (Nat.not_lt_zero u)

theorem store (h : Window n W t w) (hn : 0 < n) : Window n W (t + 1) (w.set (t % n) (W t)) where
  length_eq := by
    rw [List.length_set, h.length_eq]
  getElem?_eq := by
    intro u hu hnear
    rcases Nat.lt_succ_iff_lt_or_eq.mp hu with hlt | rfl
    · rw [List.getElem?_set_ne (mod_ne_mod hlt hnear).symm]
      exact h.getElem?_eq u hlt (by omega)
    · apply List.getElem?_set_self
      rw [h.length_eq]
      exact Nat.mod_lt u hn

/-- A place with any number that it stands at. -/
theorem at_place (h : Window n W t w) {p : Nat} (hu : u < t) (hnear : t ≤ u + n)
    (hplace : p % n = u % n) : w[p % n]? = some (W u) := by
  rw [hplace]
  exact h.getElem?_eq u hu hnear

end Window

theorem foldl_range_succ (step : σ → Nat → σ) (s : σ) (n : Nat) :
    (List.range (n + 1)).foldl step s = step ((List.range n).foldl step s) n := by
  rw [List.range_succ, List.foldl_append]
  rfl

/-- What holds first and is kept by the step with the number `i` holds after the first `n` steps. -/
theorem foldl_range_invariant (inv : Nat → σ → Prop) {step : σ → Nat → σ} {s : σ} (hstart : inv 0 s)
    (hstep : ∀ i < n, ∀ s, inv i s → inv (i + 1) (step s i)) :
    inv n ((List.range n).foldl step s) := by
  induction n with
  | zero => exact hstart
  | succ n ih =>
      rw [foldl_range_succ]
      exact hstep n (Nat.lt_succ_self n) _ (ih fun i hi => hstep i (by omega))

end DeviceSample.Base
