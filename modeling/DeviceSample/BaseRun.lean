import Mathlib.Logic.Basic

/-!
Machines whose steps are labelled with what their environment decides. A machine is executable: a
label that is not enabled gives no next state. The states of its runs are an inductive predicate,
relative to a condition on the state before a step, so that one induction rule covers the runs of
the machine and the runs in which every step meets such a condition.
-/

namespace DeviceSample.Base

/-- A labelled machine: its first state and the effect of a label, if the label is enabled. -/
structure Machine (σ ι : Type*) where
  start : σ
  step : σ → ι → Option σ

namespace Machine

variable {σ ι τ κ : Type*} (M : Machine σ ι) {ok ok' : σ → ι → Prop}

/-- The state after a list of labels, if each is enabled in its turn and passes the check. -/
def run (check : σ → ι → Bool) : σ → List ι → Option σ
  | s, [] => some s
  | s, label :: labels =>
      if check s label then (M.step s label).bind fun next => run check next labels else none

/-- The states reached by runs whose every step meets `ok`, a condition on the state before the
step and on its label. -/
inductive ReachableUnder (ok : σ → ι → Prop) : σ → Prop
  | start : ReachableUnder ok M.start
  | step {s next : σ} (label : ι) : ReachableUnder ok s → ok s label →
      M.step s label = some next → ReachableUnder ok next

/-- The states of all runs. -/
def Reachable : σ → Prop := M.ReachableUnder fun _ _ => True

/-- What holds first and is kept by every step that meets the condition holds in every state that
such steps reach. A step may use that its first state is reached. -/
theorem ReachableUnder.invariant (inv : σ → Prop) (hstart : inv M.start)
    (hstep : ∀ s label next, M.ReachableUnder ok s → inv s → ok s label →
      M.step s label = some next → inv next)
    {s : σ} (h : M.ReachableUnder ok s) : inv s := by
  induction h with
  | start => exact hstart
  | step label hs hok heq ih => exact hstep _ label _ hs ih hok heq

theorem ReachableUnder.mono (hmono : ∀ s label, ok s label → ok' s label) {s : σ}
    (h : M.ReachableUnder ok s) : M.ReachableUnder ok' s := by
  induction h with
  | start => exact .start
  | step label _ hok heq ih => exact .step label ih (hmono _ _ hok) heq

theorem ReachableUnder.reachable {s : σ} (h : M.ReachableUnder ok s) : M.Reachable s :=
  h.mono M fun _ _ _ => trivial

theorem ReachableUnder.run {check : σ → ι → Bool}
    (hcheck : ∀ s label, check s label = true → ok s label) {labels : List ι} {s next : σ}
    (h : M.ReachableUnder ok s) (hrun : M.run check s labels = some next) :
    M.ReachableUnder ok next := by
  induction labels generalizing s with
  | nil =>
      cases hrun
      exact h
  | cons label labels ih =>
      rw [Machine.run, Option.ite_none_right_eq_some, Option.bind_eq_some_iff] at hrun
      obtain ⟨hlabel, middle, hmiddle, hrest⟩ := hrun
      exact ih (.step label h (hcheck s label hlabel) hmiddle) hrest

/-- A checked run that ends where a test succeeds shows a reached state where it does. -/
theorem exists_reachable_of_run {check : σ → ι → Bool}
    (hcheck : ∀ s label, check s label = true → ok s label) (labels : List ι) (test : σ → Bool)
    (hrun : (M.run check M.start labels).any test = true) :
    ∃ s, M.ReachableUnder ok s ∧ test s = true := by
  rw [Option.any_eq_true] at hrun
  obtain ⟨s, hs, htest⟩ := hrun
  exact ⟨s, ReachableUnder.run M hcheck .start hs, htest⟩

/-- The case of a run without a check. -/
theorem exists_reachable (labels : List ι) (test : σ → Bool)
    (hrun : (M.run (fun _ _ => true) M.start labels).any test = true) :
    ∃ s, M.Reachable s ∧ test s = true :=
  M.exists_reachable_of_run (fun _ _ _ => trivial) labels test hrun

end Machine

section services

variable {σ τ ι ρ : Type*}

/-- The answers of a service to some calls, one after the other, and its state behind them; nothing when it
fails. -/
def serve (step : σ → ι → Option (ρ × σ)) : σ → List ι → Option (List ρ × σ)
  | s, [] => some ([], s)
  | s, call :: calls =>
      match step s call with
      | none => none
      | some (answer, s) => (serve step s calls).map fun (answers, s) => (answer :: answers, s)

/-- The same for one that cannot fail. -/
def answers (step : τ → ι → ρ × τ) : τ → List ι → List ρ × τ
  | s, [] => ([], s)
  | s, call :: calls =>
      let (rest, last) := answers step (step s call).2 calls
      ((step s call).1 :: rest, last)

/-- A service that answers every call as another one does, and keeps the relation to it, answers all calls as
that one does. -/
theorem serve_of_simulates (R : σ → τ → Prop) {step : σ → ι → Option (ρ × σ)} {step' : τ → ι → ρ × τ}
    (hstep : ∀ s t call, R s t → ∃ next, step s call = some ((step' t call).1, next) ∧ R next (step' t call).2)
    {s : σ} {t : τ} (h : R s t) (calls : List ι) :
    ∃ last, serve step s calls = some ((answers step' t calls).1, last) ∧ R last (answers step' t calls).2 := by
  induction calls generalizing s t with
  | nil => exact ⟨s, rfl, h⟩
  | cons call calls ih =>
      obtain ⟨next, hnext, hrelated⟩ := hstep s t call h
      obtain ⟨last, hlast, hrest⟩ := ih hrelated
      exact ⟨last, by rw [serve, hnext]; simp only [hlast]; rfl, hrest⟩

end services

end DeviceSample.Base
