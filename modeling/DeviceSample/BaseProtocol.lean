import Mathlib.Data.List.Basic

/-!
Protocols of calls, and loops whose rounds are decided by their inputs. A protocol says which calls
the state of a resource allows and what they make of it; a program obeys it when each call of its
record is allowed in its turn. For a loop, what a round does is compared with a condition on it once,
for the states in which rounds start, and the comparison is carried through all rounds.
-/

namespace DeviceSample.Base

/-- The calls that a state allows, and the state after a call. -/
structure Protocol (σ κ : Type*) where
  Allowed : σ → κ → Prop
  next : σ → κ → σ

namespace Protocol

variable {σ κ : Type*} (P : Protocol σ κ)

/-- The state after some calls. -/
def after (s : σ) (calls : List κ) : σ := calls.foldl P.next s

/-- Each call is allowed in the state before it. -/
def Obeys : σ → List κ → Prop
  | _, [] => True
  | s, call :: calls => P.Allowed s call ∧ Obeys (P.next s call) calls

instance decidableObeys [∀ s call, Decidable (P.Allowed s call)] (s : σ) (calls : List κ) :
    Decidable (P.Obeys s calls) :=
  match calls with
  | [] => isTrue trivial
  | call :: calls =>
      have := decidableObeys (P.next s call) calls
      inferInstanceAs (Decidable (P.Allowed s call ∧ P.Obeys (P.next s call) calls))

variable {P} {s : σ}

@[simp] theorem after_nil : P.after s [] = s := rfl

@[simp] theorem after_cons (call : κ) (calls : List κ) :
    P.after s (call :: calls) = P.after (P.next s call) calls := rfl

@[simp] theorem after_append (first second : List κ) :
    P.after s (first ++ second) = P.after (P.after s first) second := List.foldl_append

@[simp] theorem obeys_nil : P.Obeys s [] := trivial

@[simp] theorem obeys_cons {call : κ} {calls : List κ} :
    P.Obeys s (call :: calls) ↔ P.Allowed s call ∧ P.Obeys (P.next s call) calls := Iff.rfl

theorem obeys_append {first second : List κ} :
    P.Obeys s (first ++ second) ↔ P.Obeys s first ∧ P.Obeys (P.after s first) second := by
  induction first generalizing s with
  | nil => simp
  | cons call calls ih => rw [List.cons_append, obeys_cons, obeys_cons, ih, after_cons, and_assoc]

end Protocol

/-- A loop: what a round does in a state with an input, the state that it leaves, and whether another
round follows. -/
structure Loop (σ ι τ : Type*) where
  round : σ → ι → τ
  state : τ → σ
  more : τ → Bool

namespace Loop

variable {σ ι τ : Type*} (L : Loop σ ι τ)

/-- The rounds that the loop makes of its inputs. -/
def rounds : σ → List ι → List τ
  | _, [] => []
  | s, input :: inputs =>
      L.round s input ::
        if L.more (L.round s input) then rounds (L.state (L.round s input)) inputs else []

variable {L} {s : σ}

/-- A round starts in a state of the invariant when each one before it was good. -/
theorem forall_rounds_iff (inv : σ → Prop) (good cond : τ → Prop)
    (hround : ∀ s input, inv s → (good (L.round s input) ↔ cond (L.round s input)))
    (hkeep : ∀ s input, inv s → good (L.round s input) → L.more (L.round s input) = true →
      inv (L.state (L.round s input)))
    (inputs : List ι) (hinv : inv s) :
    (∀ x ∈ L.rounds s inputs, good x) ↔ ∀ x ∈ L.rounds s inputs, cond x := by
  induction inputs generalizing s with
  | nil => simp [rounds]
  | cons input inputs ih =>
      rw [rounds, List.forall_mem_cons, List.forall_mem_cons, ← hround s input hinv]
      refine and_congr_right fun hgood => ?_
      split
      · rename_i hmore
        exact ih (hkeep s input hinv hgood hmore)
      · simp

end Loop

end DeviceSample.Base
