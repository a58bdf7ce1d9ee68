import DeviceSample.BaseProtocol
import Mathlib.Data.Finset.Dedup
import Mathlib.Data.Finset.SDiff
import Mathlib.Data.Finset.Lattice.Lemmas

/-!
Objects that calls create, use and delete. A call is allowed when the objects that it uses exist, and it
changes the objects only when it succeeds.
-/

namespace DeviceSample.Base

/-- What the calls of an interface do with objects. A call that deletes an object uses it too. -/
structure Lifecycle (κ ο : Type*) where
  uses : κ → List ο
  creates : κ → List ο
  deletes : κ → List ο

/-- A call that was made, and whether it succeeded. -/
structure Tried (κ : Type*) where
  call : κ
  succeeded : Bool
  deriving DecidableEq, Repr

namespace Lifecycle

variable {κ ο : Type*} [DecidableEq ο] (L : Lifecycle κ ο)

/-- The objects that exist after a call. -/
def effect (live : Finset ο) (t : Tried κ) : Finset ο :=
  if t.succeeded then live \ (L.deletes t.call).toFinset ∪ (L.creates t.call).toFinset else live

/-- Only objects that exist are used. -/
def protocol : Protocol (Finset ο) (Tried κ) where
  Allowed live t := ∀ object ∈ L.uses t.call, object ∈ live
  next live t := L.effect live t

instance (live : Finset ο) (t : Tried κ) : Decidable (L.protocol.Allowed live t) :=
  inferInstanceAs (Decidable (∀ object ∈ L.uses t.call, object ∈ live))

/-- The call neither creates nor deletes. -/
def Idle (call : κ) : Prop := L.creates call = [] ∧ L.deletes call = []

instance (call : κ) : Decidable (L.Idle call) := inferInstanceAs (Decidable (_ ∧ _))

variable {L} {live : Finset ο} {calls : List (Tried κ)} {object : ο}

theorem effect_idle {t : Tried κ} (h : L.Idle t.call) : L.effect live t = live := by
  rw [effect, h.1, h.2, List.toFinset_nil, Finset.sdiff_empty, Finset.union_empty, ite_self]

theorem after_idle (h : ∀ t ∈ calls, L.Idle t.call) : L.protocol.after live calls = live := by
  induction calls generalizing live with
  | nil => rfl
  | cons t calls ih =>
      obtain ⟨ht, hrest⟩ := List.forall_mem_cons.mp h
      have hnext : L.protocol.next live t = live := effect_idle ht
      rw [Protocol.after_cons, hnext, ih hrest]

/-- Calls that change nothing are allowed as soon as the objects exist that they use. -/
theorem obeys_idle (h : ∀ t ∈ calls, L.Idle t.call) (huses : ∀ t ∈ calls, ∀ object ∈ L.uses t.call, object ∈ live) :
    L.protocol.Obeys live calls := by
  induction calls generalizing live with
  | nil => trivial
  | cons t calls ih =>
      obtain ⟨ht, hrest⟩ := List.forall_mem_cons.mp h
      obtain ⟨hallowed, hothers⟩ := List.forall_mem_cons.mp huses
      have hnext : L.protocol.next live t = live := effect_idle ht
      rw [Protocol.obeys_cons, hnext]
      exact ⟨hallowed, ih hrest hothers⟩

/-- An object that is missing and never created goes on missing. -/
theorem notMem_after (hobject : object ∉ live) (h : ∀ t ∈ calls, object ∉ L.creates t.call) :
    object ∉ L.protocol.after live calls := by
  induction calls generalizing live with
  | nil => exact hobject
  | cons t calls ih =>
      obtain ⟨ht, hrest⟩ := List.forall_mem_cons.mp h
      refine ih ?_ hrest
      show object ∉ L.effect live t
      rw [effect]
      split
      · rw [Finset.mem_union, Finset.mem_sdiff, List.mem_toFinset, List.mem_toFinset, not_or]
        exact ⟨fun hin => hobject hin.1, ht⟩
      · exact hobject

/-- A record that uses an object which is missing and never created breaks the protocol. -/
theorem not_obeys_of_missing (hobject : object ∉ live) (h : ∀ t ∈ calls, object ∉ L.creates t.call)
    (huses : ∃ t ∈ calls, object ∈ L.uses t.call) : ¬L.protocol.Obeys live calls := by
  obtain ⟨t, hmem, hused⟩ := huses
  obtain ⟨first, second, rfl⟩ := List.append_of_mem hmem
  rw [Protocol.obeys_append]
  rintro ⟨-, hallowed, -⟩
  exact notMem_after hobject (fun t' ht' => h t' (List.mem_append_left _ ht')) (hallowed object hused)

end Lifecycle

end DeviceSample.Base
