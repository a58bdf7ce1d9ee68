import DeviceSample.BaseRun
import Mathlib.Data.BitVec
import Mathlib.Data.Fintype.Defs

/-!
The event thread of the NX client. The middleware appends a message to the queue of its kind and sets
the flag of the kind; the thread takes all flags at once into a local word and serves each kind whose
bit is set with one receive that waits forever. The local word has no initial value, and a wait that
times out leaves it as it is.
-/

namespace DeviceSample.NxEvents

open Base

/-- The kinds of messages, in the order in which the thread serves them. -/
inductive Kind
  | directMethod
  | deviceTwinGet
  | deviceTwinDesiredProperty
  deriving DecidableEq, Repr

instance : Fintype Kind where
  elems := {.directMethod, .deviceTwinGet, .deviceTwinDesiredProperty}
  complete kind := by cases kind <;> decide

/-- `DIRECT_METHOD_EVENT`, `DEVICE_TWIN_GET_EVENT`, `DEVICE_TWIN_DESIRED_PROPERTY_EVENT`. -/
def Kind.event : Kind → BitVec 32
  | .directMethod => 0x01
  | .deviceTwinGet => 0x02
  | .deviceTwinDesiredProperty => 0x04

/-- The bit of the event. -/
def Kind.bit : Kind → Nat
  | .directMethod => 0
  | .deviceTwinGet => 1
  | .deviceTwinDesiredProperty => 2

/-- `ALL_EVENTS`. -/
def allEvents : BitVec 32 := 0xff

/-- A word of events has the event of the kind. -/
def has (word : BitVec 32) (kind : Kind) : Bool := word &&& kind.event ≠ 0

theorem has_eq (word : BitVec 32) (kind : Kind) : has word kind = word.getLsbD kind.bit := by
  have hevent : kind.event = BitVec.twoPow 32 kind.bit := by cases kind <;> decide
  have hne : BitVec.twoPow 32 kind.bit ≠ 0 := by cases kind <;> decide
  rw [has, hevent, BitVec.and_twoPow]
  cases hbit : word.getLsbD kind.bit with
  | true => exact decide_eq_true hne
  | false => rfl

theorem has_or (word : BitVec 32) (kind other : Kind) :
    has (word ||| kind.event) other = (has word other || decide (kind = other)) := by
  rw [has_eq, has_eq, BitVec.getLsbD_or]
  cases kind <;> cases other <;> rfl

theorem has_clear (word : BitVec 32) (kind : Kind) : has (word &&& ~~~allEvents) kind = false := by
  rw [has_eq, BitVec.getLsbD_and]
  cases kind <;> simp [allEvents, Kind.bit]

theorem has_zero (kind : Kind) : has 0 kind = false := by cases kind <;> decide

/-- Where the thread stands. -/
inductive Location
  | waiting
  | testing (kind : Kind)
  | receiving (kind : Kind)
  deriving DecidableEq, Repr

/-- The event flags, the queues, the local `app_events`, and where the thread stands. -/
structure State (α : Type) where
  flags : BitVec 32
  fifo : Kind → List α
  appEvents : BitVec 32
  location : Location

/-- A message arrives, the wait of the thread returns with the flags or times out, or the thread goes
on. -/
inductive Label (α : Type)
  | arrival (kind : Kind) (message : α)
  | wake
  | timeout
  | thread
  deriving DecidableEq, Repr

namespace State

variable {α : Type}

/-- `message_receive_*`, behind the middleware that keeps the message. -/
def arrive (s : State α) (kind : Kind) (message : α) : State α :=
  { s with
    fifo := fun k => if k = kind then s.fifo k ++ [message] else s.fifo k
    flags := s.flags ||| kind.event }

/-- What follows the branch of a kind; the last one ends the iteration. -/
def behind (s : State α) : Kind → State α
  | .directMethod => { s with location := .testing .deviceTwinGet }
  | .deviceTwinGet => { s with location := .testing .deviceTwinDesiredProperty }
  | .deviceTwinDesiredProperty => { s with location := .waiting, appEvents := 0 }

/-- A step of `event_thread` behind its wait; a receive from an empty queue has none. -/
def threadStep (s : State α) : Option (State α) :=
  match s.location with
  | .waiting => none
  | .testing kind =>
      if has s.appEvents kind then some { s with location := .receiving kind } else some (s.behind kind)
  | .receiving kind =>
      match s.fifo kind with
      | [] => none
      | _ :: rest =>
          some ({ s with fifo := fun k => if k = kind then rest else s.fifo k }.behind kind)

/-- One step of the system. -/
def step (s : State α) : Label α → Option (State α)
  | .arrival kind message => some (s.arrive kind message)
  | .wake =>
      if s.location = .waiting ∧ s.flags &&& allEvents ≠ 0 then
        some { s with
          appEvents := s.flags, flags := s.flags &&& ~~~allEvents, location := .testing .directMethod }
      else none
  | .timeout =>
      if s.location = .waiting ∧ s.flags &&& allEvents = 0 then
        some { s with location := .testing .directMethod }
      else none
  | .thread => s.threadStep

end State

/-- The system from any content of `app_events`. -/
def machine (α : Type) (appEvents : BitVec 32) : Machine (State α) (Label α) where
  start := { flags := 0, fifo := fun _ => [], appEvents := appEvents, location := .waiting }
  step := State.step

namespace State

variable {α : Type}

/-- A branch is entered only with a message in its queue, and a wait without a flag has none. -/
structure NoneLost (s : State α) : Prop where
  entered : ∀ kind, s.location = .receiving kind → s.fifo kind ≠ []
  waited : s.location = .waiting → ∀ kind, has s.flags kind = false → s.fifo kind = []

/-- A message arrives only while the flag of its kind is clear, and a wait times out only with a local
word that has none of the events. -/
def InTime (s : State α) : Label α → Prop
  | .arrival kind _ => has s.flags kind = false
  | .timeout => ∀ kind, has s.appEvents kind = false
  | .wake => True
  | .thread => True

instance (s : State α) (label : Label α) : Decidable (s.InTime label) :=
  match label with
  | .arrival kind _ => inferInstanceAs (Decidable (has s.flags kind = false))
  | .timeout => inferInstanceAs (Decidable (∀ kind, has s.appEvents kind = false))
  | .wake => isTrue trivial
  | .thread => isTrue trivial

/-- The branch of the kind is still to come in this iteration. -/
def ahead (s : State α) (kind : Kind) : Bool :=
  match s.location with
  | .waiting => false
  | .testing current => current.bit ≤ kind.bit
  | .receiving current => current.bit ≤ kind.bit

/-- Each queue holds one message for its flag and one for its bit in the local word, when these are
set; and the thread receives for a bit that is set. -/
structure Counted (s : State α) : Prop where
  length_eq : ∀ kind, (s.fifo kind).length =
    (has s.flags kind).toNat + (s.ahead kind && has s.appEvents kind).toNat
  bit_set : ∀ kind, s.location = .receiving kind → has s.appEvents kind = true

variable {s s' : State α}

theorem Counted.noneLost (h : s.Counted) : s.NoneLost where
  entered kind hloc hempty := by
    have hlength := h.length_eq kind
    have hahead : s.ahead kind = true := by
      rw [ahead, hloc]
      exact decide_eq_true (Nat.le_refl _)
    rw [hempty, hahead, h.bit_set kind hloc, List.length_nil, Bool.and_self, Bool.toNat_true] at hlength
    omega
  waited hloc kind hflag := by
    have hlength := h.length_eq kind
    have hahead : s.ahead kind = false := by rw [ahead, hloc]
    rw [hflag, hahead, Bool.false_and] at hlength
    exact List.length_eq_zero_iff.mp hlength

/-- The end of a branch whose message, if its bit was set, has been taken. -/
theorem behind_counted (kind : Kind)
    (hlength : ∀ k, (s.fifo k).length =
      (has s.flags k).toNat + (decide (kind.bit < k.bit) && has s.appEvents k).toNat) :
    (s.behind kind).Counted := by
  cases kind with
  | directMethod => exact ⟨fun k => hlength k, fun k hloc => nomatch hloc⟩
  | deviceTwinGet => exact ⟨fun k => hlength k, fun k hloc => nomatch hloc⟩
  | deviceTwinDesiredProperty =>
      refine ⟨fun k => ?_, fun k hloc => nomatch hloc⟩
      have hlast : decide (Kind.deviceTwinDesiredProperty.bit < k.bit) = false := by cases k <;> rfl
      have hk := hlength k
      rw [hlast, Bool.false_and] at hk
      exact hk

theorem arrive_counted {kind : Kind} (message : α) (h : s.Counted) (hflag : has s.flags kind = false) :
    (s.arrive kind message).Counted where
  length_eq k := by
    show (if k = kind then s.fifo k ++ [message] else s.fifo k).length =
      (has (s.flags ||| kind.event) k).toNat + (s.ahead k && has s.appEvents k).toNat
    have hlength := h.length_eq k
    rw [has_or]
    by_cases hk : k = kind
    · rw [hk, hflag, Bool.toNat_false] at hlength
      rw [hk, if_pos rfl, decide_eq_true rfl, Bool.or_true, Bool.toNat_true, List.length_append,
        List.length_singleton]
      omega
    · rw [if_neg hk, hlength, decide_eq_false fun heq => hk heq.symm, Bool.or_false]
  bit_set := h.bit_set

theorem wake_counted (h : s.Counted) (hloc : s.location = .waiting) : Counted
    { s with
      appEvents := s.flags, flags := s.flags &&& ~~~allEvents, location := .testing .directMethod } where
  length_eq k := by
    have hlength := h.length_eq k
    have hahead : s.ahead k = false := by rw [ahead, hloc]
    have hfirst : decide (Kind.directMethod.bit ≤ k.bit) = true := by cases k <;> rfl
    rw [hahead, Bool.false_and, Bool.toNat_false, Nat.add_zero] at hlength
    show (s.fifo k).length = (has (s.flags &&& ~~~allEvents) k).toNat +
      (decide (Kind.directMethod.bit ≤ k.bit) && has s.flags k).toNat
    rw [has_clear, hfirst, Bool.true_and, Bool.toNat_false, Nat.zero_add, hlength]
  bit_set k hreceiving := nomatch hreceiving

theorem timeout_counted (h : s.Counted)
    (hbits : ∀ kind, has s.appEvents kind = false) :
    Counted { s with location := .testing .directMethod } where
  length_eq k := by
    have hlength := h.length_eq k
    rw [hbits, Bool.and_false] at hlength
    show (s.fifo k).length = (has s.flags k).toNat +
      (decide (Kind.directMethod.bit ≤ k.bit) && has s.appEvents k).toNat
    rw [hbits, Bool.and_false, hlength]
  bit_set k hreceiving := nomatch hreceiving

/-- A kind that is no longer ahead when one branch is done. -/
theorem ahead_succ (kind k : Kind) (hk : k ≠ kind) :
    decide (kind.bit ≤ k.bit) = decide (kind.bit < k.bit) := by
  revert hk
  cases kind <;> cases k <;> decide

theorem threadStep_counted (h : s.Counted) (hstep : s.threadStep = some s') : s'.Counted := by
  rw [threadStep] at hstep
  cases hloc : s.location with
  | waiting =>
      rw [hloc] at hstep
      cases hstep
  | testing kind =>
      rw [hloc] at hstep
      have hahead : ∀ k, s.ahead k = decide (kind.bit ≤ k.bit) := fun k => by rw [ahead, hloc]
      by_cases hbit : has s.appEvents kind = true
      · cases (if_pos hbit).symm.trans hstep
        refine ⟨fun k => ?_, fun k hreceiving => ?_⟩
        · rw [h.length_eq k, hahead]
          rfl
        · cases hreceiving
          exact hbit
      · cases (if_neg hbit).symm.trans hstep
        refine behind_counted kind fun k => ?_
        rw [h.length_eq k, hahead]
        by_cases hk : k = kind
        · rw [hk, eq_false_of_ne_true hbit, Bool.and_false, Bool.and_false]
        · rw [ahead_succ kind k hk]
  | receiving kind =>
      rw [hloc] at hstep
      have hahead : ∀ k, s.ahead k = decide (kind.bit ≤ k.bit) := fun k => by rw [ahead, hloc]
      cases hfifo : s.fifo kind with
      | nil =>
          simp only [hfifo] at hstep
          cases hstep
      | cons message rest =>
          simp only [hfifo, Option.some.injEq] at hstep
          rw [← hstep]
          refine behind_counted kind fun k => ?_
          have hlength := h.length_eq k
          rw [hahead] at hlength
          show (if k = kind then rest else s.fifo k).length = (has s.flags k).toNat +
            (decide (kind.bit < k.bit) && has s.appEvents k).toNat
          by_cases hk : k = kind
          · rw [hk, hfifo, h.bit_set kind hloc, decide_eq_true (Nat.le_refl _), Bool.and_self,
              Bool.toNat_true, List.length_cons] at hlength
            rw [hk, if_pos rfl, decide_eq_false (Nat.lt_irrefl _), Bool.false_and, Bool.toNat_false]
            omega
          · rw [if_neg hk, hlength, ahead_succ kind k hk]

theorem step_counted {label : Label α} (h : s.Counted) (hok : s.InTime label)
    (hstep : s.step label = some s') : s'.Counted := by
  cases label with
  | arrival kind message =>
      cases hstep
      exact arrive_counted message h hok
  | wake =>
      rw [step, Option.ite_none_right_eq_some] at hstep
      cases hstep.2
      exact wake_counted h hstep.1.1
  | timeout =>
      rw [step, Option.ite_none_right_eq_some] at hstep
      cases hstep.2
      exact timeout_counted h hok
  | thread => exact threadStep_counted h hstep

/-- **No message is lost or invented** in a run whose arrivals and timeouts are in time, from any
content of the local word. -/
theorem none_lost {appEvents : BitVec 32} (h : (machine α appEvents).ReachableUnder InTime s) :
    s.NoneLost := by
  refine Counted.noneLost (h.invariant (machine α appEvents) Counted ?_ ?_)
  · refine ⟨fun kind => ?_, fun kind hloc => nomatch hloc⟩
    show 0 = (has 0 kind).toNat + (false && has appEvents kind).toNat
    rw [has_zero, Bool.false_and]
    rfl
  · exact fun s label next _ hcounted hok hstep => step_counted hcounted hok hstep

/-- A command that arrives is being received, and a second one of its kind waits with its flag. -/
theorem none_lost_on : ∃ s : State Nat, s.location = .receiving .directMethod ∧
    s.fifo .directMethod = [7, 8] ∧ s.NoneLost := by
  obtain ⟨s, hs, htest⟩ := (machine Nat 0).exists_reachable_of_run
    (fun s label => of_decide_eq_true (p := s.InTime label))
    [.timeout, .thread, .thread, .thread, .arrival .directMethod 7, .wake, .arrival .directMethod 8,
      .thread]
    (fun s => decide (s.location = .receiving .directMethod) &&
      decide (s.fifo .directMethod = [7, 8])) (by decide)
  rw [Bool.and_eq_true, decide_eq_true_eq, decide_eq_true_eq] at htest
  exact ⟨s, htest.1, htest.2, none_lost hs⟩

/-- A first wait that times out over a word with a bit enters a branch without a message; two arrivals
before one wake-up leave a message behind. -/
theorem message_invented_and_lost :
    (¬∀ s : State Nat, (machine Nat 1).Reachable s → s.NoneLost) ∧
      ¬∀ s : State Nat, (machine Nat 0).Reachable s → s.NoneLost := by
  constructor
  · intro h
    obtain ⟨s, hs, htest⟩ := (machine Nat 1).exists_reachable [.timeout, .thread]
      (fun s => decide (s.location = .receiving .directMethod) && decide (s.fifo .directMethod = []))
      (by decide)
    rw [Bool.and_eq_true, decide_eq_true_eq, decide_eq_true_eq] at htest
    exact (h s hs).entered .directMethod htest.1 htest.2
  · intro h
    obtain ⟨s, hs, htest⟩ := (machine Nat 0).exists_reachable
      [.arrival .directMethod 7, .arrival .directMethod 8, .wake, .thread, .thread, .thread, .thread]
      (fun s => decide (s.location = .waiting) && !has s.flags .directMethod &&
        decide (s.fifo .directMethod = [8])) (by decide)
    rw [Bool.and_eq_true, Bool.and_eq_true, decide_eq_true_eq, decide_eq_true_eq,
      Bool.not_eq_true'] at htest
    have hempty := (h s hs).waited htest.1.1 .directMethod htest.1.2
    rw [hempty] at htest
    exact absurd htest.2 (by decide)

end State

end DeviceSample.NxEvents
