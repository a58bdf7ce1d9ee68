import DeviceSample.AppFrames

/-!
Messages and the flags that announce them. Each arrival queues one message and sets one flag, but
flags coalesce: two messages that arrive before the flags are read share one, and one iteration
receives a single message. An action whose state is not yet `CONNECTED` also drops its flag. When
neither happens a queue holds no more messages than flags announce, so a queue without a flag is
empty.
-/

namespace DeviceSample.App
namespace Sample

variable {μ : Type*} (cfg : Config μ) (r : Replies) (s : Sample μ)

/-- Announcements of a kind that are still to be served: the pending flag, and the flag that the
running iteration has read and not yet tested. -/
def announced (kind : MessageKind) : Nat :=
  (if kind.event ∈ s.context.sampleEvents then 1 else 0) +
    match s.location with
    | .waiting => 0
    | .dispatching appEvents rest => if kind.event ∈ appEvents ∧ kind.event ∈ rest then 1 else 0

/-- Every queued message is announced by a flag of its own. -/
def Announced : Prop := ∀ kind, (s.fifo kind).length ≤ s.announced kind

/-- A step that serves each announcement: a message arrives while no flag of its kind is pending,
and an action that receives does so in `CONNECTED`, with success. -/
def Serves (s : Sample μ) : Label μ → Prop
  | .statusCallback _ => True
  | .arrive kind _ => kind.event ∉ s.context.sampleEvents
  | .loop r => ∀ (kind : MessageKind) (appEvents : Finset SampleEvent) (rest : List SampleEvent),
      s.location = .dispatching appEvents (kind.event :: rest) → kind.event ∈ appEvents →
        s.context.state = .connected ∧ r.receive = .success

/-! ### Runs -/

variable {s}

theorem announced_mono (s' : Sample μ) (kind : MessageKind) (hloc : s'.location = s.location)
    (hevents : s.context.sampleEvents ⊆ s'.context.sampleEvents) :
    s.announced kind ≤ s'.announced kind := by
  unfold announced
  rw [hloc]
  have hflag : (if kind.event ∈ s.context.sampleEvents then 1 else 0) ≤
      if kind.event ∈ s'.context.sampleEvents then 1 else 0 := by
    split_ifs with hold hnew
    · exact le_rfl
    · exact absurd (hevents hold) hnew
    · exact Nat.zero_le _
    · exact le_rfl
  omega

theorem sampleTriggerAction_fifo : (s.sampleTriggerAction cfg r).fifo = s.fifo ∧
    (s.sampleTriggerAction cfg r).location = s.location ∧
    s.context.sampleEvents ⊆ (s.sampleTriggerAction cfg r).context.sampleEvents := by
  unfold sampleTriggerAction
  split
  case h_3 =>
    split
    · exact ⟨rfl, rfl, (Finset.subset_insert _ _).trans (Finset.subset_insert _ _)⟩
    · exact ⟨rfl, rfl, subset_rfl⟩
  all_goals first
    | exact ⟨rfl, rfl, Finset.subset_insert _ _⟩
    | exact ⟨rfl, rfl, subset_rfl⟩

theorem sampleTriggerAction_announced (h : s.Announced) :
    (s.sampleTriggerAction cfg r).Announced := by
  intro kind
  obtain ⟨hfifo, hloc, hevents⟩ := sampleTriggerAction_fifo cfg r (s := s)
  rw [hfifo]
  exact (h kind).trans (announced_mono _ kind hloc hevents)

theorem arrive_announced (h : s.Announced) {kind : MessageKind} (message : μ)
    (hfree : kind.event ∉ s.context.sampleEvents) :
    (s.messageReceiveCallback kind message).Announced := by
  intro other
  by_cases heq : other = kind
  · -- the new message takes the flag that was free
    subst heq
    have hold := h other
    simp only [announced, hfree, if_false] at hold
    simp only [messageReceiveCallback, setEvent, announced, Function.update_self,
      List.length_append, List.length_singleton, Finset.mem_insert_self, if_true]
    omega
  · have hold := (h other).trans (announced_mono (s.messageReceiveCallback kind message) other
      rfl (Finset.subset_insert _ _))
    simpa [messageReceiveCallback, heq] using hold

/-- One test of the running iteration. Either its action receives the oldest message of its kind, or
it leaves no queue longer than before. -/
theorem dispatch_announced (h : s.Announced) {appEvents : Finset SampleEvent} {event : SampleEvent}
    {rest : List SampleEvent} (hloc : s.location = .dispatching appEvents (event :: rest))
    (hmem : event ∈ appEvents)
    (hserves : ∀ kind : MessageKind, kind.event = event →
      s.context.state = .connected ∧ r.receive = .success) :
    Announced { s.action cfg r event with location := .dispatching appEvents rest } := by
  intro kind
  have hold := h kind
  simp only [announced, hloc, List.mem_cons] at hold
  simp only [announced, action_sampleEvents]
  by_cases hkind : kind.event = event
  · subst hkind
    obtain ⟨hstate, hreceive⟩ := hserves kind rfl
    rw [receiving_fifo, if_pos hstate, pnpClientReceive_fifo, if_pos hreceive,
      Function.update_self, List.length_tail]
    simp only [hmem, true_or, and_self, if_true] at hold
    split_ifs at hold ⊢ <;> omega
  · have hother : ((s.action cfg r event).fifo kind).length ≤ (s.fifo kind).length := by
      by_cases hreceiving : ∃ other : MessageKind, other.event = event
      · obtain ⟨other, rfl⟩ := hreceiving
        have hne : kind ≠ other := fun heq => hkind (congrArg _ heq)
        rw [receiving_fifo, pnpClientReceive_fifo]
        split_ifs <;> simp [hne]
      · rcases action_fifo_of_ne cfg r s event (fun other heq => hreceiving ⟨other, heq⟩) with
          hkeep | hempty
        · rw [hkeep]
        · simp [hempty]
    simp only [hkind, false_or] at hold
    exact hother.trans hold

theorem step_announced (h : s.Announced) {label : Label μ} {next : Sample μ}
    (hserves : s.Serves label) (hstep : (machine cfg).step s label = some next) :
    next.Announced := by
  rcases step_cases hstep with ⟨status, -, -, rfl⟩ | ⟨kind, message, rfl, -, rfl⟩ |
    ⟨r, -, -, -, rfl | ⟨-, rfl⟩⟩ | ⟨r, -, hwait, rfl⟩ | ⟨r, appEvents, -, hloc, rfl⟩ |
    ⟨r, appEvents, event, rest, -, hloc, hmem, rfl⟩ |
    ⟨r, appEvents, event, rest, rfl, hloc, hmem, -, rfl⟩
  · intro kind
    unfold connectionStatusCallback
    split <;> exact (h kind).trans (announced_mono _ kind rfl (Finset.subset_insert _ _))
  · exact arrive_announced h message hserves
  · exact h
  · exact sampleTriggerAction_announced cfg r h
  · -- the flags move into the iteration, whose tests cover every kind
    intro kind
    have hold := h kind
    have htested : kind.event ∈ actionOrder := by cases kind <;> decide
    simp only [announced, hwait] at hold
    simp only [announced, htested, and_true, Finset.notMem_empty, if_false]
    omega
  · intro kind
    have hold := sampleTriggerAction_announced cfg r h kind
    simpa [announced, (sampleTriggerAction_fifo cfg r).2.1, hloc] using hold
  · intro kind
    have hold := h kind
    have hkind : kind.event ∈ appEvents → kind.event ≠ event := fun hin heq => hmem (heq ▸ hin)
    simp only [announced, hloc, List.mem_cons] at hold
    simp only [announced]
    split_ifs at hold ⊢ <;> first | omega | simp_all
  · exact dispatch_announced cfg r h hloc hmem fun kind hkind =>
      hserves kind appEvents rest (hkind ▸ hloc) (hkind ▸ hmem)

theorem announced_of_reachableUnder
    (h : (machine cfg).ReachableUnder (fun s label => s.Serves label) s) : s.Announced := by
  refine h.invariant (machine cfg) Announced (fun kind => Nat.zero_le _) ?_
  intro s label next _ hannounced hserves hstep
  exact step_announced cfg hannounced hserves hstep

/-- In every run that serves each announcement, a loop that waits without the flag of a kind has no
message of that kind left. -/
theorem no_message_lost (h : (machine cfg).ReachableUnder (fun s label => s.Serves label) s)
    (hwait : s.location = .waiting) {kind : MessageKind}
    (hflag : kind.event ∉ s.context.sampleEvents) : s.fifo kind = [] := by
  have hle := announced_of_reachableUnder cfg h kind
  simp only [announced, hwait, hflag, if_false] at hle
  exact List.length_eq_zero_iff.mp (by omega)

/-- One command arrives in `CONNECTED` and is received by the next iteration. -/
theorem no_message_lost_on : ∃ s : Sample Nat, s.context.state = .connected ∧
    s.handled = [(.command, 7)] ∧ s.fifo .command = [] := by
  have hcheck : ∀ (s : Sample Nat) (label : Label Nat),
      (match label with
        | .arrive kind _ => decide (kind.event ∉ s.context.sampleEvents)
        | .loop r => decide (r.receive = .success) && match s.location with
          | .dispatching appEvents _ => decide (s.context.state = .connected) ||
              [MessageKind.properties, .command, .desiredProperties].all
                fun kind => decide (kind.event ∉ appEvents)
          | .waiting => true
        | .statusCallback _ => true) = true → s.Serves label := by
    intro s label h
    cases label with
    | statusCallback status => trivial
    | arrive kind message => simpa only [Serves, decide_eq_true_eq] using h
    | loop r =>
        intro kind appEvents rest hloc hmem
        simp only [hloc, Bool.and_eq_true, Bool.or_eq_true, decide_eq_true_eq] at h
        refine ⟨h.2.resolve_right fun hnone => ?_, h.1⟩
        cases kind <;> simp_all
  obtain ⟨s, hs, htest⟩ := (machine Config.sample).exists_reachable_of_run hcheck
    (iteration ++ iteration ++ .arrive .command 7 :: iteration)
    (fun s => decide (s.location = .waiting) && decide (s.context.state = .connected) &&
      decide (MessageKind.command.event ∉ s.context.sampleEvents) &&
      decide (s.handled = [(.command, 7)])) (by decide)
  simp only [Bool.and_eq_true, decide_eq_true_eq] at htest
  obtain ⟨⟨⟨hwait, hstate⟩, hflag⟩, hhandled⟩ := htest
  exact ⟨s, hstate, hhandled, no_message_lost _ hs hwait hflag⟩

/-- Two commands arrive in `CONNECTED` before the flags are read: they share one flag, and the
second is left in its queue. -/
theorem second_command_left :
    ∃ s : Sample Nat, (machine Config.sample).Reachable s ∧ s.location = .waiting ∧
      s.context.state = .connected ∧ MessageKind.command.event ∉ s.context.sampleEvents ∧
      s.fifo .command = [8] := by
  obtain ⟨s, hs, htest⟩ := (machine Config.sample).exists_reachable
    (iteration ++ iteration ++ .arrive .command 7 :: .arrive .command 8 :: iteration)
    (fun s => decide (s.location = .waiting) && decide (s.context.state = .connected) &&
      decide (MessageKind.command.event ∉ s.context.sampleEvents) &&
      decide (s.fifo .command = [8])) (by decide)
  simp only [Bool.and_eq_true, decide_eq_true_eq] at htest
  obtain ⟨⟨⟨hwait, hstate⟩, hflag⟩, hfifo⟩ := htest
  exact ⟨s, hs, hwait, hstate, hflag, hfifo⟩

end Sample
end DeviceSample.App
