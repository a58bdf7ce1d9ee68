import DeviceSample.AppFrames
import DeviceSample.AppTypestate

/-!
Leaving `DISCONNECTED`. The recovery reads `sample_connection_status`, which the library writes
independently of the state. It leaves `DISCONNECTED` in every run in which no disconnect action acts
while the last reported status is success; one that does traps the application, which then spins on
`SAMPLE_RECONNECT_EVENT` until the library reports a failure.
-/

namespace DeviceSample.App
namespace Sample

variable {μ : Type*} (cfg : Config μ) (r : Replies) (s : Sample μ)

/-- `DISCONNECTED` with a status that makes the recovery print "already connected". -/
def Trapped (s : Sample μ) : Prop :=
  s.context.state = .disconnected ∧ s.sampleConnectionStatus = .success

/-- The disconnect action is about to act while the last reported status is success. -/
def DisconnectsReported (s : Sample μ) : Label μ → Prop
  | .loop _ => (∃ appEvents rest, s.location = .dispatching appEvents (.disconnect :: rest) ∧
      .disconnect ∈ appEvents) ∧
      (s.context.state = .connected ∨ s.context.state = .connecting) ∧
      s.sampleConnectionStatus = .success
  | _ => False

theorem sampleTriggerAction_trapped : (s.sampleTriggerAction cfg r).Trapped ↔ s.Trapped := by
  rw [Trapped, sampleTriggerAction_state, sampleTriggerAction_status, Trapped]

/-! ### What an action does to the state and to the status -/

/-- An action keeps the state and the status, or leads out of `DISCONNECTED`, or is one of the two
that lead into it: a connect action that failed, with the status of its failure, and a disconnect
action in `CONNECTED` or `CONNECTING`, which keeps the status. -/
theorem action_cases (event : SampleEvent) :
    ((s.action cfg r event).context.state = s.context.state ∧
      (s.action cfg r event).sampleConnectionStatus = s.sampleConnectionStatus) ∨
    (s.action cfg r event).context.state ≠ .disconnected ∨
    (s.action cfg r event).sampleConnectionStatus ≠ .success ∨
    (event = .disconnect ∧ (s.context.state = .connected ∨ s.context.state = .connecting) ∧
      (s.action cfg r event).sampleConnectionStatus = s.sampleConnectionStatus) := by
  cases event with
  | connect =>
      simp only [action, sampleConnectAction]
      split_ifs with hstate hconnecting hfail
      · exact .inl ⟨rfl, rfl⟩
      · exact .inr (.inl (by simp))
      · exact .inr (.inr (.inl hfail))
      · exact .inr (.inl (by simp [pnpClientPropertiesRequest]))
  | initialization =>
      obtain ⟨hstate | hstate, -, -, hstatus, -⟩ := sampleInitializeIothub_frame cfg r s
      · exact .inl ⟨hstate, hstatus⟩
      · exact .inr (.inl (by simp [action, hstate]))
  | devicePropertiesGet =>
      obtain ⟨_, _, _, heq⟩ := receivePropertiesAction_frame r s .properties
      simp only [action, sampleDevicePropertiesGetAction, heq, true_and, true_or]
  | commandMessage =>
      obtain ⟨_, _, _, _, heq, -⟩ := sampleCommandAction_frame cfg r s
      simp only [action, heq, true_and, true_or]
  | deviceDesiredProperties =>
      obtain ⟨_, _, _, heq⟩ := receivePropertiesAction_frame r s .desiredProperties
      simp only [action, sampleDeviceDesiredPropertyAction, heq, true_and, true_or]
  | telemetrySend =>
      simp only [action, sampleTelemetryAction]
      split <;> exact .inl ⟨rfl, rfl⟩
  | deviceReportedProperties =>
      obtain ⟨_, _, heq, -⟩ := sampleDeviceReportedPropertyAction_frame r s
      simp only [action, heq, true_and, true_or]
  | disconnect =>
      simp only [action, sampleDisconnectAction]
      split_ifs with hstate
      · exact .inl ⟨rfl, rfl⟩
      · refine .inr (.inr (.inr ⟨trivial, ?_, rfl⟩))
        by_contra hnone
        exact hstate ⟨fun h => hnone (.inl h), fun h => hnone (.inr h)⟩
  | connected =>
      simp only [action, sampleConnectedAction]
      split
      · exact .inl ⟨rfl, rfl⟩
      · exact .inr (.inl (by simp [pnpClientPropertiesRequest]))
  | reconnect =>
      simp only [action, sampleConnectionErrorRecover]
      split
      · exact .inl ⟨rfl, rfl⟩
      · split
        · exact .inl ⟨rfl, rfl⟩
        all_goals exact .inr (.inl (by simp))

/-! ### Runs -/

variable {s}

/-- What brings a state that is not trapped to a trapped one: a disconnect action acting while the
last reported status is success. -/
theorem step_trapped (htyped : s.Typed) (h : ¬s.Trapped) {label : Label μ} {next : Sample μ}
    (hgood : ¬s.DisconnectsReported label) (hstep : (machine cfg).step s label = some next) :
    ¬next.Trapped := by
  rcases step_cases hstep with ⟨status, -, hattempt, rfl⟩ | ⟨kind, message, -, -, rfl⟩ |
    ⟨r, -, -, -, rfl | ⟨-, rfl⟩⟩ | ⟨r, -, -, rfl⟩ | ⟨r, appEvents, -, -, rfl⟩ |
    ⟨r, appEvents, event, rest, -, -, -, rfl⟩ |
    ⟨r, appEvents, event, rest, hlabel, hloc, hmem, -, rfl⟩
  · -- success is only reported for an attempt, so never in `DISCONNECTED`
    intro htrap
    unfold connectionStatusCallback at htrap
    split at htrap
    · rename_i hfail
      exact hfail htrap.2
    · rename_i hsuccess
      have hstate : s.context.state = .disconnected := htrap.1
      rcases htyped.fits.of_attempted (hattempt (by simpa using hsuccess)) with hs | hs <;>
        rw [hs] at hstate <;> cases hstate
  · exact h
  · exact h
  · intro htrap
    exact h ((sampleTriggerAction_trapped cfg r s).1 htrap)
  · exact h
  · intro htrap
    exact h ((sampleTriggerAction_trapped cfg r s).1 htrap)
  · exact h
  · intro htrap
    rcases action_cases cfg r s event with ⟨hstate, hstatus⟩ | hleft |
      hfail | ⟨hdisconnect, hstate, hstatus⟩
    · exact h ⟨hstate ▸ htrap.1, hstatus ▸ htrap.2⟩
    · exact hleft htrap.1
    · exact hfail htrap.2
    · subst hdisconnect hlabel
      exact hgood ⟨⟨appEvents, rest, hloc, hmem⟩, hstate, hstatus ▸ htrap.2⟩

theorem not_trapped_of_reachableUnder
    (h : (machine cfg).ReachableUnder (fun s label => ¬s.DisconnectsReported label) s) :
    ¬s.Trapped := by
  refine h.invariant _ (fun s => ¬s.Trapped) ?_ ?_
  · rintro ⟨hstate, -⟩
    cases hstate
  · intro s label next hs hnot hgood hstep
    exact step_trapped cfg (typed_of_reachable cfg (hs.reachable _)) hnot hgood hstep

theorem recover_leaves_of_not_trapped (hnot : ¬s.Trapped)
    (hstate : s.context.state = .disconnected) :
    (s.sampleConnectionErrorRecover cfg r).context.state = .connect ∨
      (s.sampleConnectionErrorRecover cfg r).context.state = .init := by
  have hstatus : s.sampleConnectionStatus ≠ .success := fun h => hnot ⟨hstate, h⟩
  unfold sampleConnectionErrorRecover
  rw [if_neg (by simp [hstate])]
  split
  · rename_i heq
    exact absurd heq hstatus
  · exact .inr rfl
  · exact .inr rfl
  · exact .inr rfl
  · exact .inl rfl

/-- In every run whose disconnect actions find a failure reported, the recovery leaves
`DISCONNECTED`, and no state of the run pairs it with a successful status. -/
theorem recover_leaves_disconnected
    (h : (machine cfg).ReachableUnder (fun s label => ¬s.DisconnectsReported label) s)
    (hstate : s.context.state = .disconnected) :
    s.sampleConnectionStatus ≠ .success ∧ ∀ r,
      (s.action cfg r .reconnect).context.state = .connect ∨
        (s.action cfg r .reconnect).context.state = .init :=
  ⟨fun hstatus => not_trapped_of_reachableUnder cfg h ⟨hstate, hstatus⟩,
    fun r => recover_leaves_of_not_trapped cfg r (not_trapped_of_reachableUnder cfg h) hstate⟩

theorem recover_leaves_disconnected_on :
    ∃ s : Sample Nat, s.context.state = .disconnected ∧
      ((s.action Config.sample .succeed .reconnect).context.state = .connect ∨
        (s.action Config.sample .succeed .reconnect).context.state = .init) := by
  have hcheck : ∀ (s : Sample Nat) (label : Label Nat),
      decide (s.sampleConnectionStatus ≠ .success) = true → ¬s.DisconnectsReported label := by
    intro s label hstatus hbad
    cases label with
    | loop r => exact of_decide_eq_true hstatus hbad.2.2
    | _ => exact hbad
  obtain ⟨s, hs, htest⟩ := (machine Config.sample).exists_reachable_of_run hcheck
    (iteration ++ .loop .succeed :: .loop { Replies.succeed with connect := .dnsQueryFailed } ::
      moves 10)
    (fun s => decide (s.context.state = .disconnected)) (by decide)
  have hstate : s.context.state = .disconnected := by simpa using htest
  exact ⟨s, hstate, (recover_leaves_disconnected _ hs hstate).2 _⟩

/-! ### The trap -/

/-- A disconnect action that acts while the last reported status is success springs the trap. -/
theorem disconnectsReported_traps {label : Label μ} {next : Sample μ}
    (hbad : s.DisconnectsReported label) (hstep : (machine cfg).step s label = some next) :
    next.Trapped := by
  rcases step_cases hstep with ⟨status, rfl, -⟩ | ⟨kind, message, rfl, -⟩ | ⟨r, rfl, hwait, -⟩ |
    ⟨r, rfl, hwait, -⟩ | ⟨r, appEvents, rfl, hdone, -⟩ |
    ⟨r, appEvents, event, rest, rfl, hloc, hnot, -⟩ |
    ⟨r, appEvents, event, rest, rfl, hloc, -, -, rfl⟩
  · exact hbad.elim
  · exact hbad.elim
  all_goals obtain ⟨⟨appEvents', rest', hloc', hmem⟩, hstate, hstatus⟩ := hbad
  · rw [hwait] at hloc'
    cases hloc'
  · rw [hwait] at hloc'
    cases hloc'
  · rw [hdone] at hloc'
    cases hloc'
  · rw [hloc] at hloc'
    cases hloc'
    exact absurd hmem hnot
  · rw [hloc] at hloc'
    cases hloc'
    have hacts : ¬(s.context.state ≠ .connected ∧ s.context.state ≠ .connecting) := by
      rintro ⟨hne, hne'⟩
      rcases hstate with hs | hs
      · exact hne hs
      · exact hne' hs
    simp only [action, sampleDisconnectAction, if_neg hacts]
    exact ⟨rfl, hstatus⟩

/-- In a trapped state no action changes the state or the status, the recovery included. -/
theorem action_trapped (h : s.Trapped) (event : SampleEvent) :
    (s.action cfg r event).Trapped := by
  obtain ⟨hstate, hstatus⟩ := h
  cases event <;>
    simp [action, sampleConnectAction, sampleInitializeIothub, sampleDevicePropertiesGetAction,
      sampleDeviceDesiredPropertyAction, receivePropertiesAction, sampleCommandAction,
      sampleTelemetryAction, sampleDeviceReportedPropertyAction, sampleDisconnectAction,
      sampleConnectedAction, sampleConnectionErrorRecover, Trapped, hstate, hstatus]

/-- The trap holds, through any number of iterations, until the library reports a failure. -/
theorem step_keeps_trapped (h : s.Trapped) {label : Label μ} {next : Sample μ}
    (hquiet : ∀ status, label = .statusCallback status → status = .success)
    (hstep : (machine cfg).step s label = some next) : next.Trapped := by
  rcases step_cases hstep with ⟨status, hlabel, -, rfl⟩ | ⟨kind, message, -, -, rfl⟩ |
    ⟨r, -, -, -, rfl | ⟨-, rfl⟩⟩ | ⟨r, -, -, rfl⟩ | ⟨r, appEvents, -, -, rfl⟩ |
    ⟨r, appEvents, event, rest, -, -, -, rfl⟩ | ⟨r, appEvents, event, rest, -, -, -, -, rfl⟩
  · rw [hquiet status hlabel]
    exact ⟨h.1, rfl⟩
  · exact h
  · exact h
  · exact (sampleTriggerAction_trapped cfg r s).2 h
  · exact h
  · exact (sampleTriggerAction_trapped cfg r s).2 h
  · exact h
  · exact action_trapped cfg r h event

/-- A failure is reported for the first attempt, and again while the application recovers from it.
The second attempt is reported as successful before the flag of that second report is tested. -/
def trappingRun : List (Label Nat) :=
  iteration ++ .loop .succeed :: .loop { Replies.succeed with connect := .connecting } :: moves 10 ++
    .statusCallback .notConnected :: iteration ++ moves 1 ++
    .statusCallback .notConnected :: moves 11 ++
    .loop .succeed :: .loop { Replies.succeed with connect := .connecting } ::
    .statusCallback .success :: moves 10

theorem disconnected_trap :
    ∃ s : Sample Nat, (machine Config.sample).Reachable s ∧ s.location = .waiting ∧
      s.context.state = .disconnected ∧ s.sampleConnectionStatus = .success ∧
      ∀ r, (s.action Config.sample r .reconnect).context.state = .disconnected := by
  obtain ⟨s, hs, htest⟩ := (machine Config.sample).exists_reachable trappingRun
    (fun s => decide (s.location = .waiting) && decide (s.context.state = .disconnected) &&
      decide (s.sampleConnectionStatus = .success)) (by decide)
  simp only [Bool.and_eq_true, decide_eq_true_eq] at htest
  obtain ⟨⟨hwait, hstate⟩, hstatus⟩ := htest
  exact ⟨s, hs, hwait, hstate, hstatus,
    fun r => (action_trapped Config.sample r ⟨hstate, hstatus⟩ .reconnect).1⟩

end Sample
end DeviceSample.App
