import DeviceSample.AppLoop

/-!
What the actions leave alone. Only the connecting, disconnecting, initialising and recovering actions
change the state of the application; no action sets a flag; the receiving actions take at most the
oldest message of their own queue.
-/

namespace DeviceSample.App
namespace Sample

variable {μ : Type*} (cfg : Config μ) (r : Replies) (s : Sample μ)

/-! ### Initialising -/

/-- What initialising changes: the state, if at all, to `CONNECT`; the queues, if at all, to empty
ones; no flag, not the connection status and not the LED. -/
def InitializeFrame (s s' : Sample μ) : Prop :=
  (s'.context.state = s.context.state ∨ s'.context.state = .connect) ∧
    s'.context.sampleEvents = s.context.sampleEvents ∧
    (s'.fifo = s.fifo ∨ s'.fifo = fun _ => []) ∧
    s'.sampleConnectionStatus = s.sampleConnectionStatus ∧ s'.device = s.device

theorem sampleDpsEntry_frame :
    ∃ client calls, (s.sampleDpsEntry cfg r).2 = { s with client := client, calls := calls } := by
  unfold sampleDpsEntry
  split
  · exact ⟨_, _, rfl⟩
  · obtain ⟨calls, heq, -⟩ := ((s.record .provisioningInitialize).setClient
      .provisioning).elseIfChain_frame .provisioning r.provisioning (provisioningSteps cfg)
    simp only [heq]
    exact ⟨_, _, rfl⟩

theorem initializePnpClient_frame : InitializeFrame s (s.initializePnpClient cfg r) := by
  unfold initializePnpClient
  split
  · exact ⟨.inl rfl, rfl, .inl rfl, rfl, rfl⟩
  · obtain ⟨calls, heq, -⟩ := (s.record .clientInitialize).freshPnpClient.elseIfChain_frame .setup
      r.setup (setupSteps cfg)
    simp only [heq]
    split_ifs with hsuccess hfail
    · exact absurd hsuccess hfail
    · exact ⟨.inr rfl, rfl, .inr rfl, rfl, rfl⟩
    · exact ⟨.inl rfl, rfl, .inr rfl, rfl, rfl⟩

theorem sampleInitializeIothub_frame : InitializeFrame s (s.sampleInitializeIothub cfg r) := by
  unfold sampleInitializeIothub
  split
  · exact ⟨.inl rfl, rfl, .inl rfl, rfl, rfl⟩
  · obtain ⟨client, calls, hdps⟩ := sampleDpsEntry_frame cfg r s
    simp only [hdps]
    split_ifs
    · exact ⟨.inl rfl, rfl, .inl rfl, rfl, rfl⟩
    · exact initializePnpClient_frame cfg r _
    · exact initializePnpClient_frame cfg r s

/-! ### Receiving and reporting -/

theorem pnpClientReceive_frame (kind : MessageKind) :
    ∃ fifo calls, (s.pnpClientReceive kind r).2 = { s with fifo := fifo, calls := calls } := by
  unfold pnpClientReceive
  split
  · exact ⟨_, _, rfl⟩
  · dsimp only
    split <;> exact ⟨_, _, rfl⟩

theorem receivePropertiesAction_frame (kind : MessageKind) :
    ∃ fifo handled calls, s.receivePropertiesAction kind r =
      { s with fifo := fifo, handled := handled, calls := calls } := by
  obtain ⟨fifo, calls, hreceive⟩ := pnpClientReceive_frame r s kind
  unfold receivePropertiesAction
  simp only [hreceive]
  split
  · exact ⟨_, _, _, rfl⟩
  · split <;> exact ⟨_, _, _, rfl⟩

/-- A command switches the LED, if at all, as one event of the LED machine does. -/
theorem sampleCommandAction_frame :
    ∃ fifo handled calls device, s.sampleCommandAction cfg r =
      { s with fifo := fifo, handled := handled, calls := calls, device := device } ∧
        (device = s.device ∨ ∃ e, device = s.device.step e) := by
  obtain ⟨fifo, calls, hreceive⟩ := pnpClientReceive_frame r s .command
  unfold sampleCommandAction
  simp only [hreceive]
  split
  · exact ⟨_, _, _, _, rfl, .inl rfl⟩
  · split
    · exact ⟨_, _, _, _, rfl, .inl rfl⟩
    · split
      · exact ⟨_, _, _, _, rfl, .inl rfl⟩
      · rename_i message _ _
        have hled : (cfg.processCommand message).2.elim s.device s.device.setLedState = s.device ∨
            ∃ e, (cfg.processCommand message).2.elim s.device s.device.setLedState =
              s.device.step e := by
          cases (cfg.processCommand message).2 with
          | none => exact .inl rfl
          | some level => exact .inr ⟨.setLedState level, rfl⟩
        split <;> exact ⟨_, _, _, _, rfl, hled⟩

theorem foldl_record_frame (reports : List Status) (call : SdkCall) :
    ∃ calls, reports.foldl (fun s _ => s.record call) s = { s with calls := calls } := by
  induction reports generalizing s with
  | nil => exact ⟨_, rfl⟩
  | cons _ rest ih =>
      obtain ⟨calls, heq⟩ := ih (s.record call)
      exact ⟨calls, heq⟩

/-- The reports, if any are made, are one event of the LED machine. -/
theorem sampleDeviceReportedPropertyAction_frame :
    ∃ calls device, s.sampleDeviceReportedPropertyAction r =
      { s with calls := calls, device := device } ∧
        (device = s.device ∨ ∃ e, device = s.device.step e) := by
  unfold sampleDeviceReportedPropertyAction
  split
  · exact ⟨_, _, rfl, .inl rfl⟩
  · obtain ⟨calls, heq⟩ := foldl_record_frame
      { s with device := (s.device.sampleDeviceReportedPropertyAction r.reportOnce r.reportChanged).2 }
      (s.device.sampleDeviceReportedPropertyAction r.reportOnce r.reportChanged).1 (.send .ledState)
    simp only [heq]
    exact ⟨_, _, rfl, .inr ⟨.reportedPropertyAction r.reportOnce r.reportChanged, rfl⟩⟩

/-! ### All actions -/

/-- What no action that neither receives nor reports changes: the flags and the LED. It keeps the
queues or empties them all. -/
structure Keeps (s s' : Sample μ) : Prop where
  sampleEvents_eq : s'.context.sampleEvents = s.context.sampleEvents
  fifo_eq : s'.fifo = s.fifo ∨ s'.fifo = fun _ => []
  device_eq : s'.device = s.device

theorem action_keeps (event : SampleEvent) (hreceive : ∀ kind : MessageKind, kind.event ≠ event)
    (hreport : event ≠ .deviceReportedProperties) : Keeps s (s.action cfg r event) := by
  cases event with
  | connect =>
      simp only [action, sampleConnectAction]
      split_ifs <;> exact ⟨rfl, .inl rfl, rfl⟩
  | initialization =>
      obtain ⟨-, hevents, hfifo, -, hdevice⟩ := sampleInitializeIothub_frame cfg r s
      exact ⟨hevents, hfifo, hdevice⟩
  | devicePropertiesGet => exact absurd rfl (hreceive .properties)
  | commandMessage => exact absurd rfl (hreceive .command)
  | deviceDesiredProperties => exact absurd rfl (hreceive .desiredProperties)
  | telemetrySend =>
      simp only [action, sampleTelemetryAction]
      split <;> exact ⟨rfl, .inl rfl, rfl⟩
  | deviceReportedProperties => exact absurd rfl hreport
  | disconnect =>
      simp only [action, sampleDisconnectAction]
      split <;> exact ⟨rfl, .inl rfl, rfl⟩
  | connected =>
      simp only [action, sampleConnectedAction]
      split <;> exact ⟨rfl, .inl rfl, rfl⟩
  | reconnect =>
      simp only [action, sampleConnectionErrorRecover]
      split
      · exact ⟨rfl, .inl rfl, rfl⟩
      · split <;> first | exact ⟨rfl, .inl rfl, rfl⟩ | exact ⟨rfl, .inr rfl, rfl⟩

/-- An action receives, reports, or does neither. -/
theorem event_cases (event : SampleEvent) : (∃ kind : MessageKind, kind.event = event) ∨
    event = .deviceReportedProperties ∨
      ((∀ kind : MessageKind, kind.event ≠ event) ∧ event ≠ .deviceReportedProperties) := by
  by_cases hreceive : ∃ kind : MessageKind, kind.event = event
  · exact .inl hreceive
  · by_cases hreport : event = .deviceReportedProperties
    · exact .inr (.inl hreport)
    · exact .inr (.inr ⟨fun kind heq => hreceive ⟨kind, heq⟩, hreport⟩)

/-- Flags are only set by callbacks and by the trigger. -/
theorem action_sampleEvents (event : SampleEvent) :
    (s.action cfg r event).context.sampleEvents = s.context.sampleEvents := by
  rcases event_cases event with ⟨kind, rfl⟩ | rfl | ⟨hreceive, hreport⟩
  · cases kind with
    | command =>
        obtain ⟨_, _, _, _, heq, -⟩ := sampleCommandAction_frame cfg r s
        show (s.sampleCommandAction cfg r).context.sampleEvents = _
        rw [heq]
    | properties =>
        obtain ⟨_, _, _, heq⟩ := receivePropertiesAction_frame r s .properties
        show (s.receivePropertiesAction .properties r).context.sampleEvents = _
        rw [heq]
    | desiredProperties =>
        obtain ⟨_, _, _, heq⟩ := receivePropertiesAction_frame r s .desiredProperties
        show (s.receivePropertiesAction .desiredProperties r).context.sampleEvents = _
        rw [heq]
  · obtain ⟨_, _, heq, -⟩ := sampleDeviceReportedPropertyAction_frame r s
    show (s.sampleDeviceReportedPropertyAction r).context.sampleEvents = _
    rw [heq]
  · exact (action_keeps cfg r s event hreceive hreport).sampleEvents_eq

/-! ### Queues -/

theorem pnpClientReceive_fifo (kind : MessageKind) :
    (s.pnpClientReceive kind r).2.fifo =
      if r.receive = .success then Function.update s.fifo kind (s.fifo kind).tail else s.fifo := by
  unfold pnpClientReceive
  by_cases hreceive : r.receive = .success
  · rw [if_neg (by simp [hreceive]), if_pos hreceive]
    split
    · rename_i hempty
      have hfifo : s.fifo kind = [] := hempty
      rw [hfifo, List.tail_nil, ← hfifo, Function.update_eq_self]
      rfl
    · rename_i message rest hqueue
      have hfifo : s.fifo kind = message :: rest := hqueue
      rw [hfifo]
      rfl
  · rw [if_pos hreceive, if_neg hreceive]
    rfl

/-- The queues after a receiving action: in `CONNECTED`, those after the receive call. -/
theorem receiving_fifo (kind : MessageKind) :
    (s.action cfg r kind.event).fifo =
      if s.context.state = .connected then (s.pnpClientReceive kind r).2.fifo else s.fifo := by
  cases kind with
  | command =>
      simp only [MessageKind.event, action, sampleCommandAction]
      by_cases hstate : s.context.state = .connected
      · rw [if_neg (by simp [hstate]), if_pos hstate]
        split
        · rfl
        · split
          · rfl
          · split <;> rfl
      · rw [if_pos hstate, if_neg hstate]
  | _ =>
      simp only [MessageKind.event, action, sampleDevicePropertiesGetAction,
        sampleDeviceDesiredPropertyAction, receivePropertiesAction]
      by_cases hstate : s.context.state = .connected
      · rw [if_neg (by simp [hstate]), if_pos hstate]
        split <;> rfl
      · rw [if_pos hstate, if_neg hstate]

/-- An action that does not receive keeps the queues or empties them all. -/
theorem action_fifo_of_ne (event : SampleEvent) (hne : ∀ kind : MessageKind, kind.event ≠ event) :
    (s.action cfg r event).fifo = s.fifo ∨ (s.action cfg r event).fifo = fun _ => [] := by
  by_cases hreport : event = .deviceReportedProperties
  · subst hreport
    obtain ⟨_, _, heq, -⟩ := sampleDeviceReportedPropertyAction_frame r s
    apply Or.inl
    show (s.sampleDeviceReportedPropertyAction r).fifo = _
    rw [heq]
  · exact (action_keeps cfg r s event hne hreport).fifo_eq

/-! ### The LED and its reports -/

/-- What an action does to the LED and the memories of its reports is nothing, or what one event of
the LED machine does. -/
theorem action_device (event : SampleEvent) :
    (s.action cfg r event).device = s.device ∨
      ∃ e, (s.action cfg r event).device = s.device.step e := by
  rcases event_cases event with ⟨kind, rfl⟩ | rfl | ⟨hreceive, hreport⟩
  · cases kind with
    | command =>
        obtain ⟨_, _, _, _, heq, hled⟩ := sampleCommandAction_frame cfg r s
        have hdevice := congrArg device heq
        rcases hled with hkeep | ⟨e, he⟩
        · exact .inl (hdevice.trans hkeep)
        · exact .inr ⟨e, hdevice.trans he⟩
    | properties =>
        obtain ⟨_, _, _, heq⟩ := receivePropertiesAction_frame r s .properties
        have hkeep := congrArg device heq
        exact .inl hkeep
    | desiredProperties =>
        obtain ⟨_, _, _, heq⟩ := receivePropertiesAction_frame r s .desiredProperties
        have hkeep := congrArg device heq
        exact .inl hkeep
  · obtain ⟨_, _, heq, hled⟩ := sampleDeviceReportedPropertyAction_frame r s
    have hdevice := congrArg device heq
    rcases hled with hkeep | ⟨e, he⟩
    · exact .inl (hdevice.trans hkeep)
    · exact .inr ⟨e, hdevice.trans he⟩
  · exact .inl (action_keeps cfg r s event hreceive hreport).device_eq

theorem sampleTriggerAction_device : (s.sampleTriggerAction cfg r).device = s.device := by
  unfold sampleTriggerAction
  split <;> try rfl
  split <;> rfl

/-- The LED of the application runs through states of the LED machine. -/
theorem device_reachable {s : Sample μ} (h : (machine cfg).Reachable s) :
    LedReport.machine.Reachable s.device := by
  refine Base.Machine.ReachableUnder.invariant (machine cfg)
    (fun s => LedReport.machine.Reachable s.device) .start ?_ h
  intro s label next _ hdevice _ hstep
  rcases step_cases hstep with ⟨status, -, -, rfl⟩ | ⟨kind, message, -, -, rfl⟩ |
    ⟨r, -, -, -, rfl | ⟨-, rfl⟩⟩ | ⟨r, -, -, rfl⟩ | ⟨r, appEvents, -, -, rfl⟩ |
    ⟨r, appEvents, event, rest, -, -, -, rfl⟩ | ⟨r, appEvents, event, rest, -, -, -, -, rfl⟩
  · unfold connectionStatusCallback
    split <;> exact hdevice
  · exact hdevice
  · exact hdevice
  · rwa [sampleTriggerAction_device]
  · exact hdevice
  · change LedReport.machine.Reachable (s.sampleTriggerAction cfg r).device
    rwa [sampleTriggerAction_device]
  · exact hdevice
  · change LedReport.machine.Reachable (s.action cfg r event).device
    rcases action_device cfg r s event with hkeep | ⟨e, he⟩
    · rwa [hkeep]
    · rw [he]
      exact .step e hdevice trivial rfl

end Sample
end DeviceSample.App
