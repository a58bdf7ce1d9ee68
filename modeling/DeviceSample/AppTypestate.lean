import DeviceSample.AppLoop

/-!
The typestate of the PnP client over every run. The state of the application determines which
member of the client union is live and whether a connection may be up, and each action
re-establishes this on every exit; hence each call of the SDK finds the client as it requires it.
The loop never stalls: when it waits, the flag of the state it is in is pending.
-/

namespace DeviceSample.App

/-- What a call requires of the state and of the client memory it finds. -/
def CallRecord.Legal (r : CallRecord) : Prop :=
  match r.call with
  | .provisioningInitialize | .clientInitialize => r.client = .unused
  | .provisioning _ | .provisioningDeinit => r.client = .provisioning
  | .setup _ | .connect | .deinit => r.client = .pnp .idle
  | .disconnect => r.client.initialised = true
  | .propertiesRequest | .receive _ | .send _ =>
      r.state = .connected ∧ r.client.initialised = true
  | .sleep _ => True

/-- The client memory that belongs to a state. -/
def ClientMemory.Fits : ClientMemory → SampleState → Prop
  | _, .none => False
  | client, .init => client = .unused
  | client, .connect | client, .disconnected => client = .pnp .idle
  | client, .connecting | client, .connected => client.initialised = true

/-- The states in which the PnP client is initialised. -/
def SampleState.HoldsClient (state : SampleState) : Prop :=
  state = .connect ∨ state = .connecting ∨ state = .connected ∨ state = .disconnected

theorem ClientMemory.Fits.initialised_iff {client : ClientMemory} {state : SampleState}
    (h : client.Fits state) : client.initialised = true ↔ state.HoldsClient := by
  cases state with
  | none => exact h.elim
  | init => simp [show client = .unused from h, initialised, SampleState.HoldsClient]
  | connect => simp [show client = .pnp .idle from h, initialised, SampleState.HoldsClient]
  | disconnected => simp [show client = .pnp .idle from h, initialised, SampleState.HoldsClient]
  | connecting => simp [show client.initialised = true from h, SampleState.HoldsClient]
  | connected => simp [show client.initialised = true from h, SampleState.HoldsClient]

/-- While an attempt is up the application is in `CONNECTING` or `CONNECTED`. -/
theorem ClientMemory.Fits.of_attempted {client : ClientMemory} {state : SampleState}
    (h : client.Fits state) (hattempt : client.attempted = true) :
    state = .connecting ∨ state = .connected := by
  cases state with
  | none => exact h.elim
  | connecting => exact .inl rfl
  | connected => exact .inr rfl
  | init =>
      rw [show client = .unused from h] at hattempt
      cases hattempt
  | _ =>
      rw [show client = .pnp .idle from h] at hattempt
      cases hattempt

/-- The flag that drives a state in which the loop must not wait without one. -/
def SampleState.driver : SampleState → Option SampleEvent
  | .init => some .initialization
  | .connect => some .connect
  | .disconnected => some .reconnect
  | _ => Option.none

namespace Sample

variable {μ : Type*} (cfg : Config μ) (r : Replies) {s : Sample μ}

/-- The typestate: the memory fits the state, and so did every call. -/
structure Typed (s : Sample μ) : Prop where
  fits : s.client.Fits s.context.state
  legal : ∀ call ∈ s.calls, call.Legal

theorem Typed.client_eq (h : s.Typed) (hstate : s.context.state = .connect ∨
    s.context.state = .disconnected) : s.client = .pnp .idle := by
  have hfits := h.fits
  rcases hstate with hstate | hstate <;> rw [hstate] at hfits <;> exact hfits

theorem Typed.client_unused (h : s.Typed) (hstate : s.context.state = .init) :
    s.client = .unused := by
  have hfits := h.fits
  rwa [hstate] at hfits

theorem Typed.client_initialised (h : s.Typed) (hstate : s.context.state = .connecting ∨
    s.context.state = .connected) : s.client.initialised = true := by
  have hfits := h.fits
  rcases hstate with hstate | hstate <;> rw [hstate] at hfits <;> exact hfits

/-- A call that changes neither the state nor the client. -/
theorem Typed.record (h : s.Typed) (call : SdkCall)
    (hcall : CallRecord.Legal ⟨call, s.context.state, s.client⟩) : (s.record call).Typed :=
  ⟨h.fits, List.forall_mem_cons.mpr ⟨hcall, h.legal⟩⟩

/-- A call that needs a connected client, in `CONNECTED`. -/
theorem Typed.record_send (h : s.Typed) (hstate : s.context.state = .connected)
    (sending : Sending) : (s.record (.send sending)).Typed :=
  h.record _ ⟨hstate, h.client_initialised (.inr hstate)⟩

/-- The typestate reads the state, the memory and the record only. -/
theorem Typed.congr {s' : Sample μ} (h : s.Typed) (hstate : s'.context.state = s.context.state)
    (hclient : s'.client = s.client) (hcalls : s'.calls = s.calls) : s'.Typed :=
  ⟨by rw [hstate, hclient]; exact h.fits, by rw [hcalls]; exact h.legal⟩

/-! ### Connecting and disconnecting -/

theorem sampleConnectAction_typed (h : s.Typed) : (s.sampleConnectAction r).Typed := by
  unfold sampleConnectAction
  split
  · exact h
  · rename_i hstate
    have hstate : s.context.state = .connect := by simpa using hstate
    have hclient := h.client_eq (.inl hstate)
    have hcall : ∀ call ∈ (s.record .connect).calls, call.Legal :=
      (h.record .connect hclient).legal
    split
    · rename_i hconnecting
      exact ⟨by simp [pnpClientConnect, hconnecting, ClientMemory.Fits, ClientMemory.initialised],
        hcall⟩
    · split
      · rename_i hne hfail
        refine ⟨?_, hcall⟩
        cases hr : r.connect with
        | success => exact absurd hr hfail
        | connecting => exact absurd hr hne
        | _ => simp [pnpClientConnect, ClientMemory.Fits]
      · rename_i hsuccess
        have hsuccess : r.connect = .success := by simpa using hsuccess
        refine ⟨by simp [pnpClientConnect, pnpClientPropertiesRequest, hsuccess, ClientMemory.Fits,
          ClientMemory.initialised], List.forall_mem_cons.mpr ⟨?_, hcall⟩⟩
        simp [CallRecord.Legal, pnpClientConnect, hsuccess, ClientMemory.initialised]

theorem sampleDisconnectAction_typed (h : s.Typed) : (s.sampleDisconnectAction r).Typed := by
  unfold sampleDisconnectAction
  split
  · exact h
  · rename_i hstate
    have hstate : s.context.state = .connecting ∨ s.context.state = .connected := by
      by_contra hnone
      exact hstate ⟨fun h => hnone (.inr h), fun h => hnone (.inl h)⟩
    exact ⟨rfl, (h.record .disconnect (h.client_initialised hstate)).legal⟩

theorem sampleConnectedAction_typed (h : s.Typed) : (s.sampleConnectedAction r).Typed := by
  unfold sampleConnectedAction
  split
  · exact h
  · rename_i hstate
    have hclient := h.client_initialised (.inl (by simpa using hstate))
    exact ⟨hclient, List.forall_mem_cons.mpr ⟨⟨rfl, hclient⟩, h.legal⟩⟩

/-! ### Initialising -/

/-- A chain of calls that are all legal where it starts. -/
theorem elseIfChain_typed {κ : Type*} (call : κ → SdkCall) (reply : κ → Status) (steps : List κ)
    (hlegal : ∀ call ∈ s.calls, call.Legal)
    (hchain : ∀ x, CallRecord.Legal ⟨call x, s.context.state, s.client⟩) :
    ∃ calls, (s.elseIfChain call reply steps).2 = { s with calls := calls } ∧
      ∀ call ∈ calls, call.Legal := by
  obtain ⟨calls, heq, hcalls⟩ := s.elseIfChain_frame call reply steps
  refine ⟨calls, heq, fun r hr => ?_⟩
  rcases hcalls r hr with hold | ⟨x, rfl⟩
  · exact hlegal r hold
  · exact hchain x

theorem sampleDpsEntry_typed (h : s.Typed) (hstate : s.context.state = .init) :
    (s.sampleDpsEntry cfg r).2.Typed ∧ (s.sampleDpsEntry cfg r).2.context.state = .init := by
  have hclient := h.client_unused hstate
  have hinit := h.record .provisioningInitialize hclient
  unfold sampleDpsEntry
  split
  · exact ⟨hinit, hstate⟩
  · obtain ⟨calls, heq, hcalls⟩ := elseIfChain_typed .provisioning r.provisioning
      (provisioningSteps cfg) (s := (s.record .provisioningInitialize).setClient .provisioning) hinit.legal (fun _ => rfl)
    simp only [heq]
    refine ⟨⟨?_, List.forall_mem_cons.mpr ⟨rfl, hcalls⟩⟩, hstate⟩
    simp [hstate, ClientMemory.Fits]

theorem initializePnpClient_typed (h : s.Typed) (hstate : s.context.state = .init) :
    (s.initializePnpClient cfg r).Typed := by
  have hclient := h.client_unused hstate
  have hinit := h.record .clientInitialize hclient
  unfold initializePnpClient
  split
  · exact hinit.congr rfl rfl rfl
  · obtain ⟨calls, heq, hcalls⟩ := elseIfChain_typed .setup r.setup (setupSteps cfg)
      (s := (s.record .clientInitialize).freshPnpClient) hinit.legal (fun _ => rfl)
    simp only [heq]
    by_cases hstatus : (elseIfChain .setup r.setup (setupSteps cfg)
        (s.record .clientInitialize).freshPnpClient).1 = .success
    · simp only [hstatus, ne_eq, not_true, if_false, if_true]
      exact ⟨rfl, hcalls⟩
    · simp only [hstatus, ne_eq, not_false_eq_true, if_true, if_false]
      exact ⟨by simp [hstate, pnpClientDeinit, freshPnpClient, ClientMemory.Fits],
        List.forall_mem_cons.mpr ⟨rfl, hcalls⟩⟩

theorem sampleInitializeIothub_typed (h : s.Typed) : (s.sampleInitializeIothub cfg r).Typed := by
  unfold sampleInitializeIothub
  split
  · exact h
  · rename_i hstate
    have hstate : s.context.state = .init := by simpa using hstate
    split
    · obtain ⟨hdps, hkeep⟩ := sampleDpsEntry_typed cfg r h hstate
      dsimp only
      split
      · exact hdps.congr rfl rfl rfl
      · exact initializePnpClient_typed cfg r hdps hkeep
    · exact initializePnpClient_typed cfg r h hstate

/-! ### Recovering, triggering, messages and reports -/

theorem sampleConnectionErrorRecover_typed (h : s.Typed) :
    (s.sampleConnectionErrorRecover cfg r).Typed := by
  unfold sampleConnectionErrorRecover
  split
  · exact h
  · rename_i hstate
    have hclient := h.client_eq (.inr (by simpa using hstate))
    have hsleep : ∀ call ∈ (s.sleepBackoff cfg r).calls, call.Legal :=
      List.forall_mem_cons.mpr ⟨trivial, h.legal⟩
    split
    · exact h
    all_goals first
      | exact ⟨hclient, hsleep⟩
      | exact ⟨rfl, List.forall_mem_cons.mpr ⟨hclient, hsleep⟩⟩

theorem setEvent_typed (h : s.Typed) (event : SampleEvent) : (s.setEvent event).Typed :=
  h.congr rfl rfl rfl

theorem sampleTriggerAction_typed (h : s.Typed) : (s.sampleTriggerAction cfg r).Typed := by
  unfold sampleTriggerAction
  split
  case h_3 =>
    split
    · exact h.congr rfl rfl rfl
    · exact h
  all_goals first
    | exact h
    | exact setEvent_typed h _

/-- A receive call in `CONNECTED` keeps the typestate and the state. -/
theorem pnpClientReceive_typed (h : s.Typed) (hstate : s.context.state = .connected)
    (kind : MessageKind) :
    (s.pnpClientReceive kind r).2.Typed ∧
      (s.pnpClientReceive kind r).2.context.state = .connected := by
  have hrecord := h.record (.receive kind) ⟨hstate, h.client_initialised (.inr hstate)⟩
  unfold pnpClientReceive
  split
  · exact ⟨hrecord, hstate⟩
  · dsimp only
    split
    · exact ⟨hrecord, hstate⟩
    · exact ⟨hrecord.congr rfl rfl rfl, hstate⟩

theorem receivePropertiesAction_typed (h : s.Typed) (kind : MessageKind) :
    (s.receivePropertiesAction kind r).Typed := by
  unfold receivePropertiesAction
  split
  · exact h
  · rename_i hstate
    obtain ⟨hreceive, hkeep⟩ := pnpClientReceive_typed r h (by simpa using hstate) kind
    dsimp only
    split
    · exact hreceive
    · exact (hreceive.record_send hkeep .vtDesiredProperties).congr rfl rfl rfl

theorem sampleCommandAction_typed (h : s.Typed) : (s.sampleCommandAction cfg r).Typed := by
  unfold sampleCommandAction
  split
  · exact h
  · rename_i hstate
    obtain ⟨hreceive, hkeep⟩ := pnpClientReceive_typed r h (by simpa using hstate) .command
    dsimp only
    split
    · exact hreceive
    · rename_i message _
      split
      · exact hreceive
      · have hhandled : ((s.pnpClientReceive .command r).2.handleCommand cfg message).Typed :=
          hreceive.congr rfl rfl rfl
        refine Typed.record_send ?_ ?_ _
        · split
          · exact hhandled
          · exact hhandled.record_send hkeep _
        · split <;> exact hkeep

theorem foldl_record_send_typed (h : s.Typed) (hstate : s.context.state = .connected)
    (reports : List Status) :
    (reports.foldl (fun s _ => s.record (.send .ledState)) s).Typed ∧
      (reports.foldl (fun s _ => s.record (.send .ledState)) s).context.state = .connected := by
  induction reports generalizing s with
  | nil => exact ⟨h, hstate⟩
  | cons _ rest ih => exact ih (h.record_send hstate _) hstate

theorem sampleDeviceReportedPropertyAction_typed (h : s.Typed) :
    (s.sampleDeviceReportedPropertyAction r).Typed := by
  unfold sampleDeviceReportedPropertyAction
  split
  · exact h
  · rename_i hstate
    have hstate : s.context.state = .connected := by simpa using hstate
    obtain ⟨htyped, hkeep⟩ := foldl_record_send_typed
      (s := { s with
        device := (s.device.sampleDeviceReportedPropertyAction r.reportOnce r.reportChanged).2 })
      (h.congr rfl rfl rfl) hstate
      (s.device.sampleDeviceReportedPropertyAction r.reportOnce r.reportChanged).1
    exact htyped.record_send hkeep _

theorem sampleTelemetryAction_typed (h : s.Typed) : s.sampleTelemetryAction.Typed := by
  unfold sampleTelemetryAction
  split
  · exact h
  · rename_i hstate
    exact h.record_send (by simpa using hstate) _

theorem action_typed (h : s.Typed) (event : SampleEvent) : (s.action cfg r event).Typed := by
  cases event with
  | connect => exact sampleConnectAction_typed r h
  | initialization => exact sampleInitializeIothub_typed cfg r h
  | commandMessage => exact sampleCommandAction_typed cfg r h
  | devicePropertiesGet => exact receivePropertiesAction_typed r h _
  | deviceDesiredProperties => exact receivePropertiesAction_typed r h _
  | telemetrySend => exact sampleTelemetryAction_typed h
  | deviceReportedProperties => exact sampleDeviceReportedPropertyAction_typed r h
  | disconnect => exact sampleDisconnectAction_typed r h
  | reconnect => exact sampleConnectionErrorRecover_typed cfg r h
  | connected => exact sampleConnectedAction_typed r h

/-- A report of the library: success is reported only while an attempt is up, and then the
application is in `CONNECTING` or `CONNECTED`. -/
theorem connectionStatusCallback_typed (h : s.Typed) {status : Status}
    (hattempt : status = .success → s.client.attempted = true) :
    (s.connectionStatusCallback status).Typed := by
  unfold connectionStatusCallback
  split
  · exact h.congr rfl rfl rfl
  · rename_i hstatus
    refine ⟨?_, h.legal⟩
    rcases h.fits.of_attempted (hattempt (by simpa using hstatus)) with hstate | hstate <;>
      simp [hstate, ClientMemory.Fits, ClientMemory.initialised]

theorem step_typed (h : s.Typed) {label : Label μ} {next : Sample μ}
    (hstep : (machine cfg).step s label = some next) : next.Typed := by
  rcases step_cases hstep with ⟨status, -, hattempt, rfl⟩ | ⟨kind, message, -, -, rfl⟩ |
    ⟨r, -, -, -, rfl | ⟨-, rfl⟩⟩ | ⟨r, -, -, rfl⟩ | ⟨r, appEvents, -, -, rfl⟩ |
    ⟨r, appEvents, event, rest, -, -, -, rfl⟩ | ⟨r, appEvents, event, rest, -, -, -, -, rfl⟩
  · exact connectionStatusCallback_typed h hattempt
  · exact h.congr rfl rfl rfl
  · exact h
  · exact sampleTriggerAction_typed cfg r h
  · exact h.congr rfl rfl rfl
  · exact (sampleTriggerAction_typed cfg r h).congr rfl rfl rfl
  · exact h.congr rfl rfl rfl
  · exact (action_typed cfg r h event).congr rfl rfl rfl

theorem typed_of_reachable (h : (machine cfg).Reachable s) : s.Typed := by
  refine Base.Machine.ReachableUnder.invariant (machine cfg) Typed ⟨rfl, by simp [machine, sampleEntry]⟩ ?_ h
  intro s label next _ htyped _ hstep
  exact step_typed cfg htyped hstep

/-! ### No stall -/

/-- The loop waits only where its driver, if the state has one, is pending. -/
def Driven (s : Sample μ) : Prop :=
  s.location = .waiting → ∀ event ∈ s.context.state.driver, event ∈ s.context.sampleEvents

theorem sampleTriggerAction_driven (s : Sample μ) :
    ∀ event ∈ (s.sampleTriggerAction cfg r).context.state.driver,
      event ∈ (s.sampleTriggerAction cfg r).context.sampleEvents := by
  unfold sampleTriggerAction
  cases hstate : s.context.state with
  | connected =>
      dsimp only
      split <;> simp [hstate, SampleState.driver]
  | _ => simp [hstate, SampleState.driver]

theorem sampleTriggerAction_state (s : Sample μ) :
    (s.sampleTriggerAction cfg r).context.state = s.context.state := by
  unfold sampleTriggerAction
  split <;> try rfl
  split <;> rfl

theorem sampleTriggerAction_status (s : Sample μ) :
    (s.sampleTriggerAction cfg r).sampleConnectionStatus = s.sampleConnectionStatus := by
  unfold sampleTriggerAction
  split <;> try rfl
  split <;> rfl

theorem step_driven (h : s.Driven) {label : Label μ} {next : Sample μ}
    (hstep : (machine cfg).step s label = some next) : next.Driven := by
  rcases step_cases hstep with ⟨status, -, -, rfl⟩ | ⟨kind, message, -, -, rfl⟩ |
    ⟨r, -, -, -, rfl | ⟨-, rfl⟩⟩ | ⟨r, -, -, rfl⟩ | ⟨r, appEvents, -, -, rfl⟩ |
    ⟨r, appEvents, event, rest, -, -, -, rfl⟩ | ⟨r, appEvents, event, rest, -, -, -, -, rfl⟩
  · -- the callbacks only add flags
    unfold connectionStatusCallback
    intro hloc event hevent
    split at hloc <;> split at hevent <;> split <;> try contradiction
    all_goals exact Finset.mem_insert_of_mem (h hloc event hevent)
  · exact fun hloc event hevent => Finset.mem_insert_of_mem (h hloc event hevent)
  · exact h
  · exact fun _ => sampleTriggerAction_driven cfg r s
  · exact fun hloc => by cases hloc
  · exact fun _ => sampleTriggerAction_driven cfg r s
  · exact fun hloc => by cases hloc
  · exact fun hloc => by cases hloc

theorem driven_of_reachable (h : (machine cfg).Reachable s) : s.Driven := by
  refine Base.Machine.ReachableUnder.invariant (machine cfg) Driven ?_ ?_ h
  · simp [machine, sampleEntry, Driven, SampleState.driver]
  · intro s label next _ hdriven _ hstep
    exact step_driven cfg hdriven hstep

/-- In every reachable state the client is initialised exactly in the states that hold it, every
call made so far was legal where it was made, and a waiting loop has its driver pending. -/
theorem client_typestate (h : (machine cfg).Reachable s) :
    (s.client.initialised = true ↔ s.context.state.HoldsClient) ∧
      (∀ call ∈ s.calls, call.Legal) ∧
      (s.location = .waiting →
        ∀ event ∈ s.context.state.driver, event ∈ s.context.sampleEvents) :=
  ⟨(typed_of_reachable cfg h).fits.initialised_iff, (typed_of_reachable cfg h).legal,
    driven_of_reachable cfg h⟩

theorem client_typestate_connected :
    ∃ s : Sample Nat, s.context.state = .connected ∧ s.client.initialised = true := by
  obtain ⟨s, hs, htest⟩ := (machine Config.sample).exists_reachable
    (iteration ++ iteration) (fun s => decide (s.context.state = .connected)) (by decide)
  have hstate : s.context.state = .connected := by simpa using htest
  exact ⟨s, hstate, (client_typestate _ hs).1.mpr (.inr (.inr (.inl hstate)))⟩

end Sample
end DeviceSample.App
