import DeviceSample.BaseRun
import DeviceSample.MqttTopics

/-!
The callbacks of the hub client over its life: a creation clears the pointers, a registration fills one
that is empty, and messages arrive whatever is registered, since all topics are always subscribed. Two of
the four handlers look at their pointer before they call it.
-/

namespace DeviceSample.Mqtt

open Base Dps

variable {C : Type}

section registering

/-- The body that the four registrations share, on a structure that is not NULL. -/
def registerCallback (slot : Slot) (callbacks : Callbacks C) (callback : Option C) :
    Status × Callbacks C :=
  if (callbacks slot).isSome then (nxPtrError, callbacks)
  else (.success, fun s => if s = slot then callback else callbacks s)

/-- `azure_iot_mqtt_register_direct_method_callback`. -/
def azureIotMqttRegisterDirectMethodCallback : Callbacks C → Option C → Status × Callbacks C :=
  registerCallback .mqttInvokeDirectMethod

/-- `azure_iot_mqtt_register_c2d_message_callback`. -/
def azureIotMqttRegisterC2dMessageCallback : Callbacks C → Option C → Status × Callbacks C :=
  registerCallback .mqttC2dMessage

/-- `azure_iot_mqtt_register_device_twin_desired_prop_callback`. -/
def azureIotMqttRegisterDeviceTwinDesiredPropCallback : Callbacks C → Option C → Status × Callbacks C :=
  registerCallback .mqttDeviceTwinDesiredPropCallback

/-- `azure_iot_mqtt_register_device_twin_prop_callback`. -/
def azureIotMqttRegisterDeviceTwinPropCallback : Callbacks C → Option C → Status × Callbacks C :=
  registerCallback .mqttDeviceTwinPropCallback

/-- The registration of a pointer. -/
def register : Slot → Callbacks C → Option C → Status × Callbacks C
  | .mqttInvokeDirectMethod => azureIotMqttRegisterDirectMethodCallback
  | .mqttC2dMessage => azureIotMqttRegisterC2dMessageCallback
  | .mqttDeviceTwinDesiredPropCallback => azureIotMqttRegisterDeviceTwinDesiredPropCallback
  | .mqttDeviceTwinPropCallback => azureIotMqttRegisterDeviceTwinPropCallback

end registering

/-- The structure of the client, and whether NULL has been called. -/
structure Hub (C : Type) where
  memory : Memory
  callbacks : Callbacks C
  nullCalled : Bool

inductive HubLabel (C : Type)
  /-- `azure_iot_mqtt_create`. -/
  | create (hostname deviceId : CString) (sasKey modelId : StringPointer) (r : CommonReplies)
  /-- `azure_iot_mqtt_create_with_dps`, with what its registration leaves in the structure. -/
  | createWithDps (dpsEndpoint idScope registrationId sasKey : CString) (left : Memory)
  | register (slot : Slot) (callback : Option C)
  /-- A round of `mqtt_notify_cb`. -/
  | message (x : Message) (stack : Memory)

/-- The effect calls through a pointer that is NULL. -/
def Effect.callsNull (e : Effect C) : Bool :=
  match e.invoked with
  | none => false
  | some invocation => invocation.callback.isNone

namespace Hub

/-- One step of the client; a call of NULL ends it. -/
def step (s : Hub C) (label : HubLabel C) : Option (Hub C) :=
  if s.nullCalled then none
  else
    match label with
    | .create hostname deviceId sasKey modelId r =>
        some
          { s with
            memory := (azureIotMqttCreate s.memory hostname deviceId sasKey modelId r).memory
            callbacks :=
              if hostname.bytes = [] ∨ deviceId.bytes = [] ∨ sasKey.target.bytes = [] then s.callbacks
              else fun _ => none }
    | .createWithDps dpsEndpoint idScope registrationId sasKey left =>
        if dpsEndpoint.bytes = [] ∨ idScope.bytes = [] ∨ registrationId.bytes = [] ∨ sasKey.bytes = [] then
          some s
        else some { s with memory := left, callbacks := fun _ => none }
    | .register slot callback => some { s with callbacks := (Mqtt.register slot s.callbacks callback).2 }
    | .message x stack =>
        let seen := receive s.memory x.topic x.payload
        let effect := handle s.callbacks stack seen
        some { s with memory := seen.run effect.stores, nullCalled := effect.callsNull }

end Hub

/-- The histories of a client, from any content of its structure. -/
def hubMachine (C : Type) (m : Memory) : Machine (Hub C) (HubLabel C) where
  start := { memory := m, callbacks := fun _ => none, nullCalled := false }
  step := Hub.step

/-- A message that is dispatched as a response of status 200, or as a desired property with a version,
finds the callback registered that it is for. -/
def Guarded (s : Hub C) : HubLabel C → Prop
  | .create .. => True
  | .createWithDps .. => True
  | .register .. => True
  | .message x _ =>
      (dispatch x.topic = some .deviceTwinResponse →
        responseStatus (x.topic.drop deviceTwinResBase.length) = some 200 →
          (s.callbacks .mqttDeviceTwinPropCallback).isSome) ∧
      (dispatch x.topic = some .deviceTwinDesiredPropUpdate →
        (desiredVersion (x.topic.drop deviceTwinDesiredPropResBase.length)).isSome →
          (s.callbacks .mqttDeviceTwinDesiredPropCallback).isSome)

section calls

variable (callbacks : Callbacks C) (callback : Option C) (stack m : Memory) (x : Message)

theorem directMethodEffect_callsNull : (directMethodEffect callback stack m).callsNull = false := by
  have hinvoked := processDirectMethod_invoked_iff callback.isSome stack m
  rw [Effect.callsNull, directMethodEffect]
  cases hcall : (processDirectMethod callback.isSome stack m).invoked with
  | none => rfl
  | some name =>
      rw [hcall] at hinvoked
      have hregistered := (hinvoked.mp rfl).2
      cases callback with
      | none => cases hregistered
      | some c => rfl

theorem processC2dMessage_callsNull : (processC2dMessage callback m).callsNull = false := by
  rw [processC2dMessage]
  cases c2dProperties (topicFrom m 0) with
  | none => rfl
  | some properties => cases callback <;> rfl

theorem processDeviceTwinResponse_callsNull : (processDeviceTwinResponse callback m).callsNull = false ↔
    (responseStatus (topicFrom m deviceTwinResBase.length) = some 200 → callback.isSome) := by
  rw [processDeviceTwinResponse]
  split
  · rename_i hstatus
    cases callback <;> simp [Effect.callsNull, hstatus]
  · rename_i hstatus
    exact iff_of_true rfl fun h => absurd h hstatus

theorem processDeviceTwinDesiredPropUpdate_callsNull :
    (processDeviceTwinDesiredPropUpdate callback m).callsNull = false ↔
      ((desiredVersion (topicFrom m deviceTwinDesiredPropResBase.length)).isSome → callback.isSome) := by
  rw [processDeviceTwinDesiredPropUpdate]
  cases desiredVersion (topicFrom m deviceTwinDesiredPropResBase.length) with
  | none => exact iff_of_true rfl fun h => nomatch h
  | some version => cases callback <;> simp [Effect.callsNull]

/-- A round calls NULL exactly if it is not guarded. -/
theorem handle_callsNull_iff (s : Hub C) :
    (handle s.callbacks stack (receive s.memory x.topic x.payload)).callsNull = false ↔
      Guarded s (.message x stack) := by
  rw [handle, topicText_receive, Guarded]
  cases hdispatch : dispatch x.topic with
  | none => simp [Effect.callsNull, Effect.nothing]
  | some handler =>
      have hfound := ((dispatch_eq_some_iff x.topic handler).mp hdispatch).2
      simp only [Option.some.injEq]
      cases handler with
      | directMethod =>
          exact iff_of_true (directMethodEffect_callsNull _ _ _) ⟨Handler.noConfusion, Handler.noConfusion⟩
      | c2dMessage =>
          exact iff_of_true (processC2dMessage_callsNull _ _) ⟨Handler.noConfusion, Handler.noConfusion⟩
      | deviceTwinResponse =>
          have hlength : deviceTwinResBase.length ≤ x.topic.length := length_le_of_strstr hfound
          rw [← topicFrom_receive s.memory x hlength]
          refine (processDeviceTwinResponse_callsNull _ _).trans ?_
          exact ⟨fun h => ⟨fun _ => h, Handler.noConfusion⟩, fun h => h.1 rfl⟩
      | deviceTwinDesiredPropUpdate =>
          have hlength : deviceTwinDesiredPropResBase.length ≤ x.topic.length := length_le_of_strstr hfound
          rw [← topicFrom_receive s.memory x hlength]
          refine (processDeviceTwinDesiredPropUpdate_callsNull _ _).trans ?_
          exact ⟨fun h => ⟨Handler.noConfusion, fun _ => h⟩, fun h => h.2 rfl⟩

end calls

section runs

/-- A step from a state that has not called NULL calls it exactly if the step is not guarded. -/
theorem Hub.step_nullCalled_iff {s next : Hub C} {label : HubLabel C} (hstep : s.step label = some next) :
    next.nullCalled = false ↔ Guarded s label := by
  unfold Hub.step at hstep
  rw [Option.ite_none_left_eq_some, Bool.not_eq_true] at hstep
  obtain ⟨hrunning, hstep⟩ := hstep
  cases label with
  | create hostname deviceId sasKey modelId r =>
      cases hstep
      exact iff_of_true hrunning trivial
  | createWithDps dpsEndpoint idScope registrationId sasKey left =>
      dsimp only at hstep
      split at hstep
      · cases hstep
        exact iff_of_true hrunning trivial
      · cases hstep
        exact iff_of_true hrunning trivial
  | register slot callback =>
      cases hstep
      exact iff_of_true hrunning trivial
  | message x stack =>
      cases hstep
      exact handle_callsNull_iff stack x s

/-- **No callback is called that is NULL** in any history in which the messages for the two unguarded
handlers find their callbacks registered. -/
theorem no_null_called {m : Memory} {s : Hub C} (h : (hubMachine C m).ReachableUnder Guarded s) :
    s.nullCalled = false := by
  apply h.invariant _ fun s => s.nullCalled = false
  · rfl
  · intro s label next _ _ hguarded hstep
    exact (Hub.step_nullCalled_iff hstep).mpr hguarded

/-- Where no history calls NULL, every step is guarded. -/
theorem guarded_of_never_called {m : Memory}
    (h : ∀ s : Hub C, (hubMachine C m).Reachable s → s.nullCalled = false) {s next : Hub C}
    {label : HubLabel C} (hs : (hubMachine C m).Reachable s) (hstep : s.step label = some next) :
    Guarded s label :=
  (Hub.step_nullCalled_iff hstep).mp (h next (.step label hs trivial hstep))

end runs

/-- An answer to the request of the twin. -/
def twinResponse : Message where
  topic := text "$iothub/twin/res/200/?$rid=0"
  payload := text "\x7b\x7d"
  topic_no_nul := by decide
  payload_no_nul := by decide
  topic_fits := by decide
  payload_fits := by decide

/-- The creation of a client with short names. -/
def createBoard : HubLabel Unit :=
  .create ⟨text "contoso.azure-devices.net", by decide⟩ ⟨text "thermostat", by decide⟩
    ⟨0x20001000, ⟨text "c2VjcmV0", by decide⟩⟩ ⟨0x08001000, ⟨[], by decide⟩⟩ ⟨.success, .success, .success⟩

theorem twinResponse_dispatch : dispatch twinResponse.topic = some .deviceTwinResponse ∧
    responseStatus (twinResponse.topic.drop deviceTwinResBase.length) = some 200 := by
  decide +kernel

/-- The answer arrives when its callback is registered. -/
theorem no_null_called_registered : ∃ s : Hub Unit, (s.callbacks .mqttDeviceTwinPropCallback).isSome ∧
    s.nullCalled = false := by
  refine ⟨_, ?_, no_null_called (m := fun _ => 0)
    (.step (.message twinResponse fun _ => 0)
      (.step (.register .mqttDeviceTwinPropCallback (some ()))
        (.step createBoard .start trivial rfl) trivial rfl) ⟨fun _ _ => rfl, fun h => ?_⟩ rfl)⟩
  · rfl
  · rw [twinResponse_dispatch.1] at h
    exact Handler.noConfusion (Option.some.inj h)

/-- It arrives when no callback is registered. -/
theorem null_called : ¬∀ s : Hub Unit, (hubMachine Unit fun _ => 0).Reachable s → s.nullCalled = false := by
  intro h
  have hcreated : (hubMachine Unit fun _ => 0).Reachable _ := .step createBoard .start trivial rfl
  have hguarded : Guarded _ (.message twinResponse fun _ => 0) := guarded_of_never_called h hcreated rfl
  exact Bool.false_ne_true (hguarded.1 twinResponse_dispatch.1 twinResponse_dispatch.2)

end DeviceSample.Mqtt
