import DeviceSample.BaseSearch
import DeviceSample.MqttDirect
import DeviceSample.MqttIdentity

/-!
The receive callback of the hub client. A message is stored in the two buffers, and a chain of searches
in its topic chooses one of four handlers; each handler parses the topic and may call a function of the
application through a pointer of the structure.
-/

namespace DeviceSample.Mqtt

open Base Dps

/-- `DEVICE_MESSAGE_BASE`. -/
def deviceMessageBase : List Byte := text "messages/devicebound/"

/-- `DEVICE_TWIN_RES_BASE`. -/
def deviceTwinResBase : List Byte := text "$iothub/twin/res/"

/-- `DEVICE_TWIN_DESIRED_PROP_RES_BASE`. -/
def deviceTwinDesiredPropResBase : List Byte := text "$iothub/twin/PATCH/properties/desired/"

/-- The function pointers of the structure. -/
inductive Slot
  | mqttInvokeDirectMethod
  | mqttC2dMessage
  | mqttDeviceTwinDesiredPropCallback
  | mqttDeviceTwinPropCallback
  deriving DecidableEq, Repr

/-- What the pointers hold, with `none` for NULL. -/
abbrev Callbacks (C : Type) := Slot → Option C

/-- What a handler passes to a callback in front of the message. -/
inductive Argument
  | directMethodName (stack : Memory)
  | properties (s : List Byte)
  | onlyMessage

/-- A call through a pointer, which may hold NULL. -/
structure Invocation (C : Type) where
  callback : Option C
  argument : Argument

/-- What a handler does: its stores into the structure, and the call that it makes. -/
structure Effect (C : Type) where
  stores : List Store
  invoked : Option (Invocation C)

def Effect.nothing {C : Type} : Effect C := ⟨[], none⟩

section parsing

/-- The name and the request id that `process_direct_method` takes from the text at `location`. -/
def methodParts (location : List Byte) : Option (List Byte × List Byte) :=
  match strchr (ascii '/') location with
  | none => none
  | some found =>
      (strstr found (text "$rid=")).map fun rid =>
        (location.take (location.length - found.length), rid.drop 5)

/-- The text behind the first `&`, or the terminator if there is none. -/
def behindAmpersand (properties : List Byte) : List Byte :=
  match strstr properties (text "&") with
  | none => []
  | some properties => properties.drop 1

/-- `properties` of `process_c2d_message`, when it gets to its callback. -/
def c2dProperties (topic : List Byte) : Option (List Byte) :=
  (strstr topic (text ".to")).map behindAmpersand

/-- `response_status` of `process_device_twin_response`. -/
def responseStatus (location : List Byte) : Option Int :=
  (strchr (ascii '/') location).map fun _ => atoi location

/-- The version that `process_device_twin_desired_prop_update` stores. -/
def desiredVersion (location : List Byte) : Option (BitVec 32) :=
  (strstr location (text "$version=")).map fun location => BitVec.ofInt 32 (atoi (location.drop 9))

/-- The text from a place of the topic buffer on. -/
def topicFrom (m : Memory) (start : Nat) : List Byte :=
  m.readString (mqttReceiveTopicBuffer.place + start) mqttReceiveTopicBuffer.size

end parsing

section handlers

variable {C : Type}

/-- `process_direct_method`, with its call; `stack` is behind its local array. -/
def directMethodEffect (callback : Option C) (stack m : Memory) : Effect C :=
  let method := processDirectMethod callback.isSome stack m
  { stores := method.ridStores
    invoked := method.invoked.map fun name => ⟨callback, .directMethodName name⟩ }

/-- `process_c2d_message`. -/
def processC2dMessage (callback : Option C) (m : Memory) : Effect C :=
  match c2dProperties (topicFrom m 0) with
  | none => .nothing
  | some properties =>
      match callback with
      | none => .nothing
      | some registered => ⟨[], some ⟨some registered, .properties properties⟩⟩

/-- `process_device_twin_response`, which does not look at the pointer. -/
def processDeviceTwinResponse (callback : Option C) (m : Memory) : Effect C :=
  if responseStatus (topicFrom m deviceTwinResBase.length) = some 200 then
    ⟨[], some ⟨callback, .onlyMessage⟩⟩
  else .nothing

/-- `process_device_twin_desired_prop_update`, which does not look at the pointer either. -/
def processDeviceTwinDesiredPropUpdate (callback : Option C) (m : Memory) : Effect C :=
  match desiredVersion (topicFrom m deviceTwinDesiredPropResBase.length) with
  | none => .nothing
  | some version =>
      ⟨storesAt desiredPropertyVersion.place (wordBytes version), some ⟨callback, .onlyMessage⟩⟩

/-- The handlers. -/
inductive Handler
  | directMethod
  | c2dMessage
  | deviceTwinResponse
  | deviceTwinDesiredPropUpdate
  deriving DecidableEq, Repr

def Handler.process (callbacks : Callbacks C) (stack m : Memory) : Handler → Effect C
  | .directMethod => directMethodEffect (callbacks .mqttInvokeDirectMethod) stack m
  | .c2dMessage => processC2dMessage (callbacks .mqttC2dMessage) m
  | .deviceTwinResponse => processDeviceTwinResponse (callbacks .mqttDeviceTwinPropCallback) m
  | .deviceTwinDesiredPropUpdate =>
      processDeviceTwinDesiredPropUpdate (callbacks .mqttDeviceTwinDesiredPropCallback) m

/-- The chain of searches in `mqtt_notify_cb`. -/
def dispatch (topic : List Byte) : Option Handler :=
  if strstr topic directMethodReceive ≠ none then some .directMethod
  else if strstr topic deviceMessageBase ≠ none then some .c2dMessage
  else if strstr topic deviceTwinResBase ≠ none then some .deviceTwinResponse
  else if strstr topic deviceTwinDesiredPropResBase ≠ none then some .deviceTwinDesiredPropUpdate
  else none

/-- What follows the receipt in `mqtt_notify_cb`, from the buffers of `m`. -/
def handle (callbacks : Callbacks C) (stack m : Memory) : Effect C :=
  match dispatch (topicText m) with
  | none => .nothing
  | some handler => handler.process callbacks stack m

end handlers

/-- A topic and a payload that `nxd_mqtt_client_message_get` may give for the sizes of the buffers. -/
structure Message where
  topic : List Byte
  payload : List Byte
  topic_no_nul : 0 ∉ topic
  payload_no_nul : 0 ∉ payload
  topic_fits : topic.length ≤ mqttReceiveTopicBuffer.size
  payload_fits : payload.length ≤ mqttReceiveMessageBuffer.size

section receipt

variable (m : Memory) (x : Message)

/-- The searches see the topic, also when it fills its buffer. -/
theorem topicFrom_receive {start : Nat} (hstart : start ≤ x.topic.length) :
    topicFrom (receive m x.topic x.payload) start = x.topic.drop start := by
  have htopic := receive_topic m x.payload x.topic_no_nul x.topic_fits
  rw [topicFrom, (htopic.drop hstart).readString, List.take_of_length_le]
  rw [List.length_drop]
  exact Nat.le_trans (Nat.sub_le _ _) x.topic_fits

theorem topicText_eq (m : Memory) : topicText m = topicFrom m 0 := rfl

theorem topicText_receive : topicText (receive m x.topic x.payload) = x.topic := by
  rw [topicText_eq, topicFrom_receive m x (Nat.zero_le _), List.drop_zero]

end receipt

section methods

variable (registered : Bool) (stack m : Memory)

/-- A method is invoked if its topic has both parts and a callback is registered. -/
theorem processDirectMethod_invoked_iff : (processDirectMethod registered stack m).invoked.isSome ↔
    (methodParts (topicFrom m directMethodReceive.length)).isSome ∧ registered = true := by
  rw [methodParts, topicFrom]
  unfold processDirectMethod
  generalize m.readString (mqttReceiveTopicBuffer.place + (directMethodReceive.length : Nat))
    mqttReceiveTopicBuffer.size = location
  cases hslash : strchr (ascii '/') location with
  | none => simp [hslash]
  | some found =>
      cases hrid : strstr found (text "$rid=") with
      | none => simp [hslash, hrid]
      | some behind => cases registered <;> simp [hslash, hrid]

/-- The request id is copied into its field. -/
theorem processDirectMethod_ridStores {name rid : List Byte}
    (hparts : methodParts (topicFrom m directMethodReceive.length) = some (name, rid)) :
    (processDirectMethod registered stack m).ridStores =
      strncpy directCommandRequestId.place rid directCommandRequestId.size := by
  rw [methodParts, topicFrom] at hparts
  unfold processDirectMethod
  generalize m.readString (mqttReceiveTopicBuffer.place + (directMethodReceive.length : Nat))
    mqttReceiveTopicBuffer.size = location at hparts ⊢
  cases hslash : strchr (ascii '/') location with
  | none =>
      rw [hslash] at hparts
      cases hparts
  | some found =>
      rw [hslash] at hparts
      obtain ⟨behind, hrid, hpair⟩ := Option.map_eq_some_iff.mp hparts
      rw [Prod.mk.injEq] at hpair
      simp only [hslash, hrid, hpair.2]

end methods

end DeviceSample.Mqtt
