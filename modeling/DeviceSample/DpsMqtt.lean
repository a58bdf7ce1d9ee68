import DeviceSample.BaseRun
import DeviceSample.JsonUtils
import DeviceSample.MqttStruct

/-!
The provisioning client. `azure_iot_dps_register` publishes a request and waits for an event flag;
the MQTT client calls `mqtt_notify_cb` for the messages that arrive meanwhile, and the branch of
status 200 stores the assigned identity and sets the flag.
-/

namespace DeviceSample.Dps

open Base JsonUtils Mqtt

/-- `DPS_REGISTER_BASE`. -/
def dpsRegisterBase : List Byte := text "$dps/registrations/res"

/-- `DPS_STATUS_TOPIC`. -/
def dpsStatusTopic : List Byte :=
  text "$dps/registrations/GET/iotdps-get-operationstatus/?$rid=1&operationId="

/-- The text in the topic buffer, as `strstr` reads it. -/
def topicText (m : Memory) : List Byte := m.readString mqttReceiveTopicBuffer.place 256

/-- The text in the message buffer, as `strlen` and `jsmn_parse` read it. -/
def messageText (m : Memory) : List Byte := m.readString mqttReceiveMessageBuffer.place 512

/-- A poll that `process_retry` makes after its sleep: the stores into its local topic array and the
seconds it sleeps. -/
structure Retry where
  retryInterval : Int
  mqttPublishTopic : List Store
  deriving DecidableEq, Repr

/-- `process_retry`. The poll is made whether the operation id was found or not. -/
def processRetry (jsmnParse : JsmnParse) (m : Memory) : Option Retry :=
  match strstr (topicText m) (text "retry-after=") with
  | none => none
  | some found =>
      let tokens := jsmnParse.tokens (messageText m) 12
      some
        { retryInterval := atoi (found.drop 12)
          mqttPublishTopic := strncpy 0 dpsStatusTopic 256 ++
            (findJsonString m mqttReceiveMessageBuffer.place (text "operationId") dpsStatusTopic.length
              tokens).1 }

/-- `process_success`: the memory after its two lookups, whose failures are only printed. -/
def processSuccess (jsmnParse : JsmnParse) (m : Memory) : Memory :=
  let tokens := jsmnParse.tokens (messageText m) 64
  let m := m.run (findJsonString m mqttReceiveMessageBuffer.place (text "assignedHub")
    mqttHubHostname.place tokens).1
  m.run (findJsonString m mqttReceiveMessageBuffer.place (text "deviceId") mqttDeviceId.place tokens).1

/-- What `nxd_mqtt_client_message_get` gives: an error, or a topic and a payload. -/
inductive Delivery
  | failed
  | message (topic payload : List Byte)
  deriving DecidableEq, Repr

/-- The structure and its event flag, with the messages received and the polls made so far. -/
structure State where
  memory : Memory
  eventFlagsSuccess : Bool
  received : List (List Byte × List Byte)
  retries : List Retry

/-- The two buffers after a message and its terminators were stored. -/
def receive (m : Memory) (topic payload : List Byte) : Memory :=
  (((m.run (storesAt mqttReceiveTopicBuffer.place topic)).run
    (storesAt mqttReceiveMessageBuffer.place payload)).store
      ⟨mqttReceiveTopicBuffer.place + topic.length, 0⟩).store
        ⟨mqttReceiveMessageBuffer.place + payload.length, 0⟩

/-- `msg_status`. The number is read behind the length of the base, wherever the base was found; a
short topic leaves older bytes there. -/
def msgStatus (m : Memory) : Int :=
  atoi (m.readString (mqttReceiveTopicBuffer.place + (dpsRegisterBase.length + 1 : Nat)) 745)

/-- One round of the loop in `mqtt_notify_cb`. -/
def mqttNotifyCb (jsmnParse : JsmnParse) (s : State) : Delivery → State
  | .failed => s
  | .message topic payload =>
      let m := receive s.memory topic payload
      let s := { s with memory := m, received := s.received ++ [(topic, payload)] }
      if strstr (topicText m) dpsRegisterBase = none then s
      else if msgStatus m = 202 then
        { s with retries := s.retries ++ (processRetry jsmnParse m).toList }
      else if msgStatus m = 200 then
        { s with memory := processSuccess jsmnParse m, eventFlagsSuccess := true }
      else s

/-- A topic and a payload that the receive buffers have room for. -/
def Delivery.fits : Delivery → Bool
  | .failed => true
  | .message topic payload => topic.length ≤ 256 && payload.length ≤ 512

/-- The deliveries while the registration waits, from any content of the structure. -/
def machine (jsmnParse : JsmnParse) (m : Memory) : Machine State Delivery where
  start := { memory := m, eventFlagsSuccess := false, received := [], retries := [] }
  step s d := if d.fits then some (mqttNotifyCb jsmnParse s d) else none

/-- What the calls of `azure_iot_dps_register` in front of the wait return. -/
structure Replies where
  createDpsSasToken : Bool
  loginSet : Status
  dnsHostByNameGet : Status
  secureConnect : Status
  subscribe : Status
  publish : Status
  deriving DecidableEq, Repr

/-- `NX_PTR_ERROR`. -/
def nxPtrError : Status := .other 0x07

/-- The result of `azure_iot_dps_register`, from the state in which its wait ends. A failure of the
publication is only printed. -/
def azureIotDpsRegister (r : Replies) (s : State) : Status :=
  if r.createDpsSasToken = false then nxPtrError
  else if firstFailure [r.loginSet, r.dnsHostByNameGet, r.secureConnect, r.subscribe] ≠ .success then
    firstFailure [r.loginSet, r.dnsHostByNameGet, r.secureConnect, r.subscribe]
  else if s.eventFlagsSuccess = false then .notSuccessful
  else .success

theorem eventFlagsSuccess_of_register {r : Replies} {s : State}
    (h : azureIotDpsRegister r s = .success) : s.eventFlagsSuccess = true := by
  rw [azureIotDpsRegister] at h
  split at h
  · cases h
  · split at h
    · rename_i hfailed
      exact absurd h hfailed
    · split at h
      · cases h
      · rename_i hset
        exact eq_true_of_ne_false hset

section buffers

theorem topicBuffer_place : mqttReceiveTopicBuffer.place = 714 := rfl

theorem messageBuffer_place : mqttReceiveMessageBuffer.place = 970 := rfl

variable {m : Memory} {topic payload : List Byte}

/-- A message changes nothing in front of the topic buffer. -/
theorem receive_outside (m : Memory) (topic payload : List Byte) {place : Int} (hplace : place < 714) :
    receive m topic payload place = m place := by
  rw [receive, topicBuffer_place, messageBuffer_place]
  have htopic : place ≠ 714 + topic.length := by omega
  have hmessage : place ≠ 970 + payload.length := by omega
  rw [Memory.store, if_neg hmessage, Memory.store, if_neg htopic,
    Memory.run_storesAt_outside _ _ _ _ (Or.inl (by omega)),
    Memory.run_storesAt_outside _ _ _ _ (Or.inl (by omega))]

/-- The handlers see a topic as it was sent, also when it fills the buffer. -/
theorem receive_topic (m : Memory) (payload : List Byte) (htopic : 0 ∉ topic) (hroom : topic.length ≤ 256) :
    (receive m topic payload).IsString mqttReceiveTopicBuffer.place topic := by
  apply (Memory.IsString.ofStores m mqttReceiveTopicBuffer.place htopic).congr
  intro place hfirst hlast
  rw [receive, Memory.run_storesAt_concat]
  rw [topicBuffer_place] at hfirst hlast ⊢
  rw [messageBuffer_place, Memory.store, Memory.store, Memory.store]
  -- the terminator of a topic that fills the buffer stands in the message buffer
  by_cases hend : place = 714 + topic.length
  · simp [hend]
  · have hbefore : place < 970 := by omega
    have hmessage : place ≠ 970 + payload.length := by omega
    simp only [hend, hmessage, if_false]
    exact Memory.run_storesAt_outside _ _ _ _ (Or.inl hbefore)

theorem receive_message (hpayload : 0 ∉ payload) (hroom : topic.length < 256) :
    (receive m topic payload).IsString mqttReceiveMessageBuffer.place payload := by
  apply (Memory.IsString.ofStores (m.run (storesAt mqttReceiveTopicBuffer.place topic))
    mqttReceiveMessageBuffer.place hpayload).congr
  intro place hfirst hlast
  rw [receive, Memory.run_storesAt_concat]
  rw [messageBuffer_place] at hfirst hlast ⊢
  rw [topicBuffer_place]
  have htopic : place ≠ 714 + topic.length := by omega
  rw [Memory.store, Memory.store, if_neg htopic, Memory.store]

end buffers

section lookups

variable {jsmnParse : JsmnParse} {m : Memory} {payload hub device : List Byte}

/-- What the two lookups store when both find a string: the second one still reads the payload that
the first one read. -/
theorem processSuccess_eq (hpayload : m.IsString mqttReceiveMessageBuffer.place payload)
    (hroom : payload.length ≤ 512)
    (hhub : findString payload (text "assignedHub") (jsmnParse.tokens payload 64) = some hub)
    (hdevice : findString payload (text "deviceId") (jsmnParse.tokens payload 64) = some device) :
    processSuccess jsmnParse m =
      (m.run (storesAt mqttHubHostname.place (hub ++ [0]))).run
        (storesAt mqttDeviceId.place (device ++ [0])) := by
  have htext : messageText m = payload := by
    rw [messageText, hpayload.readString, List.take_of_length_le hroom]
  have hwithin := jsmnParse.tokens_within payload 64
  have hkept : (m.run (storesAt mqttHubHostname.place (hub ++ [0]))).IsString
      mqttReceiveMessageBuffer.place payload := by
    apply hpayload.frame
    have hlength := (findString_piece hhub).length_le
    rw [List.length_append, List.length_singleton, messageBuffer_place]
    have hplace : mqttHubHostname.place = 0 := rfl
    omega
  rw [processSuccess, htext, findJsonString_eq _ _ hpayload hwithin, hhub,
    findJsonString_eq _ _ hkept hwithin, hdevice]

/-- Strings that fit their arrays are stored whole, and nothing else is touched. -/
theorem identityStored_of_lengths (hhub : hub.length ≤ 99) (hdevice : device.length ≤ 63)
    (hhubNul : 0 ∉ hub) (hdeviceNul : 0 ∉ device) :
    IdentityStored m
      ((m.run (storesAt mqttHubHostname.place (hub ++ [0]))).run
        (storesAt mqttDeviceId.place (device ++ [0]))) hub device where
  hostname_held := by
    apply Field.holds_of_isString
    · apply (Memory.IsString.ofStores m mqttHubHostname.place hhubNul).frame
      have hplace : mqttHubHostname.place = 0 := rfl
      have hplace' : mqttDeviceId.place = 112 := rfl
      omega
    · exact Nat.lt_succ_of_le hhub
  deviceId_held := by
    apply Field.holds_of_isString
    · exact Memory.IsString.ofStores _ mqttDeviceId.place hdeviceNul
    · exact Nat.lt_succ_of_le hdevice
  frame := by
    intro place hnotHub hnotDevice
    rw [Field.Has, not_and, Int.not_lt] at hnotHub hnotDevice
    have hsize : mqttHubHostname.size = 100 := rfl
    have hsize' : mqttDeviceId.size = 64 := rfl
    rw [Memory.run_storesAt_outside, Memory.run_storesAt_outside]
    · rw [List.length_append, List.length_singleton]
      omega
    · rw [List.length_append, List.length_singleton]
      omega

end lookups

/-- An answer of the service, as its jsmn tokens and as the document that they describe. -/
def assignedAnswer : List Byte :=
  text "\x7b\"assignedHub\":\"hub.azure-devices.net\",\"deviceId\":\"board\"\x7d"

def assignedDoc : Json :=
  .object (.cons (text "assignedHub") (.string (text "hub.azure-devices.net"))
    (.cons (text "deviceId") (.string (text "board")) .nil))

theorem assignedAnswer_document : IsDocument assignedAnswer assignedDoc := by
  have hanswer : assignedAnswer = text "\x7b" ++ (quoted (text "assignedHub") ++ text ":" ++
      quoted (text "hub.azure-devices.net") ++ text "," ++ quoted (text "deviceId") ++ text ":" ++
        quoted (text "board")) ++ text "\x7d" := by decide +kernel
  rw [hanswer]
  exact isDocument_twoStrings (by decide +kernel) (by decide +kernel) (by decide +kernel) (by decide +kernel)

/-- What jsmn gives for this answer; the parse of other texts is left out. -/
def assignedParse : JsmnParse := fun js n =>
  if h : js = assignedAnswer ∧ 5 ≤ n then
    some
      { tokens := [⟨.object, 0, 58⟩, ⟨.string, 2, 13⟩, ⟨.string, 16, 37⟩, ⟨.string, 40, 48⟩,
          ⟨.string, 51, 56⟩]
        doc := assignedDoc
        length_le := h.2
        document := h.1 ▸ assignedAnswer_document
        tokens_of := by
          rw [h.1]
          refine .cons ?_ (.cons ?_ (.cons ?_ (.cons ?_ (.cons ?_ .nil))))
          all_goals exact ⟨rfl, by decide +kernel, by decide +kernel⟩ }
  else none

/-- The strings that the lookups find in the answer. -/
theorem assignedParse_finds :
    findString assignedAnswer (text "assignedHub") (assignedParse.tokens assignedAnswer 64) =
        some (text "hub.azure-devices.net") ∧
      findString assignedAnswer (text "deviceId") (assignedParse.tokens assignedAnswer 64) =
        some (text "board") := by
  rw [JsmnParse.tokens, assignedParse, dif_pos ⟨rfl, by decide⟩]
  exact ⟨by decide +kernel, by decide +kernel⟩

end DeviceSample.Dps
