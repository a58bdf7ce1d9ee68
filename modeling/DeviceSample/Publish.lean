import DeviceSample.MqttDirect
import DeviceSample.NxCreate

/-!
The publishing functions of both clients. Each prints a JSON text into an array of a fixed size and
hands the string in the array to its transport; the MQTT client does not look at the length of the
text, the NX client compares it with the size.
-/

namespace DeviceSample.Publish

open Base Mqtt Nx

/-- The float operations of the publishers: the conversions between `float` and `int`, and the
arithmetic on floats. -/
structure FloatArithmetic (F : Type) where
  toInt : F → Int
  ofInt : Int → F
  sub : F → F → F
  mul : F → F → F

section texts

variable {F : Type} (arithmetic : FloatArithmetic F)

/-- `decvalue`, `intvalue`. -/
def decvalue (value : F) : Int := arithmetic.toInt value

/-- `fracvalue`. -/
def fracvalue (value : F) : Nat :=
  (arithmetic.toInt (arithmetic.mul (arithmetic.ofInt 100)
    (arithmetic.sub value (arithmetic.ofInt (arithmetic.toInt value))))).natAbs

/-- `{"%s":%d.%2d}`. -/
def floatText (label : List Byte) (decvalue : Int) (fracvalue : Nat) : List Byte :=
  text "\x7b\"" ++ label ++ text "\":" ++ signedDecimal decvalue ++ text "." ++
    paddedDecimal 2 fracvalue ++ text "\x7d"

/-- `{"%s":%s}`, for a bool. -/
def boolText (label : List Byte) (value : Bool) : List Byte :=
  text "\x7b\"" ++ label ++ text "\":" ++ (if value then text "true" else text "false") ++ text "\x7d"

/-- `{"%s":{"value":%d,"ac":200,"av":1}}`. -/
def intPropertyText (label : List Byte) (value : BitVec 32) : List Byte :=
  text "\x7b\"" ++ label ++ text "\":\x7b\"value\":" ++ signedDecimal value.toInt ++
    text ",\"ac\":200,\"av\":1\x7d\x7d"

/-- `{"%s":{"value":%d,"ac":%d,"av":%d}}`. -/
def responseText (label : List Byte) (value status version : BitVec 32) : List Byte :=
  text "\x7b\"" ++ label ++ text "\":\x7b\"value\":" ++ signedDecimal value.toInt ++ text ",\"ac\":" ++
    signedDecimal status.toInt ++ text ",\"av\":" ++ signedDecimal version.toInt ++ text "\x7d\x7d"

/-- `{"registrationId":"%s","payload":{"modelId":"%s"}}`. -/
def registrationText (registrationId modelId : List Byte) : List Byte :=
  text "\x7b\"registrationId\":\"" ++ registrationId ++ text "\",\"payload\":\x7b\"modelId\":\"" ++
    modelId ++ text "\"\x7d\x7d"

end texts

section mqtt

/-- The status of a publishing function and what it passed to `nxd_mqtt_client_publish`. -/
structure Published where
  status : Status
  sent : List Publication
  deriving DecidableEq, Repr

/-- `mqtt_publish`; the reply is that of the client. -/
def mqttPublish (reply : Status) (topic message : List Byte) : Published := ⟨reply, [⟨topic, message⟩]⟩

/-- `mqtt_publish_float`. -/
def mqttPublishFloat {F : Type} (arithmetic : FloatArithmetic F) (reply : Status) (topic : List Byte)
    (label : CString) (value : F) : Published :=
  mqttPublish reply topic (snprintfText 100
    (floatText label.bytes (decvalue arithmetic value) (fracvalue arithmetic value)))

/-- `mqtt_publish_bool`. -/
def mqttPublishBool (reply : Status) (topic : List Byte) (label : CString) (value : Bool) : Published :=
  mqttPublish reply topic (snprintfText 200 (boolText label.bytes value))

/-- `DEVICE_TWIN_PUBLISH_TOPIC` in an array of 100 bytes. -/
def deviceTwinPublishTopic (reportedPropertyVersion : BitVec 32) : List Byte :=
  snprintfText 100 (text "$iothub/twin/PATCH/properties/reported/?$rid=" ++
    signedDecimal reportedPropertyVersion.toInt)

/-- The two counters of the structure. -/
structure Versions where
  reportedPropertyVersion : BitVec 32
  desiredPropertyVersion : BitVec 32
  deriving DecidableEq, Repr

/-- The counters after `reported_property_version++`. -/
def Versions.reported (v : Versions) : Versions :=
  { v with reportedPropertyVersion := v.reportedPropertyVersion + 1 }

/-- `azure_iot_mqtt_publish_int_writeable_property`. -/
def azureIotMqttPublishIntWriteableProperty (v : Versions) (reply : Status) (label : CString)
    (value : BitVec 32) : Published × Versions :=
  (mqttPublish reply (deviceTwinPublishTopic v.reportedPropertyVersion)
    (snprintfText 100 (intPropertyText label.bytes value)), v.reported)

/-- `azure_iot_mqtt_respond_int_writeable_property`. -/
def azureIotMqttRespondIntWriteableProperty (v : Versions) (reply : Status) (label : CString)
    (value httpStatus : BitVec 32) : Published × Versions :=
  (mqttPublish reply (deviceTwinPublishTopic v.reportedPropertyVersion)
    (snprintfText 100 (responseText label.bytes value httpStatus v.desiredPropertyVersion)), v.reported)

/-- `DPS_REGISTER_TOPIC`. -/
def dpsRegisterTopic : List Byte := text "$dps/registrations/PUT/iotdps-register/?$rid=1"

/-- The publication of `azure_iot_dps_register`, which the calls in front of it can prevent; the
function goes on when it fails. -/
def registrationPublished (r : Dps.Replies) (s : Dps.State) (registrationId modelId : CString) : Published where
  status := Dps.azureIotDpsRegister r s
  sent :=
    if r.createDpsSasToken = false then []
    else if firstFailure [r.loginSet, r.dnsHostByNameGet, r.secureConnect, r.subscribe] ≠ .success then []
    else (mqttPublish r.publish dpsRegisterTopic
      (snprintfText 100 (registrationText registrationId.bytes modelId.bytes))).sent

end mqtt

section nx

/-- `PUBLISH_BUFFER_SIZE`. -/
def publishBufferSize : Nat := 64

/-- The status of a publishing function and the texts that it passed to the hub client. -/
structure Sent where
  status : Status
  sent : List (List Byte)
  deriving DecidableEq, Repr

/-- The print reports more characters than the array takes. -/
def TooLong (t : List Byte) : Prop := (snprintf 0 publishBufferSize t).2 > publishBufferSize - 1

instance (t : List Byte) : Decidable (TooLong t) := by
  unfold TooLong
  infer_instance

/-- What the calls for a telemetry message return. -/
structure TelemetryReplies where
  messageCreate : Status
  send : Status
  deriving DecidableEq, Repr

/-- `azure_iot_nx_client_publish_float_telemetry`. -/
def azureIotNxClientPublishFloatTelemetry {F : Type} (arithmetic : FloatArithmetic F)
    (r : TelemetryReplies) (key : CString) (value : F) : Sent :=
  let t := floatText key.bytes (decvalue arithmetic value) (fracvalue arithmetic value)
  if TooLong t then ⟨nxSizeError, []⟩
  else if r.messageCreate ≠ .success then ⟨r.messageCreate, []⟩
  else if r.send ≠ .success then ⟨r.send, [snprintfText publishBufferSize t]⟩
  else ⟨.success, [snprintfText publishBufferSize t]⟩

/-- What `nx_azure_iot_hub_client_device_twin_reported_properties_send` returns and stores. -/
structure ReportReplies where
  send : Status
  responseStatus : BitVec 32
  deriving DecidableEq, Repr

/-- The common body of the functions that publish a property. -/
def publishProperty (r : ReportReplies) (t : List Byte) : Sent :=
  if TooLong t then ⟨nxSizeError, []⟩
  else if r.send ≠ .success then ⟨r.send, [snprintfText publishBufferSize t]⟩
  -- a response status that is no success is printed, and the status of the call returned
  else if r.responseStatus.toNat < 200 ∨ 300 ≤ r.responseStatus.toNat then
    ⟨r.send, [snprintfText publishBufferSize t]⟩
  else ⟨.success, [snprintfText publishBufferSize t]⟩

/-- `azure_iot_nx_client_publish_float_property`. -/
def azureIotNxClientPublishFloatProperty {F : Type} (arithmetic : FloatArithmetic F) (r : ReportReplies)
    (key : CString) (value : F) : Sent :=
  publishProperty r (floatText key.bytes (decvalue arithmetic value) (fracvalue arithmetic value))

/-- `azure_iot_nx_client_publish_bool_property`. -/
def azureIotNxClientPublishBoolProperty (r : ReportReplies) (key : CString) (value : Bool) : Sent :=
  publishProperty r (boolText key.bytes value)

/-- `azure_nx_client_respond_int_writeable_property`, which goes on when the call fails. -/
def azureNxClientRespondIntWriteableProperty (r : ReportReplies) (property : CString)
    (value httpStatus version : BitVec 32) : Sent :=
  let t := responseText property.bytes value httpStatus version
  if TooLong t then ⟨nxSizeError, []⟩
  else if r.responseStatus.toNat < 200 ∨ 300 ≤ r.responseStatus.toNat then
    ⟨r.send, [snprintfText publishBufferSize t]⟩
  else ⟨r.send, [snprintfText publishBufferSize t]⟩

end nx

/-- The complete text went to the transport; or nothing did, and the status says so. -/
def WholeOrNothing (t : List Byte) (status : Status) (messages : List (List Byte)) : Prop :=
  messages = [t] ∨ status ≠ .success ∧ messages = []

/-- What was passed to `nxd_mqtt_client_publish`, without the topics. -/
def Published.messages (x : Published) : List (List Byte) := x.sent.map Publication.message

theorem wholeOrNothing_some {t t' : List Byte} {status : Status} :
    WholeOrNothing t status [t'] ↔ t' = t := by
  simp [WholeOrNothing]

/-- A text that is sent without a look at its length is sent whole exactly if it fits. -/
theorem wholeOrNothing_mqtt {size : Nat} (hsize : size ≠ 0) (status reply : Status) (topic t : List Byte) :
    WholeOrNothing t status (mqttPublish reply topic (snprintfText size t)).messages ↔ t.length < size := by
  rw [← snprintfText_eq_self hsize]
  exact wholeOrNothing_some

/-- The text is refused exactly if its length is an `int` above the array. -/
theorem tooLong_iff (t : List Byte) : TooLong t ↔ 64 ≤ t.length ∧ t.length < 2 ^ 31 := by
  have hsize : ((publishBufferSize - 1 : Nat) : Int) = 63 := rfl
  unfold TooLong snprintf printedLength
  show (if t.length < 2 ^ 31 then (t.length : Int) else -1) > _ ↔ _
  split
  · omega
  · omega

/-- A text that is not refused is sent whole exactly if its length is an `int`. -/
theorem wholeOrNothing_nx {t : List Byte} (status : Status) (ht : ¬TooLong t) :
    WholeOrNothing t status [snprintfText publishBufferSize t] ↔ t.length < 2 ^ 31 := by
  have hsize : publishBufferSize = 64 := rfl
  rw [tooLong_iff] at ht
  rw [wholeOrNothing_some, snprintfText_eq_self (by decide), hsize]
  omega

theorem wholeOrNothing_refused {t : List Byte} (ht : TooLong t) :
    WholeOrNothing t nxSizeError [] ↔ t.length < 2 ^ 31 :=
  ⟨fun _ => ((tooLong_iff t).mp ht).2, fun _ => Or.inr ⟨Status.noConfusion, rfl⟩⟩

theorem publishProperty_iff (r : ReportReplies) (t : List Byte) :
    WholeOrNothing t (publishProperty r t).status (publishProperty r t).sent ↔ t.length < 2 ^ 31 := by
  by_cases ht : TooLong t
  · rw [publishProperty, if_pos ht]
    exact wholeOrNothing_refused ht
  · rw [publishProperty, if_neg ht]
    split
    · exact wholeOrNothing_nx _ ht
    · split
      · exact wholeOrNothing_nx _ ht
      · exact wholeOrNothing_nx _ ht

theorem respond_iff (r : ReportReplies) (property : CString) (value httpStatus version : BitVec 32) :
    WholeOrNothing (responseText property.bytes value httpStatus version)
        (azureNxClientRespondIntWriteableProperty r property value httpStatus version).status
        (azureNxClientRespondIntWriteableProperty r property value httpStatus version).sent ↔
      (responseText property.bytes value httpStatus version).length < 2 ^ 31 := by
  by_cases ht : TooLong (responseText property.bytes value httpStatus version)
  · rw [azureNxClientRespondIntWriteableProperty, if_pos ht]
    exact wholeOrNothing_refused ht
  · rw [azureNxClientRespondIntWriteableProperty, if_neg ht]
    split
    · exact wholeOrNothing_nx _ ht
    · exact wholeOrNothing_nx _ ht

theorem telemetry_iff {F : Type} (arithmetic : FloatArithmetic F) (r : TelemetryReplies) (key : CString)
    (value : F) :
    WholeOrNothing (floatText key.bytes (decvalue arithmetic value) (fracvalue arithmetic value))
        (azureIotNxClientPublishFloatTelemetry arithmetic r key value).status
        (azureIotNxClientPublishFloatTelemetry arithmetic r key value).sent ↔
      (floatText key.bytes (decvalue arithmetic value) (fracvalue arithmetic value)).length < 2 ^ 31 ∨
        r.messageCreate ≠ .success := by
  rw [azureIotNxClientPublishFloatTelemetry]
  generalize floatText key.bytes (decvalue arithmetic value) (fracvalue arithmetic value) = t
  by_cases ht : TooLong t
  · rw [if_pos ht]
    exact ⟨fun _ => Or.inl ((tooLong_iff t).mp ht).2, fun _ => Or.inr ⟨Status.noConfusion, rfl⟩⟩
  · rw [if_neg ht]
    by_cases hcreate : r.messageCreate = .success
    · rw [if_neg (not_not_intro hcreate), or_iff_left (not_not_intro hcreate)]
      split
      · exact wholeOrNothing_nx _ ht
      · exact wholeOrNothing_nx _ ht
    · rw [if_pos hcreate]
      exact ⟨fun _ => Or.inr hcreate, fun _ => Or.inr ⟨hcreate, rfl⟩⟩

theorem registration_iff (r : Dps.Replies) (s : Dps.State) (registrationId modelId : CString) :
    WholeOrNothing (registrationText registrationId.bytes modelId.bytes)
        (registrationPublished r s registrationId modelId).status
        (registrationPublished r s registrationId modelId).messages ↔
      (r.createDpsSasToken = false ∨
          firstFailure [r.loginSet, r.dnsHostByNameGet, r.secureConnect, r.subscribe] ≠ .success) ∨
        (registrationText registrationId.bytes modelId.bytes).length ≤ 99 := by
  rw [registrationPublished, Dps.azureIotDpsRegister, Published.messages]
  by_cases htoken : r.createDpsSasToken = false
  · rw [if_pos htoken, if_pos htoken]
    exact ⟨fun _ => Or.inl (Or.inl htoken), fun _ => Or.inr ⟨Status.noConfusion, rfl⟩⟩
  · rw [if_neg htoken, if_neg htoken]
    by_cases hcalls : firstFailure [r.loginSet, r.dnsHostByNameGet, r.secureConnect, r.subscribe] = .success
    · rw [if_neg (not_not_intro hcalls), or_iff_right (not_or_intro htoken (not_not_intro hcalls)),
        if_neg (not_not_intro hcalls)]
      exact (wholeOrNothing_mqtt (Nat.succ_ne_zero 99) _ r.publish dpsRegisterTopic _).trans Nat.lt_succ_iff
    · rw [if_pos hcalls, if_pos hcalls]
      exact ⟨fun _ => Or.inl (Or.inr hcalls), fun _ => Or.inr ⟨hcalls, rfl⟩⟩

/-- Every publishing function, over every text that is put in and every answer of the transport: it
sends the complete text, or sends nothing and says so, exactly if the text fits the array that the MQTT
client prints into, or has a length that is an `int`, which is what the NX client asks. -/
theorem whole_or_nothing_iff {F : Type} (arithmetic : FloatArithmetic F) :
    (∀ (reply : Status) (topic : List Byte) (label : CString) (value : F),
      let t := floatText label.bytes (decvalue arithmetic value) (fracvalue arithmetic value)
      let sent := mqttPublishFloat arithmetic reply topic label value
      WholeOrNothing t sent.status sent.messages ↔ t.length ≤ 99) ∧
    (∀ (reply : Status) (topic : List Byte) (label : CString) (value : Bool),
      let t := boolText label.bytes value
      let sent := mqttPublishBool reply topic label value
      WholeOrNothing t sent.status sent.messages ↔ t.length ≤ 199) ∧
    (∀ (v : Versions) (reply : Status) (label : CString) (value : BitVec 32),
      let t := intPropertyText label.bytes value
      let sent := (azureIotMqttPublishIntWriteableProperty v reply label value).1
      WholeOrNothing t sent.status sent.messages ↔ t.length ≤ 99) ∧
    (∀ (v : Versions) (reply : Status) (label : CString) (value httpStatus : BitVec 32),
      let t := responseText label.bytes value httpStatus v.desiredPropertyVersion
      let sent := (azureIotMqttRespondIntWriteableProperty v reply label value httpStatus).1
      WholeOrNothing t sent.status sent.messages ↔ t.length ≤ 99) ∧
    (∀ (r : Dps.Replies) (s : Dps.State) (registrationId modelId : CString),
      let t := registrationText registrationId.bytes modelId.bytes
      let sent := registrationPublished r s registrationId modelId
      WholeOrNothing t sent.status sent.messages ↔
        (r.createDpsSasToken = false ∨
          firstFailure [r.loginSet, r.dnsHostByNameGet, r.secureConnect, r.subscribe] ≠ .success) ∨
        t.length ≤ 99) ∧
    (∀ (r : TelemetryReplies) (key : CString) (value : F),
      let t := floatText key.bytes (decvalue arithmetic value) (fracvalue arithmetic value)
      let sent := azureIotNxClientPublishFloatTelemetry arithmetic r key value
      WholeOrNothing t sent.status sent.sent ↔ t.length < 2 ^ 31 ∨ r.messageCreate ≠ .success) ∧
    (∀ (r : ReportReplies) (key : CString) (value : F),
      let t := floatText key.bytes (decvalue arithmetic value) (fracvalue arithmetic value)
      let sent := azureIotNxClientPublishFloatProperty arithmetic r key value
      WholeOrNothing t sent.status sent.sent ↔ t.length < 2 ^ 31) ∧
    (∀ (r : ReportReplies) (key : CString) (value : Bool),
      let t := boolText key.bytes value
      let sent := azureIotNxClientPublishBoolProperty r key value
      WholeOrNothing t sent.status sent.sent ↔ t.length < 2 ^ 31) ∧
    ∀ (r : ReportReplies) (property : CString) (value httpStatus version : BitVec 32),
      let t := responseText property.bytes value httpStatus version
      let sent := azureNxClientRespondIntWriteableProperty r property value httpStatus version
      WholeOrNothing t sent.status sent.sent ↔ t.length < 2 ^ 31 := by
  refine ⟨?_, ?_, ?_, ?_, registration_iff, telemetry_iff arithmetic, ?_, ?_, respond_iff⟩
  · intro reply topic label value
    exact (wholeOrNothing_mqtt (Nat.succ_ne_zero 99) reply reply topic _).trans Nat.lt_succ_iff
  · intro reply topic label value
    exact (wholeOrNothing_mqtt (Nat.succ_ne_zero 199) reply reply topic _).trans Nat.lt_succ_iff
  · intro v reply label value
    exact (wholeOrNothing_mqtt (Nat.succ_ne_zero 99) reply reply _ _).trans Nat.lt_succ_iff
  · intro v reply label value httpStatus
    exact (wholeOrNothing_mqtt (Nat.succ_ne_zero 99) reply reply _ _).trans Nat.lt_succ_iff
  · intro r key value
    exact publishProperty_iff r _
  · intro r key value
    exact publishProperty_iff r _

/-- The model id of the sample and a registration id of 18 characters: 99 of the 105 characters of the
registration are published. -/
theorem registration_truncated : ∃ registrationId modelId : CString,
    ¬WholeOrNothing (registrationText registrationId.bytes modelId.bytes)
        (registrationPublished ⟨true, .success, .success, .success, .success, .success⟩
          ⟨fun _ => 0, false, [], []⟩ registrationId modelId).status
        (registrationPublished ⟨true, .success, .success, .success, .success, .success⟩
          ⟨fun _ => 0, false, [], []⟩ registrationId modelId).messages := by
  refine ⟨⟨text "contoso-thermostat", by decide⟩,
    ⟨text "dtmi:azure:verifiedtelemetry:sample:GSG;1", by decide⟩, fun hwhole => ?_⟩
  have hfits := (registration_iff _ _ _ _).mp hwhole
  revert hfits
  decide

/-- The service has accepted the report. -/
def Accepted (r : ReportReplies) : Prop :=
  r.send = .success ∧ 200 ≤ r.responseStatus.toNat ∧ r.responseStatus.toNat < 300

/-- The status of a publishing function says whether the report was accepted, and a response status that
a failed call has left unset changes nothing. -/
structure ReportsAcceptance (publish : ReportReplies → Sent) (r : ReportReplies) : Prop where
  status_iff : (publish r).status = .success ↔ Accepted r
  unset_ignored : r.send ≠ .success → ∀ responseStatus,
    publish { r with responseStatus := responseStatus } = publish r

section acceptance

variable {publish : ReportReplies → Sent} {r : ReportReplies} {t : List Byte}

theorem not_tooLong (hfits : t.length < publishBufferSize) : ¬TooLong t := by
  have hsize : publishBufferSize = 64 := rfl
  rw [tooLong_iff]
  omega

/-- A function that returns the status of its call takes every answer of the service for an acceptance. -/
theorem reportsAcceptance_iff (hpublish : ∀ r, publish r = ⟨r.send, [t]⟩) :
    ReportsAcceptance publish r ↔
      (r.send = .success → 200 ≤ r.responseStatus.toNat ∧ r.responseStatus.toNat < 300) := by
  have hstatus : (publish r).status = r.send := by rw [hpublish]
  constructor
  · intro h hsend
    exact (h.status_iff.mp (hstatus.trans hsend)).2
  · intro h
    constructor
    · rw [hstatus]
      exact ⟨fun hsend => ⟨hsend, h hsend⟩, fun haccepted => haccepted.1⟩
    · intro _ responseStatus
      rw [hpublish, hpublish]

/-- Both tests of the common body end in the status of the call. -/
theorem publishProperty_eq (hfits : t.length < publishBufferSize) (r : ReportReplies) :
    publishProperty r t = ⟨r.send, [snprintfText publishBufferSize t]⟩ := by
  rw [publishProperty, if_neg (not_tooLong hfits)]
  by_cases hsend : r.send = .success
  · rw [if_neg (not_not_intro hsend), hsend, ite_self]
  · rw [if_pos hsend]

theorem respond_eq (property : CString) (value httpStatus version : BitVec 32)
    (hfits : (responseText property.bytes value httpStatus version).length < publishBufferSize)
    (r : ReportReplies) : azureNxClientRespondIntWriteableProperty r property value httpStatus version =
      ⟨r.send, [snprintfText publishBufferSize (responseText property.bytes value httpStatus version)]⟩ := by
  rw [azureNxClientRespondIntWriteableProperty, if_neg (not_tooLong hfits), ite_self]

end acceptance

/-- **The functions that publish a property tell acceptance exactly if the call fails or the service
accepts**, for all texts that fit and all answers. -/
theorem reports_acceptance_iff {F : Type} (arithmetic : FloatArithmetic F) (r : ReportReplies) :
    (∀ (key : CString) (value : F),
      (floatText key.bytes (decvalue arithmetic value) (fracvalue arithmetic value)).length <
          publishBufferSize →
        (ReportsAcceptance (azureIotNxClientPublishFloatProperty arithmetic · key value) r ↔
          (r.send = .success → 200 ≤ r.responseStatus.toNat ∧ r.responseStatus.toNat < 300))) ∧
    (∀ (key : CString) (value : Bool), (boolText key.bytes value).length < publishBufferSize →
      (ReportsAcceptance (azureIotNxClientPublishBoolProperty · key value) r ↔
        (r.send = .success → 200 ≤ r.responseStatus.toNat ∧ r.responseStatus.toNat < 300))) ∧
    ∀ (property : CString) (value httpStatus version : BitVec 32),
      (responseText property.bytes value httpStatus version).length < publishBufferSize →
        (ReportsAcceptance (azureNxClientRespondIntWriteableProperty · property value httpStatus version) r ↔
          (r.send = .success → 200 ≤ r.responseStatus.toNat ∧ r.responseStatus.toNat < 300)) := by
  refine ⟨?_, ?_, ?_⟩
  · intro key value hfits
    exact reportsAcceptance_iff (publishProperty_eq hfits)
  · intro key value hfits
    exact reportsAcceptance_iff (publishProperty_eq hfits)
  · intro property value httpStatus version hfits
    exact reportsAcceptance_iff (respond_eq property value httpStatus version hfits)

/-- `ledState`. -/
def ledStateKey : CString := ⟨text "ledState", by decide⟩

/-- Some float arithmetic; the bool report does not use it. -/
def truncated : FloatArithmetic Int := ⟨id, id, (· - ·), (· * ·)⟩

theorem ledState_accepted : (boolText ledStateKey.bytes true).length < publishBufferSize ∧
    ReportsAcceptance (azureIotNxClientPublishBoolProperty · ledStateKey true) ⟨.success, 204⟩ := by
  have hfits : (boolText ledStateKey.bytes true).length < publishBufferSize := by decide
  obtain ⟨-, hbool, -⟩ := reports_acceptance_iff truncated ⟨.success, 204⟩
  exact ⟨hfits, (hbool ledStateKey true hfits).mpr fun _ => by decide⟩

/-- A report that the service refuses is told as a success. -/
theorem ledState_refused : (boolText ledStateKey.bytes true).length < publishBufferSize ∧
    ¬ReportsAcceptance (azureIotNxClientPublishBoolProperty · ledStateKey true) ⟨.success, 400⟩ := by
  refine ⟨by decide, fun h => ?_⟩
  have haccepted := h.status_iff.mp (by decide +kernel)
  exact absurd haccepted.2 (by decide)

end DeviceSample.Publish
