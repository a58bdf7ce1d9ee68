import DeviceSample.DpsMqtt

/-!
What a successful registration says about the identity. Only the branch of status 200 sets the flag
that the registration waits for, whatever its lookups found, so the identity is as good as the
messages that took this branch.
-/

namespace DeviceSample.Dps

open Base JsonUtils Mqtt

/-- The status in the topic of an answer: the number behind the base. -/
def topicStatus (topic : List Byte) : Option Int :=
  if (dpsRegisterBase ++ text "/").isPrefixOf topic then
    some (atoi (topic.drop (dpsRegisterBase.length + 1)))
  else none

/-- A received answer of status 200 is a document that names the identity in the structure. -/
def Registered (s : State) : Prop :=
  ∃ topic payload doc hub device, (topic, payload) ∈ s.received ∧ topicStatus topic = some 200 ∧
    IsDocument payload doc ∧ (text "assignedHub", Json.string hub) ∈ doc.allMembers ∧
      (text "deviceId", Json.string device) ∈ doc.allMembers ∧
        mqttHubHostname.Holds s.memory hub ∧ mqttDeviceId.Holds s.memory device

/-- In the document, the first string spelled like each name that a string follows is the name of a
member, and the two values fit their arrays. -/
def Identifies (doc : Json) : Prop :=
  ∃ hub device, findPart (text "assignedHub") doc.parts = some (.name, hub) ∧ hub.length ≤ 99 ∧
    findPart (text "deviceId") doc.parts = some (.name, device) ∧ device.length ≤ 63

/-- An answer of status 200 that the handler sees whole, and whose payload jsmn tokenises as a
document that identifies the device. -/
structure Sound (jsmnParse : JsmnParse) (topic payload : List Byte) : Prop where
  status : topicStatus topic = some 200
  topic_room : topic.length < 256
  payload_text : 0 ∉ payload
  identifies : ∃ parsed, jsmnParse payload 64 = some parsed ∧ Identifies parsed.doc

/-- The handler takes the message for an answer of status 200. -/
def TakesSuccess (s : State) (topic payload : List Byte) : Prop :=
  strstr (topicText (receive s.memory topic payload)) dpsRegisterBase ≠ none ∧
    msgStatus (receive s.memory topic payload) = 200

/-- Every message that takes the branch of status 200 is a sound answer. -/
def SoundStep (jsmnParse : JsmnParse) (s : State) (d : Delivery) : Prop :=
  ∀ topic payload, d = .message topic payload → TakesSuccess s topic payload →
    Sound jsmnParse topic payload

section steps

variable {jsmnParse : JsmnParse} {s : State} {topic payload : List Byte}

theorem Registered.receive (h : Registered s) {s' : State}
    (hmemory : s'.memory = receive s.memory topic payload)
    (hreceived : s'.received = s.received ++ [(topic, payload)]) : Registered s' := by
  obtain ⟨topic', payload', doc, hub, device, hmem, hstatus, hdoc, hhub, hdevice, hhubHeld, hdeviceHeld⟩ := h
  refine ⟨topic', payload', doc, hub, device, ?_, hstatus, hdoc, hhub, hdevice, ?_, ?_⟩
  · rw [hreceived]
    exact List.mem_append_left _ hmem
  · rw [hmemory]
    apply hhubHeld.congr
    rintro place ⟨_, hlast⟩
    have hend : mqttHubHostname.place + mqttHubHostname.size = 100 := rfl
    exact receive_outside _ _ _ (by omega)
  · rw [hmemory]
    apply hdeviceHeld.congr
    rintro place ⟨_, hlast⟩
    have hend : mqttDeviceId.place + mqttDeviceId.size = 176 := rfl
    exact receive_outside _ _ _ (by omega)

/-- A sound answer leaves its own identity in the structure. -/
theorem Sound.registered (h : Sound jsmnParse topic payload) (hroom : payload.length ≤ 512) {s' : State}
    (hmemory : s'.memory = processSuccess jsmnParse (Dps.receive s.memory topic payload))
    (hreceived : s'.received = s.received ++ [(topic, payload)]) : Registered s' := by
  obtain ⟨parsed, hparsed, hub, device, hhub, hhubFits, hdevice, hdeviceFits⟩ := h.identifies
  have htokens : jsmnParse.tokens payload 64 = parsed.tokens := by
    rw [JsmnParse.tokens, hparsed]
  have hfindHub : findString payload (text "assignedHub") (jsmnParse.tokens payload 64) = some hub := by
    rw [htokens, findString_eq_findPart _ parsed.tokens_of, hhub]
    rfl
  have hfindDevice : findString payload (text "deviceId") (jsmnParse.tokens payload 64) = some device := by
    rw [htokens, findString_eq_findPart _ parsed.tokens_of, hdevice]
    rfl
  have hmessage : (Dps.receive s.memory topic payload).IsString mqttReceiveMessageBuffer.place payload :=
    receive_message h.payload_text h.topic_room
  have hhubNul : 0 ∉ hub := fun hmem => h.payload_text ((findString_piece hfindHub).subset hmem)
  have hdeviceNul : 0 ∉ device := fun hmem => h.payload_text ((findString_piece hfindDevice).subset hmem)
  have hstored := identityStored_of_lengths (m := Dps.receive s.memory topic payload) hhubFits
    hdeviceFits hhubNul hdeviceNul
  rw [← processSuccess_eq hmessage hroom hfindHub hfindDevice, ← hmemory] at hstored
  refine ⟨topic, payload, parsed.doc, hub, device, ?_, h.status, parsed.document,
    mem_allMembers_of_findPart hhub, mem_allMembers_of_findPart hdevice, hstored.hostname_held,
    hstored.deviceId_held⟩
  rw [hreceived]
  exact List.mem_append_right _ (List.mem_singleton.mpr rfl)

/-- What one message can do: nothing, a poll, or the lookups of status 200. -/
theorem mqttNotifyCb_cases (jsmnParse : JsmnParse) (s : State) (topic payload : List Byte) :
    ((mqttNotifyCb jsmnParse s (.message topic payload)).memory = receive s.memory topic payload ∧
        (mqttNotifyCb jsmnParse s (.message topic payload)).eventFlagsSuccess = s.eventFlagsSuccess ∨
      TakesSuccess s topic payload ∧
        (mqttNotifyCb jsmnParse s (.message topic payload)).memory =
          processSuccess jsmnParse (receive s.memory topic payload)) ∧
      (mqttNotifyCb jsmnParse s (.message topic payload)).received = s.received ++ [(topic, payload)] := by
  rw [mqttNotifyCb]
  by_cases hbase : strstr (topicText (receive s.memory topic payload)) dpsRegisterBase = none
  · rw [if_pos hbase]
    exact ⟨Or.inl ⟨rfl, rfl⟩, rfl⟩
  · rw [if_neg hbase]
    by_cases hretry : msgStatus (receive s.memory topic payload) = 202
    · rw [if_pos hretry]
      exact ⟨Or.inl ⟨rfl, rfl⟩, rfl⟩
    · rw [if_neg hretry]
      by_cases hsuccess : msgStatus (receive s.memory topic payload) = 200
      · rw [if_pos hsuccess]
        exact ⟨Or.inr ⟨⟨hbase, hsuccess⟩, rfl⟩, rfl⟩
      · rw [if_neg hsuccess]
        exact ⟨Or.inl ⟨rfl, rfl⟩, rfl⟩

end steps

/-- Whenever the flag is set, the identity is that of a sound answer. -/
theorem registered_of_reachableUnder {jsmnParse : JsmnParse} {m : Memory} {s : State}
    (hrun : (machine jsmnParse m).ReachableUnder (SoundStep jsmnParse) s) :
    s.eventFlagsSuccess = true → Registered s := by
  apply hrun.invariant _ fun s => s.eventFlagsSuccess = true → Registered s
  · intro hset
    cases hset
  · intro s d next _ ih hok hstep hset
    rw [machine, Option.ite_none_right_eq_some] at hstep
    obtain ⟨hfits, hstep⟩ := hstep
    cases hstep
    cases d with
    | failed => exact ih hset
    | message topic payload =>
        obtain ⟨heffect, hreceived⟩ := mqttNotifyCb_cases jsmnParse s topic payload
        rcases heffect with ⟨hmemory, hflag⟩ | ⟨htakes, hmemory⟩
        · rw [hflag] at hset
          exact (ih hset).receive hmemory hreceived
        · have hroom : payload.length ≤ 512 := by
            rw [Delivery.fits, Bool.and_eq_true] at hfits
            exact of_decide_eq_true hfits.2
          exact (hok topic payload rfl htakes).registered hroom hmemory hreceived

/-- A registration that succeeds has its identity from an answer of status 200, if every message that
took the branch of status 200 was a sound answer. -/
theorem register_identity (jsmnParse : JsmnParse) (m : Memory) (r : Replies) {s : State}
    (hrun : (machine jsmnParse m).ReachableUnder (SoundStep jsmnParse) s)
    (hsuccess : azureIotDpsRegister r s = .success) : Registered s :=
  registered_of_reachableUnder hrun (eventFlagsSuccess_of_register hsuccess)

/-- The topic of an answer of status 200. -/
def assignedTopic : List Byte := text "$dps/registrations/res/200/?$rid=1"

def allSucceed : Replies := ⟨true, .success, .success, .success, .success, .success⟩

theorem takesSuccess_assigned {s : State} {payload : List Byte} :
    TakesSuccess s assignedTopic payload := by
  have htopic : (receive s.memory assignedTopic payload).IsString mqttReceiveTopicBuffer.place
      assignedTopic := receive_topic _ _ (by decide) (by decide)
  constructor
  · rw [topicText, htopic.readString]
    decide +kernel
  · have hbehind := htopic.drop (k := dpsRegisterBase.length + 1) (by decide)
    rw [msgStatus, hbehind.readString]
    decide +kernel

/-- The flag does not depend on what the lookups found. -/
theorem takesSuccess_sets_flag (jsmnParse : JsmnParse) {s : State} {topic payload : List Byte}
    (htakes : TakesSuccess s topic payload) :
    (mqttNotifyCb jsmnParse s (.message topic payload)).eventFlagsSuccess = true := by
  obtain ⟨hbase, hsuccess⟩ := htakes
  have hretry : msgStatus (receive s.memory topic payload) ≠ 202 := by
    rw [hsuccess]
    decide
  rw [mqttNotifyCb, if_neg hbase, if_neg hretry, if_pos hsuccess]

/-- One answer that names hub and device. -/
theorem register_identity_assigned :
    Registered (mqttNotifyCb assignedParse (machine assignedParse fun _ => 0).start
      (.message assignedTopic assignedAnswer)) := by
  refine register_identity assignedParse (fun _ => 0) allSucceed
    (.step (.message assignedTopic assignedAnswer) .start ?_ rfl) ?_
  · rintro topic payload heq _
    cases heq
    refine ⟨by decide, by decide, by decide, ?_⟩
    refine ⟨_, dif_pos ⟨rfl, by decide⟩, text "hub.azure-devices.net", text "board", ?_⟩
    exact ⟨by decide, by decide, by decide, by decide⟩
  · rw [azureIotDpsRegister, takesSuccess_sets_flag assignedParse takesSuccess_assigned]
    rfl

/-- One answer of status 200 without a payload: the registration succeeds, and no message was a
document at all. -/
theorem register_without_identity : ∃ s : State,
    (machine assignedParse fun _ => 0).Reachable s ∧ azureIotDpsRegister allSucceed s = .success ∧
      ¬ Registered s := by
  refine ⟨_, .step (.message assignedTopic []) .start trivial rfl, ?_, ?_⟩
  · rw [azureIotDpsRegister, takesSuccess_sets_flag assignedParse takesSuccess_assigned]
    rfl
  · rintro ⟨topic, payload, doc, hub, device, hmem, _, hdoc, _⟩
    have hreceived := (mqttNotifyCb_cases assignedParse (machine assignedParse fun _ => 0).start
      assignedTopic []).2
    rw [hreceived, machine, List.nil_append, List.mem_singleton, Prod.mk.injEq] at hmem
    exact hdoc.ne_nil hmem.2

end DeviceSample.Dps
