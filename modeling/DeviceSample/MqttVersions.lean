import DeviceSample.BaseNumber
import DeviceSample.MqttReceive
import DeviceSample.MqttTopics
import DeviceSample.Publish

/-!
The two counters of the twin. An update of desired properties stores its version in the structure before
its callback is called, the answers of the callback print the version from there, and each publication of
a reported property takes the next request id.
-/

namespace DeviceSample.Mqtt

open Base Dps MqttConnect Publish

/-- A 32-bit word in memory, its lowest byte first. -/
def readWord (m : Memory) (place : Int) : BitVec 32 :=
  BitVec.ofNat 32 ((m place).toNat + 2 ^ 8 * (m (place + 1)).toNat + 2 ^ 16 * (m (place + 2)).toNat +
    2 ^ 24 * (m (place + 3)).toNat)

/-- The counters in the structure. -/
def versionsOf (m : Memory) : Versions :=
  ⟨readWord m reportedPropertyVersion.place, readWord m desiredPropertyVersion.place⟩

/-- `azure_iot_mqtt_publish_float_property`. -/
def azureIotMqttPublishFloatProperty {F : Type} (arithmetic : FloatArithmetic F) (v : Versions) (reply : Status)
    (label : CString) (value : F) : Published × Versions :=
  (mqttPublishFloat arithmetic reply (deviceTwinPublishTopic v.reportedPropertyVersion) label value, v.reported)

/-- `azure_iot_mqtt_publish_bool_property`. -/
def azureIotMqttPublishBoolProperty (v : Versions) (reply : Status) (label : CString) (value : Bool) :
    Published × Versions :=
  (mqttPublishBool reply (deviceTwinPublishTopic v.reportedPropertyVersion) label value, v.reported)

/-- The calls that publish a reported property, with what the MQTT client returns. -/
inductive PropertyCall (F : Type)
  | publishFloat (reply : Status) (label : CString) (value : F)
  | publishBool (reply : Status) (label : CString) (value : Bool)
  | publishInt (reply : Status) (label : CString) (value : BitVec 32)
  | respondInt (reply : Status) (label : CString) (value httpStatus : BitVec 32)

/-- A call, from the counters that it finds. -/
def PropertyCall.made {F : Type} (arithmetic : FloatArithmetic F) (v : Versions) :
    PropertyCall F → Published × Versions
  | .publishFloat reply label value => azureIotMqttPublishFloatProperty arithmetic v reply label value
  | .publishBool reply label value => azureIotMqttPublishBoolProperty v reply label value
  | .publishInt reply label value => azureIotMqttPublishIntWriteableProperty v reply label value
  | .respondInt reply label value httpStatus =>
      azureIotMqttRespondIntWriteableProperty v reply label value httpStatus

/-- The store of `reported_property_version++`. -/
def storeReported (m : Memory) (v : Versions) : Memory :=
  m.run (storesAt reportedPropertyVersion.place (wordBytes v.reportedPropertyVersion))

/-- The structure after some calls. -/
def afterCalls {F : Type} (arithmetic : FloatArithmetic F) : Memory → List (PropertyCall F) → Memory
  | m, [] => m
  | m, call :: calls => afterCalls arithmetic (storeReported m (call.made arithmetic (versionsOf m)).2) calls

/-- What some calls publish, each with its call. -/
def publications {F : Type} (arithmetic : FloatArithmetic F) :
    Memory → List (PropertyCall F) → List (PropertyCall F × Published)
  | _, [] => []
  | m, call :: calls =>
      (call, (call.made arithmetic (versionsOf m)).1) ::
        publications arithmetic (storeReported m (call.made arithmetic (versionsOf m)).2) calls

/-- The topics of the four kinds. An update of desired properties has no version, or is
`?$version=` with a number that `atoi` can return. -/
inductive HubTopic
  | deviceMessage (rest : List Byte)
  | directMethod (rest : List Byte)
      (short : ∀ found, strchr (ascii '/') rest = some found → rest.length - found.length < 64)
  | twinResponse (rest : List Byte)
  | desiredUnversioned (rest : List Byte) (absent : strstr rest (text "$version=") = none)
  | desiredVersion (v : Nat) (small : v < 2 ^ 31)

/-- The topic of a device. -/
def HubTopic.bytes (deviceId : List Byte) : HubTopic → List Byte
  | .deviceMessage rest => filterBase deviceId .deviceMessageTopic ++ rest
  | .directMethod rest _ => filterBase deviceId .directMethodTopic ++ rest
  | .twinResponse rest => filterBase deviceId .deviceTwinResTopic ++ rest
  | .desiredUnversioned rest _ => filterBase deviceId .deviceTwinDesiredPropResTopic ++ rest
  | .desiredVersion v _ =>
      filterBase deviceId .deviceTwinDesiredPropResTopic ++ (text "?$version=" ++ decimal v)

/-- A message of one of the kinds, shorter than the buffers. -/
structure HubMessage (deviceId : List Byte) where
  topic : HubTopic
  message : Message
  topic_eq : message.topic = topic.bytes deviceId
  fits : message.Fits

/-- A message with the calls that its callback makes, if it is called, or calls that the application makes
while no callback runs. -/
inductive HubEvent (F : Type) (deviceId : List Byte)
  | received (x : HubMessage deviceId) (stack : Memory) (calls : List (PropertyCall F))
  | between (calls : List (PropertyCall F))

/-- An event, with the structure before it. -/
structure HubRound (F : Type) (deviceId : List Byte) where
  before : Memory
  event : HubEvent F deviceId

namespace HubRound

variable {F : Type} {deviceId : List Byte}

/-- What the handler of a message does; all callbacks are registered. -/
def effect (before : Memory) (x : HubMessage deviceId) (stack : Memory) : Effect Unit :=
  handle (fun _ => some ()) stack (receive before x.message.topic x.message.payload)

/-- The structure when the calls are made. -/
def entered (r : HubRound F deviceId) : Memory :=
  match r.event with
  | .received x stack _ =>
      (receive r.before x.message.topic x.message.payload).run (effect r.before x stack).stores
  | .between _ => r.before

/-- The calls that are made: those of a callback only if it is called. -/
def calls (r : HubRound F deviceId) : List (PropertyCall F) :=
  match r.event with
  | .received x stack calls => if (effect r.before x stack).invoked.isSome then calls else []
  | .between calls => calls

def published (arithmetic : FloatArithmetic F) (r : HubRound F deviceId) : List (PropertyCall F × Published) :=
  publications arithmetic r.entered r.calls

end HubRound

/-- The life of the client. -/
def hubRounds {F : Type} (arithmetic : FloatArithmetic F) (deviceId : List Byte) :
    Loop Memory (HubEvent F deviceId) (HubRound F deviceId) where
  round m event := ⟨m, event⟩
  state r := afterCalls arithmetic r.entered r.calls
  more _ := true

section words

variable (m : Memory) (place : Int) (w : BitVec 32)

theorem readWord_congr {m m' : Memory} {place : Int}
    (h : ∀ place', place ≤ place' → place' < place + 4 → m' place' = m place') : readWord m' place = readWord m place := by
  rw [readWord, readWord, h place (by omega) (by omega), h (place + 1) (by omega) (by omega),
    h (place + 2) (by omega) (by omega), h (place + 3) (by omega) (by omega)]

/-- A word that was stored is read back. -/
theorem readWord_run : readWord (m.run (storesAt place (wordBytes w))) place = w := by
  have hbyte : ∀ shift, ((w >>> shift).setWidth 8).toNat = w.toNat / 2 ^ shift % 2 ^ 8 := fun shift => by
    rw [BitVec.toNat_setWidth, BitVec.toNat_ushiftRight, Nat.shiftRight_eq_div_pow]
  have hstores : storesAt place (wordBytes w) = [⟨place, (w >>> 0).setWidth 8⟩, ⟨place + 1, (w >>> 8).setWidth 8⟩,
      ⟨place + 1 + 1, (w >>> 16).setWidth 8⟩, ⟨place + 1 + 1 + 1, (w >>> 24).setWidth 8⟩] := rfl
  have hread : ∀ k, m.run (storesAt place (wordBytes w)) (place + k) =
      if k = 3 then (w >>> 24).setWidth 8 else if k = 2 then (w >>> 16).setWidth 8
      else if k = 1 then (w >>> 8).setWidth 8 else if k = 0 then (w >>> 0).setWidth 8 else m (place + k) := by
    intro k
    rw [hstores]
    simp only [Memory.run, List.foldl_cons, List.foldl_nil, Memory.store]
    grind
  have hfirst := hread 0
  rw [Int.add_zero] at hfirst
  have hw := w.isLt
  apply BitVec.eq_of_toNat_eq
  rw [readWord, hfirst, hread, hread, hread, BitVec.toNat_ofNat]
  simp only [Int.reduceEq, if_true, if_false, hbyte]
  omega

theorem readWord_run_outside {at' : Int} (xs : List Byte) (h : at' + 4 ≤ place ∨ place + xs.length ≤ at') :
    readWord (m.run (storesAt place xs)) at' = readWord m at' :=
  readWord_congr fun place' hfirst hlast => Memory.run_storesAt_outside _ _ _ _ (by omega)

end words

section counters

variable {F : Type} {arithmetic : FloatArithmetic F} {deviceId : List Byte}

/-- Each call takes the next request id and leaves the version. -/
theorem PropertyCall.made_versions (call : PropertyCall F) (v : Versions) : (call.made arithmetic v).2 = v.reported := by
  cases call <;> rfl

/-- The publication of a call has the topic of its request id. -/
theorem PropertyCall.made_topics (call : PropertyCall F) (v : Versions) :
    (call.made arithmetic v).1.sent.map Publication.topic = [deviceTwinPublishTopic v.reportedPropertyVersion] := by
  cases call <;> rfl

theorem versionsOf_storeReported (m : Memory) (v : Versions) :
    versionsOf (storeReported m v) = ⟨v.reportedPropertyVersion, (versionsOf m).desiredPropertyVersion⟩ := by
  rw [versionsOf, storeReported, readWord_run, readWord_run_outside]
  · rfl
  · exact Or.inr (Int.le_refl _)

/-- The topics of publications. -/
def topicsOf (published : List (PropertyCall F × Published)) : List (List Byte) :=
  published.flatMap fun p => p.2.sent.map Publication.topic

/-- The topics of the next requests. -/
def requestTopics (reported : BitVec 32) (n : Nat) : List (List Byte) :=
  (List.range n).map fun i => deviceTwinPublishTopic (reported + BitVec.ofNat 32 i)

theorem requestTopics_add (reported : BitVec 32) (n k : Nat) :
    requestTopics reported (n + k) = requestTopics reported n ++ requestTopics (reported + BitVec.ofNat 32 n) k := by
  rw [requestTopics, List.range_add, List.map_append, List.map_map]
  refine congrArg _ (List.map_congr_left fun i _ => ?_)
  rw [Function.comp_apply, BitVec.ofNat_add, BitVec.add_assoc]

theorem publications_length (m : Memory) (calls : List (PropertyCall F)) :
    (publications arithmetic m calls).length = calls.length := by
  induction calls generalizing m with
  | nil => rfl
  | cons call calls ih => rw [publications, List.length_cons, List.length_cons, ih]

/-- Calls take one request id after the other, and the version stays. -/
theorem publications_topics (m : Memory) (calls : List (PropertyCall F)) :
    topicsOf (publications arithmetic m calls) =
        requestTopics (versionsOf m).reportedPropertyVersion calls.length ∧
      versionsOf (afterCalls arithmetic m calls) =
        ⟨(versionsOf m).reportedPropertyVersion + BitVec.ofNat 32 calls.length, (versionsOf m).desiredPropertyVersion⟩ := by
  induction calls generalizing m with
  | nil =>
      exact ⟨rfl, congrArg₂ Versions.mk (BitVec.add_zero _).symm rfl⟩
  | cons call calls ih =>
      obtain ⟨htopics, hversions⟩ := ih (storeReported m (call.made arithmetic (versionsOf m)).2)
      have hfirst : requestTopics (versionsOf m).reportedPropertyVersion 1 =
          [deviceTwinPublishTopic (versionsOf m).reportedPropertyVersion] :=
        congrArg (fun c => [deviceTwinPublishTopic c]) (BitVec.add_zero _)
      rw [versionsOf_storeReported, call.made_versions] at htopics hversions
      rw [publications, afterCalls, call.made_versions, List.length_cons, Nat.add_comm, requestTopics_add, hfirst,
        BitVec.ofNat_add, ← BitVec.add_assoc]
      refine ⟨?_, hversions⟩
      rw [topicsOf, List.flatMap_cons, call.made_topics]
      exact congrArg _ htopics

/-- The publications of some calls print the version that the first one finds. -/
theorem publications_made (m : Memory) (calls : List (PropertyCall F)) :
    ∀ p ∈ publications arithmetic m calls, ∃ v : Versions,
      v.desiredPropertyVersion = (versionsOf m).desiredPropertyVersion ∧ p.2 = (p.1.made arithmetic v).1 := by
  induction calls generalizing m with
  | nil => exact fun p hp => nomatch hp
  | cons call calls ih =>
      rw [publications, List.forall_mem_cons]
      refine ⟨⟨versionsOf m, rfl, rfl⟩, fun p hp => ?_⟩
      obtain ⟨v, hv, hmade⟩ := ih _ p hp
      rw [versionsOf_storeReported] at hv
      exact ⟨v, hv, hmade⟩

/-- The request id in a topic is its counter. -/
theorem deviceTwinPublishTopic_eq (reported : BitVec 32) : deviceTwinPublishTopic reported =
    text "$iothub/twin/PATCH/properties/reported/?$rid=" ++ signedDecimal reported.toInt := by
  have hbase : (text "$iothub/twin/PATCH/properties/reported/?$rid=").length = 45 := rfl
  have hlower := BitVec.le_toInt reported
  have hupper := BitVec.toInt_lt (x := reported)
  have hdigits : (decimal reported.toInt.natAbs).length ≤ 10 := decimal_length_le (by decide) (by omega)
  have hsigned : (signedDecimal reported.toInt).length ≤ 11 := by
    rw [signedDecimal]
    split
    · exact Nat.succ_le_succ hdigits
    · exact Nat.le_succ_of_le hdigits
  rw [deviceTwinPublishTopic, snprintfText_eq_self (by decide), List.length_append, hbase]
  omega

/-- Different counters have different request ids. -/
theorem requestTopics_rids (reported : BitVec 32) {n : Nat} (hn : n < 2 ^ 32) : ∃ rids : List (List Byte), rids.Nodup ∧
    requestTopics reported n = rids.map (text "$iothub/twin/PATCH/properties/reported/?$rid=" ++ ·) := by
  refine ⟨(List.range n).map fun i => signedDecimal (reported + BitVec.ofNat 32 i).toInt, ?_, ?_⟩
  · refine List.Nodup.map_on (fun i hi k hk h => ?_) List.nodup_range
    rw [List.mem_range] at hi hk
    have hsame := (BitVec.add_right_inj _).mp (BitVec.eq_of_toInt_eq (signedDecimal_injective h))
    have hvalue := congrArg BitVec.toNat hsame
    rw [BitVec.toNat_ofNat, BitVec.toNat_ofNat, Nat.mod_eq_of_lt (by omega), Nat.mod_eq_of_lt (by omega)] at hvalue
    exact hvalue
  · rw [requestTopics, List.map_map]
    exact List.map_congr_left fun i _ => deviceTwinPublishTopic_eq _

end counters

section handling

variable {C : Type}

theorem processDirectMethod_stores (registered : Bool) (stack m : Memory) :
    (processDirectMethod registered stack m).ridStores = [] ∨
      ∃ rid, (processDirectMethod registered stack m).ridStores =
        strncpy directCommandRequestId.place rid directCommandRequestId.size := by
  cases hparts : methodParts (topicFrom m directMethodReceive.length) with
  | some parts => exact Or.inr ⟨parts.2, processDirectMethod_ridStores registered stack m hparts⟩
  | none =>
      rw [methodParts, topicFrom] at hparts
      unfold processDirectMethod
      generalize m.readString (mqttReceiveTopicBuffer.place + (directMethodReceive.length : Nat))
        mqttReceiveTopicBuffer.size = location at hparts ⊢
      cases hslash : strchr (ascii '/') location with
      | none => exact Or.inl (by simp only [hslash])
      | some found =>
          rw [hslash] at hparts
          have hrid : strstr found (text "$rid=") = none := Option.map_eq_none_iff.mp hparts
          exact Or.inl (by simp only [hslash, hrid])

/-- A handler stores a request id, a version, or nothing. -/
theorem handle_stores (callbacks : Callbacks C) (stack m : Memory) :
    (handle callbacks stack m).stores = [] ∨
      (∃ rid, (handle callbacks stack m).stores =
        strncpy directCommandRequestId.place rid directCommandRequestId.size) ∨
      ∃ version, (handle callbacks stack m).stores =
        storesAt desiredPropertyVersion.place (wordBytes version) := by
  rw [handle]
  cases dispatch (topicText m) with
  | none => exact Or.inl rfl
  | some handler =>
      cases handler with
      | directMethod =>
          rcases processDirectMethod_stores (callbacks .mqttInvokeDirectMethod).isSome stack m with h | ⟨rid, h⟩
          · exact Or.inl h
          · exact Or.inr (Or.inl ⟨rid, h⟩)
      | c2dMessage =>
          refine Or.inl ?_
          show (processC2dMessage (callbacks .mqttC2dMessage) m).stores = []
          rw [processC2dMessage]
          split
          · rfl
          · split <;> rfl
      | deviceTwinResponse =>
          refine Or.inl ?_
          show (processDeviceTwinResponse (callbacks .mqttDeviceTwinPropCallback) m).stores = []
          rw [processDeviceTwinResponse]
          split <;> rfl
      | deviceTwinDesiredPropUpdate =>
          cases hversion : desiredVersion (topicFrom m deviceTwinDesiredPropResBase.length) with
          | none =>
              refine Or.inl ?_
              show (processDeviceTwinDesiredPropUpdate _ m).stores = []
              rw [processDeviceTwinDesiredPropUpdate, hversion]
              rfl
          | some version =>
              refine Or.inr (Or.inr ⟨version, ?_⟩)
              show (processDeviceTwinDesiredPropUpdate _ m).stores = _
              rw [processDeviceTwinDesiredPropUpdate, hversion]

/-- No handler touches the counter of the reported properties. -/
theorem handle_reported (callbacks : Callbacks C) (stack m : Memory) :
    readWord (m.run (handle callbacks stack m).stores) reportedPropertyVersion.place =
      readWord m reportedPropertyVersion.place := by
  rcases handle_stores callbacks stack m with h | ⟨rid, h⟩ | ⟨version, h⟩
  · rw [h]
    rfl
  · rw [h]
    refine readWord_congr fun place hfirst hlast => strncpy_outside _ _ _ _ _ (Or.inl ?_)
    have hend : reportedPropertyVersion.place + 4 ≤ directCommandRequestId.place := by decide
    omega
  · rw [h]
    exact readWord_run_outside _ _ _ (Or.inl (by decide))

end handling

section rounds

variable {F : Type} {arithmetic : FloatArithmetic F} {deviceId : List Byte}

theorem HubRound.entered_reported (r : HubRound F deviceId) :
    (versionsOf r.entered).reportedPropertyVersion = (versionsOf r.before).reportedPropertyVersion := by
  obtain ⟨before, event⟩ := r
  cases event with
  | between calls => rfl
  | received x stack calls =>
      refine (handle_reported _ _ _).trans (readWord_congr fun place _ hlast => receive_outside _ _ _ ?_)
      have hend : reportedPropertyVersion.place + 4 ≤ 714 := by decide
      omega

/-- The publications of a life take one request id after the other. -/
theorem hubRounds_topics (m : Memory) (events : List (HubEvent F deviceId)) :
    let published := ((hubRounds arithmetic deviceId).rounds m events).flatMap (HubRound.published arithmetic)
    topicsOf published = requestTopics (versionsOf m).reportedPropertyVersion published.length := by
  induction events generalizing m with
  | nil => rfl
  | cons event events ih =>
      intro published
      let r : HubRound F deviceId := ⟨m, event⟩
      obtain ⟨htopics, hversions⟩ := @publications_topics F arithmetic r.entered r.calls
      have hlater := ih (afterCalls arithmetic r.entered r.calls)
      rw [r.entered_reported] at htopics hversions
      rw [hversions] at hlater
      have hpublished : published = r.published arithmetic ++ ((hubRounds arithmetic deviceId).rounds
          (afterCalls arithmetic r.entered r.calls) events).flatMap (HubRound.published arithmetic) := rfl
      rw [hpublished, List.length_append, HubRound.published, publications_length, requestTopics_add, topicsOf,
        List.flatMap_append]
      exact congrArg₂ _ htopics hlater

/-- A pattern with a slash does not occur in a text without one. -/
theorem strstr_of_no_slash {rest pattern : List Byte} (hrest : ascii '/' ∉ rest) (hpattern : ascii '/' ∈ pattern) :
    strstr rest pattern = none :=
  strstr_eq_none_iff.mpr fun hin => hrest (hin.subset hpattern)

/-- An update with a version gets to its handler, which stores the version and calls its callback. -/
theorem desiredVersion_effect (before : Memory) (x : HubMessage deviceId) (stack : Memory) {v : Nat}
    {small : v < 2 ^ 31} (htopic : x.topic = .desiredVersion v small) : HubRound.effect before x stack =
      ⟨storesAt desiredPropertyVersion.place (wordBytes (BitVec.ofNat 32 v)), some ⟨some (), .onlyMessage⟩⟩ := by
  have hx : x.message.topic =
      filterBase deviceId .deviceTwinDesiredPropResTopic ++ (text "?$version=" ++ decimal v) := by
    rw [x.topic_eq, htopic]
    rfl
  have hrest : ascii '/' ∉ text "?$version=" ++ decimal v := by
    intro hmem
    rcases List.mem_append.mp hmem with hfront | hdigits
    · exact absurd hfront (by decide)
    · exact absurd (isDigit_of_mem_decimal hdigits) (by decide)
  have hrouted : Routed deviceId (text "?$version=" ++ decimal v) .deviceTwinDesiredPropResTopic := by
    refine ⟨fun pattern hpattern => ⟨?_, strstr_of_no_slash hrest ?_⟩, TopicFilter.noConfusion⟩
    · exact (show ∀ p ∈ (filterHandler .deviceTwinDesiredPropResTopic).earlier,
        strstr deviceTwinDesiredPropResBase p = none by decide +kernel) pattern hpattern
    · exact (show ∀ p ∈ (filterHandler .deviceTwinDesiredPropResTopic).earlier, ascii '/' ∈ p by decide) pattern hpattern
  have hfollows := (message_follows_iff before hx).mpr hrouted
  have hversion : desiredVersion (text "?$version=" ++ decimal v) = some (BitVec.ofNat 32 v) := by
    have hquestion : ascii '$' ≠ ascii '?' := by decide
    have hsplit : text "?$version=" = ascii '?' :: text "$version=" := rfl
    have hpattern : text "$version=" = ascii '$' :: text "version=" := rfl
    have hfound : strstr (text "?$version=" ++ decimal v) (text "$version=") =
        some (text "$version=" ++ decimal v) := by
      rw [hsplit, List.cons_append, hpattern, strstr_cons_of_ne _ _ hquestion, ← hpattern, strstr_append]
    have hlength : (text "$version=").length = 9 := rfl
    have hnumber : (text "$version=" ++ decimal v).drop 9 = decimal v := by
      rw [← hlength, List.drop_left]
    rw [desiredVersion, hfound, Option.map_some, hnumber, atoi_decimal, BitVec.ofInt_natCast]
  have hinjective : Function.Injective (Option.map Parsed.version) :=
    Option.map_injective fun _ _ h => (Parsed.version.injEq _ _).mp h
  have hparsed := hfollows.parsed
  rw [Handler.parsed, filterHandler, Handler.start, Handler.parse, Handler.parse, hinjective.eq_iff, hversion] at hparsed
  rw [HubRound.effect, handle, hfollows.handler]
  show processDeviceTwinDesiredPropUpdate (some ()) _ = _
  rw [processDeviceTwinDesiredPropUpdate, hparsed]

/-- `{"%s":{"value":%d,"ac":%d,"av":%d}}`, for an answer to a version. -/
def answerText (label : List Byte) (value httpStatus : BitVec 32) (version : Nat) : List Byte :=
  text "\x7b\"" ++ label ++ text "\":\x7b\"value\":" ++ signedDecimal value.toInt ++ text ",\"ac\":" ++
    signedDecimal httpStatus.toInt ++ text ",\"av\":" ++ decimal version ++ text "\x7d\x7d"

theorem responseText_eq (label : List Byte) (value httpStatus : BitVec 32) {v : Nat} (small : v < 2 ^ 31) :
    responseText label value httpStatus (BitVec.ofNat 32 v) = answerText label value httpStatus v := by
  have hvalue : (BitVec.ofNat 32 v).toInt = v := by
    rw [BitVec.toInt_eq_toNat_of_lt, BitVec.toNat_ofNat, Nat.mod_eq_of_lt (by omega)]
    rw [BitVec.toNat_ofNat, Nat.mod_eq_of_lt (by omega)]
    omega
  have hprinted : signedDecimal (v : Int) = decimal v := by
    rw [signedDecimal, if_neg (by omega), Int.natAbs_natCast]
  rw [responseText, hvalue, hprinted, answerText]

/-- What a round of an update with a version answers. -/
structure HubRound.AnswersVersion (arithmetic : FloatArithmetic F) (r : HubRound F deviceId) (v : Nat)
    (calls : List (PropertyCall F)) : Prop where
  called : r.calls = calls
  printed : ∀ p ∈ r.published arithmetic, ∀ reply label value httpStatus,
    p.1 = .respondInt reply label value httpStatus →
      (answerText label.bytes value httpStatus v).length ≤ 99 →
        p.2.status = reply ∧ p.2.sent.map Publication.message = [answerText label.bytes value httpStatus v]

theorem HubRound.answersVersion (r : HubRound F deviceId) {x : HubMessage deviceId} {stack : Memory}
    {calls : List (PropertyCall F)} (hevent : r.event = .received x stack calls) {v : Nat} {small : v < 2 ^ 31}
    (htopic : x.topic = .desiredVersion v small) : r.AnswersVersion arithmetic v calls := by
  have heffect := desiredVersion_effect r.before x stack htopic
  have hdesired : (versionsOf r.entered).desiredPropertyVersion = BitVec.ofNat 32 v := by
    rw [HubRound.entered, hevent]
    dsimp only
    rw [heffect]
    exact readWord_run _ _ _
  constructor
  · rw [HubRound.calls, hevent]
    dsimp only
    rw [heffect]
    rfl
  · intro p hp reply label value httpStatus hcall hfits
    obtain ⟨found, hfound, hmade⟩ := publications_made r.entered r.calls p hp
    rw [hdesired] at hfound
    rw [hmade, hcall]
    refine ⟨rfl, ?_⟩
    show [snprintfText 100 (responseText label.bytes value httpStatus found.desiredPropertyVersion)] = _
    rw [hfound, responseText_eq _ _ _ small, (snprintfText_eq_self (by decide)).mpr (Nat.lt_succ_of_le hfits)]

end rounds

/-- **Answers carry the version that they answer, and request ids do not come again**, in every life of the client
from any content of its structure. -/
theorem answers_carry_version {F : Type} (arithmetic : FloatArithmetic F) (deviceId : List Byte) (m : Memory)
    (events : List (HubEvent F deviceId)) :
    let rounds := (hubRounds arithmetic deviceId).rounds m events
    let published := rounds.flatMap (HubRound.published arithmetic)
    (∀ r ∈ rounds, ∀ x stack calls v small, r.event = .received x stack calls → x.topic = .desiredVersion v small →
      r.AnswersVersion arithmetic v calls) ∧
    (published.length < 2 ^ 32 → ∃ rids : List (List Byte), rids.Nodup ∧
      topicsOf published = rids.map (text "$iothub/twin/PATCH/properties/reported/?$rid=" ++ ·)) := by
  intro rounds published
  constructor
  · intro r _ x stack calls v small hevent htopic
    exact r.answersVersion hevent htopic
  · intro hfew
    obtain ⟨rids, hdistinct, htopics⟩ := requestTopics_rids (versionsOf m).reportedPropertyVersion hfew
    exact ⟨rids, hdistinct, (hubRounds_topics m events).trans htopics⟩

/-- An update of version 7. -/
def seventhUpdate : HubMessage (text "board") where
  topic := .desiredVersion 7 (by decide)
  message :=
    { topic := text "$iothub/twin/PATCH/properties/desired/?$version=7"
      payload := text "\x7b\"telemetryInterval\":5,\"$version\":7\x7d"
      topic_no_nul := by decide
      payload_no_nul := by decide
      topic_fits := by decide
      payload_fits := by decide }
  topic_eq := by decide +kernel
  fits := ⟨by decide, by decide⟩

/-- An answer that takes over the interval. -/
def intervalAnswer : PropertyCall Int := .respondInt .success ⟨text "telemetryInterval", by decide⟩ 5 200

/-- Floats without a fraction. -/
def wholeFloats : FloatArithmetic Int := ⟨id, id, (· - ·), (· * ·)⟩

/-- The interval is answered with the version of its update. -/
theorem answers_carry_version_seventh : ∀ r ∈ (hubRounds wholeFloats (text "board")).rounds (fun _ => 0)
    [.received seventhUpdate (fun _ => 0) [intervalAnswer]], r.AnswersVersion wholeFloats 7 [intervalAnswer] := by
  intro r hr
  have hround : r = ⟨fun _ => 0, .received seventhUpdate (fun _ => 0) [intervalAnswer]⟩ := List.mem_singleton.mp hr
  refine (answers_carry_version wholeFloats (text "board") (fun _ => 0) _).1 r hr seventhUpdate (fun _ => 0)
    [intervalAnswer] 7 (by decide) ?_ rfl
  rw [hround]

end DeviceSample.Mqtt
