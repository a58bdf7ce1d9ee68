import DeviceSample.DpsMqtt

/-!
The stored hub identity. A configured host name and device id are copied with the sizes of their
arrays, an assigned identity with the lengths that the service sent.
-/

namespace DeviceSample.Mqtt

open Base JsonUtils Dps

/-- A string argument whose pointer is kept. -/
structure StringPointer where
  address : BitVec 32
  target : CString

/-- The bytes of a 32-bit word in memory, the lowest first. -/
def wordBytes (w : BitVec 32) : List Byte := [0, 8, 16, 24].map fun shift => (w >>> shift).setWidth 8

/-- What the calls of `azure_iot_mqtt_create_common` return. -/
structure CommonReplies where
  clientCreate : Status
  receiveNotifySet : Status
  disconnectNotifySet : Status
  deriving DecidableEq, Repr

/-- `azure_iot_mqtt_create_common`. -/
def azureIotMqttCreateCommon (r : CommonReplies) : Status :=
  firstFailure [r.clientCreate, r.receiveNotifySet, r.disconnectNotifySet]

/-- The structure after its `memset`. -/
def cleared (m : Memory) : Memory := fun place => if 0 ≤ place ∧ place < 1482 then 0 else m place

/-- The two copies of the identity. -/
def stashIdentity (hostname deviceId : List Byte) : List Store :=
  strncpy mqttHubHostname.place hostname mqttHubHostname.size ++
    strncpy mqttDeviceId.place deviceId mqttDeviceId.size

/-- The status of a creation, and the structure before its copies, after them and at its end. -/
structure Created where
  status : Status
  beforeCopy : Memory
  afterCopy : Memory
  memory : Memory

/-- `azure_iot_mqtt_create`. -/
def azureIotMqttCreate (m : Memory) (hostname deviceId : CString) (sasKey modelId : StringPointer)
    (r : CommonReplies) : Created :=
  if hostname.bytes = [] ∨ deviceId.bytes = [] ∨ sasKey.target.bytes = [] then
    { status := nxPtrError, beforeCopy := m, afterCopy := m, memory := m }
  else
    let copied := (cleared m).run (stashIdentity hostname.bytes deviceId.bytes)
    { status := azureIotMqttCreateCommon r
      beforeCopy := cleared m
      afterCopy := copied
      memory := (copied.run (storesAt mqttSasKey.place (wordBytes sasKey.address))).run
        (storesAt mqttModelId.place (wordBytes modelId.address)) }

/-- The creation has stored its two arguments whole. -/
structure Created.Stored (c : Created) (hostname deviceId : List Byte) : Prop where
  copied : IdentityStored c.beforeCopy c.afterCopy hostname deviceId
  hostname_kept : mqttHubHostname.Holds c.memory hostname
  deviceId_kept : mqttDeviceId.Holds c.memory deviceId

theorem stashIdentity_stored (m : Memory) {hostname deviceId : List Byte} (hhost : hostname.length ≤ 99)
    (hdevice : deviceId.length ≤ 63) (hhostNul : 0 ∉ hostname) (hdeviceNul : 0 ∉ deviceId) :
    IdentityStored m (m.run (stashIdentity hostname deviceId)) hostname deviceId := by
  have hhostPlace : mqttHubHostname.place = 0 := rfl
  have hdevicePlace : mqttDeviceId.place = 112 := rfl
  have hhostSize : mqttHubHostname.size = 100 := rfl
  have hdeviceSize : mqttDeviceId.size = 64 := rfl
  have hhostFits : hostname.length < mqttHubHostname.size := by omega
  have hdeviceFits : deviceId.length < mqttDeviceId.size := by omega
  rw [stashIdentity, Memory.run_append]
  constructor
  · apply Field.holds_of_isString _ hhostFits
    apply (strncpy_isString m mqttHubHostname.place hhostFits hhostNul).congr
    intro place _ hlast
    exact strncpy_outside _ _ _ _ _ (by omega)
  · apply Field.holds_of_isString _ hdeviceFits
    exact strncpy_isString _ mqttDeviceId.place hdeviceFits hdeviceNul
  · intro place hnotHub hnotDevice
    rw [Field.Has, not_and, Int.not_lt] at hnotHub hnotDevice
    rw [strncpy_outside _ _ _ _ _ (by omega), strncpy_outside _ _ _ _ _ (by omega)]

/-- A field away from some stores goes on to hold its string. -/
theorem Field.Holds.frame {f : Field} {m : Memory} {s xs : List Byte} {place : Int} (h : f.Holds m s)
    (houtside : f.place + f.size ≤ place ∨ place + xs.length ≤ f.place) :
    f.Holds (m.run (storesAt place xs)) s := by
  have hlength := h.length_lt
  apply Field.holds_of_isString _ hlength
  exact h.2.frame (by omega)

theorem azureIotMqttCreate_stored (m : Memory) (hostname deviceId : CString)
    (sasKey modelId : StringPointer) (r : CommonReplies)
    (hset : ¬(hostname.bytes = [] ∨ deviceId.bytes = [] ∨ sasKey.target.bytes = []))
    (hhost : hostname.length ≤ 99) (hdevice : deviceId.length ≤ 63) :
    (azureIotMqttCreate m hostname deviceId sasKey modelId r).Stored hostname.bytes deviceId.bytes := by
  have hcopied := stashIdentity_stored (cleared m) hhost hdevice hostname.no_nul deviceId.no_nul
  rw [azureIotMqttCreate, if_neg hset]
  refine ⟨hcopied, ?_, ?_⟩
  · apply (hcopied.hostname_held.frame _).frame
    · exact Or.inl (by decide)
    · exact Or.inl (by decide)
  · apply (hcopied.deviceId_held.frame _).frame
    · exact Or.inl (by decide)
    · exact Or.inl (by decide)

/-- The status of a creation fails when an argument is empty or the common part fails. -/
theorem azureIotMqttCreate_status (m : Memory) (hostname deviceId : CString)
    (sasKey modelId : StringPointer) (r : CommonReplies) :
    (azureIotMqttCreate m hostname deviceId sasKey modelId r).status ≠ .success ↔
      (hostname.bytes = [] ∨ deviceId.bytes = [] ∨ sasKey.target.bytes = []) ∨
        azureIotMqttCreateCommon r ≠ .success := by
  by_cases hset : hostname.bytes = [] ∨ deviceId.bytes = [] ∨ sasKey.target.bytes = []
  · rw [azureIotMqttCreate, if_pos hset]
    exact ⟨fun _ => Or.inl hset, fun _ => Status.noConfusion⟩
  · rw [azureIotMqttCreate, if_neg hset]
    exact ⟨Or.inr, fun h => h.resolve_left hset⟩

/-- The identity is whole and terminated exactly if it fits: a creation that does not fail has stored
its arguments, and a status 200 message the strings that the lookups find in its payload. -/
theorem identity_whole_iff (m : Memory) :
    (∀ (hostname deviceId : CString) (sasKey modelId : StringPointer) (r : CommonReplies),
      (azureIotMqttCreate m hostname deviceId sasKey modelId r).status ≠ .success ∨
          (azureIotMqttCreate m hostname deviceId sasKey modelId r).Stored hostname.bytes deviceId.bytes ↔
        ((hostname.bytes = [] ∨ deviceId.bytes = [] ∨ sasKey.target.bytes = []) ∨
          azureIotMqttCreateCommon r ≠ .success) ∨ hostname.length ≤ 99 ∧ deviceId.length ≤ 63) ∧
    (∀ (jsmnParse : JsmnParse) (payload hub device : List Byte),
      m.IsString mqttReceiveMessageBuffer.place payload → payload.length ≤ 512 →
        findString payload (text "assignedHub") (jsmnParse.tokens payload 64) = some hub →
          findString payload (text "deviceId") (jsmnParse.tokens payload 64) = some device →
            (IdentityStored m (processSuccess jsmnParse m) hub device ↔
              hub.length ≤ 99 ∧ device.length ≤ 63)) := by
  constructor
  · intro hostname deviceId sasKey modelId r
    rw [azureIotMqttCreate_status]
    constructor
    · rintro (hfails | hstored)
      · exact Or.inl hfails
      · exact Or.inr hstored.copied.lengths
    · rintro (hfails | ⟨hhost, hdevice⟩)
      · exact Or.inl hfails
      · by_cases hset : hostname.bytes = [] ∨ deviceId.bytes = [] ∨ sasKey.target.bytes = []
        · exact Or.inl (Or.inl hset)
        · exact Or.inr (azureIotMqttCreate_stored m hostname deviceId sasKey modelId r hset hhost hdevice)
  · intro jsmnParse payload hub device hpayload hroom hhub hdevice
    have hnul : ∀ {v : List Byte}, v <:+: payload → 0 ∉ v := fun hpiece hmem =>
      hpayload.no_nul (hpiece.subset hmem)
    rw [processSuccess_eq hpayload hroom hhub hdevice]
    constructor
    · exact IdentityStored.lengths
    · rintro ⟨hhubFits, hdeviceFits⟩
      exact identityStored_of_lengths hhubFits hdeviceFits (hnul (findString_piece hhub))
        (hnul (findString_piece hdevice))

/-- A configured identity that fits, and an assigned one. -/
theorem identity_whole_on :
    ((azureIotMqttCreate (fun _ => 0) ⟨text "hub.azure-devices.net", by decide⟩
          ⟨text "board", by decide⟩ ⟨0x20001000, ⟨text "a2V5", by decide⟩⟩ ⟨0x08001000, ⟨[], by decide⟩⟩
          ⟨.success, .success, .success⟩).status ≠ .success ∨
        (azureIotMqttCreate (fun _ => 0) ⟨text "hub.azure-devices.net", by decide⟩
          ⟨text "board", by decide⟩ ⟨0x20001000, ⟨text "a2V5", by decide⟩⟩ ⟨0x08001000, ⟨[], by decide⟩⟩
          ⟨.success, .success, .success⟩).Stored (text "hub.azure-devices.net") (text "board")) ∧
      IdentityStored (Memory.run (fun _ => 0) (storesAt 970 (assignedAnswer ++ [0])))
        (processSuccess assignedParse (Memory.run (fun _ => 0) (storesAt 970 (assignedAnswer ++ [0]))))
        (text "hub.azure-devices.net") (text "board") := by
  have hanswer : (Memory.run (fun _ => 0) (storesAt 970 (assignedAnswer ++ [0]))).IsString
      mqttReceiveMessageBuffer.place assignedAnswer :=
    Memory.IsString.ofStores _ 970 (by decide)
  constructor
  · exact ((identity_whole_iff (fun _ => 0)).1 _ _ _ _ _).mpr (Or.inr ⟨by decide, by decide⟩)
  · exact ((identity_whole_iff _).2 assignedParse assignedAnswer _ _ hanswer (by decide)
      assignedParse_finds.1 assignedParse_finds.2).mpr ⟨by decide, by decide⟩

/-- A host name that fills its array is stored without a terminator, and the creation succeeds. -/
theorem hostname_unterminated :
    ¬ ((azureIotMqttCreate (fun _ => 0) ⟨List.replicate 100 (ascii 'h'), by decide⟩
          ⟨text "board", by decide⟩ ⟨0x20001000, ⟨text "a2V5", by decide⟩⟩ ⟨0x08001000, ⟨[], by decide⟩⟩
          ⟨.success, .success, .success⟩).status ≠ .success ∨
        (azureIotMqttCreate (fun _ => 0) ⟨List.replicate 100 (ascii 'h'), by decide⟩
          ⟨text "board", by decide⟩ ⟨0x20001000, ⟨text "a2V5", by decide⟩⟩ ⟨0x08001000, ⟨[], by decide⟩⟩
          ⟨.success, .success, .success⟩).Stored (List.replicate 100 (ascii 'h')) (text "board")) := by
  rintro (hfails | hstored)
  · rw [azureIotMqttCreate_status] at hfails
    exact absurd hfails (by decide)
  · exact absurd hstored.copied.lengths.1 (by decide)

end DeviceSample.Mqtt
