import DeviceSample.MqttStruct
import DeviceSample.NxCreate

/-!
The provisioned identity of the NX client. `azure_iot_nx_client_dps_create` lets the provisioning client
fill two arrays of the context up to their sizes, and stores a terminator behind each text before it
passes the arrays on.
-/

namespace DeviceSample.Nx

open Base
open Mqtt (Field)

/-- `azure_iot_hub_hostname`. Places count from here; `events` and what stands in front of it are at
negative places. -/
def azureIotHubHostname : Field := ⟨0, 128⟩

/-- `azure_iot_device_id`. -/
def azureIotDeviceId : Field := ⟨128, 64⟩

/-- The start of `azure_iot_thread`, and with it of all that stands behind the two strings. -/
def azureIotThread : Int := 192

theorem arrays_adjacent : azureIotHubHostname.place + azureIotHubHostname.size = azureIotDeviceId.place ∧
    azureIotDeviceId.place + azureIotDeviceId.size = azureIotThread := by decide

/-- What `nx_azure_iot_provisioning_client_iothub_device_info_get` returns for the two capacities. -/
structure DeviceInfo where
  hostname : CString
  deviceId : CString
  hostname_fits : hostname.length ≤ azureIotHubHostname.size
  deviceId_fits : deviceId.length ≤ azureIotDeviceId.size

/-- The stores of `nx_azure_iot_provisioning_client_deinitialize`: the client stands in the union behind
the strings. -/
structure ClientStores where
  stores : List Store
  behind : ∀ s ∈ stores, azureIotThread ≤ s.place

/-- The end of `azure_iot_nx_client_dps_create`, from the call that returns the identity on: the context
before it, and what the two calls store. -/
structure Provisioned where
  before : Memory
  info : DeviceInfo
  deinitialized : ClientStores

namespace Provisioned

variable (x : Provisioned)

/-- The context when both clients have been called. -/
def filled : Memory :=
  ((x.before.run (storesAt azureIotHubHostname.place x.info.hostname.bytes)).run
    (storesAt azureIotDeviceId.place x.info.deviceId.bytes)).run x.deinitialized.stores

def hostnameTerminator : Store := ⟨azureIotHubHostname.place + x.info.hostname.length, 0⟩

def deviceIdTerminator : Store := ⟨azureIotDeviceId.place + x.info.deviceId.length, 0⟩

/-- The context that is passed to `azure_iot_nx_client_create_common`. -/
def passed : Memory := (x.filled.store x.hostnameTerminator).store x.deviceIdTerminator

/-- The terminators are stored in their arrays and change nothing else, and the arrays are passed on as
the strings that were returned. -/
structure Survives : Prop where
  hostname_terminated : azureIotHubHostname.Has x.hostnameTerminator.place
  deviceId_terminated : azureIotDeviceId.Has x.deviceIdTerminator.place
  frame : ∀ place, ¬azureIotHubHostname.Has place → ¬azureIotDeviceId.Has place →
    x.passed place = x.filled place
  hostname_passed : x.passed.IsString azureIotHubHostname.place x.info.hostname.bytes
  deviceId_passed : x.passed.IsString azureIotDeviceId.place x.info.deviceId.bytes

end Provisioned

/-- The calls in front of `azure_iot_nx_client_create_common` all succeed. -/
def ReachesCommon (c : DpsConfig) (h : HandleReplies) (p : ProvisioningReplies) : Prop :=
  ¬c.Rejected ∧ ¬c.PayloadTooLong ∧ firstFailure [h.azureIotCreate, h.certificateInitialize] = .success ∧
    firstFailure [p.clientInitialize, firstFailure p.setup, p.deviceInfoGet] = .success

instance (c : DpsConfig) (h : HandleReplies) (p : ProvisioningReplies) : Decidable (ReachesCommon c h p) := by
  unfold ReachesCommon
  infer_instance

/-- `azure_iot_nx_client_dps_create`, with its context: what it passes on, if it gets there. -/
def dpsCreatePasses (c : DpsConfig) (h : HandleReplies) (p : ProvisioningReplies) (x : Provisioned) :
    Option Provisioned :=
  if c.Rejected then none
  else if c.PayloadTooLong then none
  else if firstFailure [h.azureIotCreate, h.certificateInitialize] ≠ .success then none
  else if firstFailure [p.clientInitialize, firstFailure p.setup, p.deviceInfoGet] ≠ .success then none
  else some x

section reaching

variable {c : DpsConfig} {h : HandleReplies} {p : ProvisioningReplies} {x y : Provisioned}

theorem dpsCreatePasses_eq_some_iff : dpsCreatePasses c h p x = some y ↔ ReachesCommon c h p ∧ x = y := by
  unfold dpsCreatePasses ReachesCommon
  rw [Option.ite_none_left_eq_some, Option.ite_none_left_eq_some, Option.ite_none_left_eq_some,
    Option.ite_none_left_eq_some, Option.some.injEq, ne_eq, ne_eq, not_not, not_not]
  simp only [and_assoc]

/-- The function that the identity is passed to is the one that the creation ends with. -/
theorem dpsCreate_of_reaches (hreaches : ReachesCommon c h p) (r : CommonReplies) :
    azureIotNxClientDpsCreate c h p r = (azureIotNxClientCreateCommon r).behind
      [.wipe, .create .nxAzureIot, .create .provClient, .delete .provClient] := by
  obtain ⟨haccepted, hpayload, hhandle, hprovision⟩ := hreaches
  rw [firstFailure_eq_success] at hhandle hprovision
  have hmade : provision p (azureIotNxClientCreateCommon r) =
      (azureIotNxClientCreateCommon r).behind [.create .provClient, .delete .provClient] := by
    rw [provision, if_neg, if_neg, if_neg]
    · exact not_not_intro (hprovision _ (by simp))
    · exact not_not_intro (hprovision _ (by simp))
    · exact not_not_intro (hprovision _ (by simp))
  rw [azureIotNxClientDpsCreate, if_neg haccepted, if_neg hpayload, createHandle, if_neg, if_neg, hmade]
  · rfl
  · exact not_not_intro (hhandle _ (by simp))
  · exact not_not_intro (hhandle _ (by simp))

end reaching

namespace Provisioned

variable (x : Provisioned)

theorem hostname_has_iff : azureIotHubHostname.Has x.hostnameTerminator.place ↔ x.info.hostname.length ≤ 127 := by
  show (0 : Int) ≤ 0 + (x.info.hostname.length : Nat) ∧ 0 + ((x.info.hostname.length : Nat) : Int) < 0 + 128 ↔ _
  omega

theorem deviceId_has_iff : azureIotDeviceId.Has x.deviceIdTerminator.place ↔ x.info.deviceId.length ≤ 63 := by
  show (128 : Int) ≤ 128 + (x.info.deviceId.length : Nat) ∧
    128 + ((x.info.deviceId.length : Nat) : Int) < 128 + 64 ↔ _
  omega

/-- The stores of the client leave the strings alone. -/
theorem deinitialized_outside (m : Memory) (stores : ClientStores) {place : Int} (hplace : place < azureIotThread) :
    m.run stores.stores place = m place := by
  obtain ⟨stores, hbehind⟩ := stores
  induction stores generalizing m with
  | nil => rfl
  | cons s stores ih =>
      obtain ⟨hs, hrest⟩ := List.forall_mem_cons.mp hbehind
      have hlater := ih (m.store s) hrest
      have hne : place ≠ s.place := by omega
      exact hlater.trans (if_neg hne)

/-- The context in front of the client, with the two texts in their arrays. -/
theorem filled_eq {place : Int} (hplace : place < azureIotThread) : x.filled place =
    (x.before.run (storesAt azureIotHubHostname.place x.info.hostname.bytes)).run
      (storesAt azureIotDeviceId.place x.info.deviceId.bytes) place :=
  deinitialized_outside _ _ hplace

theorem passed_eq (place : Int) : x.passed place =
    if place = 128 + x.info.deviceId.length then 0
    else if place = 0 + x.info.hostname.length then 0 else x.filled place := rfl

/-- Terminators that stand in their arrays do not reach the other text. -/
theorem survives_of_lengths (hhost : x.info.hostname.length ≤ 127) (hdevice : x.info.deviceId.length ≤ 63) :
    x.Survives := by
  have hthread : azureIotThread = 192 := rfl
  refine ⟨x.hostname_has_iff.mpr hhost, x.deviceId_has_iff.mpr hdevice, ?_, ?_, ?_⟩
  · intro place hnotHost hnotDevice
    have hne : place ≠ x.hostnameTerminator.place := fun h => hnotHost (h ▸ x.hostname_has_iff.mpr hhost)
    have hne' : place ≠ x.deviceIdTerminator.place := fun h => hnotDevice (h ▸ x.deviceId_has_iff.mpr hdevice)
    exact (if_neg hne').trans (if_neg hne)
  · apply (Memory.IsString.ofStores x.before azureIotHubHostname.place x.info.hostname.no_nul).congr
    intro place hfirst hlast
    change (0 : Int) ≤ place at hfirst
    change place ≤ 0 + ((x.info.hostname.length : Nat) : Int) at hlast
    rw [Memory.run_storesAt_concat, passed_eq, if_neg (by omega), x.filled_eq (by omega)]
    show _ = if place = 0 + ((x.info.hostname.length : Nat) : Int) then 0 else _
    by_cases hend : place = 0 + x.info.hostname.length
    · rw [if_pos hend, if_pos hend]
    · rw [if_neg hend, if_neg hend]
      exact Memory.run_storesAt_outside _ _ _ _ (Or.inl (show place < 128 by omega))
  · apply (Memory.IsString.ofStores (x.before.run (storesAt azureIotHubHostname.place x.info.hostname.bytes))
      azureIotDeviceId.place x.info.deviceId.no_nul).congr
    intro place hfirst hlast
    change (128 : Int) ≤ place at hfirst
    change place ≤ 128 + ((x.info.deviceId.length : Nat) : Int) at hlast
    rw [Memory.run_storesAt_concat, passed_eq, if_neg (c := place = 0 + _) (by omega), x.filled_eq (by omega)]
    rfl

theorem survives_iff : x.Survives ↔ x.info.hostname.length ≤ 127 ∧ x.info.deviceId.length ≤ 63 :=
  ⟨fun h => ⟨x.hostname_has_iff.mp h.hostname_terminated, x.deviceId_has_iff.mp h.deviceId_terminated⟩,
    fun h => x.survives_of_lengths h.1 h.2⟩

end Provisioned

/-- **The provisioned identity survives exactly if both texts leave room for their terminators**: for all
replies of the calls, all identities of the capacities, and any content of the context. -/
theorem identity_survives_iff (c : DpsConfig) (h : HandleReplies) (p : ProvisioningReplies) (x : Provisioned) :
    (∀ y, dpsCreatePasses c h p x = some y → y.Survives) ↔
      ¬ReachesCommon c h p ∨ x.info.hostname.length ≤ 127 ∧ x.info.deviceId.length ≤ 63 := by
  rw [← x.survives_iff]
  constructor
  · intro hpasses
    by_cases hreaches : ReachesCommon c h p
    · exact Or.inr (hpasses x (dpsCreatePasses_eq_some_iff.mpr ⟨hreaches, rfl⟩))
    · exact Or.inl hreaches
  · intro hsurvives y hy
    obtain ⟨hreaches, rfl⟩ := dpsCreatePasses_eq_some_iff.mp hy
    exact hsurvives.resolve_left (not_not_intro hreaches)

/-- The arguments of a board that is provisioned. -/
def boardConfig : DpsConfig where
  contextNull := false
  dpsEndpoint := ⟨text "global.azure-devices-provisioning.net", by decide⟩
  dpsIdScope := ⟨text "0ne000A1B2C", by decide⟩
  dpsRegistrationId := ⟨text "mxchip", by decide⟩
  deviceSasKey := ⟨text "c2FzS2V5", by decide⟩
  deviceModelId := ⟨text "dtmi:azurertos:devkit:gsgmxchip;1", by decide⟩

/-- An identity whose host name has 128 characters. -/
def fullHostname : DeviceInfo where
  hostname := ⟨List.replicate 128 (ascii 'h'), fun h => absurd (List.eq_of_mem_replicate h) (by decide)⟩
  deviceId := ⟨text "mxchip-7", by decide⟩
  hostname_fits := Nat.le_of_eq List.length_replicate
  deviceId_fits := by decide

/-- The terminator of the host name is the first byte of the device id, which is passed on as an empty
string. -/
theorem fullHostname_lost : ∃ y, dpsCreatePasses boardConfig ⟨.success, .success⟩
      ⟨.success, .success, .success, .success, .success⟩ ⟨fun _ => 0, fullHostname, ⟨[], nofun⟩⟩ = some y ∧
    ¬y.Survives ∧ y.passed.IsString azureIotDeviceId.place [] := by
  have hlength : fullHostname.hostname.length = 128 := List.length_replicate
  refine ⟨_, dpsCreatePasses_eq_some_iff.mpr ⟨by decide +kernel, rfl⟩, fun h => ?_, ?_⟩
  · have hfits := ((Provisioned.survives_iff _).mp h).1
    rw [hlength] at hfits
    omega
  · show Provisioned.passed _ 128 = 0
    rw [Provisioned.passed_eq, if_neg (by decide), if_pos (by rw [hlength]; rfl)]

end DeviceSample.Nx
