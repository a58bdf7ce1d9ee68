import DeviceSample.BaseMemory
import DeviceSample.BaseProtocol
import DeviceSample.Sdk
import Mathlib.Data.Finset.Basic

/-!
Creation of the NX client. `azure_iot_nx_client_create` and `azure_iot_nx_client_dps_create` create
control blocks inside the context and end in the same function; what a creation does is the list of
the calls that make and undo control blocks, and a status.
-/

namespace DeviceSample.Nx

open Base

/-- `NX_PTR_ERROR`. -/
def nxPtrError : Status := .other 0x07

/-- `NX_SIZE_ERROR`. -/
def nxSizeError : Status := .other 0x09

/-- The control blocks in `AZURE_IOT_NX_CONTEXT`; the two clients share a union. -/
inductive Block
  | nxAzureIot
  | events
  | iothubClient
  | provClient
  deriving DecidableEq, Repr

/-- What happens to the control blocks: the `memset` of the context, the creation of a block, or its
deletion. -/
inductive BlockCall
  | wipe
  | create (block : Block)
  | delete (block : Block)
  deriving DecidableEq, Repr

/-- The live blocks after a call. -/
def BlockCall.effect (live : Finset Block) : BlockCall → Finset Block
  | .wipe => ∅
  | .create block => insert block live
  | .delete block => live.erase block

/-- No live block is zeroed, and the two clients of the union are never both live. -/
def contextProtocol : Protocol (Finset Block) BlockCall where
  Allowed live call := (call = .wipe → live = ∅) ∧
    ¬(.iothubClient ∈ call.effect live ∧ .provClient ∈ call.effect live)
  next live call := call.effect live

instance (live : Finset Block) (call : BlockCall) : Decidable (contextProtocol.Allowed live call) :=
  inferInstanceAs (Decidable (_ ∧ _))

/-- The status of a function and its calls on control blocks. -/
structure Made where
  status : Status
  calls : List BlockCall
  deriving DecidableEq, Repr

/-- The same after some earlier calls. -/
def Made.behind (m : Made) (calls : List BlockCall) : Made := { m with calls := calls ++ m.calls }

/-- What the calls of `azure_iot_nx_client_create_common` return. -/
structure CommonReplies where
  eventFlagsCreate : Status
  hubClientInitialize : Status
  symmetricKeySet : Status
  modelIdSet : Status
  connectionStatusCallbackSet : Status
  directMethodEnable : Status
  deviceTwinEnable : Status
  twinPropertiesCallbackSet : Status
  directMethodCallbackSet : Status
  desiredPropertiesCallbackSet : Status
  deriving DecidableEq, Repr

/-- The replies of the calls that set the hub client up. -/
def CommonReplies.setup (r : CommonReplies) : List Status :=
  [r.symmetricKeySet, r.modelIdSet, r.connectionStatusCallbackSet, r.directMethodEnable,
    r.deviceTwinEnable, r.twinPropertiesCallbackSet, r.directMethodCallbackSet,
    r.desiredPropertiesCallbackSet]

/-- All replies of `azure_iot_nx_client_create_common`, those of the setup as one. -/
def CommonReplies.inOrder (r : CommonReplies) : List Status :=
  [r.eventFlagsCreate, r.hubClientInitialize, firstFailure r.setup]

/-- `azure_iot_nx_client_create_common`. -/
def azureIotNxClientCreateCommon (r : CommonReplies) : Made :=
  if r.eventFlagsCreate ≠ .success then ⟨r.eventFlagsCreate, []⟩
  else if r.hubClientInitialize ≠ .success then ⟨r.hubClientInitialize, [.create .events]⟩
  else if firstFailure r.setup ≠ .success then
    ⟨firstFailure r.setup, [.create .events, .create .iothubClient, .delete .iothubClient]⟩
  else ⟨.success, [.create .events, .create .iothubClient]⟩

/-- What `nx_azure_iot_create` and `nx_secure_x509_certificate_initialize` return. -/
structure HandleReplies where
  azureIotCreate : Status
  certificateInitialize : Status
  deriving DecidableEq, Repr

/-- The creation of the Azure IoT handle and the certificate, which both functions begin with. -/
def createHandle (r : HandleReplies) (rest : Made) : Made :=
  if r.azureIotCreate ≠ .success then ⟨r.azureIotCreate, []⟩
  else if r.certificateInitialize ≠ .success then
    ⟨r.certificateInitialize, [.create .nxAzureIot, .delete .nxAzureIot]⟩
  else rest.behind [.create .nxAzureIot]

/-- The arguments of `azure_iot_nx_client_create` that it reads. -/
structure HubConfig where
  contextNull : Bool
  iotHubHostname : CString
  iotDeviceId : CString
  iotSasKey : CString

/-- The argument checks of `azure_iot_nx_client_create` fail. -/
def HubConfig.Rejected (c : HubConfig) : Prop :=
  c.contextNull = true ∨ c.iotHubHostname.bytes = [] ∨ c.iotDeviceId.bytes = [] ∨ c.iotSasKey.bytes = []

instance (c : HubConfig) : Decidable c.Rejected := by
  unfold HubConfig.Rejected
  infer_instance

/-- `azure_iot_nx_client_create`. -/
def azureIotNxClientCreate (c : HubConfig) (h : HandleReplies) (r : CommonReplies) : Made :=
  if c.Rejected then ⟨nxPtrError, []⟩
  else (createHandle h (azureIotNxClientCreateCommon r)).behind [.wipe]

/-- The arguments of `azure_iot_nx_client_dps_create` that it reads. -/
structure DpsConfig where
  contextNull : Bool
  dpsEndpoint : CString
  dpsIdScope : CString
  dpsRegistrationId : CString
  deviceSasKey : CString
  deviceModelId : CString

/-- The argument checks of `azure_iot_nx_client_dps_create` fail. -/
def DpsConfig.Rejected (c : DpsConfig) : Prop :=
  c.contextNull = true ∨ c.dpsEndpoint.bytes = [] ∨ c.dpsIdScope.bytes = [] ∨
    c.dpsRegistrationId.bytes = [] ∨ c.deviceSasKey.bytes = []

instance (c : DpsConfig) : Decidable c.Rejected := by
  unfold DpsConfig.Rejected
  infer_instance

/-- `DPS_PAYLOAD_SIZE`. -/
def dpsPayloadSize : Nat := 200

/-- `DPS_PAYLOAD`. -/
def dpsPayload (deviceModelId : List Byte) : List Byte :=
  text "\x7b\"modelId\":\"" ++ deviceModelId ++ text "\"\x7d"

/-- What the calls on the provisioning client return. -/
structure ProvisioningReplies where
  clientInitialize : Status
  symmetricKeySet : Status
  registrationPayloadSet : Status
  register : Status
  deviceInfoGet : Status
  deriving DecidableEq, Repr

/-- The replies of the calls whose failure reaches the deinitialisation of the provisioning client. -/
def ProvisioningReplies.setup (p : ProvisioningReplies) : List Status :=
  [p.symmetricKeySet, p.registrationPayloadSet, p.register]

/-- The part of `azure_iot_nx_client_dps_create` from the initialisation of the provisioning client to
its end. -/
def provision (p : ProvisioningReplies) (rest : Made) : Made :=
  if p.clientInitialize ≠ .success then ⟨p.clientInitialize, []⟩
  else if firstFailure p.setup ≠ .success then
    ⟨firstFailure p.setup, [.create .provClient, .delete .provClient]⟩
  -- this branch returns at once
  else if p.deviceInfoGet ≠ .success then ⟨p.deviceInfoGet, [.create .provClient]⟩
  else rest.behind [.create .provClient, .delete .provClient]

/-- The payload does not fit in its array. -/
def DpsConfig.PayloadTooLong (c : DpsConfig) : Prop :=
  (snprintf 0 dpsPayloadSize (dpsPayload c.deviceModelId.bytes)).2 > dpsPayloadSize - 1

instance (c : DpsConfig) : Decidable c.PayloadTooLong := by
  unfold DpsConfig.PayloadTooLong
  infer_instance

/-- `azure_iot_nx_client_dps_create`. -/
def azureIotNxClientDpsCreate (c : DpsConfig) (h : HandleReplies) (p : ProvisioningReplies)
    (r : CommonReplies) : Made :=
  if c.Rejected then ⟨nxPtrError, []⟩
  else if c.PayloadTooLong then ⟨nxSizeError, [.wipe]⟩
  else (createHandle h (provision p (azureIotNxClientCreateCommon r))).behind [.wipe]

/-- A call on a context, with what the calls inside it return. -/
inductive CreateCall
  | create (c : HubConfig) (h : HandleReplies) (r : CommonReplies)
  | dpsCreate (c : DpsConfig) (h : HandleReplies) (p : ProvisioningReplies) (r : CommonReplies)

namespace CreateCall

/-- What the call does. -/
def made : CreateCall → Made
  | .create c h r => azureIotNxClientCreate c h r
  | .dpsCreate c h p r => azureIotNxClientDpsCreate c h p r

/-- The argument checks fail. -/
def Rejected : CreateCall → Prop
  | .create c _ _ => c.Rejected
  | .dpsCreate c _ _ _ => c.Rejected

/-- The payload is too long, or one of the two calls for the handle and its certificate fails. -/
def FailsEarly : CreateCall → Prop
  | .create _ h _ => firstFailure [h.azureIotCreate, h.certificateInitialize] ≠ .success
  | .dpsCreate c h _ _ =>
      c.PayloadTooLong ∨ firstFailure [h.azureIotCreate, h.certificateInitialize] ≠ .success

/-- The calls behind the certificate all succeed. -/
def CompletesLater : CreateCall → Prop
  | .create _ _ r => firstFailure r.inOrder = .success
  | .dpsCreate _ _ p r =>
      firstFailure (p.clientInitialize :: firstFailure p.setup :: p.deviceInfoGet :: r.inOrder) = .success

end CreateCall

/-- A context: its live blocks, and whether an earlier call on it succeeded. -/
structure Context where
  live : Finset Block
  created : Bool

/-- A call that has returned, with the context before it. -/
structure Returned where
  before : Context
  call : CreateCall

/-- The context when the call returns. -/
def Returned.context (x : Returned) : Context where
  live := contextProtocol.after x.before.live x.call.made.calls
  created := x.before.created || x.call.made.status = .success

/-- Calls on the same context, one after the other. -/
def creations : Loop Context CreateCall Returned where
  round context call := ⟨context, call⟩
  state := Returned.context
  more _ := true

/-- A context before its first creation. -/
def fresh : Context := ⟨∅, false⟩

/-- A creation that fails leaves no block live that it created; none zeroes a live block or brings both
clients to life. -/
structure Made.Atomic (m : Made) (live : Finset Block) : Prop where
  undone : m.status ≠ .success →
    ∀ block, .create block ∈ m.calls → block ∉ contextProtocol.after live m.calls
  obeys : contextProtocol.Obeys live m.calls

/-- The call stops at its argument checks; or no earlier call succeeded, and it fails before the
certificate is there or not at all. -/
def CreateCall.InTime (call : CreateCall) (c : Context) : Prop :=
  call.Rejected ∨ c.created = false ∧ (call.FailsEarly ∨ call.CompletesLater)

/-- Calls that neither delete a block nor wipe the context keep it live. -/
theorem after_keeps {live : Finset Block} {block : Block} {calls : List BlockCall} (hlive : block ∈ live)
    (hcalls : ∀ call ∈ calls, call ≠ .wipe ∧ call ≠ .delete block) :
    block ∈ contextProtocol.after live calls := by
  induction calls generalizing live with
  | nil => exact hlive
  | cons call calls ih =>
      obtain ⟨hcall, hrest⟩ := List.forall_mem_cons.mp hcalls
      refine ih ?_ hrest
      cases call with
      | wipe => exact absurd rfl hcall.1
      | create other => exact Finset.mem_insert_of_mem hlive
      | delete other =>
          exact Finset.mem_erase.mpr ⟨fun h => hcall.2 (by rw [h]), hlive⟩

/-- The calls do not touch the handle. -/
def KeepsHandle (calls : List BlockCall) : Prop :=
  ∀ call ∈ calls, call ≠ .wipe ∧ call ≠ .delete .nxAzureIot

instance (calls : List BlockCall) : Decidable (KeepsHandle calls) := by
  unfold KeepsHandle
  infer_instance

theorem KeepsHandle.append {first second : List BlockCall} (hfirst : KeepsHandle first)
    (hsecond : KeepsHandle second) : KeepsHandle (first ++ second) :=
  List.forall_mem_append.mpr ⟨hfirst, hsecond⟩

/-- A part of a creation behind the handle: when its replies are good it succeeds with `calls`, when
not it fails, and in no case it touches the handle. -/
structure Completes (m : Made) (replies : List Status) (calls : List BlockCall) : Prop where
  completed : firstFailure replies = .success → m = ⟨.success, calls⟩
  failed : firstFailure replies ≠ .success → m.status ≠ .success
  keeps : KeepsHandle m.calls

/-- A step in front of the rest: it fails with `undone`, or the rest follows. -/
theorem Completes.step {m rest : Made} {status : Status} {replies : List Status}
    {undone calls : List BlockCall} (hfailed : status ≠ .success → m = ⟨status, undone⟩)
    (hpassed : status = .success → m = rest) (hundone : KeepsHandle undone)
    (hrest : Completes rest replies calls) : Completes m (status :: replies) calls := by
  by_cases hstatus : status = .success
  · rw [hpassed hstatus]
    refine ⟨?_, ?_, hrest.keeps⟩ <;> rw [firstFailure, if_pos hstatus]
    · exact hrest.completed
    · exact hrest.failed
  · rw [hfailed hstatus]
    refine ⟨?_, ?_, hundone⟩ <;> rw [firstFailure, if_neg hstatus]
    · exact fun h => absurd h hstatus
    · exact fun h => h

theorem common_completes (r : CommonReplies) :
    Completes (azureIotNxClientCreateCommon r) r.inOrder [.create .events, .create .iothubClient] := by
  unfold azureIotNxClientCreateCommon
  refine .step (fun h => if_pos h) (fun h => if_neg (not_not_intro h)) (by decide) ?_
  refine .step (fun h => if_pos h) (fun h => if_neg (not_not_intro h)) (by decide) ?_
  refine .step (fun h => if_pos h) (fun h => if_neg (not_not_intro h)) (by decide) ?_
  exact ⟨fun _ => rfl, fun h => absurd rfl h, show KeepsHandle [.create .events, .create .iothubClient] by decide⟩

theorem Completes.behind {m : Made} {replies : List Status} {calls earlier : List BlockCall}
    (h : Completes m replies calls) (hearlier : KeepsHandle earlier) :
    Completes (m.behind earlier) replies (earlier ++ calls) where
  completed hreplies := by rw [h.completed hreplies, Made.behind]
  failed hreplies := h.failed hreplies
  keeps := hearlier.append h.keeps

theorem provision_completes (p : ProvisioningReplies) {rest : Made} {replies : List Status}
    {calls : List BlockCall} (hrest : Completes rest replies calls) : Completes (provision p rest)
      (p.clientInitialize :: firstFailure p.setup :: p.deviceInfoGet :: replies)
      ([.create .provClient, .delete .provClient] ++ calls) := by
  unfold provision
  refine .step (fun h => if_pos h) (fun h => if_neg (not_not_intro h)) (by decide) ?_
  refine .step (fun h => if_pos h) (fun h => if_neg (not_not_intro h)) (by decide) ?_
  refine .step (fun h => if_pos h) (fun h => if_neg (not_not_intro h)) (by decide) ?_
  exact hrest.behind (by decide)

/-- The part behind the handle. -/
def CreateCall.later : CreateCall → Made
  | .create _ _ r => azureIotNxClientCreateCommon r
  | .dpsCreate _ _ p r => provision p (azureIotNxClientCreateCommon r)

theorem CreateCall.later_completes (call : CreateCall) : ∃ replies calls,
    Completes call.later replies calls ∧ (call.CompletesLater ↔ firstFailure replies = .success) ∧
      (calls = [.create .events, .create .iothubClient] ∨
        calls = [.create .provClient, .delete .provClient, .create .events, .create .iothubClient]) := by
  cases call with
  | create c h r => exact ⟨_, _, common_completes r, Iff.rfl, Or.inl rfl⟩
  | dpsCreate c h p r =>
      exact ⟨_, _, provision_completes p (common_completes r), Iff.rfl, Or.inr rfl⟩

/-- What a call can do. -/
inductive Course (call : CreateCall) : Made → Prop
  | rejected : call.Rejected → Course call ⟨nxPtrError, []⟩
  | early {status : Status} {calls : List BlockCall} : ¬call.Rejected → call.FailsEarly →
      status ≠ .success → calls = [] ∨ calls = [.create .nxAzureIot, .delete .nxAzureIot] →
        Course call ⟨status, .wipe :: calls⟩
  | later : ¬call.Rejected → ¬call.FailsEarly →
      Course call (call.later.behind [.wipe, .create .nxAzureIot])

/-- The calls in front of the certificate are either both good, or nothing of theirs is left. -/
theorem createHandle_cases (h : HandleReplies) (rest : Made) :
    (firstFailure [h.azureIotCreate, h.certificateInitialize] = .success ∧
        createHandle h rest = rest.behind [.create .nxAzureIot]) ∨
      firstFailure [h.azureIotCreate, h.certificateInitialize] ≠ .success ∧ ∃ status calls,
        createHandle h rest = ⟨status, calls⟩ ∧ status ≠ .success ∧
          (calls = [] ∨ calls = [.create .nxAzureIot, .delete .nxAzureIot]) := by
  rw [createHandle, firstFailure, firstFailure, firstFailure]
  by_cases hcreate : h.azureIotCreate = .success
  · rw [if_pos hcreate, if_neg (not_not_intro hcreate)]
    by_cases hcertificate : h.certificateInitialize = .success
    · rw [if_pos hcertificate, if_neg (not_not_intro hcertificate)]
      exact Or.inl ⟨rfl, rfl⟩
    · rw [if_neg hcertificate, if_pos hcertificate]
      exact Or.inr ⟨hcertificate, _, _, rfl, hcertificate, Or.inr rfl⟩
  · rw [if_neg hcreate, if_pos hcreate]
    exact Or.inr ⟨hcreate, _, _, rfl, hcreate, Or.inl rfl⟩

theorem CreateCall.course (call : CreateCall) : Course call call.made := by
  cases call with
  | create c h r =>
      show Course _ (azureIotNxClientCreate c h r)
      rw [azureIotNxClientCreate]
      by_cases hrejected : c.Rejected
      · rw [if_pos hrejected]
        exact .rejected hrejected
      · rw [if_neg hrejected]
        rcases createHandle_cases h (azureIotNxClientCreateCommon r) with
          ⟨hgood, hmade⟩ | ⟨hfailed, status, calls, hmade, hstatus, hcalls⟩
        · rw [hmade]
          exact .later hrejected (not_not_intro hgood)
        · rw [hmade]
          exact .early hrejected hfailed hstatus hcalls
  | dpsCreate c h p r =>
      show Course _ (azureIotNxClientDpsCreate c h p r)
      rw [azureIotNxClientDpsCreate]
      by_cases hrejected : c.Rejected
      · rw [if_pos hrejected]
        exact .rejected hrejected
      · rw [if_neg hrejected]
        by_cases hpayload : c.PayloadTooLong
        · rw [if_pos hpayload]
          exact .early hrejected (Or.inl hpayload) Status.noConfusion (Or.inl rfl)
        · rw [if_neg hpayload]
          rcases createHandle_cases h (provision p (azureIotNxClientCreateCommon r)) with
            ⟨hgood, hmade⟩ | ⟨hfailed, status, calls, hmade, hstatus, hcalls⟩
          · rw [hmade]
            exact .later hrejected fun h => h.elim hpayload fun hfails => hfails hgood
          · rw [hmade]
            exact .early hrejected (Or.inr hfailed) hstatus hcalls

/-- Nothing is live until a call succeeds, and then the handle is. -/
structure Context.Consistent (c : Context) : Prop where
  nothing_live : c.created = false → c.live = ∅
  handle_live : c.created = true → .nxAzureIot ∈ c.live

/-- A call that wipes obeys the protocol in a context without live blocks only. -/
theorem created_eq_false_of_obeys {c : Context} {calls : List BlockCall} (hc : c.Consistent)
    (hobeys : contextProtocol.Obeys c.live (.wipe :: calls)) : c.created = false := by
  apply eq_false_of_ne_true
  intro hcreated
  have hlive := hc.handle_live hcreated
  rw [hobeys.1.1 rfl] at hlive
  exact Finset.notMem_empty _ hlive

/-- A part that completes behind the handle is a good end of a creation, one that fails is not. -/
theorem Completes.atomic_iff {m : Made} {replies : List Status} {calls : List BlockCall}
    (h : Completes m replies calls) (hcalls : calls = [.create .events, .create .iothubClient] ∨
      calls = [.create .provClient, .delete .provClient, .create .events, .create .iothubClient]) :
    (m.behind [.wipe, .create .nxAzureIot]).Atomic ∅ ↔ firstFailure replies = .success := by
  constructor
  · intro hatomic
    by_contra hreplies
    have hdead := hatomic.undone (h.failed hreplies) .nxAzureIot (by simp [Made.behind])
    have hlive : Block.nxAzureIot ∈ contextProtocol.after (insert .nxAzureIot ∅) m.calls :=
      after_keeps (Finset.mem_insert_self _ _) h.keeps
    exact hdead hlive
  · intro hreplies
    rw [h.completed hreplies]
    rcases hcalls with rfl | rfl
    · exact ⟨fun hfailed => absurd rfl hfailed, by decide⟩
    · exact ⟨fun hfailed => absurd rfl hfailed, by decide⟩

theorem Course.atomic_iff {call : CreateCall} {m : Made} (hcourse : Course call m) {c : Context}
    (hc : c.Consistent) : m.Atomic c.live ↔ call.InTime c := by
  cases hcourse with
  | rejected hrejected =>
      exact ⟨fun _ => Or.inl hrejected, fun _ => ⟨fun _ _ hmem => (nomatch hmem), trivial⟩⟩
  | early hpassed hearly hstatus hcalls =>
      constructor
      · exact fun h => Or.inr ⟨created_eq_false_of_obeys hc h.obeys, Or.inl hearly⟩
      · intro h
        rw [hc.nothing_live (h.resolve_left hpassed).1]
        refine ⟨fun _ => ?_, ?_⟩
        · rcases hcalls with rfl | rfl
          · simp
          · simp [contextProtocol, BlockCall.effect]
        · rcases hcalls with rfl | rfl
          · exact show contextProtocol.Obeys ∅ [.wipe] by decide
          · exact show contextProtocol.Obeys ∅ [.wipe, .create .nxAzureIot, .delete .nxAzureIot] by decide
  | later hpassed hlate =>
      obtain ⟨replies, calls, hcompletes, hreplies, hcalls⟩ := call.later_completes
      have hiff := hcompletes.atomic_iff hcalls
      rw [← hreplies] at hiff
      constructor
      · intro h
        have hcreated := created_eq_false_of_obeys hc h.obeys
        rw [hc.nothing_live hcreated] at h
        exact Or.inr ⟨hcreated, Or.inr (hiff.mp h)⟩
      · intro h
        obtain ⟨hcreated, hcompletesLater⟩ := h.resolve_left hpassed
        rw [hc.nothing_live hcreated]
        exact hiff.mpr (hcompletesLater.resolve_left hlate)

/-- A call that was atomic leaves a consistent context. -/
theorem Course.consistent {call : CreateCall} {m : Made} (hcourse : Course call m) {c : Context}
    (hc : c.Consistent) (hatomic : m.Atomic c.live) :
    Context.Consistent ⟨contextProtocol.after c.live m.calls, c.created || m.status = .success⟩ := by
  have hintime := (hcourse.atomic_iff hc).mp hatomic
  cases hcourse with
  | rejected hrejected =>
      rw [show decide (nxPtrError = .success) = false from rfl, Bool.or_false]
      exact ⟨hc.nothing_live, hc.handle_live⟩
  | early hpassed hearly hstatus hcalls =>
      obtain ⟨hcreated, -⟩ := hintime.resolve_left hpassed
      rw [hcreated, decide_eq_false hstatus]
      refine ⟨fun _ => ?_, fun h => Bool.noConfusion h⟩
      rcases hcalls with rfl | rfl
      · rfl
      · exact show contextProtocol.after ∅ [.create .nxAzureIot, .delete .nxAzureIot] = ∅ by decide
  | later hpassed hlate =>
      obtain ⟨-, hlater⟩ := hintime.resolve_left hpassed
      obtain ⟨replies, calls, hcompletes, hreplies, -⟩ := call.later_completes
      have hsuccess := hcompletes.completed (hreplies.mp (hlater.resolve_left hlate))
      have hlive : Block.nxAzureIot ∈ contextProtocol.after (insert .nxAzureIot ∅) call.later.calls :=
        after_keeps (Finset.mem_insert_self _ _) hcompletes.keeps
      refine ⟨fun h => ?_, fun _ => hlive⟩
      rw [Made.behind, hsuccess, decide_eq_true rfl, Bool.or_true] at h
      exact Bool.noConfusion h

theorem fresh_consistent : fresh.Consistent := ⟨fun _ => rfl, fun h => Bool.noConfusion h⟩

/-- **Creation is atomic exactly in the sequences whose calls are all in time**: for all calls on a fresh
context and all outcomes of the calls inside. -/
theorem creations_atomic_iff (calls : List CreateCall) :
    (∀ x ∈ creations.rounds fresh calls, x.call.made.Atomic x.before.live) ↔
      ∀ x ∈ creations.rounds fresh calls, x.call.InTime x.before :=
  Loop.forall_rounds_iff Context.Consistent _ _
    (fun _ call hc => call.course.atomic_iff hc)
    (fun _ call hc hatomic _ => call.course.consistent hc hatomic) calls fresh_consistent

/-- A creation in which the initialisation of the hub client fails. -/
def failedCreation : CreateCall :=
  .create ⟨false, ⟨text "hub.azure-devices.net", by decide⟩, ⟨text "board", by decide⟩,
      ⟨text "a2V5", by decide⟩⟩ ⟨.success, .success⟩
    ⟨.success, .notSuccessful, .success, .success, .success, .success, .success, .success, .success,
      .success⟩

/-- The failed creation leaves the handle live, and its repetition zeroes it. -/
theorem failedCreation_not_undone :
    ¬(∀ x ∈ creations.rounds fresh [failedCreation, failedCreation], x.call.made.Atomic x.before.live) ∧
      failedCreation.made.status = .notSuccessful ∧
      Block.nxAzureIot ∈ contextProtocol.after ∅ failedCreation.made.calls ∧
      ¬contextProtocol.Obeys (contextProtocol.after ∅ failedCreation.made.calls)
        failedCreation.made.calls := by
  refine ⟨fun h => ?_, by decide, by decide, by decide⟩
  have hfirst := h _ List.mem_cons_self
  exact hfirst.undone (by decide) .nxAzureIot (by decide) (by decide)

end DeviceSample.Nx
