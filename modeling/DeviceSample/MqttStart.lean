import DeviceSample.BaseLifecycle
import DeviceSample.MqttIdentity

/-!
Start of the MQTT client and of the SNTP client. `azure_iot_mqtt_create_with_dps` creates a client for the
provisioning service, registers with it, deletes it, and creates the client of the hub, each step on the
strength of the status in front of it.
-/

namespace DeviceSample.Start

open Base Dps Mqtt

inductive StartObject
  | mqttEventFlags
  | nxdMqttClient
  /-- the notify callback of the client -/
  | receiveNotify
  | sntpFlags
  | timeMutex
  | mqttClientThread
  deriving DecidableEq, Repr

/-- The calls of the start-up functions, with that of `azure_iot_dps_register`. -/
inductive StartFunction
  | eventFlagsCreate
  | clientCreate
  | receiveNotifySet
  | disconnectNotifySet
  | azureIotDpsRegister
  | loginSet
  | dnsHostByNameGet
  | secureConnect
  | subscribe
  | publish
  | tlsSessionDelete
  | eventFlagsSet
  | eventFlagsGet
  | eventFlagsDelete
  | clientDisconnect
  | clientDelete
  | sntpFlagsCreate
  | timeMutexCreate
  | threadCreate
  deriving DecidableEq, Repr

/-- The objects that a call takes; the TLS session is a part of the client. -/
def StartFunction.uses : StartFunction → List StartObject
  | .receiveNotifySet => [.nxdMqttClient]
  | .disconnectNotifySet => [.nxdMqttClient]
  | .azureIotDpsRegister => [.mqttEventFlags, .nxdMqttClient]
  | .loginSet => [.nxdMqttClient]
  | .secureConnect => [.nxdMqttClient]
  | .subscribe => [.nxdMqttClient]
  | .publish => [.nxdMqttClient]
  | .tlsSessionDelete => [.nxdMqttClient]
  | .eventFlagsSet => [.mqttEventFlags]
  | .eventFlagsGet => [.mqttEventFlags]
  | .eventFlagsDelete => [.mqttEventFlags]
  | .clientDisconnect => [.nxdMqttClient]
  | .clientDelete => [.nxdMqttClient]
  | _ => []

def StartFunction.creates : StartFunction → List StartObject
  | .eventFlagsCreate => [.mqttEventFlags]
  | .clientCreate => [.nxdMqttClient]
  | .receiveNotifySet => [.receiveNotify]
  | .sntpFlagsCreate => [.sntpFlags]
  | .timeMutexCreate => [.timeMutex]
  | .threadCreate => [.mqttClientThread]
  | _ => []

def StartFunction.deletes : StartFunction → List StartObject
  | .eventFlagsDelete => [.mqttEventFlags]
  | .clientDelete => [.nxdMqttClient, .receiveNotify]
  | _ => []

def startLifecycle : Lifecycle StartFunction StartObject where
  uses := StartFunction.uses
  creates := StartFunction.creates
  deletes := StartFunction.deletes

/-- The record of a call. -/
def tried (f : StartFunction) (status : Status) : Tried StartFunction := ⟨f, status = .success⟩

/-- A status and the calls that were made. -/
structure Started where
  status : Status
  calls : List (Tried StartFunction)

/-- A `bool` in the place of a status: `false` is zero, which is `NX_SUCCESS`. -/
def statusOfBool : Bool → Status
  | false => .success
  | true => .other 1

/-- What the calls of `azure_iot_mqtt_create_with_dps` return, and the state in which the wait of the
registration ends. `untested` has the calls of the provisioning part whose status nothing looks at. -/
structure StartReplies where
  eventFlagsCreate : Status
  clientCreate : Status
  receiveNotifySet : Status
  register : Dps.Replies
  arrived : Dps.State
  untested : StartFunction → Status
  common : CommonReplies
  commonClientDelete : Status

/-- The record of some calls whose status nothing looks at. -/
def StartReplies.triedUntested (r : StartReplies) (functions : List StartFunction) : List (Tried StartFunction) :=
  functions.map fun f => tried f (r.untested f)

/-- `azure_iot_dps_create`. -/
def azureIotDpsCreate (r : StartReplies) : Started :=
  let flags := tried .eventFlagsCreate r.eventFlagsCreate
  let client := tried .clientCreate r.clientCreate
  let notify := tried .receiveNotifySet r.receiveNotifySet
  -- the event flags that were not created are reported with `return false`
  if r.eventFlagsCreate ≠ .success then ⟨statusOfBool false, [flags]⟩
  else if r.clientCreate ≠ .success then
    ⟨r.clientCreate, [flags, client] ++ r.triedUntested [.eventFlagsDelete]⟩
  else if r.receiveNotifySet ≠ .success then
    ⟨r.receiveNotifySet, [flags, client, notify] ++ r.triedUntested [.eventFlagsDelete, .clientDelete]⟩
  else ⟨.success, [flags, client, notify]⟩

/-- `azure_iot_dps_delete`. -/
def azureIotDpsDelete (r : StartReplies) : Started :=
  ⟨.success, r.triedUntested [.eventFlagsDelete, .clientDisconnect, .clientDelete]⟩

/-- What `mqtt_notify_cb` calls while the registration waits. -/
def notifyCalls (r : StartReplies) : List (Tried StartFunction) :=
  r.triedUntested (r.arrived.retries.map fun _ => .publish) ++
    if r.arrived.eventFlagsSuccess then r.triedUntested [.eventFlagsSet] else []

/-- The calls of `azure_iot_dps_register`. -/
def registerCalls (r : StartReplies) : List (Tried StartFunction) :=
  let q := r.register
  let login := tried .loginSet q.loginSet
  let dns := tried .dnsHostByNameGet q.dnsHostByNameGet
  let connect := tried .secureConnect q.secureConnect
  let subscribe := tried .subscribe q.subscribe
  let left := r.triedUntested [.tlsSessionDelete]
  if q.createDpsSasToken = false then []
  else if q.loginSet ≠ .success then login :: left
  else if q.dnsHostByNameGet ≠ .success then [login, dns] ++ left
  else if q.secureConnect ≠ .success then [login, dns, connect] ++ left
  else if q.subscribe ≠ .success then [login, dns, connect, subscribe] ++ left
  else [login, dns, connect, subscribe, tried .publish q.publish] ++ notifyCalls r ++
    r.triedUntested [.eventFlagsGet]

/-- The calls of `azure_iot_mqtt_create_common`. -/
def createCommonCalls (r : StartReplies) : List (Tried StartFunction) :=
  let client := tried .clientCreate r.common.clientCreate
  let notify := tried .receiveNotifySet r.common.receiveNotifySet
  let disconnect := tried .disconnectNotifySet r.common.disconnectNotifySet
  let left := tried .clientDelete r.commonClientDelete
  if r.common.clientCreate ≠ .success then [client]
  else if r.common.receiveNotifySet ≠ .success then [client, notify, left]
  else if r.common.disconnectNotifySet ≠ .success then [client, notify, disconnect, left]
  else [client, notify, disconnect]

/-- The arguments that `azure_iot_mqtt_create_with_dps` checks. -/
structure DpsArguments where
  azureIotMqttNull : Bool
  iotDpsEndpoint : CString
  iotDpsIdScope : CString
  iotRegistrationId : CString
  iotSasKey : CString

def DpsArguments.Rejected (a : DpsArguments) : Prop :=
  a.azureIotMqttNull = true ∨
    (a.iotDpsEndpoint.bytes = [] ∨ a.iotDpsIdScope.bytes = [] ∨ a.iotRegistrationId.bytes = [] ∨ a.iotSasKey.bytes = [])

instance (a : DpsArguments) : Decidable a.Rejected := inferInstanceAs (Decidable (_ ∨ _))

/-- `azure_iot_mqtt_create_with_dps`. -/
def azureIotMqttCreateWithDps (a : DpsArguments) (r : StartReplies) : Started :=
  if a.Rejected then ⟨nxPtrError, []⟩
  else
    let created := azureIotDpsCreate r
    if created.status ≠ .success then created
    else
      let status := Dps.azureIotDpsRegister r.register r.arrived
      let deletion := azureIotDpsDelete r
      let calls := created.calls ++ tried .azureIotDpsRegister status :: registerCalls r ++ deletion.calls
      if status ≠ .success then ⟨status, calls⟩
      else if deletion.status ≠ .success then ⟨deletion.status, calls⟩
      else ⟨azureIotMqttCreateCommon r.common, calls ++ createCommonCalls r⟩

/-- What the calls of `sntp_start` return. -/
structure SntpReplies where
  eventFlagsCreate : Status
  mutexCreate : Status
  threadCreate : Status

/-- `sntp_start`. -/
def sntpStart (r : SntpReplies) : Started :=
  let flags := tried .sntpFlagsCreate r.eventFlagsCreate
  let mutex := tried .timeMutexCreate r.mutexCreate
  if r.eventFlagsCreate ≠ .success then ⟨statusOfBool false, [flags]⟩
  else if r.mutexCreate ≠ .success then ⟨r.mutexCreate, [flags, mutex]⟩
  else if r.threadCreate ≠ .success then
    ⟨r.threadCreate, [flags, mutex, tried .threadCreate r.threadCreate]⟩
  else ⟨.success, [flags, mutex, tried .threadCreate r.threadCreate]⟩

/-- A success means that the objects exist. -/
def Started.Delivers (x : Started) (objects : List StartObject) : Prop :=
  x.status = .success → ∀ object ∈ objects, object ∈ startLifecycle.protocol.after ∅ x.calls

/-- Only what exists is used, and a failure leaves neither the event flags nor the client. -/
structure Started.Clean (x : Started) : Prop where
  obeys : startLifecycle.protocol.Obeys ∅ x.calls
  undone : x.status ≠ .success →
    ∀ object ∈ [StartObject.mqttEventFlags, .nxdMqttClient], object ∉ startLifecycle.protocol.after ∅ x.calls

/-- The provisioning part succeeds: its client is created, and the wait ends with the flag. -/
structure StartReplies.Provisions (r : StartReplies) : Prop where
  client : r.clientCreate = .success
  notify : r.receiveNotifySet = .success
  token : r.register.createDpsSasToken = true
  calls : firstFailure [r.register.loginSet, r.register.dnsHostByNameGet, r.register.secureConnect,
    r.register.subscribe] = .success
  registered : r.arrived.eventFlagsSuccess = true

/-- Every creation succeeds. -/
structure StartReplies.Completes (r : StartReplies) : Prop where
  provisions : r.Provisions
  common : firstFailure [r.common.clientCreate, r.common.receiveNotifySet, r.common.disconnectNotifySet] = .success

/-- The deletions do their work: that of the event flags, and that of the client which was created last. -/
structure StartReplies.Undoes (r : StartReplies) : Prop where
  flags : r.untested .eventFlagsDelete = .success
  hub_client : r.Provisions → r.common.clientCreate = .success → r.commonClientDelete = .success
  dps_client : r.clientCreate = .success → ¬(r.Provisions ∧ r.common.clientCreate = .success) →
    r.untested .clientDelete = .success

section calls

variable {r : StartReplies}

theorem tried_success (f : StartFunction) : tried f .success = ⟨f, true⟩ := rfl

theorem tried_of_failure {f : StartFunction} {status : Status} (h : status ≠ .success) :
    tried f status = ⟨f, false⟩ := by
  rw [tried, decide_eq_false h]

/-- The objects of a provisioning client. -/
def provisioning : Finset StartObject := {.mqttEventFlags, .nxdMqttClient, .receiveNotify}

/-- What deletions can leave of it. -/
def left (flags client : Bool) : Finset StartObject :=
  (if flags then {.mqttEventFlags} else ∅) ∪ if client then {.nxdMqttClient, .receiveNotify} else ∅

theorem mem_left (flags client : Bool) : (StartObject.mqttEventFlags ∈ left flags client ↔ flags = true) ∧
    (StartObject.nxdMqttClient ∈ left flags client ↔ client = true) := by
  revert flags client
  decide

/-- The functions that `azure_iot_dps_register` and the callback call. -/
def registerFunctions : List StartFunction :=
  [.loginSet, .dnsHostByNameGet, .secureConnect, .subscribe, .publish, .tlsSessionDelete, .eventFlagsSet,
    .eventFlagsGet]

theorem registerFunctions_idle : ∀ f ∈ registerFunctions,
    startLifecycle.Idle f ∧ ∀ object ∈ f.uses, object ∈ provisioning := by decide

theorem notifyCalls_functions (r : StartReplies) : ∀ t ∈ notifyCalls r, t.call ∈ registerFunctions := by
  have hpublish : StartFunction.publish ∈ registerFunctions := by decide
  have hset : StartFunction.eventFlagsSet ∈ registerFunctions := by decide
  rw [notifyCalls, List.forall_mem_append]
  constructor
  · rw [StartReplies.triedUntested, List.forall_mem_map, List.forall_mem_map]
    exact fun _ _ => hpublish
  · split
    · exact List.forall_mem_singleton.mpr hset
    · nofun

theorem triedUntested_functions (r : StartReplies) (functions : List StartFunction)
    (h : ∀ f ∈ functions, f ∈ registerFunctions) : ∀ t ∈ r.triedUntested functions, t.call ∈ registerFunctions := by
  rw [StartReplies.triedUntested, List.forall_mem_map]
  exact h

theorem tried_functions {f : StartFunction} (status : Status) (h : f ∈ registerFunctions) :
    (tried f status).call ∈ registerFunctions := h

theorem registerCalls_functions (r : StartReplies) : ∀ t ∈ registerCalls r, t.call ∈ registerFunctions := by
  have hlogin := tried_functions r.register.loginSet (f := .loginSet) (by decide)
  have hdns := tried_functions r.register.dnsHostByNameGet (f := .dnsHostByNameGet) (by decide)
  have hconnect := tried_functions r.register.secureConnect (f := .secureConnect) (by decide)
  have hsubscribe := tried_functions r.register.subscribe (f := .subscribe) (by decide)
  have hpublish := tried_functions r.register.publish (f := .publish) (by decide)
  have hleft := triedUntested_functions r [.tlsSessionDelete] (by decide)
  have hget := triedUntested_functions r [.eventFlagsGet] (by decide)
  have hnotify := notifyCalls_functions r
  rw [registerCalls]
  repeat' split
  · nofun
  · exact List.forall_mem_cons.mpr ⟨hlogin, hleft⟩
  all_goals
    simp only [List.forall_mem_append, List.forall_mem_cons, hlogin, hdns, hconnect, hsubscribe, hpublish, true_and,
      List.not_mem_nil, false_implies, implies_true]
  · exact hleft
  · exact hleft
  · exact hleft
  · exact ⟨hnotify, hget⟩

theorem register_eq_success_iff : Dps.azureIotDpsRegister r.register r.arrived = .success ↔
    r.register.createDpsSasToken = true ∧
      firstFailure [r.register.loginSet, r.register.dnsHostByNameGet, r.register.secureConnect,
        r.register.subscribe] = .success ∧ r.arrived.eventFlagsSuccess = true := by
  rw [Dps.azureIotDpsRegister]
  cases r.register.createDpsSasToken with
  | false => simp [nxPtrError]
  | true =>
      rw [if_neg Bool.noConfusion, and_iff_right rfl]
      split
      · rename_i hfailed
        exact iff_of_false hfailed fun h => hfailed h.1
      · rename_i hpasses
        rw [and_iff_right (not_not.mp hpasses)]
        cases r.arrived.eventFlagsSuccess <;> simp

theorem registerCalls_idle (r : StartReplies) :
    startLifecycle.protocol.after provisioning (registerCalls r) = provisioning ∧
      startLifecycle.protocol.Obeys provisioning (registerCalls r) := by
  have hidle := fun t ht => registerFunctions_idle _ (registerCalls_functions r t ht)
  exact ⟨Lifecycle.after_idle fun t ht => (hidle t ht).1,
    Lifecycle.obeys_idle (fun t ht => (hidle t ht).1) fun t ht => (hidle t ht).2⟩

theorem azureIotDpsDelete_after (r : StartReplies) :
    startLifecycle.protocol.Obeys provisioning (azureIotDpsDelete r).calls ∧
      startLifecycle.protocol.after provisioning (azureIotDpsDelete r).calls =
        left (r.untested .eventFlagsDelete ≠ .success) (r.untested .clientDelete ≠ .success) := by
  have hdeletions : ∀ deleted disconnected deleted' : Bool,
      let calls := [⟨.eventFlagsDelete, deleted⟩, ⟨.clientDisconnect, disconnected⟩, ⟨.clientDelete, deleted'⟩]
      startLifecycle.protocol.Obeys provisioning calls ∧
        startLifecycle.protocol.after provisioning calls = left (!deleted) (!deleted') := by
    decide
  rw [decide_not, decide_not]
  exact hdeletions _ _ _

/-- The event flags and the client after some calls. -/
def Leaves (flags client : Prop) (live : Finset StartObject) (calls : List (Tried StartFunction)) : Prop :=
  (StartObject.mqttEventFlags ∈ startLifecycle.protocol.after live calls ↔ flags) ∧
    (StartObject.nxdMqttClient ∈ startLifecycle.protocol.after live calls ↔ client)

instance {flags client : Prop} [Decidable flags] [Decidable client] {live : Finset StartObject}
    {calls : List (Tried StartFunction)} : Decidable (Leaves flags client live calls) :=
  inferInstanceAs (Decidable (_ ∧ _))

/-- The common part, whatever the provisioning part left. -/
theorem createCommonCalls_after (r : StartReplies) (flags client : Bool) :
    startLifecycle.protocol.Obeys (left flags client) (createCommonCalls r) ∧
      (azureIotMqttCreateCommon r.common ≠ .success → Leaves (flags = true)
        (if r.common.clientCreate = .success then r.commonClientDelete ≠ .success else client = true)
        (left flags client) (createCommonCalls r)) := by
  rw [createCommonCalls, azureIotMqttCreateCommon]
  by_cases hclient : r.common.clientCreate = .success
  · rw [if_neg (not_not_intro hclient), if_pos hclient, hclient, tried_success]
    have hdeleted : (r.commonClientDelete ≠ .success) ↔ (tried .clientDelete r.commonClientDelete).succeeded = false :=
      (decide_eq_false_iff_not (p := r.commonClientDelete = .success)).symm
    by_cases hnotify : r.common.receiveNotifySet = .success
    · rw [if_neg (not_not_intro hnotify), hnotify, tried_success]
      by_cases hdisconnect : r.common.disconnectNotifySet = .success
      · have hcalls : ∀ flags client, startLifecycle.protocol.Obeys (left flags client)
            [⟨.clientCreate, true⟩, ⟨.receiveNotifySet, true⟩, ⟨.disconnectNotifySet, true⟩] := by decide
        rw [if_neg (not_not_intro hdisconnect), hdisconnect, tried_success]
        exact ⟨hcalls flags client, fun hfails => absurd rfl hfails⟩
      · have hcalls : ∀ flags client deleted,
            let calls := [⟨.clientCreate, true⟩, ⟨.receiveNotifySet, true⟩, ⟨.disconnectNotifySet, false⟩,
              ⟨.clientDelete, deleted⟩]
            startLifecycle.protocol.Obeys (left flags client) calls ∧
              Leaves (flags = true) (deleted = false) (left flags client) calls := by decide
        obtain ⟨hobeys, hleaves⟩ := hcalls flags client (r.commonClientDelete = .success)
        rw [if_pos hdisconnect, tried_of_failure hdisconnect, hdeleted]
        exact ⟨hobeys, fun _ => hleaves⟩
    · have hcalls : ∀ flags client deleted,
          let calls := [⟨.clientCreate, true⟩, ⟨.receiveNotifySet, false⟩, ⟨.clientDelete, deleted⟩]
          startLifecycle.protocol.Obeys (left flags client) calls ∧
            Leaves (flags = true) (deleted = false) (left flags client) calls := by decide
      obtain ⟨hobeys, hleaves⟩ := hcalls flags client (r.commonClientDelete = .success)
      rw [if_pos hnotify, tried_of_failure hnotify, hdeleted]
      exact ⟨hobeys, fun _ => hleaves⟩
  · have hcalls : ∀ flags client, startLifecycle.protocol.Obeys (left flags client) [⟨.clientCreate, false⟩] ∧
        Leaves (flags = true) (client = true) (left flags client) [⟨.clientCreate, false⟩] := by decide
    obtain ⟨hobeys, hleaves⟩ := hcalls flags client
    rw [if_pos hclient, if_neg hclient, tried_of_failure hclient]
    exact ⟨hobeys, fun _ => hleaves⟩

/-- Behind the event flags, both functions return the status of a call that fails. -/
theorem delivers_of_tested {first second : Status} {x y z : Started} {objects : List StartObject} (hx : x.status = first)
    (hy : y.status = second) (hz : first = .success → second = .success → z.Delivers objects) :
    (if first ≠ .success then x else if second ≠ .success then y else z).Delivers objects := by
  by_cases hfirst : first = .success
  · rw [if_neg (not_not_intro hfirst)]
    by_cases hsecond : second = .success
    · rw [if_neg (not_not_intro hsecond)]
      exact hz hfirst hsecond
    · rw [if_pos hsecond]
      exact fun hstatus => absurd (hy.symm.trans hstatus) hsecond
  · rw [if_pos hfirst]
    exact fun hstatus => absurd (hx.symm.trans hstatus) hfirst

theorem azureIotDpsCreate_delivers_iff (r : StartReplies) :
    (azureIotDpsCreate r).Delivers [.mqttEventFlags, .nxdMqttClient, .receiveNotify] ↔
      r.eventFlagsCreate = .success := by
  have hmissing : ¬∀ object ∈ [StartObject.mqttEventFlags, .nxdMqttClient, .receiveNotify],
      object ∈ startLifecycle.protocol.after ∅ [⟨.eventFlagsCreate, false⟩] := by decide
  have hcreated : ∀ object ∈ [StartObject.mqttEventFlags, .nxdMqttClient, .receiveNotify],
      object ∈ startLifecycle.protocol.after ∅
        [⟨.eventFlagsCreate, true⟩, ⟨.clientCreate, true⟩, ⟨.receiveNotifySet, true⟩] := by decide
  rw [azureIotDpsCreate]
  by_cases hflags : r.eventFlagsCreate = .success
  · rw [if_neg (not_not_intro hflags)]
    refine iff_of_true (delivers_of_tested rfl rfl fun hclient hnotify => ?_) hflags
    rw [hflags, hclient, hnotify]
    exact fun _ => hcreated
  · rw [if_pos hflags, tried_of_failure hflags]
    exact iff_of_false (fun hdelivers => hmissing (hdelivers rfl)) hflags

theorem sntpStart_delivers_iff (r : SntpReplies) :
    (sntpStart r).Delivers [.sntpFlags, .timeMutex, .mqttClientThread] ↔ r.eventFlagsCreate = .success := by
  have hmissing : ¬∀ object ∈ [StartObject.sntpFlags, .timeMutex, .mqttClientThread],
      object ∈ startLifecycle.protocol.after ∅ [⟨.sntpFlagsCreate, false⟩] := by decide
  have hcreated : ∀ object ∈ [StartObject.sntpFlags, .timeMutex, .mqttClientThread],
      object ∈ startLifecycle.protocol.after ∅
        [⟨.sntpFlagsCreate, true⟩, ⟨.timeMutexCreate, true⟩, ⟨.threadCreate, true⟩] := by decide
  rw [sntpStart]
  by_cases hflags : r.eventFlagsCreate = .success
  · rw [if_neg (not_not_intro hflags)]
    refine iff_of_true (delivers_of_tested rfl rfl fun hmutex hthread => ?_) hflags
    rw [hflags, hmutex, hthread]
    exact fun _ => hcreated
  · rw [if_pos hflags, tried_of_failure hflags]
    exact iff_of_false (fun hdelivers => hmissing (hdelivers rfl)) hflags

theorem clean_failed_iff {status : Status} {calls : List (Tried StartFunction)} {flags client : Prop}
    (hstatus : status ≠ .success) (hobeys : startLifecycle.protocol.Obeys ∅ calls) (hleaves : Leaves flags client ∅ calls) :
    Started.Clean ⟨status, calls⟩ ↔ ¬flags ∧ ¬client := by
  constructor
  · intro h
    have hundone := h.undone hstatus
    rw [List.forall_mem_cons, List.forall_mem_singleton, hleaves.1, hleaves.2] at hundone
    exact hundone
  · intro h
    refine ⟨hobeys, fun _ => ?_⟩
    rw [List.forall_mem_cons, List.forall_mem_singleton, hleaves.1, hleaves.2]
    exact h

/-- What a failing creation of the provisioning client leaves. -/
theorem azureIotDpsCreate_failed (hflags : r.eventFlagsCreate = .success)
    (hfails : ¬(r.clientCreate = .success ∧ r.receiveNotifySet = .success)) :
    (azureIotDpsCreate r).status ≠ .success ∧ ((azureIotDpsCreate r).Clean ↔
      r.untested .eventFlagsDelete = .success ∧ (r.clientCreate = .success → r.untested .clientDelete = .success)) := by
  rw [azureIotDpsCreate, if_neg (not_not_intro hflags), hflags, tried_success]
  by_cases hclient : r.clientCreate = .success
  · have hnotify : r.receiveNotifySet ≠ .success := fun hnotify => hfails ⟨hclient, hnotify⟩
    have hcalls : ∀ deleted deleted',
        let calls := [⟨.eventFlagsCreate, true⟩, ⟨.clientCreate, true⟩, ⟨.receiveNotifySet, false⟩,
          ⟨.eventFlagsDelete, deleted⟩, ⟨.clientDelete, deleted'⟩]
        startLifecycle.protocol.Obeys ∅ calls ∧ Leaves (¬deleted = true) (¬deleted' = true) ∅ calls := by decide
    obtain ⟨hobeys, hleaves⟩ := hcalls (r.untested .eventFlagsDelete = .success) (r.untested .clientDelete = .success)
    rw [decide_eq_true_iff, decide_eq_true_iff] at hleaves
    rw [if_neg (not_not_intro hclient), if_pos hnotify, hclient, tried_success, tried_of_failure hnotify]
    refine ⟨hnotify, (clean_failed_iff hnotify hobeys hleaves).trans ?_⟩
    rw [not_not, not_not]
    exact and_congr_right fun _ => ⟨fun h _ => h, fun h => h rfl⟩
  · have hcalls : ∀ deleted,
        let calls := [⟨.eventFlagsCreate, true⟩, ⟨.clientCreate, false⟩, ⟨.eventFlagsDelete, deleted⟩]
        startLifecycle.protocol.Obeys ∅ calls ∧ Leaves (¬deleted = true) False ∅ calls := by decide
    obtain ⟨hobeys, hleaves⟩ := hcalls (r.untested .eventFlagsDelete = .success)
    rw [decide_eq_true_iff] at hleaves
    rw [if_pos hclient, tried_of_failure hclient]
    refine ⟨hclient, (clean_failed_iff hclient hobeys hleaves).trans ?_⟩
    rw [not_not]
    exact and_congr_right fun _ => iff_of_true not_false fun hcreated => absurd hcreated hclient

theorem azureIotDpsCreate_created (hflags : r.eventFlagsCreate = .success) (hclient : r.clientCreate = .success)
    (hnotify : r.receiveNotifySet = .success) : (azureIotDpsCreate r).status = .success ∧
      startLifecycle.protocol.after ∅ (azureIotDpsCreate r).calls = provisioning ∧
        startLifecycle.protocol.Obeys ∅ (azureIotDpsCreate r).calls := by
  have hcalls : startLifecycle.protocol.after ∅
      [⟨.eventFlagsCreate, true⟩, ⟨.clientCreate, true⟩, ⟨.receiveNotifySet, true⟩] = provisioning ∧
        startLifecycle.protocol.Obeys ∅
          [⟨.eventFlagsCreate, true⟩, ⟨.clientCreate, true⟩, ⟨.receiveNotifySet, true⟩] := by decide
  rw [azureIotDpsCreate, if_neg (not_not_intro hflags), if_neg (not_not_intro hclient),
    if_neg (not_not_intro hnotify), hflags, hclient, hnotify]
  exact ⟨rfl, hcalls⟩

/-- The calls up to the deletion of the provisioning client. -/
def provisioned (r : StartReplies) : List (Tried StartFunction) :=
  (azureIotDpsCreate r).calls ++ tried .azureIotDpsRegister (Dps.azureIotDpsRegister r.register r.arrived) ::
    registerCalls r ++ (azureIotDpsDelete r).calls

theorem provisioned_after (hflags : r.eventFlagsCreate = .success) (hclient : r.clientCreate = .success)
    (hnotify : r.receiveNotifySet = .success) : startLifecycle.protocol.Obeys ∅ (provisioned r) ∧
      startLifecycle.protocol.after ∅ (provisioned r) =
        left (r.untested .eventFlagsDelete ≠ .success) (r.untested .clientDelete ≠ .success) := by
  obtain ⟨-, hcreated, hobeys⟩ := azureIotDpsCreate_created hflags hclient hnotify
  obtain ⟨hregistered, hobeys'⟩ := registerCalls_idle r
  obtain ⟨hobeys'', hdeleted⟩ := azureIotDpsDelete_after r
  have hregister : ∀ status, startLifecycle.protocol.Allowed provisioning (tried .azureIotDpsRegister status) := by
    intro status
    show ∀ object ∈ StartFunction.uses .azureIotDpsRegister, object ∈ provisioning
    decide
  have hidle : ∀ status, startLifecycle.protocol.next provisioning (tried .azureIotDpsRegister status) = provisioning :=
    fun status => Lifecycle.effect_idle (t := tried .azureIotDpsRegister status) ⟨rfl, rfl⟩
  have hwaited : startLifecycle.protocol.after ∅ ((azureIotDpsCreate r).calls ++
      tried .azureIotDpsRegister (Dps.azureIotDpsRegister r.register r.arrived) :: registerCalls r) = provisioning := by
    rw [Protocol.after_append, hcreated, Protocol.after_cons, hidle, hregistered]
  rw [provisioned, Protocol.after_append, Protocol.obeys_append, hwaited, Protocol.obeys_append, hcreated,
    Protocol.obeys_cons, hidle]
  exact ⟨⟨⟨hobeys, hregister _, hobeys'⟩, hobeys''⟩, hdeleted⟩

/-- The creation behind an `azure_iot_dps_create` that reports success. -/
theorem azureIotMqttCreateWithDps_continues (a : DpsArguments) (hrejected : ¬a.Rejected)
    (hstatus : (azureIotDpsCreate r).status = .success) : azureIotMqttCreateWithDps a r =
      if Dps.azureIotDpsRegister r.register r.arrived ≠ .success then
        ⟨Dps.azureIotDpsRegister r.register r.arrived, provisioned r⟩
      else ⟨azureIotMqttCreateCommon r.common, provisioned r ++ createCommonCalls r⟩ := by
  rw [azureIotMqttCreateWithDps, if_neg hrejected, if_neg (not_not_intro hstatus)]
  rfl

theorem provisions_iff (hclient : r.clientCreate = .success) (hnotify : r.receiveNotifySet = .success) :
    r.Provisions ↔ Dps.azureIotDpsRegister r.register r.arrived = .success := by
  rw [register_eq_success_iff]
  exact ⟨fun h => ⟨h.token, h.calls, h.registered⟩, fun h => ⟨hclient, hnotify, h.1, h.2.1, h.2.2⟩⟩

/-- What is left behind a provisioning client that was created. -/
theorem created_clean_iff (a : DpsArguments) (hrejected : ¬a.Rejected) (hflags : r.eventFlagsCreate = .success)
    (hclient : r.clientCreate = .success) (hnotify : r.receiveNotifySet = .success) :
    (azureIotMqttCreateWithDps a r).Clean ↔ r.Completes ∨ r.Undoes := by
  obtain ⟨hobeys, hafter⟩ := provisioned_after hflags hclient hnotify
  have hprovisions := provisions_iff hclient hnotify
  rw [azureIotMqttCreateWithDps_continues a hrejected (azureIotDpsCreate_created hflags hclient hnotify).1]
  by_cases hregisters : Dps.azureIotDpsRegister r.register r.arrived = .success
  · obtain ⟨hcommonObeys, hleaves⟩ := createCommonCalls_after r (r.untested .eventFlagsDelete ≠ .success)
      (r.untested .clientDelete ≠ .success)
    have hallowed : startLifecycle.protocol.Obeys ∅ (provisioned r ++ createCommonCalls r) := by
      rw [Protocol.obeys_append, hafter]
      exact ⟨hobeys, hcommonObeys⟩
    rw [if_neg (not_not_intro hregisters)]
    by_cases hcommon : azureIotMqttCreateCommon r.common = .success
    · exact iff_of_true ⟨hallowed, fun hfails => absurd hcommon hfails⟩
        (Or.inl ⟨hprovisions.mpr hregisters, hcommon⟩)
    · have hleft := hleaves hcommon
      rw [Leaves, ← hafter, ← Protocol.after_append, decide_eq_true_iff, decide_eq_true_iff] at hleft
      rw [or_iff_right fun h => hcommon h.common, clean_failed_iff hcommon hallowed hleft, not_not]
      have hp := hprovisions.mpr hregisters
      constructor
      · rintro ⟨hflagsDeleted, hclientDeleted⟩
        refine ⟨hflagsDeleted, fun _ hhub => ?_, fun _ hhub => ?_⟩
        · rw [if_pos hhub, not_not] at hclientDeleted
          exact hclientDeleted
        · rw [if_neg fun hcreated => hhub ⟨hp, hcreated⟩, not_not] at hclientDeleted
          exact hclientDeleted
      · intro hundoes
        refine ⟨hundoes.flags, ?_⟩
        split
        · rename_i hhub
          exact not_not_intro (hundoes.hub_client hp hhub)
        · rename_i hhub
          exact not_not_intro (hundoes.dps_client hclient fun h => hhub h.2)
  · obtain ⟨hflagsLeft, hclientLeft⟩ := mem_left (r.untested .eventFlagsDelete ≠ .success)
      (r.untested .clientDelete ≠ .success)
    rw [← hafter, decide_eq_true_iff] at hflagsLeft hclientLeft
    have hp : ¬r.Provisions := fun h => hregisters (hprovisions.mp h)
    rw [if_pos hregisters, or_iff_right fun h => hp h.provisions,
      clean_failed_iff hregisters hobeys ⟨hflagsLeft, hclientLeft⟩, not_not, not_not]
    exact ⟨fun h => ⟨h.1, fun hprovisioned => absurd hprovisioned hp, fun _ _ => h.2⟩,
      fun h => ⟨h.flags, h.dps_client hclient fun hprovisioned => hp hprovisioned.1⟩⟩

/-- Without the event flags the provisioning client is registered though it does not exist. -/
theorem noEventFlags_not_clean (a : DpsArguments) (hrejected : ¬a.Rejected) (hflags : r.eventFlagsCreate ≠ .success) :
    ¬(azureIotMqttCreateWithDps a r).Clean := by
  have hmissing : ¬startLifecycle.protocol.Allowed
      (startLifecycle.protocol.after ∅ [⟨.eventFlagsCreate, false⟩])
      (tried .azureIotDpsRegister (Dps.azureIotDpsRegister r.register r.arrived)) := by
    intro hallowed
    have hexists := hallowed .mqttEventFlags (List.mem_cons_self ..)
    exact absurd hexists (by decide)
  have hcreated : azureIotDpsCreate r = ⟨.success, [⟨.eventFlagsCreate, false⟩]⟩ := by
    rw [azureIotDpsCreate, if_pos hflags, tried_of_failure hflags]
    rfl
  have hbroken : ∀ more, ¬startLifecycle.protocol.Obeys ∅ (provisioned r ++ more) := by
    intro more hobeys
    rw [provisioned, hcreated, Protocol.obeys_append, Protocol.obeys_append, Protocol.obeys_append] at hobeys
    exact hmissing hobeys.1.1.2.1
  intro hclean
  have hobeys := hclean.obeys
  rw [azureIotMqttCreateWithDps_continues a hrejected (by rw [hcreated])] at hobeys
  split at hobeys
  · rw [← List.append_nil (provisioned r)] at hobeys
    exact hbroken [] hobeys
  · exact hbroken _ hobeys

/-- The creation with provisioning uses what exists and leaves nothing behind a failure, exactly if it refuses its
arguments, or the event flags of the provisioning client are created, and either every creation succeeds or the
deletions do. -/
theorem azureIotMqttCreateWithDps_clean_iff (a : DpsArguments) (r : StartReplies) :
    (azureIotMqttCreateWithDps a r).Clean ↔
      a.Rejected ∨ r.eventFlagsCreate = .success ∧ (r.Completes ∨ r.Undoes) := by
  by_cases hrejected : a.Rejected
  · rw [azureIotMqttCreateWithDps, if_pos hrejected]
    exact iff_of_true ⟨trivial, fun _ => by decide⟩ (Or.inl hrejected)
  rw [or_iff_right hrejected]
  by_cases hflags : r.eventFlagsCreate = .success
  · rw [and_iff_right hflags]
    by_cases hcreated : r.clientCreate = .success ∧ r.receiveNotifySet = .success
    · exact created_clean_iff a hrejected hflags hcreated.1 hcreated.2
    · have hprovisions : ¬r.Provisions := fun h => hcreated ⟨h.client, h.notify⟩
      obtain ⟨hstatus, hclean⟩ := azureIotDpsCreate_failed hflags hcreated
      rw [azureIotMqttCreateWithDps, if_neg hrejected, if_pos hstatus, hclean]
      constructor
      · rintro ⟨hflagsDeleted, hclientDeleted⟩
        exact Or.inr ⟨hflagsDeleted, fun h => absurd h hprovisions, fun h _ => hclientDeleted h⟩
      · rintro (hcompletes | hundoes)
        · exact absurd hcompletes.provisions hprovisions
        · exact ⟨hundoes.flags, fun h => hundoes.dps_client h fun h => hprovisions h.1⟩
  · exact iff_of_false (noEventFlags_not_clean a hrejected hflags) fun h => hflags h.1

/-- A success of the start-up functions means that the objects exist, exactly if the event flags are created,
whose failure both functions report as a success. -/
theorem start_delivers_iff (a : DpsArguments) (r : StartReplies) (q : SntpReplies) :
    ((azureIotDpsCreate r).Delivers [.mqttEventFlags, .nxdMqttClient, .receiveNotify] ↔
        r.eventFlagsCreate = .success) ∧
      ((sntpStart q).Delivers [.sntpFlags, .timeMutex, .mqttClientThread] ↔ q.eventFlagsCreate = .success) ∧
      ((azureIotMqttCreateWithDps a r).Clean ↔
        a.Rejected ∨ r.eventFlagsCreate = .success ∧ (r.Completes ∨ r.Undoes)) :=
  ⟨azureIotDpsCreate_delivers_iff r, sntpStart_delivers_iff q, azureIotMqttCreateWithDps_clean_iff a r⟩

/-- Every call succeeds but the creation of the event flags. -/
def noEventFlags : StartReplies where
  eventFlagsCreate := .other 6
  clientCreate := .success
  receiveNotifySet := .success
  register :=
    { createDpsSasToken := true, loginSet := .success, dnsHostByNameGet := .success, secureConnect := .success,
      subscribe := .success, publish := .success }
  arrived := { memory := fun _ => 0, eventFlagsSuccess := false, received := [], retries := [] }
  untested _ := .success
  common := ⟨.success, .success, .success⟩
  commonClientDelete := .success

def deviceArguments : DpsArguments where
  azureIotMqttNull := false
  iotDpsEndpoint := ⟨text "dps.example", by decide⟩
  iotDpsIdScope := ⟨text "0ne00112233", by decide⟩
  iotRegistrationId := ⟨text "mxchip-3", by decide⟩
  iotSasKey := ⟨text "cHJvdmlzaW9u", by decide⟩

/-- Without event flags, both functions report success, and the registration is called without a client. -/
theorem noEventFlags_fails :
    ¬(azureIotDpsCreate noEventFlags).Delivers [.mqttEventFlags, .nxdMqttClient, .receiveNotify] ∧
      ¬(sntpStart ⟨.other 6, .success, .success⟩).Delivers [.sntpFlags, .timeMutex, .mqttClientThread] ∧
        ¬(azureIotMqttCreateWithDps deviceArguments noEventFlags).Clean := by
  refine ⟨fun h => absurd (h rfl .mqttEventFlags (by decide)) (by decide),
    fun h => absurd (h rfl .sntpFlags (by decide)) (by decide), fun h => absurd h.obeys (by decide)⟩

end calls

end DeviceSample.Start
