import DeviceSample.BaseProtocol
import DeviceSample.Sdk

/-!
Connection attempts of the MQTT client. `azure_iot_mqtt_connect` makes seven calls that can fail and
cleans up by hand after each; `mqtt_disconnect_cb` repeats it until it succeeds.
-/

namespace DeviceSample.MqttConnect

open Base

/-- The topic filters that the client subscribes to. -/
inductive TopicFilter
  | deviceMessageTopic
  | directMethodTopic
  | deviceTwinResTopic
  | deviceTwinDesiredPropResTopic
  deriving DecidableEq, Repr

/-- The MQTT client: its connection, its TLS session and the filters of the connection. -/
structure Client where
  connected : Bool
  session : Bool
  filters : List TopicFilter
  deriving DecidableEq, Repr

/-- The calls that change the client. A failed `secure_connect` may leave a TLS session behind. -/
inductive ClientCall
  | secureConnect (status : Status) (sessionLeft : Bool)
  | subscribe (filter : TopicFilter) (status : Status)
  | tlsSessionDelete
  deriving DecidableEq, Repr

def ClientCall.effect (c : Client) : ClientCall → Client
  | .secureConnect status sessionLeft =>
      if status = .success then { connected := true, session := true, filters := [] }
      else { connected := false, session := sessionLeft, filters := [] }
  | .subscribe filter status =>
      if status = .success then { c with filters := c.filters ++ [filter] } else c
  | .tlsSessionDelete => { c with session := false }

/-- A TLS session is deleted only while there is one. -/
def clientProtocol : Protocol Client ClientCall where
  Allowed c call := call = .tlsSessionDelete → c.session = true
  next c call := call.effect c

instance (c : Client) (call : ClientCall) : Decidable (clientProtocol.Allowed c call) :=
  inferInstanceAs (Decidable (_ → _))

/-- What the calls of an attempt return. -/
structure Replies where
  createSasToken : Bool
  loginSet : Status
  dnsHostByNameGet : Status
  secureConnect : Status
  sessionLeft : Bool
  subscribe : TopicFilter → Status

/-- `NX_PTR_ERROR`. -/
def nxPtrError : Status := .other 0x07

/-- The status of `azure_iot_mqtt_connect` and its calls on the client. -/
structure Attempt where
  status : Status
  calls : List ClientCall
  deriving DecidableEq, Repr

/-- The same after some earlier calls. -/
def Attempt.behind (a : Attempt) (calls : List ClientCall) : Attempt := { a with calls := calls ++ a.calls }

/-- A subscription, its cleanup when it fails, and what follows it. -/
def subscribeStep (filter : TopicFilter) (status : Status) (cleanup : List ClientCall) (rest : Attempt) :
    Attempt :=
  if status ≠ .success then ⟨status, .subscribe filter status :: cleanup⟩
  else rest.behind [.subscribe filter status]

/-- The subscriptions of `azure_iot_mqtt_connect`. -/
def subscribeAll (subscribe : TopicFilter → Status) : Attempt :=
  subscribeStep .deviceMessageTopic (subscribe .deviceMessageTopic) [.tlsSessionDelete] <|
  subscribeStep .directMethodTopic (subscribe .directMethodTopic) [.tlsSessionDelete] <|
  subscribeStep .deviceTwinResTopic (subscribe .deviceTwinResTopic) [.tlsSessionDelete] <|
  -- the last of them cleans nothing up
  subscribeStep .deviceTwinDesiredPropResTopic (subscribe .deviceTwinDesiredPropResTopic) [] <|
  ⟨.success, []⟩

/-- `azure_iot_mqtt_connect`. -/
def azureIotMqttConnect (r : Replies) : Attempt :=
  if r.createSasToken = false then ⟨nxPtrError, []⟩
  else if r.loginSet ≠ .success then ⟨r.loginSet, [.tlsSessionDelete]⟩
  else if r.dnsHostByNameGet ≠ .success then ⟨r.dnsHostByNameGet, [.tlsSessionDelete]⟩
  else if r.secureConnect ≠ .success then
    ⟨r.secureConnect, [.secureConnect r.secureConnect r.sessionLeft, .tlsSessionDelete]⟩
  else (subscribeAll r.subscribe).behind [.secureConnect .success r.sessionLeft]

/-- The client is as it was before its first connection. -/
def Client.Idle (c : Client) : Prop := c.connected = false ∧ c.session = false

/-- An attempt from a client: one that fails leaves it without connection and session, a session is
deleted only while it exists, and success means connected and subscribed to all filters. -/
structure Attempt.Clean (a : Attempt) (c : Client) : Prop where
  failed : a.status ≠ .success → (clientProtocol.after c a.calls).Idle
  obeys : clientProtocol.Obeys c a.calls
  succeeded : a.status = .success → (clientProtocol.after c a.calls).connected = true ∧
    ∀ filter, filter ∈ (clientProtocol.after c a.calls).filters

/-- The attempt stops at the token, or at a `secure_connect` that leaves a session, or not at all. -/
def Replies.CleansUp (r : Replies) : Prop :=
  r.createSasToken = false ∨ r.loginSet = .success ∧ r.dnsHostByNameGet = .success ∧
    (r.secureConnect ≠ .success ∧ r.sessionLeft = true ∨
      r.secureConnect = .success ∧ ∀ filter, r.subscribe filter = .success)

/-- An attempt of the loop, with the client before it. -/
structure Attempted where
  before : Client
  replies : Replies

def Attempted.attempt (x : Attempted) : Attempt := azureIotMqttConnect x.replies

/-- The loop of `mqtt_disconnect_cb`. -/
def mqttDisconnectCb : Loop Client Replies Attempted where
  round c r := ⟨c, r⟩
  state x := clientProtocol.after x.before x.attempt.calls
  more x := x.attempt.status ≠ .success

/-- The client when the loop starts. -/
def disconnected : Client := ⟨false, false, []⟩

/-- No subscription and no deletion of a session ends the connection. -/
theorem subscribeStep_connected {filter : TopicFilter} {status : Status} {rest : Attempt}
    {cleanup : List ClientCall} (hcleanup : cleanup = [.tlsSessionDelete] ∨ cleanup = [])
    (hrest : ∀ c : Client, c.connected = true → (clientProtocol.after c rest.calls).connected = true)
    {c : Client} (hc : c.connected = true) :
    (clientProtocol.after c (subscribeStep filter status cleanup rest).calls).connected = true := by
  have hnext : (ClientCall.effect c (.subscribe filter status)).connected = true := by
    rw [ClientCall.effect]
    split <;> exact hc
  rw [subscribeStep]
  split
  · rcases hcleanup with rfl | rfl
    · exact hnext
    · exact hnext
  · exact hrest _ hnext

theorem subscribeStep_status (filter : TopicFilter) (status : Status) (cleanup : List ClientCall)
    (rest : Attempt) : (subscribeStep filter status cleanup rest).status = .success ↔
      status = .success ∧ rest.status = .success := by
  rw [subscribeStep]
  split
  · rename_i hfailed
    exact ⟨fun h => absurd h hfailed, fun h => absurd h.1 hfailed⟩
  · rename_i hpassed
    exact ⟨fun h => ⟨not_not.mp hpassed, h⟩, And.right⟩

theorem subscribeAll_connected (subscribe : TopicFilter → Status) {c : Client}
    (hc : c.connected = true) :
    (clientProtocol.after c (subscribeAll subscribe).calls).connected = true :=
  subscribeStep_connected (Or.inl rfl) (fun _ => subscribeStep_connected (Or.inl rfl) fun _ =>
    subscribeStep_connected (Or.inl rfl) fun _ => subscribeStep_connected (Or.inr rfl) fun _ => id) hc

theorem subscribeAll_status (subscribe : TopicFilter → Status) :
    (subscribeAll subscribe).status = .success ↔ ∀ filter, subscribe filter = .success := by
  rw [subscribeAll, subscribeStep_status, subscribeStep_status, subscribeStep_status,
    subscribeStep_status]
  constructor
  · rintro ⟨hmessage, hmethod, hresponse, hdesired, -⟩ filter
    cases filter with
    | deviceMessageTopic => exact hmessage
    | directMethodTopic => exact hmethod
    | deviceTwinResTopic => exact hresponse
    | deviceTwinDesiredPropResTopic => exact hdesired
  · exact fun h => ⟨h _, h _, h _, h _, rfl⟩

/-- The subscriptions when none fails. -/
theorem subscribeAll_of_success {subscribe : TopicFilter → Status}
    (h : ∀ filter, subscribe filter = .success) : subscribeAll subscribe =
      ⟨.success, [.subscribe .deviceMessageTopic .success, .subscribe .directMethodTopic .success,
        .subscribe .deviceTwinResTopic .success, .subscribe .deviceTwinDesiredPropResTopic .success]⟩ := by
  rw [subscribeAll, h, h, h, h]
  rfl

/-- No session is deleted that does not exist. -/
theorem not_clean_of_delete {c : Client} {status : Status} (hc : c.Idle) :
    ¬Attempt.Clean ⟨status, [.tlsSessionDelete]⟩ c := fun h =>
  Bool.noConfusion (hc.2.symm.trans (h.obeys.1 rfl))

theorem secureConnect_clean_iff (r : Replies) (c : Client) (hfailed : r.secureConnect ≠ .success) :
    Attempt.Clean ⟨r.secureConnect, [.secureConnect r.secureConnect r.sessionLeft, .tlsSessionDelete]⟩ c ↔
      r.sessionLeft = true := by
  have hclient : ClientCall.effect c (.secureConnect r.secureConnect r.sessionLeft) =
      ⟨false, r.sessionLeft, []⟩ := if_neg hfailed
  constructor
  · intro h
    have hsession : (ClientCall.effect c (.secureConnect r.secureConnect r.sessionLeft)).session = true :=
      h.obeys.2.1 rfl
    rw [hclient] at hsession
    exact hsession
  · intro hleft
    refine ⟨fun _ => ?_, ⟨fun h => ClientCall.noConfusion h, fun _ => ?_, trivial⟩, fun h => absurd h hfailed⟩
    · show (ClientCall.effect (ClientCall.effect c _) .tlsSessionDelete).Idle
      rw [hclient]
      exact ⟨rfl, rfl⟩
    · show (ClientCall.effect c _).session = true
      rw [hclient]
      exact hleft

theorem subscribeAll_clean_iff (r : Replies) (c : Client) :
    ((subscribeAll r.subscribe).behind [.secureConnect .success r.sessionLeft]).Clean c ↔
      ∀ filter, r.subscribe filter = .success := by
  constructor
  · intro h
    rw [← subscribeAll_status]
    by_contra hfailed
    have hconnected := subscribeAll_connected r.subscribe (c := ⟨true, true, []⟩) rfl
    exact Bool.noConfusion (hconnected.symm.trans (h.failed hfailed).1)
  · intro h
    rw [subscribeAll_of_success h]
    refine ⟨fun hfailed => absurd rfl hfailed, ?_, fun _ => ⟨rfl, fun filter => ?_⟩⟩
    · exact ⟨ClientCall.noConfusion, ClientCall.noConfusion, ClientCall.noConfusion,
        ClientCall.noConfusion, ClientCall.noConfusion, trivial⟩
    · show filter ∈ [TopicFilter.deviceMessageTopic, .directMethodTopic, .deviceTwinResTopic,
        .deviceTwinDesiredPropResTopic]
      cases filter <;> decide

/-- An attempt of an idle client is clean exactly if it cleans up. -/
theorem connect_clean_iff (r : Replies) {c : Client} (hc : c.Idle) :
    (azureIotMqttConnect r).Clean c ↔ r.CleansUp := by
  rw [azureIotMqttConnect, Replies.CleansUp]
  by_cases htoken : r.createSasToken = false
  · rw [if_pos htoken]
    exact ⟨fun _ => Or.inl htoken, fun _ => ⟨fun _ => hc, trivial, fun h => nomatch h⟩⟩
  · rw [if_neg htoken, or_iff_right htoken]
    by_cases hlogin : r.loginSet = .success
    · rw [if_neg (not_not_intro hlogin), and_iff_right hlogin]
      by_cases hdns : r.dnsHostByNameGet = .success
      · rw [if_neg (not_not_intro hdns), and_iff_right hdns]
        by_cases hconnect : r.secureConnect = .success
        · rw [if_neg (not_not_intro hconnect), subscribeAll_clean_iff]
          exact ⟨fun h => Or.inr ⟨hconnect, h⟩, fun h => (h.resolve_left fun h => h.1 hconnect).2⟩
        · rw [if_pos hconnect, secureConnect_clean_iff r c hconnect]
          exact ⟨fun h => Or.inl ⟨hconnect, h⟩, fun h => (h.resolve_right fun h => hconnect h.1).2⟩
      · rw [if_pos hdns]
        exact ⟨fun h => absurd h (not_clean_of_delete hc), fun h => absurd h.1 hdns⟩
    · rw [if_pos hlogin]
      exact ⟨fun h => absurd h (not_clean_of_delete hc), fun h => absurd h.1 hlogin⟩

/-- **The retry loop is clean exactly if each of its attempts cleans up**, for any number of attempts and
all outcomes of their calls. -/
theorem mqttDisconnectCb_clean_iff (replies : List Replies) :
    (∀ x ∈ mqttDisconnectCb.rounds disconnected replies, x.attempt.Clean x.before) ↔
      ∀ x ∈ mqttDisconnectCb.rounds disconnected replies, x.replies.CleansUp :=
  Loop.forall_rounds_iff Client.Idle _ _ (fun _ r hc => connect_clean_iff r hc)
    (fun _ _ _ hclean hmore => hclean.failed (of_decide_eq_true hmore)) replies ⟨rfl, rfl⟩

/-- A session is deleted that was never created, when the name of the hub is not found. -/
theorem dnsFailure_not_clean :
    ¬∀ x ∈ mqttDisconnectCb.rounds disconnected
      [⟨true, .success, .dnsQueryFailed, .success, true, fun _ => .success⟩],
        x.attempt.Clean x.before := fun h =>
  absurd (h _ List.mem_cons_self).obeys (by decide)

/-- A failed subscription leaves the client connected. -/
example : (clientProtocol.after disconnected (azureIotMqttConnect
    ⟨true, .success, .success, .success, true, fun _ => .notConnected⟩).calls).connected = true := by
  decide

end DeviceSample.MqttConnect
