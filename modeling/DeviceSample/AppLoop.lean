import DeviceSample.AppActions

/-!
`sample_event_loop` against its environment. The thread of the application moves in small steps: it
reads all flags at once, goes through the tests of the flags it read in the order of the source, and
triggers the next action. Between any two of these steps the library may report a connection status
or queue a message.
-/

namespace DeviceSample.App

open Base

/-- The order in which one iteration tests the flags. -/
def actionOrder : List SampleEvent :=
  [.connect, .initialization, .devicePropertiesGet, .commandMessage, .deviceDesiredProperties,
    .telemetrySend, .deviceReportedProperties, .disconnect, .connected, .reconnect]

/-- A move of the environment, or of the application with what its calls return. -/
inductive Label (μ : Type*) where
  | statusCallback (status : Status)
  | arrive (kind : MessageKind) (message : μ)
  | loop (r : Replies)

namespace Sample

variable {μ : Type*}

/-- `sample_context_init` and the first flag, as `sample_entry` leaves them. -/
def sampleEntry : Sample μ where
  context :=
    { state := .init, actionResult := .success, lastPeriodicActionTick := 0,
      sampleEvents := {.initialization} }
  sampleConnectionStatus := .notConnected
  exponentialRetryCount := 0
  device := .sampleComponentsInit
  client := .unused
  fifo := fun _ => []
  handled := []
  calls := []
  location := .waiting

/-- The action behind the test of a flag. -/
def action (cfg : Config μ) (r : Replies) (s : Sample μ) : SampleEvent → Sample μ
  | .connect => s.sampleConnectAction r
  | .initialization => s.sampleInitializeIothub cfg r
  | .devicePropertiesGet => s.sampleDevicePropertiesGetAction r
  | .commandMessage => s.sampleCommandAction cfg r
  | .deviceDesiredProperties => s.sampleDeviceDesiredPropertyAction r
  | .telemetrySend => s.sampleTelemetryAction
  | .deviceReportedProperties => s.sampleDeviceReportedPropertyAction r
  | .disconnect => s.sampleDisconnectAction r
  | .connected => s.sampleConnectedAction r
  | .reconnect => s.sampleConnectionErrorRecover cfg r

/-- A receive call that waits for ever does so on an empty queue. -/
def blocked (r : Replies) (s : Sample μ) (event : SampleEvent) : Bool :=
  (s.context.state = .connected) && (r.receive = .success) &&
    [MessageKind.properties, .command, .desiredProperties].any fun kind =>
      kind.event = event && (s.fifo kind).isEmpty

/-- The next move of the application: none while a receive call waits. -/
def loopStep (cfg : Config μ) (r : Replies) (s : Sample μ) : Option (Sample μ) :=
  match s.location with
  | .waiting =>
      if s.context.sampleEvents = ∅ then
        -- the wait timed out
        if s.context.state = .connected then some (s.sampleTriggerAction cfg r) else some s
      else
        some { s with
          context := { s.context with sampleEvents := ∅ },
          location := .dispatching s.context.sampleEvents actionOrder }
  | .dispatching _ [] => some { s.sampleTriggerAction cfg r with location := .waiting }
  | .dispatching appEvents (event :: rest) =>
      if event ∈ appEvents then
        if s.blocked r event then none
        else some { s.action cfg r event with location := .dispatching appEvents rest }
      else some { s with location := .dispatching appEvents rest }

/-- The library reports success only for an attempt that was started and not yet disconnected, and
queues messages only in an initialised client. -/
def step (cfg : Config μ) (s : Sample μ) : Label μ → Option (Sample μ)
  | .statusCallback status =>
      if status = .success ∧ s.client.attempted = false then none
      else some (s.connectionStatusCallback status)
  | .arrive kind message =>
      if s.client.initialised then some (s.messageReceiveCallback kind message) else none
  | .loop r => s.loopStep cfg r

def machine (cfg : Config μ) : Machine (Sample μ) (Label μ) where
  start := sampleEntry
  step := step cfg

/-! ### What a step can do -/

/-- The seven kinds of steps, with what each found and what it leaves. -/
theorem step_cases {cfg : Config μ} {s next : Sample μ} {label : Label μ}
    (h : (machine cfg).step s label = some next) :
    (∃ status, label = .statusCallback status ∧
      (status = .success → s.client.attempted = true) ∧
      next = s.connectionStatusCallback status) ∨
    (∃ kind message, label = .arrive kind message ∧ s.client.initialised = true ∧
      next = s.messageReceiveCallback kind message) ∨
    (∃ r, label = .loop r ∧ s.location = .waiting ∧ s.context.sampleEvents = ∅ ∧
      (next = s ∨ s.context.state = .connected ∧ next = s.sampleTriggerAction cfg r)) ∨
    (∃ r, label = .loop r ∧ s.location = .waiting ∧
      next = { s with
        context := { s.context with sampleEvents := ∅ },
        location := .dispatching s.context.sampleEvents actionOrder }) ∨
    (∃ r appEvents, label = .loop r ∧ s.location = .dispatching appEvents [] ∧
      next = { s.sampleTriggerAction cfg r with location := .waiting }) ∨
    (∃ r appEvents event rest, label = .loop r ∧
      s.location = .dispatching appEvents (event :: rest) ∧ event ∉ appEvents ∧
      next = { s with location := .dispatching appEvents rest }) ∨
    ∃ r appEvents event rest, label = .loop r ∧
      s.location = .dispatching appEvents (event :: rest) ∧ event ∈ appEvents ∧
      s.blocked r event = false ∧
      next = { s.action cfg r event with location := .dispatching appEvents rest } := by
  cases label with
  | statusCallback status =>
      simp only [machine, step, Option.ite_none_left_eq_some, not_and, Option.some.injEq] at h
      exact .inl ⟨status, rfl, fun hs => by simpa using h.1 hs, h.2.symm⟩
  | arrive kind message =>
      simp only [machine, step, Option.ite_none_right_eq_some, Option.some.injEq] at h
      exact .inr (.inl ⟨kind, message, rfl, h.1, h.2.symm⟩)
  | loop r =>
      refine .inr (.inr ?_)
      change s.loopStep cfg r = some next at h
      unfold loopStep at h
      split at h
      · rename_i hloc
        split_ifs at h with hempty hstate
        · exact .inl ⟨r, rfl, hloc, hempty, .inr ⟨hstate, (Option.some.inj h).symm⟩⟩
        · exact .inl ⟨r, rfl, hloc, hempty, .inl (Option.some.inj h).symm⟩
        · exact .inr (.inl ⟨r, rfl, hloc, (Option.some.inj h).symm⟩)
      · rename_i appEvents hloc
        exact .inr (.inr (.inl ⟨r, appEvents, rfl, hloc, (Option.some.inj h).symm⟩))
      · rename_i appEvents event rest hloc
        split_ifs at h with hmem hblocked
        · exact .inr (.inr (.inr (.inr ⟨r, appEvents, event, rest, rfl, hloc, hmem,
            by simpa using hblocked, (Option.some.inj h).symm⟩)))
        · exact .inr (.inr (.inr (.inl ⟨r, appEvents, event, rest, rfl, hloc, hmem,
            (Option.some.inj h).symm⟩)))

end Sample

/-! ### Concrete runs -/

/-- Replies under which every call succeeds. -/
def Replies.succeed : Replies where
  connect := .success
  propertiesRequest := .success
  disconnect := .success
  provisioningInitialize := .success
  provisioning := fun _ => .success
  clientInitialize := .success
  setup := fun _ => .success
  receive := .success
  jsonWriterInit := .success
  reportOnce := LedReport.accepted
  reportChanged := LedReport.accepted
  rand := 0
  timeGet := 0
  timeGetAgain := 0

/-- The build with DPS and a symmetric key; its messages are numbers, no command sets the LED. -/
def Config.sample : Config Nat where
  enableDps := true
  useDeviceCertificate := false
  nxIpPeriodicRate := 100
  randMax := 2147483647
  processCommand := fun _ => (.success, none)

/-- As many moves of the application, every call succeeding. -/
def moves (n : Nat) : List (Label Nat) := List.replicate n (.loop .succeed)

/-- The moves of one iteration: reading the flags, the ten tests, the trigger. -/
def iteration : List (Label Nat) := moves 12

end DeviceSample.App
