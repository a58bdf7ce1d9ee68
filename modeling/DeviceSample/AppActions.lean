import DeviceSample.AppState

/-!
The callbacks and actions of the sample, as `sample_event_loop` calls them. An action is guarded by
the state it belongs to; what its calls return is an input. The receive calls wait for ever, so they
return success only with a message in hand.
-/

namespace DeviceSample.App
namespace Sample

variable {μ : Type*}

/-! ### Callbacks of the library -/

/-- `connection_status_callback`, and what the report means for the connection: an attempt that
is reported as successful is connected. -/
def connectionStatusCallback (status : Status) (s : Sample μ) : Sample μ :=
  let s := { s with sampleConnectionStatus := status }
  if status ≠ .success then s.setEvent .disconnect
  else { (s.setEvent .connected).setClient (.pnp .connected) with exponentialRetryCount := 0 }

/-- A message is queued inside the client, and its `message_receive_callback_*` is called. -/
def messageReceiveCallback (kind : MessageKind) (message : μ) (s : Sample μ) : Sample μ :=
  { s with fifo := Function.update s.fifo kind (s.fifo kind ++ [message]) }.setEvent kind.event

/-! ### Connecting and disconnecting -/

/-- `nx_azure_iot_pnp_client_connect`: a failed attempt leaves the client unconnected. -/
def pnpClientConnect (status : Status) (s : Sample μ) : Sample μ :=
  (s.record .connect).setClient <|
    match status with
    | .success => .pnp .connected
    | .connecting => .pnp .connecting
    | _ => .pnp .idle

/-- `nx_azure_iot_pnp_client_disconnect`: the client is unconnected afterwards, whatever is
returned. -/
def pnpClientDisconnect (s : Sample μ) : Sample μ := (s.record .disconnect).setClient (.pnp .idle)

def pnpClientPropertiesRequest (status : Status) (s : Sample μ) : Sample μ :=
  (s.record .propertiesRequest).setActionResult status

def sampleConnectAction (r : Replies) (s : Sample μ) : Sample μ :=
  if s.context.state ≠ .connect then s
  else
    let s := (s.pnpClientConnect r.connect).setActionResult r.connect
    if r.connect = .connecting then s.setState .connecting
    else if r.connect ≠ .success then
      { s with sampleConnectionStatus := r.connect }.setState .disconnected
    else (s.setState .connected).pnpClientPropertiesRequest r.propertiesRequest

def sampleDisconnectAction (r : Replies) (s : Sample μ) : Sample μ :=
  if s.context.state ≠ .connected ∧ s.context.state ≠ .connecting then s
  else (s.pnpClientDisconnect.setActionResult r.disconnect).setState .disconnected

def sampleConnectedAction (r : Replies) (s : Sample μ) : Sample μ :=
  if s.context.state ≠ .connecting then s
  else (s.setState .connected).pnpClientPropertiesRequest r.propertiesRequest

/-! ### Initialising -/

/-- The calls between `nx_azure_iot_provisioning_client_initialize` and the deinitialisation. -/
def provisioningSteps (cfg : Config μ) : List ProvisioningStep :=
  (if cfg.useDeviceCertificate then [.certificateInitialize, .deviceCertSet]
    else [.symmetricKeySet]) ++ [.register, .iothubDeviceInfoGet]

def sampleDpsEntry (cfg : Config μ) (r : Replies) (s : Sample μ) : Status × Sample μ :=
  let s := s.record .provisioningInitialize
  if r.provisioningInitialize ≠ .success then (r.provisioningInitialize, s)
  else
    let result := (s.setClient .provisioning).elseIfChain .provisioning r.provisioning
      (provisioningSteps cfg)
    (result.1, (result.2.record .provisioningDeinit).setClient .unused)

def setupSteps (cfg : Config μ) : List SetupStep :=
  (if cfg.useDeviceCertificate then [.certificateInitialize, .deviceCertSet]
    else [.symmetricKeySet]) ++
  [.connectionStatusCallbackSet, .receiveCallbackSet .properties, .receiveCallbackSet .command,
    .receiveCallbackSet .desiredProperties, .componentAdd, .vtComponentAdd]

/-- `nx_azure_iot_pnp_client_initialize`, when it succeeds: a client with empty queues. -/
def freshPnpClient (s : Sample μ) : Sample μ :=
  { s.setClient (.pnp .idle) with fifo := fun _ => [] }

/-- `nx_azure_iot_pnp_client_deinitialize`: the queues of the client go with it. -/
def pnpClientDeinit (s : Sample μ) : Sample μ :=
  { (s.record .deinit).setClient .unused with fifo := fun _ => [] }

/-- `sample_initialize_iothub` after DPS, from `nx_azure_iot_pnp_client_initialize` on. -/
def initializePnpClient (cfg : Config μ) (r : Replies) (s : Sample μ) : Sample μ :=
  let s := s.record .clientInitialize
  if r.clientInitialize ≠ .success then s.setActionResult r.clientInitialize
  else
    let result := s.freshPnpClient.elseIfChain .setup r.setup (setupSteps cfg)
    let s := if result.1 ≠ .success then result.2.pnpClientDeinit else result.2
    let s := s.setActionResult result.1
    if result.1 = .success then s.setState .connect else s

def sampleInitializeIothub (cfg : Config μ) (r : Replies) (s : Sample μ) : Sample μ :=
  if s.context.state ≠ .init then s
  else if cfg.enableDps then
    let result := s.sampleDpsEntry cfg r
    if result.1 ≠ .success then result.2.setActionResult result.1
    else result.2.initializePnpClient cfg r
  else s.initializePnpClient cfg r

/-! ### Recovering -/

def sampleMaxExponentialBackoffInSec : Nat := 10 * 60
def sampleInitialExponentialBackoffInSec : Nat := 3
def sampleMaxExponentialBackoffJitterPercent : Nat := 60

/-- `exponential_backoff_with_jitter`: the ticks to sleep and the next retry count. The `double`
arithmetic is taken as exact. -/
def exponentialBackoffWithJitter (cfg : Config μ) (rand count : Nat) : Nat × Nat :=
  let jitterPercent : ℚ :=
    (sampleMaxExponentialBackoffJitterPercent / 100) * (rand / (cfg.randMax : ℚ))
  let delay := 2 ^ count * sampleInitialExponentialBackoffInSec
  let baseDelay :=
    if count < 32 ∧ delay ≤ 2 ^ 32 - 1 then delay else sampleMaxExponentialBackoffInSec
  let (baseDelay, count) :=
    if sampleMaxExponentialBackoffInSec < baseDelay then (sampleMaxExponentialBackoffInSec, count)
    else (baseDelay, count + 1)
  (⌊baseDelay * (1 + jitterPercent)⌋₊ * cfg.nxIpPeriodicRate % 2 ^ 32, count)

/-- `tx_thread_sleep(exponential_backoff_with_jitter())`. -/
def sleepBackoff (cfg : Config μ) (r : Replies) (s : Sample μ) : Sample μ :=
  let result := exponentialBackoffWithJitter cfg r.rand s.exponentialRetryCount
  { s.record (.sleep result.1) with exponentialRetryCount := result.2 }

def sampleConnectionErrorRecover (cfg : Config μ) (r : Replies) (s : Sample μ) : Sample μ :=
  if s.context.state ≠ .disconnected then s
  else
    match s.sampleConnectionStatus with
    | .success => s
    | .dnsQueryFailed | .mqttBadUsernamePassword | .mqttNotAuthorized =>
        ((s.sleepBackoff cfg r).pnpClientDeinit).setState .init
    | _ => (s.sleepBackoff cfg r).setState .connect

def sampleTriggerAction (cfg : Config μ) (r : Replies) (s : Sample μ) : Sample μ :=
  match s.context.state with
  | .init => s.setEvent .initialization
  | .connect => s.setEvent .connect
  | .connected =>
      if UInt32.ofNat (5 * cfg.nxIpPeriodicRate) ≤ r.timeGet - s.context.lastPeriodicActionTick then
        ({ s with context := { s.context with
          lastPeriodicActionTick := r.timeGetAgain } }.setEvent .telemetrySend).setEvent
            .deviceReportedProperties
      else s
  | .disconnected => s.setEvent .reconnect
  | .none | .connecting => s

/-! ### Messages and reports -/

/-- The `*_receive` call of a kind: with success the oldest message leaves its queue. -/
def pnpClientReceive (kind : MessageKind) (r : Replies) (s : Sample μ) : Option μ × Sample μ :=
  let s := s.record (.receive kind)
  if r.receive ≠ .success then (none, s)
  else
    match s.fifo kind with
    | [] => (none, s)
    | message :: rest => (some message, { s with fifo := Function.update s.fifo kind rest })

/-- A command reaches `sample_pnp_device_process_command`. -/
def handleCommand (cfg : Config μ) (message : μ) (s : Sample μ) : Sample μ :=
  { s with
    handled := s.handled ++ [(.command, message)]
    device := (cfg.processCommand message).2.elim s.device s.device.setLedState }

def sampleCommandAction (cfg : Config μ) (r : Replies) (s : Sample μ) : Sample μ :=
  if s.context.state ≠ .connected then s
  else
    let result := s.pnpClientReceive .command r
    match result.1 with
    | none => result.2
    | some message =>
        if r.jsonWriterInit ≠ .success then result.2
        else
          let s := result.2.handleCommand cfg message
          let s := if (cfg.processCommand message).1 = .success then s
            else s.record (.send .vtCommand)
          s.record (.send .commandResponse)

/-- `sample_desired_properties_parse`. -/
def sampleDesiredPropertiesParse (kind : MessageKind) (message : μ) (s : Sample μ) : Sample μ :=
  { s with handled := s.handled ++ [(kind, message)] }.record (.send .vtDesiredProperties)

/-- The actions of desired property patches and of full property responses, which differ in the
queue they receive from. -/
def receivePropertiesAction (kind : MessageKind) (r : Replies) (s : Sample μ) : Sample μ :=
  if s.context.state ≠ .connected then s
  else
    let result := s.pnpClientReceive kind r
    match result.1 with
    | none => result.2
    | some message => result.2.sampleDesiredPropertiesParse kind message

def sampleDeviceDesiredPropertyAction (r : Replies) (s : Sample μ) : Sample μ :=
  s.receivePropertiesAction .desiredProperties r

def sampleDevicePropertiesGetAction (r : Replies) (s : Sample μ) : Sample μ :=
  s.receivePropertiesAction .properties r

def sampleDeviceReportedPropertyAction (r : Replies) (s : Sample μ) : Sample μ :=
  if s.context.state ≠ .connected then s
  else
    let result := s.device.sampleDeviceReportedPropertyAction r.reportOnce r.reportChanged
    let s := result.1.foldl (fun s _ => s.record (.send .ledState)) { s with device := result.2 }
    s.record (.send .vtProperties)

def sampleTelemetryAction (s : Sample μ) : Sample μ :=
  if s.context.state ≠ .connected then s else s.record (.send .telemetry)

end Sample
end DeviceSample.App
