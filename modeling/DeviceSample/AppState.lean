import Mathlib.Data.Finset.Insert
import Mathlib.Data.Rat.Floor
import DeviceSample.AppLedReport

/-!
The application of the device sample: its context, its event flags, the memory that the
provisioning client and the PnP client share, and the messages queued inside the PnP client. Calls
of the SDK are recorded with the application state and the client memory they found, latest first,
so that the typestate of the client is a property of the record.
-/

namespace DeviceSample.App

/-- The `SAMPLE_STATE_*` constants. -/
inductive SampleState where
  | none
  | init
  | connecting
  | connect
  | connected
  | disconnected
  deriving DecidableEq, Repr

/-- The `SAMPLE_*_EVENT` flags. -/
inductive SampleEvent where
  | connect
  | initialization
  | commandMessage
  | devicePropertiesGet
  | deviceDesiredProperties
  | telemetrySend
  | deviceReportedProperties
  | disconnect
  | reconnect
  | connected
  deriving DecidableEq, Repr

/-- The kinds of messages the PnP client queues for the application. -/
inductive MessageKind where
  | properties
  | command
  | desiredProperties
  deriving DecidableEq, Repr

/-- The flag that the `message_receive_callback_*` of a kind sets. -/
def MessageKind.event : MessageKind → SampleEvent
  | .properties => .devicePropertiesGet
  | .command => .commandMessage
  | .desiredProperties => .deviceDesiredProperties

structure SampleContext where
  state : SampleState
  actionResult : Status
  lastPeriodicActionTick : UInt32
  sampleEvents : Finset SampleEvent

/-- The connection of an initialised PnP client: none that the application has asked for, one that
is being attempted, or one that was reported. -/
inductive Link where
  | idle
  | connecting
  | connected
  deriving DecidableEq, Repr

/-- The live member of `SAMPLE_CLIENT_UNION`. -/
inductive ClientMemory where
  | unused
  | provisioning
  | pnp (link : Link)
  deriving DecidableEq, Repr

def ClientMemory.initialised : ClientMemory → Bool
  | .pnp _ => true
  | _ => false

/-- The connection attempt the application has started and not yet disconnected. -/
def ClientMemory.attempted : ClientMemory → Bool
  | .pnp .idle => false
  | .pnp _ => true
  | _ => false

/-- The calls of `sample_dps_entry` between initialising and deinitialising its client. -/
inductive ProvisioningStep where
  | certificateInitialize
  | deviceCertSet
  | symmetricKeySet
  | register
  | iothubDeviceInfoGet
  deriving DecidableEq, Repr

/-- The calls of `sample_initialize_iothub` that set up the initialised client. -/
inductive SetupStep where
  | certificateInitialize
  | deviceCertSet
  | symmetricKeySet
  | connectionStatusCallbackSet
  | receiveCallbackSet (kind : MessageKind)
  | componentAdd
  | vtComponentAdd
  deriving DecidableEq, Repr

/-- What is sent through the connected client. -/
inductive Sending where
  | commandResponse
  | vtCommand
  | vtDesiredProperties
  | telemetry
  | ledState
  | vtProperties
  deriving DecidableEq, Repr

inductive SdkCall where
  | provisioningInitialize
  | provisioning (step : ProvisioningStep)
  | provisioningDeinit
  | clientInitialize
  | setup (step : SetupStep)
  | connect
  | disconnect
  | deinit
  | propertiesRequest
  | receive (kind : MessageKind)
  | send (sending : Sending)
  | sleep (ticks : Nat)
  deriving DecidableEq, Repr

/-- A call with the state of the application and the client memory when it was made. -/
structure CallRecord where
  call : SdkCall
  state : SampleState
  client : ClientMemory
  deriving DecidableEq, Repr

/-- Where the thread of the application stands in `sample_event_loop`: waiting for flags, or going
through the tests of the flags it has read. -/
inductive Location where
  | waiting
  | dispatching (appEvents : Finset SampleEvent) (rest : List SampleEvent)
  deriving DecidableEq

/-- The build options and constants of the sample, and what `sample_pnp_device_process_command`
makes of a command: its status, and the level it sets the LED to, if it does. -/
structure Config (μ : Type*) where
  enableDps : Bool
  useDeviceCertificate : Bool
  nxIpPeriodicRate : Nat
  randMax : Nat
  processCommand : μ → Status × Option Bool

structure Sample (μ : Type*) where
  context : SampleContext
  sampleConnectionStatus : Status
  exponentialRetryCount : Nat
  device : LedReport
  client : ClientMemory
  fifo : MessageKind → List μ
  handled : List (MessageKind × μ)
  calls : List CallRecord
  location : Location

/-- What the calls made by one action return, including the clock and `rand`. -/
structure Replies where
  connect : Status
  propertiesRequest : Status
  disconnect : Status
  provisioningInitialize : Status
  provisioning : ProvisioningStep → Status
  clientInitialize : Status
  setup : SetupStep → Status
  receive : Status
  jsonWriterInit : Status
  reportOnce : LedReplies
  reportChanged : LedReplies
  rand : Nat
  timeGet : UInt32
  timeGetAgain : UInt32

namespace Sample

variable {μ : Type*}

/-! ### Updates -/

@[simp] def setState (state : SampleState) (s : Sample μ) : Sample μ :=
  { s with context := { s.context with state := state } }

@[simp] def setActionResult (status : Status) (s : Sample μ) : Sample μ :=
  { s with context := { s.context with actionResult := status } }

/-- `tx_event_flags_set` with `TX_OR`. -/
@[simp] def setEvent (event : SampleEvent) (s : Sample μ) : Sample μ :=
  { s with context := { s.context with sampleEvents := insert event s.context.sampleEvents } }

@[simp] def record (call : SdkCall) (s : Sample μ) : Sample μ :=
  { s with calls := ⟨call, s.context.state, s.client⟩ :: s.calls }

@[simp] def setClient (client : ClientMemory) (s : Sample μ) : Sample μ := { s with client := client }

/-- An `else if` chain of calls: each is made until the first that fails. -/
def elseIfChain {κ : Type*} (call : κ → SdkCall) (reply : κ → Status) :
    List κ → Sample μ → Status × Sample μ
  | [], s => (.success, s)
  | x :: rest, s =>
      if reply x = .success then elseIfChain call reply rest (s.record (call x))
      else (reply x, s.record (call x))

theorem elseIfChain_fst {κ : Type*} (call : κ → SdkCall) (reply : κ → Status) (steps : List κ)
    (s : Sample μ) : (s.elseIfChain call reply steps).1 = firstFailure (steps.map reply) := by
  induction steps generalizing s with
  | nil => rfl
  | cons x rest ih =>
      simp only [elseIfChain, List.map_cons, firstFailure]
      split
      · exact ih _
      · rfl

/-- A chain only adds its calls to the record, all of them made in the state it starts from. -/
theorem elseIfChain_frame {κ : Type*} (call : κ → SdkCall) (reply : κ → Status) (steps : List κ)
    (s : Sample μ) :
    ∃ calls, (s.elseIfChain call reply steps).2 = { s with calls := calls } ∧
      ∀ r ∈ calls, r ∈ s.calls ∨ ∃ x, r = ⟨call x, s.context.state, s.client⟩ := by
  induction steps generalizing s with
  | nil => exact ⟨s.calls, rfl, fun r hr => .inl hr⟩
  | cons x rest ih =>
      rw [elseIfChain]
      split
      · obtain ⟨calls, heq, hcalls⟩ := ih (s.record (call x))
        refine ⟨calls, heq, fun r hr => ?_⟩
        rcases hcalls r hr with hold | ⟨y, hy⟩
        · rcases List.mem_cons.mp hold with hnew | hold
          · exact .inr ⟨x, hnew⟩
          · exact .inl hold
        · exact .inr ⟨y, hy⟩
      · refine ⟨_, rfl, fun r hr => ?_⟩
        rcases List.mem_cons.mp hr with hnew | hold
        · exact .inr ⟨x, hnew⟩
        · exact .inl hold

end Sample
end DeviceSample.App
