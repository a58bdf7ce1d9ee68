import DeviceSample.BaseMemory
import DeviceSample.MxLed

/-!
The `setLedState` command of the two boards, from the names of a request to the LED. The command takes
its word from a local variable that only a boolean in the payload sets, and goes on without one when the
reader reports that there is no payload.
-/

namespace DeviceSample.LedCommand

open Base MxLed

/-- `strncmp` of two arrays over their whole length is 0: they agree up to a terminator. -/
def strncmpZero : List Byte → List Byte → Bool
  | x :: s, y :: t => x = y && (x = 0 || strncmpZero s t)
  | _, _ => true

theorem strncmpZero_comm (s t : List Byte) : strncmpZero s t = strncmpZero t s := by
  induction s generalizing t with
  | nil => cases t <;> rfl
  | cons x s ih =>
      cases t with
      | nil => rfl
      | cons y t =>
          rw [strncmpZero, strncmpZero, ih t]
          by_cases hsame : x = y
          · rw [hsame]
          · rw [decide_eq_false hsame, decide_eq_false (Ne.symm hsame), Bool.false_and, Bool.false_and]

/-- The comparison of the source, the lengths first, is equality with a C string. -/
theorem name_eq_iff {s t : List Byte} (hs : 0 ∉ s) :
    (s.length = t.length ∧ strncmpZero s t = true) ↔ s = t := by
  induction s generalizing t with
  | nil =>
      cases t with
      | nil => exact iff_of_true ⟨rfl, rfl⟩ rfl
      | cons y t => exact iff_of_false (fun h => absurd h.1 (Nat.zero_ne_add_one _)) (List.cons_ne_nil y t).symm
  | cons x s ih =>
      cases t with
      | nil => exact iff_of_false (fun h => absurd h.1 (Nat.succ_ne_zero _)) (List.cons_ne_nil x s)
      | cons y t =>
          rw [List.mem_cons, not_or] at hs
          have hx : x ≠ 0 := Ne.symm hs.1
          rw [strncmpZero, decide_eq_false hx, Bool.false_or, Bool.and_eq_true, decide_eq_true_eq,
            List.length_cons, List.length_cons, Nat.succ_inj, List.cons.injEq, ← ih hs.2]
          exact and_left_comm

theorem names_differ_iff {s t : List Byte} (hs : 0 ∉ s) :
    (s.length ≠ t.length ∨ strncmpZero s t = false) ↔ s ≠ t := by
  rw [Ne, Ne, ← name_eq_iff hs, not_and_or, Bool.not_eq_true]

/-- What the reader finds at the start of a payload. -/
inductive FirstToken
  | boolean (b : Bool)
  | other
  | malformed
  /-- `NX_AZURE_IOT_EMPTY_JSON`. -/
  | empty
  deriving DecidableEq, Repr

/-- The JSON reader, on a payload. -/
abbrev Reader := List Byte → FirstToken

/-- What the calls of the command return; `unset` is in `state` before them. -/
def FirstToken.replies (unset : BitVec 32) : FirstToken → CommandReplies
  | .boolean b => ⟨.success, (.success, if b then 1 else 0), unset⟩
  | .other => ⟨.success, (.notSuccessful, unset), unset⟩
  | .malformed => ⟨.failed, (.notSuccessful, unset), unset⟩
  | .empty => ⟨.emptyJson, (.notSuccessful, unset), unset⟩

/-- `SAMPLE_PNP_DEVICE_COMPONENT`, its name and its LED state. -/
structure Component where
  componentName : CString
  sensorLEDState : Bool

/-- A board and the component that the handle points to, if it is not `NX_NULL`. -/
structure Device (B : Type) where
  board : B
  handle : Option Component

/-- A command as it is received. -/
structure Request where
  componentName : List Byte
  commandName : List Byte
  payload : List Byte
  deriving DecidableEq, Repr

/-- `set_led_state`. -/
def setLedState : List Byte := text "setLedState"

/-- What `sample_pnp_device_process_command` returns: its status, and the status code if it stores one. -/
structure Processed (B : Type) where
  device : Device B
  status : Status
  statusCode : Option Nat

section processing

variable {B : Type} (setLedStateAction : B → Bool → B) (reader : Reader) (unset : BitVec 32)

/-- `sample_pnp_device_set_led_state_command`. -/
def setLedStateCommand (board : B) (handle : Component) (payload : List Byte) : Device B × Status :=
  match ((reader payload).replies unset).state with
  | none => (⟨board, some handle⟩, .notSuccessful)
  | some state =>
      (⟨setLedStateAction board (state ≠ 0), some { handle with sensorLEDState := state ≠ 0 }⟩, .success)

/-- The body of `sample_pnp_device_process_command`, which the boards share. -/
def processCommand (d : Device B) (request : Request) : Processed B :=
  match d.handle with
  | none => ⟨d, .notSuccessful, none⟩
  | some handle =>
      if handle.componentName.bytes.length ≠ request.componentName.length ∨
          strncmpZero handle.componentName.bytes request.componentName = false then
        ⟨d, .notSuccessful, none⟩
      else if request.commandName.length ≠ setLedState.length ∨
          strncmpZero request.commandName setLedState = false then
        ⟨d, .success, some 404⟩
      else
        let command := setLedStateCommand setLedStateAction reader unset d.board handle request.payload
        ⟨command.1, .success, if command.2 ≠ .success then some 500 else some 200⟩

end processing

/-- The green LED of the STM32 board, by the last call of `BSP_LED_On` or `BSP_LED_Off`. -/
structure Leds where
  ledGreen : Bool
  deriving DecidableEq, Repr

def bspLedOn (_ : Leds) : Leds := ⟨true⟩

def bspLedOff (_ : Leds) : Leds := ⟨false⟩

/-- `set_led_state_action` of the STM32 board. -/
def stmSetLedStateAction (leds : Leds) (level : Bool) : Leds := if level then bspLedOn leds else bspLedOff leds

/-- `sample_pnp_device_process_command` of the STM32 board. -/
def stmProcessCommand : Reader → BitVec 32 → Device Leds → Request → Processed Leds :=
  processCommand stmSetLedStateAction

/-- `sample_pnp_device_process_command` of the MXChip board. -/
def mxProcessCommand : Reader → BitVec 32 → Device Pins → Request → Processed Pins :=
  processCommand MxLed.setLedStateAction

/-- The component is the one of the handle. -/
def Addressed {B : Type} (d : Device B) (request : Request) : Prop :=
  ∃ handle, d.handle = some handle ∧ handle.componentName.bytes = request.componentName

/-- The request asks the component for the LED. -/
def AsksLed {B : Type} (d : Device B) (request : Request) : Prop :=
  Addressed d request ∧ request.commandName = setLedState

/-- The LED and the component show the boolean, and nothing else in the component has changed. -/
structure Shows {B : Type} (led : B → Bool) (before after : Device B) (b : Bool) : Prop where
  led_eq : led after.board = b
  handle_eq : after.handle = before.handle.map fun handle => { handle with sensorLEDState := b }

/-- A request for the LED with a boolean sets it to that, any other request leaves it and says so, and
what is in `state` before does not matter. -/
structure AllOrNothing {B : Type} (led : B → Bool) (process : BitVec 32 → Processed B) (reader : Reader)
    (d : Device B) (request : Request) : Prop where
  set : AsksLed d request → ∀ b, reader request.payload = .boolean b →
    ∀ unset, Shows led d (process unset).device b ∧ (process unset).statusCode = some 200
  kept : ¬(AsksLed d request ∧ ∃ b, reader request.payload = .boolean b) → ∀ unset,
    (process unset).device = d ∧
      (Addressed d request → (process unset).statusCode = some 404 ∨ (process unset).statusCode = some 500)
  determined : ∀ unset unset', process unset = process unset'

section steps

variable {B : Type} {setLedStateAction : B → Bool → B} {reader : Reader} {d : Device B} {request : Request}

theorem processCommand_not_addressed (h : ¬Addressed d request) (unset : BitVec 32) :
    processCommand setLedStateAction reader unset d request = ⟨d, .notSuccessful, none⟩ := by
  rw [processCommand]
  cases hhandle : d.handle with
  | none => rfl
  | some handle =>
      apply if_pos
      apply (names_differ_iff handle.componentName.no_nul).mpr
      exact fun hname => h ⟨handle, hhandle, hname⟩

/-- Both names are compared with a C string, on different sides. -/
theorem processCommand_addressed {handle : Component} (hhandle : d.handle = some handle)
    (hname : handle.componentName.bytes = request.componentName) (unset : BitVec 32) :
    processCommand setLedStateAction reader unset d request =
      if request.commandName = setLedState then
        let command := setLedStateCommand setLedStateAction reader unset d.board handle request.payload
        ⟨command.1, .success, if command.2 ≠ .success then some 500 else some 200⟩
      else ⟨d, .success, some 404⟩ := by
  have hno : 0 ∉ setLedState := by decide +kernel
  have hcomponent : ¬(handle.componentName.bytes.length ≠ request.componentName.length ∨
      strncmpZero handle.componentName.bytes request.componentName = false) := by
    rw [names_differ_iff handle.componentName.no_nul]
    exact not_not_intro hname
  have hcommand : (request.commandName.length ≠ setLedState.length ∨
      strncmpZero request.commandName setLedState = false) ↔ request.commandName ≠ setLedState := by
    rw [strncmpZero_comm, ne_comm, names_differ_iff hno, ne_comm]
  rw [processCommand, hhandle]
  show (if _ then _ else _) = _
  rw [if_neg hcomponent]
  by_cases hsame : request.commandName = setLedState
  · rw [if_pos hsame, if_neg (mt hcommand.mp (not_not_intro hsame))]
  · rw [if_neg hsame, if_pos (hcommand.mpr hsame)]

theorem setLedStateCommand_boolean (board : B) (handle : Component) {payload : List Byte} {b : Bool}
    (h : reader payload = .boolean b) (unset : BitVec 32) :
    setLedStateCommand setLedStateAction reader unset board handle payload =
      (⟨setLedStateAction board b, some { handle with sensorLEDState := b }⟩, .success) := by
  rw [setLedStateCommand, h]
  cases b with
  | false => rfl
  | true => rfl

theorem setLedStateCommand_refused (board : B) (handle : Component) {payload : List Byte}
    (hboolean : ∀ b, reader payload ≠ .boolean b) (hempty : reader payload ≠ .empty) (unset : BitVec 32) :
    setLedStateCommand setLedStateAction reader unset board handle payload =
      (⟨board, some handle⟩, .notSuccessful) := by
  rw [setLedStateCommand]
  cases htoken : reader payload with
  | boolean b => exact absurd htoken (hboolean b)
  | other => rfl
  | malformed => rfl
  | empty => exact absurd htoken hempty

/-- Without a payload the command succeeds, with the word that is already there. -/
theorem setLedStateCommand_empty (board : B) (handle : Component) {payload : List Byte}
    (h : reader payload = .empty) (unset : BitVec 32) :
    (setLedStateCommand setLedStateAction reader unset board handle payload).2 = .success := by
  rw [setLedStateCommand, h]
  rfl

/-- A request that is not for the LED leaves the device, and tells so if it is for the component. -/
theorem processCommand_not_asked (h : ¬AsksLed d request) : ∃ status statusCode,
    (∀ unset, processCommand setLedStateAction reader unset d request = ⟨d, status, statusCode⟩) ∧
      (Addressed d request → statusCode = some 404) := by
  by_cases haddressed : Addressed d request
  · obtain ⟨handle, hhandle, hname⟩ := haddressed
    have hother : request.commandName ≠ setLedState := fun hsame => h ⟨⟨handle, hhandle, hname⟩, hsame⟩
    refine ⟨.success, some 404, fun unset => ?_, fun _ => rfl⟩
    rw [processCommand_addressed hhandle hname, if_neg hother]
  · exact ⟨.notSuccessful, none, processCommand_not_addressed haddressed, fun h => absurd h haddressed⟩

/-- A request for the LED that the reader refuses. -/
theorem processCommand_refused (hasks : AsksLed d request) (hboolean : ∀ b, reader request.payload ≠ .boolean b)
    (hempty : reader request.payload ≠ .empty) (unset : BitVec 32) :
    processCommand setLedStateAction reader unset d request = ⟨d, .success, some 500⟩ := by
  obtain ⟨⟨handle, hhandle, hname⟩, hsame⟩ := hasks
  rw [processCommand_addressed hhandle hname, if_pos hsame,
    setLedStateCommand_refused d.board handle hboolean hempty, ← hhandle]
  rfl

/-- A request for the LED with a boolean. -/
theorem processCommand_boolean (hasks : AsksLed d request) {b : Bool}
    (hboolean : reader request.payload = .boolean b) (unset : BitVec 32) :
    processCommand setLedStateAction reader unset d request =
      ⟨⟨setLedStateAction d.board b, d.handle.map fun handle => { handle with sensorLEDState := b }⟩, .success,
        some 200⟩ := by
  obtain ⟨⟨handle, hhandle, hname⟩, hsame⟩ := hasks
  rw [processCommand_addressed hhandle hname, if_pos hsame,
    setLedStateCommand_boolean d.board handle hboolean, hhandle]
  rfl

/-- Without a payload, such a request is answered as if it had set the LED. -/
theorem processCommand_empty (hasks : AsksLed d request) (hempty : reader request.payload = .empty)
    (unset : BitVec 32) : (processCommand setLedStateAction reader unset d request).statusCode = some 200 := by
  obtain ⟨⟨handle, hhandle, hname⟩, hsame⟩ := hasks
  rw [processCommand_addressed hhandle hname, if_pos hsame]
  show (if (setLedStateCommand setLedStateAction reader unset d.board handle request.payload).2 ≠ .success
    then some 500 else some 200) = some 200
  rw [setLedStateCommand_empty d.board handle hempty]
  rfl

end steps

section answers

variable {B : Type} {led : B → Bool} {process : BitVec 32 → Processed B} {reader : Reader} {d : Device B}
  {request : Request}

/-- A request that leaves the device and is answered the same way always. -/
theorem allOrNothing_of_kept {status : Status} {statusCode : Option Nat}
    (hprocess : ∀ unset, process unset = ⟨d, status, statusCode⟩)
    (hcode : Addressed d request → statusCode = some 404 ∨ statusCode = some 500)
    (hnone : ∀ b, AsksLed d request → reader request.payload ≠ .boolean b) :
    AllOrNothing led process reader d request where
  set := fun hasks b hb => absurd hb (hnone b hasks)
  kept := fun _ unset => by
    rw [hprocess]
    exact ⟨rfl, hcode⟩
  determined := fun unset unset' => by rw [hprocess, hprocess]

/-- A request that sets the LED to its boolean always. -/
theorem allOrNothing_of_set {board : B} {b : Bool} (hasks : AsksLed d request)
    (hboolean : reader request.payload = .boolean b) (hled : led board = b)
    (hprocess : ∀ unset, process unset =
      ⟨⟨board, d.handle.map fun handle => { handle with sensorLEDState := b }⟩, .success, some 200⟩) :
    AllOrNothing led process reader d request where
  set := fun _ b' hb' unset => by
    rw [hboolean, FirstToken.boolean.injEq] at hb'
    rw [hprocess, ← hb']
    exact ⟨⟨hled, rfl⟩, rfl⟩
  kept := fun hnone => absurd ⟨hasks, b, hboolean⟩ hnone
  determined := fun unset unset' => by rw [hprocess, hprocess]

/-- The body is all-or-nothing unless the reader finds no payload in a request for the LED. -/
theorem allOrNothing_iff {setLedStateAction : B → Bool → B}
    (hled : ∀ board level, led (setLedStateAction board level) = level) :
    AllOrNothing led (processCommand setLedStateAction reader · d request) reader d request ↔
      ¬(AsksLed d request ∧ reader request.payload = .empty) := by
  constructor
  · rintro h ⟨hasks, hempty⟩
    have hnone : ¬(AsksLed d request ∧ ∃ b, reader request.payload = .boolean b) := by
      rintro ⟨-, b, hb⟩
      rw [hempty] at hb
      cases hb
    have hcode := (h.kept hnone 0).2 hasks.1
    rw [processCommand_empty hasks hempty] at hcode
    revert hcode
    decide
  · intro h
    by_cases hasks : AsksLed d request
    · by_cases hboolean : ∃ b, reader request.payload = .boolean b
      · obtain ⟨b, hb⟩ := hboolean
        exact allOrNothing_of_set hasks hb (hled d.board b) (processCommand_boolean hasks hb)
      · have hother : ∀ b, reader request.payload ≠ .boolean b := fun b hb => hboolean ⟨b, hb⟩
        have hempty : reader request.payload ≠ .empty := fun hempty => h ⟨hasks, hempty⟩
        exact allOrNothing_of_kept (processCommand_refused hasks hother hempty) (fun _ => Or.inr rfl)
          fun b _ => hother b
    · obtain ⟨status, statusCode, hprocess, hcode⟩ := processCommand_not_asked hasks
      exact allOrNothing_of_kept hprocess (fun haddressed => Or.inl (hcode haddressed))
        fun _ hasks' => absurd hasks' hasks

end answers

/-- **On both boards the command is all-or-nothing exactly if the reader finds something in the payload of
a request for the LED**, for all names, payloads, readers and devices. -/
theorem processCommand_allOrNothing_iff (reader : Reader) (request : Request) :
    (∀ d : Device Leds, AllOrNothing Leds.ledGreen (stmProcessCommand reader · d request) reader d request ↔
      ¬(AsksLed d request ∧ reader request.payload = .empty)) ∧
    ∀ d : Device Pins, AllOrNothing (· ledPin) (mxProcessCommand reader · d request) reader d request ↔
      ¬(AsksLed d request ∧ reader request.payload = .empty) := by
  constructor
  · intro d
    refine allOrNothing_iff fun leds level => ?_
    cases level with
    | false => rfl
    | true => rfl
  · intro d
    exact allOrNothing_iff fun pins level => writePin_same pins ledPin level

/-- The command of the MXChip board, without its names, is a run of the board. -/
theorem setLedStateCommand_run (reader : Reader) (unset : BitVec 32) (b : Board) (handle : Component)
    (payload : List Byte) (hidle : b.command = none) (hstate : b.sensorLEDState = handle.sensorLEDState) :
    ∃ (labels : List Label) (next : Board), (machine b.pins).run (fun _ _ => true) b labels = some next ∧
      next.command = none ∧
        (setLedStateCommand MxLed.setLedStateAction reader unset b.pins handle payload).1 =
          ⟨next.pins, some { handle with sensorLEDState := next.sensorLEDState }⟩ := by
  cases hword : ((reader payload).replies unset).state with
  | none =>
      refine ⟨[.commandBegin ((reader payload).replies unset)], b, ?_, hidle, ?_⟩
      · simp [Machine.run, machine, Board.step, hidle, hword]
      · rw [setLedStateCommand, hword, hstate]
  | some state =>
      refine ⟨[.commandBegin ((reader payload).replies unset), .commandEnd],
        { b with
          pins := MxLed.setLedStateAction b.pins (state ≠ 0)
          sensorLEDState := state ≠ 0
          command := none
          commanded := true }, ?_, rfl, ?_⟩
      · simp only [Machine.run, machine, Board.step, hidle, hword, if_true, Option.bind_some]
      · rw [setLedStateCommand, hword]

/-- A reader that finds nothing in an empty payload, and no JSON in any other. -/
def payloadReader : Reader := fun payload => if payload = [] then .empty else .malformed

/-- The component of the sample, with its LED off. -/
def sampleDevice : Device Leds where
  board := ⟨false⟩
  handle := some ⟨⟨text "sampleDevice", by decide⟩, false⟩

/-- What the stack holds decides whether the LED is lit. -/
theorem emptyPayload_not_allOrNothing :
    ¬AllOrNothing Leds.ledGreen
      (stmProcessCommand payloadReader · sampleDevice ⟨text "sampleDevice", text "setLedState", []⟩) payloadReader
      sampleDevice ⟨text "sampleDevice", text "setLedState", []⟩ := by
  intro h
  have hsame := congrArg (fun processed => processed.device.board.ledGreen) (h.determined 0 1)
  revert hsame
  decide

end DeviceSample.LedCommand
