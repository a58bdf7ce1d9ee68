import DeviceSample.BaseRun
import DeviceSample.Sdk
import Mathlib.Data.BitVec

/-!
The LED of the MXChip board. Its pin is the one that powers the second moisture sensor: it is written
by the `setLedState` command, by each read of the sensors, and by the driver of the fingerprints.
-/

namespace DeviceSample.MxLed

open Base

/-- The ports that are used. -/
inductive Port
  | gpioB
  | gpioC
  deriving DecidableEq, Repr

/-- A pin of a port. -/
structure Pin where
  port : Port
  number : Nat
  deriving DecidableEq, Repr

/-- The pin that `set_led_state_action` writes. -/
def ledPin : Pin := ⟨.gpioC, 13⟩

/-- `SAMPLE_INTERNAL_GPIO_TYPE_ID`. -/
def sampleInternalGpioTypeId : BitVec 16 := 0x01

/-- A sensor as the driver knows it. -/
structure Sensor where
  gpioId : BitVec 16
  gpio : Pin
  deriving DecidableEq, Repr

/-- `vt_gpio_id_sensor_2`, `vt_gpio_port_sensor_2`, `vt_gpio_pin_sensor_2`. -/
def sensor2 : Sensor := ⟨sampleInternalGpioTypeId, ⟨.gpioC, 13⟩⟩

/-- The level last written to each pin. -/
abbrev Pins := Pin → Bool

/-- `HAL_GPIO_WritePin`. -/
def writePin (pins : Pins) (pin : Pin) (level : Bool) : Pins := fun p => if p = pin then level else pins p

theorem writePin_same (pins : Pins) (pin : Pin) (level : Bool) : writePin pins pin level pin = level :=
  if_pos rfl

/-- `set_led_state_action`. -/
def setLedStateAction (pins : Pins) (level : Bool) : Pins := writePin pins ledPin level

/-- `vt_gpio_on` and `vt_gpio_off`. -/
def vtGpioOn (pins : Pins) (sensor : Sensor) : Pins :=
  if sensor.gpioId = sampleInternalGpioTypeId then writePin pins sensor.gpio true else pins

def vtGpioOff (pins : Pins) (sensor : Sensor) : Pins :=
  if sensor.gpioId = sampleInternalGpioTypeId then writePin pins sensor.gpio false else pins

/-- The pins that `get_sensor_data` sets before its reads. -/
def powerSensors (pins : Pins) : Pins := writePin (writePin pins ⟨.gpioB, 2⟩ true) ⟨.gpioC, 13⟩ true

/-- What `nx_azure_iot_json_reader_next_token` returns; `NX_AZURE_IOT_EMPTY_JSON` is told apart from the
other failures. -/
inductive NextToken
  | success
  | emptyJson
  | failed
  deriving DecidableEq, Repr

/-- What the reader returns to `sample_pnp_device_set_led_state_command`: its first token, the status of
the boolean with the word that is then in `state`, and what `state` holds before. -/
structure CommandReplies where
  nextToken : NextToken
  tokenBoolGet : Status × BitVec 32
  unset : BitVec 32
  deriving DecidableEq, Repr

/-- The word that the command sets, when it gets to its action. -/
def CommandReplies.state (r : CommandReplies) : Option (BitVec 32) :=
  match r.nextToken with
  | .success => if r.tokenBoolGet.1 ≠ .success then none else some r.tokenBoolGet.2
  -- without a token `state` keeps whatever the stack holds
  | .emptyJson => some r.unset
  | .failed => none

/-- The pins and the component, with what is in progress: a command between its two writes, with the
word it sets, and a read of the sensors. -/
structure Board where
  pins : Pins
  sensorLEDState : Bool
  command : Option (BitVec 32)
  reading : Bool
  commanded : Bool

inductive Label
  /-- `sample_pnp_device_set_led_state_command` up to its action, and its end. -/
  | commandBegin (r : CommandReplies)
  | commandEnd
  /-- `get_sensor_data` with its writes, and its end. -/
  | readBegin
  | readEnd
  /-- The driver's calls for the second sensor. -/
  | gpioOn
  | gpioOff
  deriving DecidableEq, Repr

namespace Board

/-- One step of the board. -/
def step (b : Board) : Label → Option Board
  | .commandBegin r =>
      if b.command = none then
        match r.state with
        | none => some b
        | some state =>
            some { b with pins := setLedStateAction b.pins (state ≠ 0), command := some state }
      else none
  | .commandEnd =>
      match b.command with
      | none => none
      | some state => some { b with sensorLEDState := state ≠ 0, command := none, commanded := true }
  | .readBegin => if b.reading then none else some { b with pins := powerSensors b.pins, reading := true }
  | .readEnd => if b.reading then some { b with reading := false } else none
  | .gpioOn => some { b with pins := vtGpioOn b.pins sensor2 }
  | .gpioOff => some { b with pins := vtGpioOff b.pins sensor2 }

end Board

/-- The board behind `sample_pnp_device_init`, from any levels. -/
def machine (pins : Pins) : Machine Board Label where
  start :=
    { pins := pins, sensorLEDState := false, command := none, reading := false, commanded := false }
  step := Board.step

namespace Board

/-- Between the operations the pin has the level that is reported, once a command succeeded. -/
def Shown (b : Board) : Prop :=
  b.command = none → b.reading = false → b.commanded = true → b.pins ledPin = b.sensorLEDState

/-- The level that the last command asks for. -/
def asked (b : Board) : Option Bool :=
  match b.command with
  | some state => some (state ≠ 0)
  | none => if b.commanded then some b.sensorLEDState else none

/-- The sensors are read or powered only while no command has asked for the LED to be off, and their
power is cut only while none has asked for it to be on. -/
def Agrees (b : Board) : Label → Prop
  | .readBegin => b.asked ≠ some false
  | .gpioOn => b.asked ≠ some false
  | .gpioOff => b.asked ≠ some true
  | .commandBegin _ => True
  | .commandEnd => True
  | .readEnd => True

instance (b : Board) (label : Label) : Decidable (b.Agrees label) :=
  match label with
  | .readBegin => inferInstanceAs (Decidable (b.asked ≠ some false))
  | .gpioOn => inferInstanceAs (Decidable (b.asked ≠ some false))
  | .gpioOff => inferInstanceAs (Decidable (b.asked ≠ some true))
  | .commandBegin _ => isTrue trivial
  | .commandEnd => isTrue trivial
  | .readEnd => isTrue trivial

/-- The pin has the level that was asked for. -/
def Obeyed (b : Board) : Prop := ∀ level, b.asked = some level → b.pins ledPin = level

theorem Obeyed.shown {b : Board} (h : b.Obeyed) : b.Shown := by
  intro hcommand _ hcommanded
  apply h
  rw [asked, hcommand]
  exact if_pos hcommanded

/-- A step that keeps what is asked for, and writes nothing else to the pin. -/
theorem Obeyed.keep {b next : Board} (h : b.Obeyed) (hasked : next.asked = b.asked)
    (hpin : next.pins ledPin = b.pins ledPin ∨ b.asked ≠ some (!next.pins ledPin)) : next.Obeyed := by
  intro level hlevel
  rw [hasked] at hlevel
  rcases hpin with hsame | hother
  · rw [hsame, h level hlevel]
  · rw [hlevel, ne_eq, Option.some.injEq] at hother
    exact (Bool.not_eq_not.mp hother).symm

theorem step_obeyed {b next : Board} {label : Label} (h : b.Obeyed) (hagrees : b.Agrees label)
    (hstep : b.step label = some next) : next.Obeyed := by
  cases label with
  | commandBegin r =>
      rw [step, Option.ite_none_right_eq_some] at hstep
      obtain ⟨-, hbegin⟩ := hstep
      cases hstate : r.state with
      | none =>
          rw [hstate] at hbegin
          cases hbegin
          exact h
      | some state =>
          rw [hstate] at hbegin
          cases hbegin
          intro level hlevel
          cases hlevel
          exact writePin_same b.pins ledPin _
  | commandEnd =>
      cases hcommand : b.command with
      | none =>
          rw [step, hcommand] at hstep
          cases hstep
      | some state =>
          rw [step, hcommand] at hstep
          cases hstep
          refine h.keep ?_ (Or.inl rfl)
          rw [asked, asked, hcommand]
          rfl
  | readBegin =>
      rw [step, Option.ite_none_left_eq_some] at hstep
      cases hstep.2
      exact h.keep rfl (Or.inr hagrees)
  | readEnd =>
      rw [step, Option.ite_none_right_eq_some] at hstep
      cases hstep.2
      exact h.keep rfl (Or.inl rfl)
  | gpioOn =>
      cases hstep
      exact h.keep rfl (Or.inr hagrees)
  | gpioOff =>
      cases hstep
      exact h.keep rfl (Or.inr hagrees)

/-- **The LED shows the commanded state** in every run in which reads and driver calls agree with it. -/
theorem led_shown {pins : Pins} {b : Board} (h : (machine pins).ReachableUnder Agrees b) : b.Shown := by
  refine (h.invariant (machine pins) Obeyed ?_ ?_).shown
  · exact fun level hlevel => nomatch hlevel
  · exact fun _ _ _ _ hobeyed hagrees hstep => step_obeyed hobeyed hagrees hstep

/-- The answers of a reader to a payload with this boolean. -/
def boolPayload (b : Bool) : CommandReplies := ⟨.success, (.success, if b then 1 else 0), 0⟩

/-- A command turns the LED on, and a read of the sensors follows. -/
theorem led_shown_on : ∃ b : Board, b.commanded = true ∧ b.sensorLEDState = true ∧ b.Shown := by
  obtain ⟨b, hb, htest⟩ := (machine fun _ => false).exists_reachable_of_run
    (fun b label => of_decide_eq_true (p := b.Agrees label))
    [.gpioOn, .gpioOff, .commandBegin (boolPayload true), .commandEnd, .readBegin, .readEnd]
    (fun b => b.commanded && b.sensorLEDState) (by decide)
  rw [Bool.and_eq_true] at htest
  exact ⟨b, htest.1, htest.2, led_shown hb⟩

/-- A read of the sensors behind a command that turned the LED off turns it on. -/
theorem led_turned_on :
    ¬∀ b : Board, (machine fun _ => false).Reachable b → b.Shown := by
  intro h
  obtain ⟨b, hb, htest⟩ := (machine fun _ => false).exists_reachable
    [.commandBegin (boolPayload false), .commandEnd, .readBegin, .readEnd]
    (fun b => decide (b.command = none) && !b.reading && b.commanded && b.pins ledPin &&
      !b.sensorLEDState) (by decide)
  simp only [Bool.and_eq_true, decide_eq_true_eq, Bool.not_eq_true'] at htest
  obtain ⟨⟨⟨⟨hcommand, hreading⟩, hcommanded⟩, hpin⟩, hled⟩ := htest
  have hshown := h b hb hcommand hreading hcommanded
  rw [hpin, hled] at hshown
  exact Bool.noConfusion hshown

end Board

end DeviceSample.MxLed
