import DeviceSample.BaseMemory
import DeviceSample.Sdk

/-!
The part of `AZURE_IOT_MQTT_STRUCT` that holds strings, laid out for 32-bit pointers. Places count
from `mqtt_hub_hostname`; the MQTT client and the event flags stand in front of it, the stack and the
TLS buffers behind the receive buffers.
-/

namespace DeviceSample.Mqtt

open Base

/-- An array or a scalar of the structure. -/
structure Field where
  place : Int
  size : Nat
  deriving DecidableEq, Repr

/-- The place belongs to the field. -/
def Field.Has (f : Field) (place : Int) : Prop := f.place ≤ place ∧ place < f.place + f.size

def mqttHubHostname : Field := ⟨0, 100⟩
def mqttDpsEndpoint : Field := ⟨100, 4⟩
def mqttDpsIdScope : Field := ⟨104, 4⟩
def mqttDpsRegistrationId : Field := ⟨108, 4⟩
def mqttDeviceId : Field := ⟨112, 64⟩
def mqttSasKey : Field := ⟨176, 4⟩
def mqttModelId : Field := ⟨180, 4⟩
def dpsRetryInterval : Field := ⟨184, 4⟩
def reportedPropertyVersion : Field := ⟨188, 4⟩
def desiredPropertyVersion : Field := ⟨192, 4⟩
def directCommandRequestId : Field := ⟨196, 6⟩
def mqttUsername : Field := ⟨202, 256⟩
def mqttPassword : Field := ⟨458, 256⟩
def mqttReceiveTopicBuffer : Field := ⟨714, 256⟩
def mqttReceiveMessageBuffer : Field := ⟨970, 512⟩

/-- The fields in the order of the structure. -/
def fields : List Field :=
  [mqttHubHostname, mqttDpsEndpoint, mqttDpsIdScope, mqttDpsRegistrationId, mqttDeviceId, mqttSasKey,
    mqttModelId, dpsRetryInterval, reportedPropertyVersion, desiredPropertyVersion,
    directCommandRequestId, mqttUsername, mqttPassword, mqttReceiveTopicBuffer,
    mqttReceiveMessageBuffer]

/-- Each field ends where the next one starts. -/
theorem fields_consecutive : fields.IsChain fun f g => f.place + (f.size : Int) = g.place := by decide

/-- The array contains a terminator and reads as the string. -/
def Field.Holds (f : Field) (m : Memory) (s : List Byte) : Prop :=
  (∃ k : Nat, k < f.size ∧ m (f.place + k) = 0) ∧ m.IsString f.place s

theorem Field.Holds.length_lt {f : Field} {m : Memory} {s : List Byte} (h : f.Holds m s) :
    s.length < f.size := by
  obtain ⟨⟨k, hk, hnul⟩, hstring⟩ := h
  by_contra hlong
  have hrest := hstring.drop (k := k) (by omega)
  have hne : s.drop k ≠ [] := by
    intro hempty
    have hlength := congrArg List.length hempty
    rw [List.length_drop, List.length_nil] at hlength
    omega
  cases hdrop : s.drop k with
  | nil => exact hne hdrop
  | cons x rest =>
      rw [hdrop] at hrest
      exact hrest.1 (hrest.2.1.symm.trans hnul)

theorem Field.holds_of_isString {f : Field} {m : Memory} {s : List Byte} (h : m.IsString f.place s)
    (hs : s.length < f.size) : f.Holds m s := by
  refine ⟨⟨s.length, hs, ?_⟩, h⟩
  have hend := h.drop (Nat.le_refl s.length)
  rw [List.drop_length] at hend
  exact hend

theorem Field.Holds.congr {f : Field} {m m' : Memory} {s : List Byte} (h : f.Holds m s)
    (hsame : ∀ place, f.Has place → m' place = m place) : f.Holds m' s := by
  have hlength := h.length_lt
  apply Field.holds_of_isString _ hlength
  exact h.2.congr fun place hfirst hlast => hsame place ⟨hfirst, by omega⟩

/-- The stored identity is whole, and its copy has changed nothing else. -/
structure IdentityStored (before after : Memory) (hostname deviceId : List Byte) : Prop where
  hostname_held : mqttHubHostname.Holds after hostname
  deviceId_held : mqttDeviceId.Holds after deviceId
  frame : ∀ place, ¬ mqttHubHostname.Has place → ¬ mqttDeviceId.Has place → after place = before place

theorem IdentityStored.lengths {before after : Memory} {hostname deviceId : List Byte}
    (h : IdentityStored before after hostname deviceId) : hostname.length ≤ 99 ∧ deviceId.length ≤ 63 :=
  ⟨Nat.le_of_lt_succ h.hostname_held.length_lt, Nat.le_of_lt_succ h.deviceId_held.length_lt⟩

end DeviceSample.Mqtt
