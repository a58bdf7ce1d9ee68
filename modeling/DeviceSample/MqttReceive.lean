import DeviceSample.MqttNotify
import Mathlib.Data.List.ReduceOption

/-!
What the two receive callbacks hand to their handlers. They store a message the same way: the topic and
the payload in two buffers that lie next to each other, then a terminator behind each at the length that
was returned, which may be the size of the buffer.
-/

namespace DeviceSample.Mqtt

open Base JsonUtils Dps

/-- Both strings are shorter than their buffers. -/
def Message.Fits (x : Message) : Prop :=
  x.topic.length < mqttReceiveTopicBuffer.size ∧ x.payload.length < mqttReceiveMessageBuffer.size

/-- A message that has been stored, with the structure before it. -/
structure Arrival where
  before : Memory
  message : Message

namespace Arrival

variable (x : Arrival)

/-- The structure that the handlers see. -/
def seen : Memory := receive x.before x.message.topic x.message.payload

/-- The stores of the received bytes. -/
def contents : List Store :=
  storesAt mqttReceiveTopicBuffer.place x.message.topic ++
    storesAt mqttReceiveMessageBuffer.place x.message.payload

def topicTerminator : Store := ⟨mqttReceiveTopicBuffer.place + x.message.topic.length, 0⟩

def messageTerminator : Store := ⟨mqttReceiveMessageBuffer.place + x.message.payload.length, 0⟩

theorem seen_eq : x.seen = x.before.run (x.contents ++ [x.topicTerminator, x.messageTerminator]) := by
  rw [contents, Memory.run_append, Memory.run_append]
  rfl

/-- The terminators are stored in their buffers, the handlers see the message that was received, and
nothing else in the structure has changed. -/
structure HandedOver : Prop where
  topic_terminated : mqttReceiveTopicBuffer.Has x.topicTerminator.place
  message_terminated : mqttReceiveMessageBuffer.Has x.messageTerminator.place
  topic_seen : x.seen.IsString mqttReceiveTopicBuffer.place x.message.topic
  message_seen : x.seen.IsString mqttReceiveMessageBuffer.place x.message.payload
  frame : ∀ place, ¬mqttReceiveTopicBuffer.Has place → ¬mqttReceiveMessageBuffer.Has place →
    x.seen place = x.before place

theorem has_end_iff (f : Field) (n : Nat) : f.Has (f.place + n) ↔ n < f.size := by
  rw [Field.Has]
  omega

theorem seen_outside {place : Int} (hfits : x.message.Fits) (htopic : ¬mqttReceiveTopicBuffer.Has place)
    (hmessage : ¬mqttReceiveMessageBuffer.Has place) : x.seen place = x.before place := by
  obtain ⟨htopicFits, hmessageFits⟩ := hfits
  rw [Field.Has, not_and, Int.not_lt] at htopic hmessage
  rw [seen, receive, Memory.store, if_neg, Memory.store, if_neg, Memory.run_storesAt_outside,
    Memory.run_storesAt_outside]
  · omega
  · omega
  · show place ≠ mqttReceiveTopicBuffer.place + (x.message.topic.length : Int)
    omega
  · show place ≠ mqttReceiveMessageBuffer.place + (x.message.payload.length : Int)
    omega

/-- A message is handed over exactly if both terminators have room. -/
theorem handedOver_iff : x.HandedOver ↔ x.message.Fits := by
  constructor
  · intro h
    exact ⟨(has_end_iff _ _).mp h.topic_terminated, (has_end_iff _ _).mp h.message_terminated⟩
  · intro hfits
    exact
      { topic_terminated := (has_end_iff _ _).mpr hfits.1
        message_terminated := (has_end_iff _ _).mpr hfits.2
        topic_seen := receive_topic _ _ x.message.topic_no_nul x.message.topic_fits
        message_seen := receive_message x.message.payload_no_nul hfits.1
        frame := fun _ htopic hmessage => x.seen_outside hfits htopic hmessage }

end Arrival

/-- The loop of the hub's `mqtt_notify_cb`: the messages that its calls of `nxd_mqtt_client_message_get`
store, one after the other, with `none` for a call that fails. -/
def hubArrivals {C : Type} (callbacks : Callbacks C) (stack : Memory) :
    Memory → List (Option Message) → List Arrival
  | _, [] => []
  | m, none :: deliveries => hubArrivals callbacks stack m deliveries
  | m, some message :: deliveries =>
      let arrival : Arrival := ⟨m, message⟩
      let effect := handle callbacks stack arrival.seen
      arrival :: hubArrivals callbacks stack (arrival.seen.run effect.stores) deliveries

/-- The same loop of the provisioning client. -/
def dpsArrivals (jsmnParse : JsmnParse) : Dps.State → List (Option Message) → List Arrival
  | _, [] => []
  | s, none :: deliveries => dpsArrivals jsmnParse (Dps.mqttNotifyCb jsmnParse s .failed) deliveries
  | s, some message :: deliveries =>
      ⟨s.memory, message⟩ ::
        dpsArrivals jsmnParse
          (Dps.mqttNotifyCb jsmnParse s (.message message.topic message.payload)) deliveries

theorem hubArrivals_message {C : Type} (callbacks : Callbacks C) (stack m : Memory)
    (deliveries : List (Option Message)) :
    (hubArrivals callbacks stack m deliveries).map Arrival.message = deliveries.reduceOption := by
  induction deliveries generalizing m with
  | nil => rfl
  | cons delivery deliveries ih =>
      cases delivery with
      | none => exact ih m
      | some message => exact congrArg (message :: ·) (ih _)

theorem dpsArrivals_message (jsmnParse : JsmnParse) (s : Dps.State) (deliveries : List (Option Message)) :
    (dpsArrivals jsmnParse s deliveries).map Arrival.message = deliveries.reduceOption := by
  induction deliveries generalizing s with
  | nil => rfl
  | cons delivery deliveries ih =>
      cases delivery with
      | none => exact ih _
      | some message => exact congrArg (message :: ·) (ih _)

theorem forall_handedOver_iff {arrivals : List Arrival} {messages : List Message}
    (h : arrivals.map Arrival.message = messages) :
    (∀ x ∈ arrivals, x.HandedOver) ↔ ∀ message ∈ messages, message.Fits := by
  rw [← h, List.forall_mem_map]
  exact forall₂_congr fun x _ => x.handedOver_iff

/-- **Both receive callbacks hand over exactly what was received as long as each message leaves room for
its terminators**, for all sequences of messages, from any content of the structure. -/
theorem arrivals_handedOver_iff (deliveries : List (Option Message)) :
    (∀ {C : Type} (callbacks : Callbacks C) (stack m : Memory),
      (∀ x ∈ hubArrivals callbacks stack m deliveries, x.HandedOver) ↔
        ∀ message ∈ deliveries.reduceOption, message.Fits) ∧
    ∀ (jsmnParse : JsmnParse) (s : Dps.State),
      (∀ x ∈ dpsArrivals jsmnParse s deliveries, x.HandedOver) ↔
        ∀ message ∈ deliveries.reduceOption, message.Fits := by
  constructor
  · intro C callbacks stack m
    exact forall_handedOver_iff (hubArrivals_message callbacks stack m deliveries)
  · intro jsmnParse s
    exact forall_handedOver_iff (dpsArrivals_message jsmnParse s deliveries)

/-- A message for the device that fills its buffer. -/
def fullMessage : Message where
  topic := text "devices/board/messages/devicebound/%24.to=x"
  payload := List.replicate 512 (ascii 'm')
  topic_no_nul := by decide
  payload_no_nul := fun hmem => absurd (List.eq_of_mem_replicate hmem) (by decide)
  topic_fits := by decide
  payload_fits := Nat.le_of_eq List.length_replicate

/-- Its terminator is stored behind the buffer. -/
theorem fullMessage_not_handedOver : ¬∀ x ∈ hubArrivals (fun _ => none : Callbacks Unit) (fun _ => 0) (fun _ => 0)
    [some fullMessage], x.HandedOver := by
  intro h
  have hfits := (Arrival.handedOver_iff _).mp (h _ List.mem_cons_self)
  have hlength : fullMessage.payload.length = 512 := List.length_replicate
  exact absurd hfits.2 (by rw [hlength]; decide)

end DeviceSample.Mqtt
