import DeviceSample.MqttConnect
import DeviceSample.MqttNotify

/-!
Subscriptions and dispatch. A topic arrives because it begins like a subscribed filter, and the handlers
count on that beginning; the dispatch asks instead whether the text of a filter occurs anywhere in the
topic, one filter after the other.
-/

namespace DeviceSample.Mqtt

open Base Dps MqttConnect

section filters

/-- The text of a filter in front of its `#`. -/
def filterBase (deviceId : List Byte) : TopicFilter → List Byte
  | .deviceMessageTopic => text "devices/" ++ deviceId ++ text "/messages/devicebound/"
  | .directMethodTopic => directMethodReceive
  | .deviceTwinResTopic => deviceTwinResBase
  | .deviceTwinDesiredPropResTopic => deviceTwinDesiredPropResBase

/-- The handler that a filter is meant for. -/
def filterHandler : TopicFilter → Handler
  | .deviceMessageTopic => .c2dMessage
  | .directMethodTopic => .directMethod
  | .deviceTwinResTopic => .deviceTwinResponse
  | .deviceTwinDesiredPropResTopic => .deviceTwinDesiredPropUpdate

/-- What a handler takes from a topic. -/
inductive Parsed
  | method (name rid : List Byte)
  | properties (s : List Byte)
  | status (n : Int)
  | version (v : BitVec 32)
  deriving DecidableEq, Repr

namespace Handler

/-- Where a handler begins to read the topic. -/
def start : Handler → Nat
  | .directMethod => directMethodReceive.length
  | .c2dMessage => 0
  | .deviceTwinResponse => deviceTwinResBase.length
  | .deviceTwinDesiredPropUpdate => deviceTwinDesiredPropResBase.length

/-- The parse of a handler, on a text. -/
def parse (location : List Byte) : Handler → Option Parsed
  | .directMethod => (methodParts location).map fun parts => .method parts.1 parts.2
  | .c2dMessage => (c2dProperties location).map .properties
  | .deviceTwinResponse => (responseStatus location).map .status
  | .deviceTwinDesiredPropUpdate => (desiredVersion location).map .version

/-- What the handler takes from the topic in the buffer. -/
def parsed (m : Memory) (h : Handler) : Option Parsed := h.parse (topicFrom m h.start)

/-- The text that the chain searches for. -/
def pattern : Handler → List Byte
  | .directMethod => directMethodReceive
  | .c2dMessage => deviceMessageBase
  | .deviceTwinResponse => deviceTwinResBase
  | .deviceTwinDesiredPropUpdate => deviceTwinDesiredPropResBase

/-- The texts that it searches for before. -/
def earlier : Handler → List (List Byte)
  | .directMethod => []
  | .c2dMessage => [directMethodReceive]
  | .deviceTwinResponse => [directMethodReceive, deviceMessageBase]
  | .deviceTwinDesiredPropUpdate => [directMethodReceive, deviceMessageBase, deviceTwinResBase]

end Handler

/-- The message goes to the handler of its filter, which takes from it what stands behind the filter's
own text. -/
structure Follows (m : Memory) (filter : TopicFilter) (rest : List Byte) : Prop where
  handler : dispatch (topicText m) = some (filterHandler filter)
  parsed : (filterHandler filter).parsed m = (filterHandler filter).parse rest

/-- If the text in front of `#` has an `.to`, which only a device id can bring in, then no `&` follows
there, and behind it there is an `.to` with no `&` in front. -/
def PropertiesBehind (base rest : List Byte) : Prop :=
  ∀ found, strstr base (text ".to") = some found → strstr found (text "&") = none ∧
    ∃ front behind, rest = front ++ behind ∧ strstr rest (text ".to") = some behind ∧
      strstr front (text "&") = none

/-- No filter that is tried earlier occurs in the text in front of `#` or in the text at its place. -/
structure Routed (deviceId rest : List Byte) (filter : TopicFilter) : Prop where
  earlier_absent : ∀ pattern ∈ (filterHandler filter).earlier,
    strstr (filterBase deviceId filter) pattern = none ∧ strstr rest pattern = none
  properties_behind : filter = .deviceMessageTopic → PropertiesBehind (filterBase deviceId filter) rest

end filters

section dispatching

theorem dispatch_eq_some_iff (topic : List Byte) (h : Handler) : dispatch topic = some h ↔
    (∀ pattern ∈ h.earlier, strstr topic pattern = none) ∧ strstr topic h.pattern ≠ none := by
  unfold dispatch
  cases h with
  | directMethod =>
      simp only [Handler.earlier, Handler.pattern, List.not_mem_nil]
      grind
  | c2dMessage =>
      simp only [Handler.earlier, Handler.pattern, List.forall_mem_singleton]
      grind
  | deviceTwinResponse =>
      simp only [Handler.earlier, Handler.pattern, List.forall_mem_cons]
      grind
  | deviceTwinDesiredPropUpdate =>
      simp only [Handler.earlier, Handler.pattern, List.forall_mem_cons]
      grind

variable (deviceId rest : List Byte) (filter : TopicFilter)

theorem pattern_in_filterBase : (filterHandler filter).pattern <:+: filterBase deviceId filter := by
  cases filter with
  | deviceMessageTopic => exact ⟨text "devices/" ++ deviceId ++ text "/", [], by simp [filterBase]; decide⟩
  | directMethodTopic => exact List.infix_rfl
  | deviceTwinResTopic => exact List.infix_rfl
  | deviceTwinDesiredPropResTopic => exact List.infix_rfl

/-- No filter that is tried earlier can begin in the text in front of `#` and end behind it. -/
theorem earlier_not_straddles : ∀ pattern ∈ (filterHandler filter).earlier,
    ¬Straddles pattern (filterBase deviceId filter) rest := by
  cases filter with
  | deviceMessageTopic =>
      simp only [filterHandler, Handler.earlier, List.forall_mem_singleton]
      exact not_straddles_of_last _ _ (by decide) (by decide +kernel)
  | directMethodTopic => exact fun _ hmem => absurd hmem List.not_mem_nil
  | deviceTwinResTopic =>
      simp only [filterHandler, filterBase, Handler.earlier, List.forall_mem_cons]
      exact ⟨not_straddles_of_ends _ (by decide +kernel), not_straddles_of_ends _ (by decide +kernel),
        fun _ hmem => absurd hmem List.not_mem_nil⟩
  | deviceTwinDesiredPropResTopic =>
      simp only [filterHandler, filterBase, Handler.earlier, List.forall_mem_cons]
      exact ⟨not_straddles_of_ends _ (by decide +kernel), not_straddles_of_ends _ (by decide +kernel),
        not_straddles_of_ends _ (by decide +kernel), fun _ hmem => absurd hmem List.not_mem_nil⟩

/-- The dispatch finds the filter of a topic exactly if no earlier one occurs. -/
theorem dispatch_filter_iff :
    dispatch (filterBase deviceId filter ++ rest) = some (filterHandler filter) ↔
      ∀ pattern ∈ (filterHandler filter).earlier,
        strstr (filterBase deviceId filter) pattern = none ∧ strstr rest pattern = none := by
  have hown : strstr (filterBase deviceId filter ++ rest) (filterHandler filter).pattern ≠ none := by
    rw [ne_eq, strstr_eq_none_iff, not_not]
    exact List.infix_append_of_infix_left (pattern_in_filterBase deviceId filter)
  rw [dispatch_eq_some_iff, and_iff_left hown]
  refine forall₂_congr fun pattern hmem => ?_
  exact strstr_append_eq_none_iff (earlier_not_straddles deviceId rest filter pattern hmem)

end dispatching

section properties

variable {first second found : List Byte}

theorem ampersand_not_straddles : ¬Straddles (text "&") first second :=
  not_straddles_singleton (ascii '&') first second

theorem behindAmpersand_of_none (hnone : strstr first (text "&") = none) :
    behindAmpersand (first ++ second) = behindAmpersand second := by
  rw [behindAmpersand, strstr_append_of_none ampersand_not_straddles hnone, behindAmpersand]

/-- An `&` in the first text leaves the whole second text behind it. -/
theorem le_behindAmpersand_of_some (second : List Byte) (hsome : strstr first (text "&") = some found) :
    second.length ≤ (behindAmpersand (first ++ second)).length := by
  obtain ⟨tail, rfl⟩ := (strstr_spec hsome).1
  rw [behindAmpersand, strstr_append_of_some hsome]
  simp [text]

theorem behindAmpersand_length_lt (hfirst : first ≠ []) : (behindAmpersand first).length < first.length := by
  have hpos := List.length_pos_iff.mpr hfirst
  rw [behindAmpersand]
  cases hsearch : strstr first (text "&") with
  | none => exact hpos
  | some found =>
      have hfound := (strstr_spec hsearch).2.length_le
      show (found.drop 1).length < _
      rw [List.length_drop]
      omega

/-- The properties are those of the text behind `#` exactly if the search for them gets there. -/
theorem c2dProperties_append_iff {base rest : List Byte} (h : ¬Straddles (text ".to") base rest) :
    c2dProperties (base ++ rest) = c2dProperties rest ↔ PropertiesBehind base rest := by
  cases hbase : strstr base (text ".to") with
  | none =>
      rw [c2dProperties, strstr_append_of_none h hbase, c2dProperties]
      refine iff_of_true rfl fun found hfound => ?_
      rw [hbase] at hfound
      cases hfound
  | some found =>
      rw [c2dProperties, strstr_append_of_some hbase, Option.map_some, c2dProperties, eq_comm,
        Option.map_eq_some_iff]
      constructor
      · rintro ⟨behind, hbehind, hsame⟩ found' hfound'
        rw [hbase, Option.some.injEq] at hfound'
        subst hfound'
        obtain ⟨hbegins, front, hrest⟩ := strstr_spec hbehind
        have hne : behind ≠ [] := by
          rintro rfl
          exact absurd (List.prefix_nil.mp hbegins) (by decide)
        have hshort := behindAmpersand_length_lt hne
        have hlength : behind.length ≤ rest.length := (strstr_spec hbehind).2.length_le
        have hfound : strstr found (text "&") = none := by
          cases hsearch : strstr found (text "&") with
          | none => rfl
          | some tail =>
              have hlong := le_behindAmpersand_of_some rest hsearch
              rw [← hsame] at hlong
              omega
        refine ⟨hfound, front, behind, hrest.symm, hbehind, ?_⟩
        cases hsearch : strstr front (text "&") with
        | none => rfl
        | some tail =>
            have hlong := le_behindAmpersand_of_some behind hsearch
            rw [hrest, ← behindAmpersand_of_none hfound, ← hsame] at hlong
            omega
      · intro hproperties
        obtain ⟨hfound, front, behind, hrest, hbehind, hfront⟩ := hproperties found hbase
        refine ⟨behind, hbehind, ?_⟩
        rw [behindAmpersand_of_none hfound, hrest, behindAmpersand_of_none hfront]

end properties

section messages

variable {deviceId rest : List Byte} {filter : TopicFilter} {x : Message} (m : Memory)

theorem to_not_straddles :
    ¬Straddles (text ".to") (filterBase deviceId .deviceMessageTopic) rest :=
  not_straddles_of_last _ _ (by decide) (by decide +kernel)

/-- A handler that begins behind its filter takes what it should. -/
theorem parsed_of_start (hx : x.topic = filterBase deviceId filter ++ rest)
    (hstart : (filterHandler filter).start = (filterBase deviceId filter).length) :
    (filterHandler filter).parsed (receive m x.topic x.payload) = (filterHandler filter).parse rest := by
  have hle : (filterHandler filter).start ≤ x.topic.length := by
    rw [hstart, hx, List.length_append]
    exact Nat.le_add_right _ _
  rw [Handler.parsed, topicFrom_receive m x hle, hstart, hx, List.drop_left]

theorem parsed_iff (hx : x.topic = filterBase deviceId filter ++ rest) :
    (filterHandler filter).parsed (receive m x.topic x.payload) = (filterHandler filter).parse rest ↔
      (filter = .deviceMessageTopic → PropertiesBehind (filterBase deviceId filter) rest) := by
  cases filter with
  | deviceMessageTopic =>
      have hinjective : Function.Injective (Option.map Parsed.properties) :=
        Option.map_injective fun _ _ h => (Parsed.properties.injEq _ _).mp h
      have htext : (filterHandler .deviceMessageTopic).parsed (receive m x.topic x.payload) =
          (c2dProperties (filterBase deviceId .deviceMessageTopic ++ rest)).map .properties := by
        rw [Handler.parsed, filterHandler, Handler.start, topicFrom_receive m x (Nat.zero_le _), List.drop_zero, hx,
          Handler.parse]
      rw [htext, filterHandler, Handler.parse, hinjective.eq_iff, c2dProperties_append_iff to_not_straddles]
      exact ⟨fun h _ => h, fun h => h rfl⟩
  | directMethodTopic => exact iff_of_true (parsed_of_start m hx rfl) TopicFilter.noConfusion
  | deviceTwinResTopic => exact iff_of_true (parsed_of_start m hx rfl) TopicFilter.noConfusion
  | deviceTwinDesiredPropResTopic => exact iff_of_true (parsed_of_start m hx rfl) TopicFilter.noConfusion

/-- **A message follows its subscription exactly if no earlier filter occurs in its topic, and the search
for its properties gets behind its device id**, for all device ids and all texts at `#`. -/
theorem message_follows_iff (hx : x.topic = filterBase deviceId filter ++ rest) :
    Follows (receive m x.topic x.payload) filter rest ↔ Routed deviceId rest filter := by
  have hdispatch := dispatch_filter_iff deviceId rest filter
  rw [← hx, ← topicText_receive m x] at hdispatch
  constructor
  · intro h
    exact ⟨hdispatch.mp h.handler, (parsed_iff m hx).mp h.parsed⟩
  · intro h
    exact ⟨hdispatch.mpr h.earlier_absent, (parsed_iff m hx).mpr h.properties_behind⟩

end messages

/-- A message for the device, with one property. -/
def plainMessage : Message where
  topic := text "devices/board/messages/devicebound/%24.to=%2Fdevices%2Fboard&unit=C"
  payload := text "21"
  topic_no_nul := by decide
  payload_no_nul := by decide
  topic_fits := by decide
  payload_fits := by decide

theorem plainMessage_follows :
    Follows (receive (fun _ => 0) plainMessage.topic plainMessage.payload) .deviceMessageTopic
      (text "%24.to=%2Fdevices%2Fboard&unit=C") := by
  have htopic : plainMessage.topic = filterBase (text "board") .deviceMessageTopic ++
      text "%24.to=%2Fdevices%2Fboard&unit=C" := by
    decide +kernel
  refine (message_follows_iff (fun _ => 0) htopic).mpr ⟨?_, ?_⟩
  · decide +kernel
  · intro _ found hfound
    have hnone : strstr (filterBase (text "board") .deviceMessageTopic) (text ".to") = none := by
      decide +kernel
    rw [hnone] at hfound
    cases hfound

/-- A message for the device, with a property that spells the filter of the methods. -/
def methodMessage : Message where
  topic := text "devices/board/messages/devicebound/%24.to=x&path=$iothub/methods/POST/reboot/?$rid=1"
  payload := text "21"
  topic_no_nul := by decide
  payload_no_nul := by decide
  topic_fits := by decide
  payload_fits := by decide

/-- It is taken for the call of a method. -/
theorem methodMessage_not_follows :
    methodMessage.topic = filterBase (text "board") .deviceMessageTopic ++
        text "%24.to=x&path=$iothub/methods/POST/reboot/?$rid=1" ∧
      ¬Follows (receive (fun _ => 0) methodMessage.topic methodMessage.payload) .deviceMessageTopic
        (text "%24.to=x&path=$iothub/methods/POST/reboot/?$rid=1") := by
  refine ⟨by decide +kernel, fun h => ?_⟩
  have hdispatch := h.handler
  rw [topicText_receive] at hdispatch
  revert hdispatch
  decide +kernel

end DeviceSample.Mqtt
