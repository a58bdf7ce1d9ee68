import DeviceSample.MqttTopics

/-!
Properties of a message for the device. They stand in the topic behind the parameter `%24.to`, which the
handler looks for in the whole topic by a part of its name.
-/

namespace DeviceSample.Mqtt

open Base Dps MqttConnect

/-- The topic of a message for a device: parameters with `&` between them, of which one is `%24.to`. -/
structure DeviceTopic where
  deviceId : List Byte
  before : List (List Byte)
  value : List Byte
  after : List (List Byte)
  deviceId_plain : ascii '/' ∉ deviceId ∧ ascii '&' ∉ deviceId
  before_plain : ∀ p ∈ before, ascii '&' ∉ p ∧ ¬text "%24.to=" <+: p
  value_plain : ascii '&' ∉ value
  after_plain : ∀ p ∈ after, ascii '&' ∉ p

namespace DeviceTopic

variable (t : DeviceTopic)

def bytes : List Byte :=
  filterBase t.deviceId .deviceMessageTopic ++
    (text "&").intercalate (t.before ++ (text "%24.to=" ++ t.value) :: t.after)

/-- What stands behind the first `&` that follows the parameter. -/
def properties : List Byte := (text "&").intercalate t.after

end DeviceTopic

/-- A message with such a topic. -/
structure DeviceMessage where
  topic : DeviceTopic
  message : Message
  topic_eq : message.topic = topic.bytes

section joining

variable {α : Type*} (sep : List α)

theorem intercalate_split (before after : List (List α)) (x : List α) :
    sep.intercalate (before ++ x :: after) = before.flatMap (· ++ sep) ++ sep.intercalate (x :: after) := by
  induction before with
  | nil => rfl
  | cons p before ih =>
      have hmore : before ++ x :: after ≠ [] := List.append_ne_nil_of_right_ne_nil _ (List.cons_ne_nil _ _)
      rw [List.cons_append, List.intercalate_cons_of_ne_nil hmore, ih, List.flatMap_cons, List.append_assoc,
        List.append_assoc, List.append_assoc]

theorem intercalate_append_cons (first second : List α) (after : List (List α)) :
    sep.intercalate ((first ++ second) :: after) = first ++ sep.intercalate (second :: after) := by
  cases after with
  | nil => rw [List.intercalate_singleton, List.intercalate_singleton]
  | cons q after => rw [List.intercalate_cons_cons, List.intercalate_cons_cons, List.append_assoc, List.append_assoc,
      List.append_assoc]

end joining

section searching

variable {s : List Byte}

theorem strstr_ampersand (h : ascii '&' ∉ s) : strstr s (text "&") = none :=
  strstr_eq_none_iff.mpr fun hin => h (hin.subset (List.mem_singleton.mpr rfl))

theorem behindAmpersand_cons (s : List Byte) : behindAmpersand (ascii '&' :: s) = s := by
  have hfound : strstr (ascii '&' :: s) (text "&") = some (ascii '&' :: s) := strstr_append (text "&") s
  rw [behindAmpersand, hfound]
  rfl

/-- Behind a parameter stand the parameters that follow it. -/
theorem behindAmpersand_parameter {p : List Byte} (hp : ascii '&' ∉ p) (after : List (List Byte)) :
    behindAmpersand ((text "&").intercalate (p :: after)) = (text "&").intercalate after := by
  cases after with
  | nil =>
      rw [List.intercalate_singleton, behindAmpersand, strstr_ampersand hp]
      rfl
  | cons q after =>
      rw [List.intercalate_cons_cons, List.append_assoc, behindAmpersand_of_none (strstr_ampersand hp)]
      exact behindAmpersand_cons _

end searching

namespace DeviceTopic

variable (t : DeviceTopic)

/-- The topic in front of the parameter. -/
def front : List Byte := filterBase t.deviceId .deviceMessageTopic ++ t.before.flatMap (· ++ text "&")

/-- The topic from the parameter on. -/
def back : List Byte := (text "&").intercalate ((text "%24.to=" ++ t.value) :: t.after)

theorem bytes_eq : t.bytes = t.front ++ t.back := by
  rw [bytes, intercalate_split, front, back, List.append_assoc]

/-- Where the search should end. -/
theorem back_search : ∃ found, t.back = text "%24" ++ found ∧ strstr t.back (text ".to") = some found ∧
    behindAmpersand found = t.properties := by
  have hvalue : ascii '&' ∉ text ".to=" ++ t.value := by
    intro hmem
    rcases List.mem_append.mp hmem with hname | hmem
    · exact absurd hname (by decide)
    · exact t.value_plain hmem
  have hname : text "%24.to=" ++ t.value = text "%24" ++ (text ".to=" ++ t.value) := rfl
  have hback : t.back = text "%24" ++ (text "&").intercalate ((text ".to=" ++ t.value) :: t.after) := by
    rw [back, hname, intercalate_append_cons]
  have hbegins : text ".to" <+: (text "&").intercalate ((text ".to=" ++ t.value) :: t.after) := by
    have hto : text ".to=" ++ t.value = text ".to" ++ (text "=" ++ t.value) := rfl
    rw [hto, intercalate_append_cons]
    exact List.prefix_append _ _
  have hstraddles : ¬Straddles (text ".to") (text "%24")
      ((text "&").intercalate ((text ".to=" ++ t.value) :: t.after)) := not_straddles_of_ends _ (by decide)
  have hnone : strstr (text "%24") (text ".to") = none := by decide
  refine ⟨_, hback, ?_, behindAmpersand_parameter hvalue t.after⟩
  rw [hback, strstr_append_of_none hstraddles hnone, strstr_of_isPrefix hbegins]

/-- `.to` is not found in the device id or in a parameter in front of `%24.to`. -/
def Unspoiled : Prop :=
  strstr t.deviceId (text ".to") = none ∧ ∀ p ∈ t.before, strstr p (text ".to") = none

theorem before_search (before : List (List Byte)) : strstr (before.flatMap (· ++ text "&")) (text ".to") = none ↔
    ∀ p ∈ before, strstr p (text ".to") = none := by
  have hseparator : ascii '&' ∉ text ".to" := by decide
  induction before with
  | nil => exact iff_of_true (by decide) nofun
  | cons p before ih =>
      have hsplit : (p :: before).flatMap (· ++ text "&") = p ++ ascii '&' :: before.flatMap (· ++ text "&") := by
        rw [List.flatMap_cons, List.append_assoc]
        rfl
      rw [hsplit, List.forall_mem_cons]
      exact (strstr_separated_eq_none_iff hseparator (by decide)).trans (and_congr_right fun _ => ih)

theorem front_search : strstr t.front (text ".to") = none ↔ t.Unspoiled := by
  have hseparator : ascii '/' ∉ text ".to" := by decide
  have hsplit : t.front = text "devices" ++ ascii '/' :: (t.deviceId ++ ascii '/' ::
      (text "messages/devicebound" ++ ascii '/' :: t.before.flatMap (· ++ text "&"))) := by
    have hfirst : text "devices/" = text "devices" ++ [ascii '/'] := rfl
    have hlast : text "/messages/devicebound/" = ascii '/' :: (text "messages/devicebound" ++ [ascii '/']) := rfl
    rw [front, filterBase, hfirst, hlast]
    simp only [List.append_assoc, List.cons_append, List.nil_append]
  have hdevices : strstr (text "devices") (text ".to") = none := by decide +kernel
  have hmessages : strstr (text "messages/devicebound") (text ".to") = none := by decide +kernel
  have hpattern : text ".to" ≠ [] := by decide
  rw [hsplit, strstr_separated_eq_none_iff hseparator hpattern, strstr_separated_eq_none_iff hseparator hpattern,
    strstr_separated_eq_none_iff hseparator hpattern, before_search, and_iff_right hdevices,
    and_iff_right hmessages]
  rfl

/-- No `&` stands behind an `.to` in the front exactly if there is no parameter, or no `.to`. -/
theorem front_clear_iff : (∀ found, strstr t.front (text ".to") = some found → strstr found (text "&") = none) ↔
    t.before = [] ∨ t.Unspoiled := by
  rw [← front_search]
  constructor
  · intro hclear
    by_contra hspoiled
    rw [not_or] at hspoiled
    obtain ⟨found, hfound⟩ := Option.ne_none_iff_exists'.mp hspoiled.2
    obtain ⟨hbegins, hends⟩ := strstr_spec hfound
    -- the front ends with the `&` behind its last parameter
    have hlast : [ascii '&'] <:+ t.front := by
      obtain ⟨init, p, hbefore⟩ := (List.eq_nil_or_concat' t.before).resolve_left hspoiled.1
      rw [front, hbefore, List.flatMap_append, List.flatMap_singleton, ← List.append_assoc, ← List.append_assoc]
      exact List.suffix_append _ _
    have hampersand : [ascii '&'] <:+ found :=
      List.suffix_of_suffix_length_le hlast hends (Nat.le_trans (by decide) hbegins.length_le)
    exact strstr_eq_none_iff.mp (hclear found hfound) hampersand.isInfix
  · rintro (hfirst | hnone) found hfound
    · have hplain : ascii '&' ∉ t.front := by
        have hbase : ascii '&' ∉ text "devices/" ∧ ascii '&' ∉ text "/messages/devicebound/" := by decide
        rw [front, hfirst, List.flatMap_nil, List.append_nil, filterBase]
        simp only [List.mem_append, not_or]
        exact ⟨⟨hbase.1, t.deviceId_plain.2⟩, hbase.2⟩
      exact strstr_ampersand fun hmem => hplain ((strstr_spec hfound).2.subset hmem)
    · rw [hnone] at hfound
      cases hfound

/-- The search for the properties gets behind the parameter exactly if that is the first one, or nothing in front of
it is taken for it. -/
theorem c2dProperties_iff : c2dProperties t.bytes = some t.properties ↔ t.before = [] ∨ t.Unspoiled := by
  obtain ⟨found, hback, hsearch, hproperties⟩ := t.back_search
  have hstraddles : ¬Straddles (text ".to") t.front t.back := by
    rw [hback]
    exact not_straddles_of_separator (c := ascii '%') t.front (text "24" ++ found) (by decide)
  have hown : c2dProperties t.back = some t.properties := by
    rw [c2dProperties, hsearch, Option.map_some, hproperties]
  rw [bytes_eq, ← hown, c2dProperties_append_iff hstraddles, ← front_clear_iff, PropertiesBehind]
  refine forall₂_congr fun _ _ => and_iff_left ⟨text "%24", found, hback, hsearch, by decide⟩

end DeviceTopic

section handling

variable {C : Type}

/-- **The properties of a message are passed on exactly if `%24.to` is the first parameter, or `.to` is neither in the
device id nor in a parameter in front of it**, for all topics, all payloads and any content of the structure. -/
theorem processC2dMessage_properties_iff (callback : C) (x : DeviceMessage) (m : Memory) :
    processC2dMessage (some callback) (receive m x.message.topic x.message.payload) =
        ⟨[], some ⟨some callback, .properties x.topic.properties⟩⟩ ↔
      x.topic.before = [] ∨
        strstr x.topic.deviceId (text ".to") = none ∧ ∀ p ∈ x.topic.before, strstr p (text ".to") = none := by
  refine Iff.trans ?_ x.topic.c2dProperties_iff
  rw [processC2dMessage, topicFrom_receive m x.message (Nat.zero_le _), List.drop_zero, x.topic_eq]
  cases c2dProperties x.topic.bytes with
  | none => simp [Effect.nothing]
  | some properties => simp

end handling

/-- A device whose id has `.to` in it. -/
def tokyoTopic : DeviceTopic where
  deviceId := text "sensor.tokyo"
  before := [text "%24.mid=17"]
  value := text "%2Fdevices%2Fsensor.tokyo"
  after := [text "unit=C"]
  deviceId_plain := by decide
  before_plain := by decide
  value_plain := by decide
  after_plain := by decide

def tokyoMessage : DeviceMessage where
  topic := tokyoTopic
  message :=
    { topic := text "devices/sensor.tokyo/messages/devicebound/%24.mid=17&%24.to=%2Fdevices%2Fsensor.tokyo&unit=C"
      payload := text "25"
      topic_no_nul := by decide
      payload_no_nul := by decide
      topic_fits := by decide
      payload_fits := by decide }
  topic_eq := by decide +kernel

/-- Its message has the parameter `%24.to` among its properties. -/
theorem tokyoMessage_properties :
    processC2dMessage (some ()) (receive (fun _ => 0) tokyoMessage.message.topic tokyoMessage.message.payload) ≠
        ⟨[], some ⟨some (), .properties tokyoMessage.topic.properties⟩⟩ ∧
      c2dProperties tokyoMessage.message.topic = some (text "%24.to=%2Fdevices%2Fsensor.tokyo&unit=C") := by
  have hfound : c2dProperties tokyoMessage.message.topic = some (text "%24.to=%2Fdevices%2Fsensor.tokyo&unit=C") := by
    decide +kernel
  have hother : text "%24.to=%2Fdevices%2Fsensor.tokyo&unit=C" ≠ tokyoMessage.topic.properties := by decide +kernel
  refine ⟨?_, hfound⟩
  rw [processC2dMessage, topicFrom_receive _ tokyoMessage.message (Nat.zero_le _), List.drop_zero, hfound]
  simpa using hother

end DeviceSample.Mqtt
