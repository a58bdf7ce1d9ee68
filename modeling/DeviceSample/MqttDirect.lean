import DeviceSample.BasePrint
import DeviceSample.BaseProtocol
import DeviceSample.DpsMqtt

/-!
Direct methods of the MQTT client. The parse of a topic copies the name into a local array and the
request id into a field of six bytes, and the answer prints that field as a C string.
-/

namespace DeviceSample.Mqtt

open Base Dps

/-- `DIRECT_METHOD_RECEIVE`. -/
def directMethodReceive : List Byte := text "$iothub/methods/POST/"

/-- The size of the local array `direct_method_name`. -/
def directMethodNameSize : Nat := 64

/-- The stack from `direct_method_name` on, when the array is initialised. -/
def zeroedName (stack : Memory) : Memory := fun place =>
  if 0 ≤ place ∧ place < directMethodNameSize then 0 else stack place

/-- What `process_direct_method` does: its stores from `direct_method_name` on, its stores into the
structure, and the stack that the callback sees behind its argument, if it is called. -/
structure DirectMethod where
  nameStores : List Store
  ridStores : List Store
  invoked : Option Memory

/-- `process_direct_method`, with `stack` behind its local array. -/
def processDirectMethod (registered : Bool) (stack m : Memory) : DirectMethod :=
  let location := m.readString (mqttReceiveTopicBuffer.place + (directMethodReceive.length : Nat))
    mqttReceiveTopicBuffer.size
  match strchr (ascii '/') location with
  | none => ⟨[], [], none⟩
  | some found =>
      let nameStores := strncpy 0 location (location.length - found.length)
      match strstr found (text "$rid=") with
      | none => ⟨nameStores, [], none⟩
      | some found =>
          { nameStores := nameStores
            ridStores := strncpy directCommandRequestId.place (found.drop 5) directCommandRequestId.size
            invoked := if registered then some ((zeroedName stack).run nameStores) else none }

/-- A publication: its topic and its message. -/
structure Publication where
  topic : List Byte
  message : List Byte
  deriving DecidableEq, Repr

/-- `DIRECT_METHOD_RESPONSE` in an array of 100 bytes. The print needs no more than 100 characters of
the field, however far the string in it goes. -/
def azureIotMqttRespondDirectMethod (m : Memory) (response : BitVec 32) : Publication where
  topic := snprintfText 100 (text "$iothub/methods/res/" ++ signedDecimal response.toInt ++
    text "/?$rid=" ++ m.readString directCommandRequestId.place 100)
  message := text "\x7b\x7d"

/-- A direct-method message, the status that the callback answers with, and what the stack holds when
it is parsed. -/
structure MethodCall where
  name : List Byte
  rid : List Byte
  payload : List Byte
  response : BitVec 32
  stack : Memory
  name_plain : ascii '/' ∉ name
  name_no_nul : 0 ∉ name
  rid_no_nul : 0 ∉ rid
  topic_fits : 28 + name.length + rid.length ≤ mqttReceiveTopicBuffer.size
  payload_fits : payload.length ≤ mqttReceiveMessageBuffer.size

/-- The topic of the message. -/
def MethodCall.topic (c : MethodCall) : List Byte :=
  directMethodReceive ++ c.name ++ text "/?$rid=" ++ c.rid

/-- A message that has been handled, with the structure before it. -/
structure Handled where
  before : Memory
  call : MethodCall

namespace Handled

/-- The branch of direct methods in `mqtt_notify_cb`; the callback is registered. -/
def parsed (x : Handled) : DirectMethod :=
  let m := receive x.before x.call.topic x.call.payload
  if strstr (topicText m) directMethodReceive = none then ⟨[], [], none⟩
  else processDirectMethod true x.call.stack m

/-- The structure behind the parse. -/
def memory (x : Handled) : Memory :=
  (receive x.before x.call.topic x.call.payload).run x.parsed.ridStores

/-- The answer that the callback gives, if it is called. -/
def answer (x : Handled) : Option Publication :=
  x.parsed.invoked.map fun _ => azureIotMqttRespondDirectMethod x.memory x.call.response

/-- The callback receives the name, the answer carries the request id, and the parse stores nothing
outside the two arrays. -/
structure Answered (x : Handled) : Prop where
  name_received : ∃ stack, x.parsed.invoked = some stack ∧ stack.IsString 0 x.call.name
  rid_returned : x.answer = some
    { topic := text "$iothub/methods/res/" ++ decimal x.call.response.toNat ++ text "/?$rid=" ++ x.call.rid
      message := text "\x7b\x7d" }
  name_inBounds : InBounds directMethodNameSize x.parsed.nameStores
  rid_inBounds : ∀ s ∈ x.parsed.ridStores, directCommandRequestId.Has s.place

end Handled

/-- Messages that the client handles one after the other. -/
def methodCalls : Loop Memory MethodCall Handled where
  round m call := ⟨m, call⟩
  state := Handled.memory
  more _ := true

/-- The name leaves room for a terminator, or finds one behind its array; the status is no negative
number for `%d`; and the request id leaves room for a terminator, or `mqtt_username` behind the field
goes on as the id does, as far as the topic has room for it. -/
structure MethodCall.Fits (c : MethodCall) (m : Memory) : Prop where
  name_fits : c.name.length ≤ 63 ∨ c.name.length = 64 ∧ c.stack 64 = 0
  response_fits : c.response.toNat < 2 ^ 31
  rid_fits : c.rid.length ≤ 5 ∨ m.readString mqttUsername.place
    (66 - (decimal c.response.toNat).length) = c.rid.drop 6

section parsing

variable (c : MethodCall)

theorem MethodCall.topic_no_nul : 0 ∉ c.topic := by
  have hbase : 0 ∉ directMethodReceive := by decide
  have hmiddle : 0 ∉ text "/?$rid=" := by decide
  simp only [MethodCall.topic, List.mem_append, not_or]
  exact ⟨⟨⟨hbase, c.name_no_nul⟩, hmiddle⟩, c.rid_no_nul⟩

theorem MethodCall.topic_length : c.topic.length = 28 + c.name.length + c.rid.length := by
  have hbase : directMethodReceive.length = 21 := rfl
  have hmiddle : (text "/?$rid=").length = 7 := rfl
  simp only [MethodCall.topic, List.length_append, hbase, hmiddle]
  omega

/-- The parse finds the name and the request id of the topic. -/
theorem Handled.parsed_eq (x : Handled) : x.parsed =
    { nameStores := storesAt 0 x.call.name
      ridStores := strncpy directCommandRequestId.place x.call.rid directCommandRequestId.size
      invoked := some ((zeroedName x.call.stack).run (storesAt 0 x.call.name)) } := by
  obtain ⟨before, c⟩ := x
  have hlength := c.topic_length
  have hfits : c.topic.length ≤ 256 := hlength ▸ c.topic_fits
  have htopic := receive_topic before c.payload c.topic_no_nul hfits
  have hsplit : c.topic = directMethodReceive ++ (c.name ++ ascii '/' :: (text "?$rid=" ++ c.rid)) := by
    simp [MethodCall.topic, text]
  have hseen : strstr (topicText (receive before c.topic c.payload)) directMethodReceive ≠ none := by
    rw [topicText, htopic.readString, List.take_of_length_le hfits, hsplit, strstr_append]
    exact Option.some_ne_none _
  have hlocation : (receive before c.topic c.payload).readString
      (mqttReceiveTopicBuffer.place + (directMethodReceive.length : Nat)) mqttReceiveTopicBuffer.size =
        c.name ++ ascii '/' :: (text "?$rid=" ++ c.rid) := by
    have hbase : directMethodReceive.length ≤ c.topic.length := by
      rw [hsplit, List.length_append]
      exact Nat.le_add_right _ _
    have hdrop : c.topic.drop directMethodReceive.length =
        c.name ++ ascii '/' :: (text "?$rid=" ++ c.rid) := by
      rw [hsplit, List.drop_left]
    rw [(htopic.drop hbase).readString, hdrop, List.take_of_length_le]
    rw [hsplit, List.length_append] at hfits
    exact Nat.le_of_add_left_le hfits
  have hname : strncpy 0 (c.name ++ ascii '/' :: (text "?$rid=" ++ c.rid)) c.name.length =
      storesAt 0 c.name := by
    simp [strncpy]
  have hrid : strstr (ascii '/' :: (text "?$rid=" ++ c.rid)) (text "$rid=") =
      some (text "$rid=" ++ c.rid) := by
    have hdollar : ascii '$' ≠ ascii '/' := by decide
    have hquestion : ascii '$' ≠ ascii '?' := by decide
    exact (strstr_cons_of_ne _ _ hdollar).trans
      ((strstr_cons_of_ne _ _ hquestion).trans (strstr_append _ _))
  have hcopied : (c.name ++ ascii '/' :: (text "?$rid=" ++ c.rid)).length -
      (ascii '/' :: (text "?$rid=" ++ c.rid)).length = c.name.length := by
    rw [List.length_append, Nat.add_sub_cancel]
  rw [Handled.parsed, if_neg hseen, processDirectMethod]
  simp only [hlocation, strchr_append _ c.name_plain, hcopied, hname, hrid, if_true]
  rfl

/-- The callback sees the name, and its copy stays in its array, when the name has room or a NUL
stands behind the array. -/
theorem name_received_iff : ((zeroedName c.stack).run (storesAt 0 c.name)).IsString 0 c.name ∧
    InBounds directMethodNameSize (storesAt 0 c.name) ↔
      c.name.length ≤ 63 ∨ c.name.length = 64 ∧ c.stack 64 = 0 := by
  have hsize : directMethodNameSize = 64 := rfl
  rw [Memory.isString_run_storesAt _ _ c.name_no_nul, inBounds_storesAt, Int.zero_add, hsize, zeroedName, hsize]
  constructor
  · rintro ⟨hend, hempty | ⟨-, hlast⟩⟩
    · rw [hempty]
      exact Or.inl (Nat.zero_le _)
    · rcases Nat.lt_or_ge c.name.length 64 with hless | hfull
      · exact Or.inl (Nat.le_of_lt_succ hless)
      · have hlength : c.name.length = 64 := by omega
        rw [hlength] at hend
        exact Or.inr ⟨hlength, hend⟩
  · rintro (hless | ⟨hlength, hnul⟩)
    · refine ⟨if_pos ⟨by omega, by omega⟩, Or.inr ⟨Int.le_refl _, by omega⟩⟩
    · rw [hlength]
      exact ⟨hnul, Or.inr ⟨Int.le_refl _, Int.le_refl _⟩⟩

end parsing

section answering

/-- Reading on up to `n` characters and keeping `k` of them. -/
theorem take_readString (m : Memory) (place : Int) {k n : Nat} (hk : k ≤ n) :
    (m.readString place n).take k = m.readString place k := by
  induction k generalizing n place with
  | zero => rfl
  | succ k ih =>
      obtain ⟨n, rfl⟩ : ∃ n', n = n' + 1 := ⟨n - 1, by omega⟩
      rw [Memory.readString, Memory.readString]
      split
      · rfl
      · rw [List.take_succ_cons, ih _ (Nat.le_of_succ_le_succ hk)]

/-- What the print reads in the field. -/
theorem rid_read_iff (m : Memory) {rid : List Byte} (hrid : 0 ∉ rid) {k : Nat} (hfirst : 6 ≤ k)
    (hlast : k ≤ 100) :
    ((m.run (strncpy directCommandRequestId.place rid directCommandRequestId.size)).readString
        directCommandRequestId.place 100).take k = rid ↔
      rid.length ≤ 5 ∨ m.readString mqttUsername.place (k - 6) = rid.drop 6 := by
  have hsize : directCommandRequestId.size = 6 := rfl
  rw [take_readString _ _ hlast, hsize]
  rcases Nat.lt_or_ge rid.length 6 with hshort | hlong
  · have hstring := strncpy_isString m directCommandRequestId.place hshort hrid
    rw [hstring.readString, List.take_of_length_le (by omega)]
    exact ⟨fun _ => Or.inl (Nat.le_of_lt_succ hshort), fun _ => rfl⟩
  · have hlength : (rid.take 6).length = 6 := by rw [List.length_take]; omega
    have hstores : strncpy directCommandRequestId.place rid 6 =
        storesAt directCommandRequestId.place (rid.take 6) := by
      rw [strncpy, Nat.sub_eq_zero_of_le hlong, List.replicate_zero, List.append_nil]
    have hread := Memory.readString_run_storesAt m directCommandRequestId.place
      (fun hmem => hrid (List.mem_of_mem_take hmem) : 0 ∉ rid.take 6) (k - 6)
    rw [hlength, Nat.add_sub_cancel' hfirst] at hread
    rw [hstores, hread]
    have hplace : directCommandRequestId.place + ((6 : Nat) : Int) = mqttUsername.place := rfl
    rw [hplace]
    constructor
    · intro h
      refine Or.inr (List.append_cancel_left (h.trans ?_))
      exact (List.take_append_drop 6 rid).symm
    · intro h
      rw [h.resolve_left (by omega), List.take_append_drop]

/-- The stores of a copy are at places of its array. -/
theorem place_of_mem_storesAt {place : Int} {xs : List Byte} {s : Store} (h : s ∈ storesAt place xs) :
    place ≤ s.place ∧ s.place < place + xs.length := by
  induction xs generalizing place with
  | nil => cases h
  | cons x xs ih =>
      rw [List.length_cons]
      rcases List.mem_cons.mp h with rfl | hmem
      · exact ⟨Int.le_refl _, show place < place + _ by omega⟩
      · have hlater := ih hmem
        omega

theorem rid_stores_inBounds (rid : List Byte) :
    ∀ s ∈ strncpy directCommandRequestId.place rid directCommandRequestId.size,
      directCommandRequestId.Has s.place := by
  intro s hs
  have hplace := place_of_mem_storesAt hs
  rw [List.length_append, List.length_take, List.length_replicate] at hplace
  exact ⟨hplace.1, by omega⟩

/-- The topic of the answer has the request id exactly if `%d` prints the status as it is and what is
read of the field, as far as there is room for it, is the id. -/
theorem respond_topic_iff (m : Memory) (response : BitVec 32) (rid : List Byte) :
    (azureIotMqttRespondDirectMethod m response).topic =
        text "$iothub/methods/res/" ++ decimal response.toNat ++ text "/?$rid=" ++ rid ↔
      response.toNat < 2 ^ 31 ∧ (m.readString directCommandRequestId.place 100).take
        (72 - (decimal response.toNat).length) = rid := by
  have hbase : (text "$iothub/methods/res/").length = 20 := rfl
  have hmiddle : (text "/?$rid=").length = 7 := rfl
  have hdigits : (decimal response.toNat).length ≤ 10 :=
    decimal_length_le (by decide) (Nat.lt_trans response.isLt (by decide))
  rw [azureIotMqttRespondDirectMethod, snprintfText]
  rcases Nat.lt_or_ge response.toNat (2 ^ 31) with hsmall | hlarge
  · have hvalue : response.toInt = response.toNat := BitVec.toInt_eq_toNat_of_lt (by omega)
    have hprinted : signedDecimal response.toInt = decimal response.toNat := by
      rw [hvalue, signedDecimal, if_neg (by omega), Int.natAbs_natCast]
    have hroom : 100 - 1 = (text "$iothub/methods/res/" ++ decimal response.toNat ++
        text "/?$rid=").length + (72 - (decimal response.toNat).length) := by
      rw [List.length_append, List.length_append, hbase, hmiddle]
      omega
    rw [hprinted, hroom, List.take_length_add_append, List.append_right_inj]
    exact ⟨fun h => ⟨hsmall, h⟩, And.right⟩
  · have hnegative : response.toInt < 0 := by
      rw [BitVec.toInt_eq_toNat_cond, if_neg (by omega)]
      omega
    have hprinted : signedDecimal response.toInt = ascii '-' :: decimal response.toInt.natAbs := if_pos hnegative
    have hroom : 100 - 1 = (text "$iothub/methods/res/").length + 79 := rfl
    refine ⟨fun h => ?_, fun h => absurd h.1 (by omega)⟩
    rw [hprinted, hroom, List.append_assoc, List.append_assoc, List.append_assoc, List.append_assoc,
      List.take_length_add_append, List.append_right_inj] at h
    -- a minus sign is no decimal digit
    cases hdecimal : decimal response.toNat with
    | nil => exact absurd hdecimal (decimal_ne_nil _)
    | cons digit digits =>
        rw [hdecimal] at h
        have hdigit : isDigit digit = true := isDigit_of_mem_decimal (hdecimal ▸ List.mem_cons_self)
        rw [← (List.cons.inj h).1] at hdigit
        exact absurd hdigit (by decide)

end answering

/-- The answer of a message that has been parsed. -/
theorem Handled.answer_iff (x : Handled) :
    x.answer = some
        { topic := text "$iothub/methods/res/" ++ decimal x.call.response.toNat ++ text "/?$rid=" ++ x.call.rid
          message := text "\x7b\x7d" } ↔
      x.call.response.toNat < 2 ^ 31 ∧ (x.call.rid.length ≤ 5 ∨ x.before.readString mqttUsername.place
        (66 - (decimal x.call.response.toNat).length) = x.call.rid.drop 6) := by
  have hdigits : (decimal x.call.response.toNat).length ≤ 10 :=
    decimal_length_le (by decide) (Nat.lt_trans x.call.response.isLt (by decide))
  have hmemory : x.memory = (receive x.before x.call.topic x.call.payload).run
      (strncpy directCommandRequestId.place x.call.rid directCommandRequestId.size) := by
    rw [Handled.memory, x.parsed_eq]
  have husername : (receive x.before x.call.topic x.call.payload).readString mqttUsername.place
      (72 - (decimal x.call.response.toNat).length - 6) = x.before.readString mqttUsername.place
        (66 - (decimal x.call.response.toNat).length) := by
    rw [Nat.sub_right_comm]
    apply Memory.readString_congr
    intro place _ hlast
    have hplace : mqttUsername.place = 202 := rfl
    exact receive_outside _ _ _ (by omega)
  have hread := rid_read_iff (receive x.before x.call.topic x.call.payload) x.call.rid_no_nul
    (k := 72 - (decimal x.call.response.toNat).length) (by omega) (by omega)
  rw [husername, ← hmemory] at hread
  rw [← hread, ← respond_topic_iff, Handled.answer, x.parsed_eq, Option.map_some, Option.some.injEq]
  exact ⟨fun h => congrArg Publication.topic h, fun h => by rw [← h]; rfl⟩

/-- A message is answered exactly if it fits. -/
theorem Handled.answered_iff (x : Handled) : x.Answered ↔ x.call.Fits x.before := by
  have hparsed := x.parsed_eq
  constructor
  · intro h
    obtain ⟨stack, hinvoked, hname⟩ := h.name_received
    have hinBounds := h.name_inBounds
    rw [hparsed] at hinvoked hinBounds
    cases hinvoked
    obtain ⟨hresponse, hrid⟩ := x.answer_iff.mp h.rid_returned
    exact ⟨(name_received_iff x.call).mp ⟨hname, hinBounds⟩, hresponse, hrid⟩
  · intro h
    obtain ⟨hname, hinBounds⟩ := (name_received_iff x.call).mpr h.name_fits
    refine ⟨⟨_, ?_, hname⟩, x.answer_iff.mpr ⟨h.response_fits, h.rid_fits⟩, ?_, ?_⟩
    · rw [hparsed]
    · rw [hparsed]
      exact hinBounds
    · rw [hparsed]
      exact rid_stores_inBounds x.call.rid

/-- **Direct methods are answered with their request ids exactly if each message fits**, for all
sequences of messages and any content of the structure and the stack. -/
theorem methodCalls_answered_iff (m : Memory) (calls : List MethodCall) :
    (∀ x ∈ methodCalls.rounds m calls, x.Answered) ↔
      ∀ x ∈ methodCalls.rounds m calls, x.call.Fits x.before :=
  Loop.forall_rounds_iff (fun _ => True) _ _ (fun m call _ => Handled.answered_iff ⟨m, call⟩)
    (fun _ _ _ _ _ => trivial) calls trivial

/-- A call with a request id of six characters. -/
def sixDigitCall : MethodCall where
  name := text "reboot"
  rid := text "123456"
  payload := []
  response := 200
  stack := fun _ => 0
  name_plain := by decide
  name_no_nul := by decide
  rid_no_nul := by decide
  topic_fits := by decide
  payload_fits := by decide

/-- The answer to a request id of six characters goes on with the user name behind its field. -/
theorem sixDigitCall_not_answered :
    ¬∀ x ∈ methodCalls.rounds (Memory.run (fun _ => 0) (storesAt mqttUsername.place (text "hub/board")))
      [sixDigitCall], x.Answered := by
  intro h
  have hfits := (Handled.answered_iff _).mp (h _ List.mem_cons_self)
  rcases hfits.rid_fits with hshort | hread
  · exact absurd hshort (by decide)
  · exact absurd hread (by decide)

end DeviceSample.Mqtt
