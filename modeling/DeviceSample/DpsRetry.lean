import DeviceSample.DpsRegister
import DeviceSample.JsonRoles
import DeviceSample.MqttNotify
import Mathlib.Data.List.Forall2

/-!
The polls of the provisioning client. An answer of status 202 names the operation to ask about next. Its
poll is made whether the operation was found or not, on a topic that is built in a local array.
-/

namespace DeviceSample.JsonUtils

open Base

/-- What jsmn does with a document and `n` tokens to fill: it gives the tokens of this document, or a
negative count if the document has more parts. -/
structure JsmnParse.Describes (jsmnParse : JsmnParse) (js : List Byte) (doc : Json) (n : Nat) : Prop where
  document : ∀ parsed, jsmnParse js n = some parsed → parsed.doc = doc
  refused : jsmnParse js n = none → n < doc.parts.length

/-- The members of an object, without those of the objects inside. -/
def memberList : Members → List (List Byte × Json)
  | .nil => []
  | .cons name value rest => (name, value) :: memberList rest

/-- The value of the first member of the document itself that has this name and a string as its value. -/
def memberString (s : List Byte) : Json → Option (List Byte)
  | .object members => (memberList members).findSome? (stringValue s)
  | _ => none

section members

variable {s v : List Byte} {doc : Json}

theorem mem_allMembers_of_mem_memberList {member : List Byte × Json} : ∀ {members : Members},
    member ∈ memberList members → member ∈ members.allMembers
  | .nil, hmem => absurd hmem List.not_mem_nil
  | .cons name value rest, hmem => by
      rw [Members.allMembers]
      rcases List.mem_cons.mp hmem with rfl | hrest
      · exact List.mem_cons_self
      · exact List.mem_cons_of_mem _ (List.mem_append_right _ (mem_allMembers_of_mem_memberList hrest))

theorem firstString_isSome_of_memberString (h : memberString s doc = some v) : (firstString s doc).isSome := by
  cases doc with
  | object members =>
      obtain ⟨member, hmember, hvalue⟩ := List.exists_of_findSome?_eq_some h
      rw [firstString, Json.allMembers, List.findSome?_isSome_iff]
      exact ⟨member, mem_allMembers_of_mem_memberList hmember, by rw [hvalue]; rfl⟩
  | null => cases h
  | bool b => cases h
  | number spelling => cases h
  | string raw => cases h
  | array items => cases h

/-- A member is a name with a string behind it. -/
theorem exists_firstPair_of_memberString (h : memberString s doc = some v) :
    ∃ before pair, FirstPair s doc before pair := by
  refine (firstPair_or_none s doc).resolve_right fun hnone => ?_
  have hsome := firstString_isSome_of_memberString h
  rw [firstString_eq_none hnone] at hsome
  cases hsome

/-- The empty text has no tokens. -/
theorem JsmnParse.tokens_nil (jsmnParse : JsmnParse) (n : Nat) : jsmnParse.tokens [] n = [] := by
  rw [JsmnParse.tokens]
  cases jsmnParse [] n with
  | none => rfl
  | some parsed => exact absurd rfl parsed.document.ne_nil

/-- The string that is found in a document, and none in one with too many parts. -/
theorem findString_describes {jsmnParse : JsmnParse} {js : List Byte} {n : Nat}
    (hparse : jsmnParse.Describes js doc n) : findString js s (jsmnParse.tokens js n) =
      if doc.parts.length ≤ n then
        ((adjacent doc.parts).find? fun pair => IsStringPair s pair).map fun pair => pair.2.spelling
      else none := by
  rw [JsmnParse.tokens]
  cases hparsed : jsmnParse js n with
  | none =>
      rw [if_neg (Nat.not_le.mpr (hparse.refused hparsed))]
      rfl
  | some parsed =>
      have hdoc := hparse.document parsed hparsed
      have hcount : doc.parts.length ≤ n := by
        rw [← hdoc, ← parsed.tokens_of.length_eq]
        exact parsed.length_le
      rw [if_pos hcount, findString_eq_findPart s parsed.tokens_of, hdoc, findPart_eq, Option.map_map]
      rfl

end members

end DeviceSample.JsonUtils

namespace DeviceSample.Dps

open Base JsonUtils Mqtt

/-- The size of `mqtt_publish_topic`. -/
def mqttPublishTopicSize : Nat := 256

/-- The name of the member with the operation. -/
def operationId : List Byte := text "operationId"

/-- An answer of status 202 with an interval, and the document in its payload. -/
structure RetryAnswer where
  message : Message
  doc : Json
  document : IsDocument message.payload doc
  status : topicStatus message.topic = some 202
  retry_after : strstr message.topic (text "retry-after=") ≠ none

/-- The poll is for this operation, and its topic was built in its array. -/
structure Retry.Asks (poll : Retry) (id : List Byte) : Prop where
  in_bounds : InBounds mqttPublishTopicSize poll.mqttPublishTopic
  topic : ∀ local' : Memory, (local'.run poll.mqttPublishTopic).IsString 0 (dpsStatusTopic ++ id)

/-- The polls for an answer: one for its operation, and none if it names none. -/
def PollsOperation (doc : Json) (polls : List Retry) : Prop :=
  match memberString operationId doc with
  | some id => ∃ poll, polls = [poll] ∧ poll.Asks id
  | none => polls = []

/-- What the lookup finds: the string behind the first one that is spelled like the name. A topic that
fills its buffer leaves no payload, and a document with too many parts no tokens. -/
def RetryAnswer.lookedUp (a : RetryAnswer) : Option (List Byte) :=
  if a.message.topic.length < 256 ∧ a.doc.parts.length ≤ 12 then
    ((adjacent a.doc.parts).find? fun pair => IsStringPair operationId pair).map fun pair => pair.2.spelling
  else none

/-- The lookup gets to the operation, and its topic has room in the array. -/
structure RetryAnswer.Reaches (a : RetryAnswer) (id : List Byte) : Prop where
  member : memberString operationId a.doc = some id
  first : if a.message.topic.length < 256 ∧ a.doc.parts.length ≤ 12 then
      ∃ before pair, FirstPair operationId a.doc before pair ∧ pair.2.spelling = id
    else id = []
  room : id.length ≤ 185

section asks

variable {poll : Retry} {id v : List Byte}

theorem dpsStatusTopic_length : dpsStatusTopic.length = 70 := by decide

theorem dpsStatusTopic_no_nul : 0 ∉ dpsStatusTopic := by decide

theorem statusTopic_inBounds : InBounds mqttPublishTopicSize (strncpy 0 dpsStatusTopic 256) := by
  rw [strncpy, inBounds_storesAt]
  refine Or.inr ⟨Int.le_refl 0, ?_⟩
  rw [List.length_append, List.length_take, List.length_replicate, dpsStatusTopic_length,
    mqttPublishTopicSize]
  omega

theorem statusTopic_isString (local' : Memory) :
    (local'.run (strncpy 0 dpsStatusTopic 256)).IsString 0 dpsStatusTopic :=
  strncpy_isString local' 0 (by rw [dpsStatusTopic_length]; omega) dpsStatusTopic_no_nul

/-- Without a lookup, the poll asks for the operation without a name. -/
theorem asks_iff_of_none (hpoll : poll.mqttPublishTopic = strncpy 0 dpsStatusTopic 256) :
    poll.Asks id ↔ id = [] := by
  constructor
  · intro h
    have hsame := (h.topic fun _ => 0).unique (hpoll ▸ statusTopic_isString _)
    exact List.append_right_eq_self.mp hsame
  · rintro rfl
    refine ⟨hpoll ▸ statusTopic_inBounds, fun local' => ?_⟩
    rw [hpoll, List.append_nil]
    exact statusTopic_isString local'

/-- With one, it asks for what was found, as far as the array goes. -/
theorem asks_iff_of_some (hv : 0 ∉ v)
    (hpoll : poll.mqttPublishTopic = strncpy 0 dpsStatusTopic 256 ++ storesAt dpsStatusTopic.length (v ++ [0])) :
    poll.Asks id ↔ v = id ∧ v.length ≤ 185 := by
  have hbounds : InBounds mqttPublishTopicSize poll.mqttPublishTopic ↔ v.length ≤ 185 := by
    rw [hpoll, inBounds_append, inBounds_storesAt, List.length_append, List.length_singleton,
      dpsStatusTopic_length, mqttPublishTopicSize]
    constructor
    · rintro ⟨-, hempty | ⟨-, hfits⟩⟩
      · exact absurd hempty (List.append_ne_nil_of_right_ne_nil _ (List.cons_ne_nil _ _))
      · omega
    · intro hroom
      exact ⟨statusTopic_inBounds, Or.inr ⟨by omega, by omega⟩⟩
  have htopic (local' : Memory) : (local'.run poll.mqttPublishTopic).IsString 0 (dpsStatusTopic ++ v) := by
    have hcopied := (statusTopic_isString local').append hv
    rw [Int.zero_add] at hcopied
    rw [hpoll, Memory.run_append]
    exact hcopied
  constructor
  · intro h
    have hsame := (htopic fun _ => 0).unique (h.topic _)
    exact ⟨List.append_cancel_left hsame, hbounds.mp h.in_bounds⟩
  · rintro ⟨rfl, hroom⟩
    exact ⟨hbounds.mpr hroom, htopic⟩

end asks

section receipt

variable (jsmnParse : JsmnParse) (m : Memory) (a : RetryAnswer)

theorem topicStatus_split {topic : List Byte} {n : Int} (h : topicStatus topic = some n) :
    ∃ rest, topic = dpsRegisterBase ++ text "/" ++ rest ∧ atoi rest = n := by
  rw [topicStatus, Option.ite_none_right_eq_some, List.isPrefixOf_iff_prefix] at h
  obtain ⟨⟨rest, rfl⟩, hstatus⟩ := h
  refine ⟨rest, rfl, ?_⟩
  have hlength : dpsRegisterBase.length + 1 = (dpsRegisterBase ++ text "/").length := by decide
  rw [hlength, List.drop_left, Option.some.injEq] at hstatus
  exact hstatus

/-- The callback takes the branch of status 202. -/
theorem RetryAnswer.branch :
    strstr (topicText (receive m a.message.topic a.message.payload)) dpsRegisterBase ≠ none ∧
      msgStatus (receive m a.message.topic a.message.payload) = 202 := by
  obtain ⟨rest, htopic, hnumber⟩ := topicStatus_split a.status
  have hseen := receive_topic m a.message.payload a.message.topic_no_nul a.message.topic_fits
  have hlength : dpsRegisterBase.length + 1 = (dpsRegisterBase ++ text "/").length := by decide
  constructor
  · rw [topicText_receive, htopic, Ne, strstr_eq_none_iff, List.append_assoc]
    exact fun h => h (List.prefix_append _ _).isInfix
  · have hwithin : dpsRegisterBase.length + 1 ≤ a.message.topic.length := by
      rw [htopic, hlength]
      exact (List.prefix_append _ rest).length_le
    have hbehind := hseen.drop hwithin
    have hrest : rest.length ≤ 745 := by
      have hfits := a.message.topic_fits
      have hsize : mqttReceiveTopicBuffer.size = 256 := rfl
      rw [htopic, List.length_append] at hfits
      omega
    rw [msgStatus, hbehind.readString, htopic, hlength, List.drop_left, List.take_of_length_le hrest, hnumber]

/-- The document is read from its buffer, unless the topic ends there. -/
theorem RetryAnswer.seen :
    (receive m a.message.topic a.message.payload).IsString mqttReceiveMessageBuffer.place
      (if a.message.topic.length < 256 then a.message.payload else []) := by
  by_cases hroom : a.message.topic.length < 256
  · rw [if_pos hroom]
    exact receive_message a.message.payload_no_nul hroom
  · have hfull : a.message.topic.length = 256 :=
      Nat.le_antisymm a.message.topic_fits (Nat.not_lt.mp hroom)
    rw [if_neg hroom]
    show receive m a.message.topic a.message.payload mqttReceiveMessageBuffer.place = 0
    rw [receive, Memory.store, Memory.store, hfull, topicBuffer_place, messageBuffer_place]
    simp

/-- The lookup of the callback. -/
theorem RetryAnswer.lookup (hparse : jsmnParse.Describes a.message.payload a.doc 12) :
    (findJsonString (receive m a.message.topic a.message.payload) mqttReceiveMessageBuffer.place operationId
      dpsStatusTopic.length (jsmnParse.tokens (messageText (receive m a.message.topic a.message.payload)) 12)).1 =
      match a.lookedUp with
      | some v => storesAt dpsStatusTopic.length (v ++ [0])
      | none => [] := by
  have hseen := a.seen m
  have htext : messageText (receive m a.message.topic a.message.payload) =
      if a.message.topic.length < 256 then a.message.payload else [] := by
    rw [messageText, hseen.readString, List.take_of_length_le]
    split
    · exact a.message.payload_fits
    · exact Nat.zero_le _
  rw [findJsonString_eq operationId _ hseen (htext ▸ jsmnParse.tokens_within _ 12), htext]
  have hfind : findString (if a.message.topic.length < 256 then a.message.payload else []) operationId
      (jsmnParse.tokens (if a.message.topic.length < 256 then a.message.payload else []) 12) = a.lookedUp := by
    rw [RetryAnswer.lookedUp]
    by_cases hroom : a.message.topic.length < 256
    · simp only [hroom, if_true, true_and]
      exact findString_describes hparse
    · simp only [hroom, if_false, false_and, jsmnParse.tokens_nil]
      rfl
  rw [hfind]
  cases a.lookedUp with
  | none => rfl
  | some v => rfl

theorem RetryAnswer.lookedUp_no_nul (hparse : jsmnParse.Describes a.message.payload a.doc 12) {v : List Byte}
    (hv : a.lookedUp = some v) : 0 ∉ v := by
  rw [RetryAnswer.lookedUp, Option.ite_none_right_eq_some] at hv
  obtain ⟨⟨-, hcount⟩, hv⟩ := hv
  have hfind := findString_describes (s := operationId) hparse
  rw [if_pos hcount, hv] at hfind
  exact fun hmem => a.message.payload_no_nul ((findString_piece hfind).subset hmem)

/-- Its one poll. -/
theorem RetryAnswer.polls (s : State) (hparse : jsmnParse.Describes a.message.payload a.doc 12) :
    ∃ poll : Retry,
      (mqttNotifyCb jsmnParse s (.message a.message.topic a.message.payload)).retries = s.retries ++ [poll] ∧
        poll.mqttPublishTopic = strncpy 0 dpsStatusTopic 256 ++
          match a.lookedUp with
          | some v => storesAt dpsStatusTopic.length (v ++ [0])
          | none => [] := by
  obtain ⟨hbase, hstatus⟩ := a.branch s.memory
  have hretry := a.retry_after
  rw [mqttNotifyCb, if_neg hbase, if_pos hstatus, processRetry, topicText_receive]
  cases hfound : strstr a.message.topic (text "retry-after=") with
  | none => exact absurd hfound hretry
  | some found => exact ⟨_, rfl, congrArg (strncpy 0 dpsStatusTopic 256 ++ ·) (a.lookup jsmnParse s.memory hparse)⟩

/-- The poll asks for the operation exactly if the lookup gets to it. -/
theorem RetryAnswer.asks_iff_reaches (hparse : jsmnParse.Describes a.message.payload a.doc 12) {poll : Retry}
    (hpoll : poll.mqttPublishTopic = strncpy 0 dpsStatusTopic 256 ++
      match a.lookedUp with
      | some v => storesAt dpsStatusTopic.length (v ++ [0])
      | none => [])
    {id : List Byte} (hmember : memberString operationId a.doc = some id) : poll.Asks id ↔ a.Reaches id := by
  by_cases hread : a.message.topic.length < 256 ∧ a.doc.parts.length ≤ 12
  · obtain ⟨before, pair, hfirst⟩ := exists_firstPair_of_memberString hmember
    have hlookedUp : a.lookedUp = some pair.2.spelling := by
      rw [RetryAnswer.lookedUp, if_pos hread, hfirst.find]
      rfl
    have hnul := a.lookedUp_no_nul jsmnParse hparse hlookedUp
    rw [hlookedUp] at hpoll
    rw [asks_iff_of_some hnul hpoll]
    constructor
    · rintro ⟨rfl, hroom⟩
      exact ⟨hmember, by rw [if_pos hread]; exact ⟨before, pair, hfirst, rfl⟩, hroom⟩
    · rintro ⟨-, hreached, hroom⟩
      rw [if_pos hread] at hreached
      obtain ⟨before', pair', hfirst', hid⟩ := hreached
      have hpair : pair = pair' := Option.some.inj (hfirst.find.symm.trans hfirst'.find)
      rw [hpair, hid]
      exact ⟨rfl, hroom⟩
  · have hlookedUp : a.lookedUp = none := by
      rw [RetryAnswer.lookedUp, if_neg hread]
    rw [hlookedUp] at hpoll
    rw [asks_iff_of_none (hpoll.trans (List.append_nil _))]
    constructor
    · rintro rfl
      exact ⟨hmember, by rw [if_neg hread], Nat.zero_le _⟩
    · intro hreaches
      have hempty := hreaches.first
      rwa [if_neg hread] at hempty

end receipt

/-- **An answer of status 202 leads to the one poll of its operation, or to none, exactly if it names an
operation, the lookup gets to it, and the array has room for it**, for all topics and documents that fit
the receive buffers and all states of the client. -/
theorem mqttNotifyCb_polls_iff (jsmnParse : JsmnParse) (s : State) (a : RetryAnswer)
    (hparse : jsmnParse.Describes a.message.payload a.doc 12) :
    ∃ polls : List Retry,
      (mqttNotifyCb jsmnParse s (.message a.message.topic a.message.payload)).retries = s.retries ++ polls ∧
        (PollsOperation a.doc polls ↔ ∃ id, a.Reaches id) := by
  obtain ⟨poll, hretries, hpoll⟩ := a.polls jsmnParse s hparse
  refine ⟨[poll], hretries, ?_⟩
  rw [PollsOperation]
  cases hmember : memberString operationId a.doc with
  | none =>
      refine iff_of_false (List.cons_ne_nil _ _) ?_
      rintro ⟨id, hreaches⟩
      exact Option.some_ne_none id (hreaches.member.symm.trans hmember)
  | some id =>
      have hasks := a.asks_iff_reaches jsmnParse hparse hpoll hmember
      constructor
      · rintro ⟨poll', hone, h⟩
        rw [List.singleton_inj] at hone
        exact ⟨id, hasks.mp (hone ▸ h)⟩
      · rintro ⟨id', hreaches⟩
        have hsame : id' = id := Option.some.inj (hreaches.member.symm.trans hmember)
        exact ⟨poll, rfl, hasks.mpr (hsame ▸ hreaches)⟩

/-- A jsmn that gives these tokens for their text; the parse of other texts is left out. -/
def parseOf {js : List Byte} {n : Nat} (parsed : Tokenised js n) : JsmnParse := fun js' n' =>
  if h : js' = js ∧ n ≤ n' then
    some
      { tokens := parsed.tokens
        doc := parsed.doc
        length_le := Nat.le_trans parsed.length_le h.2
        document := h.1 ▸ parsed.document
        tokens_of := h.1 ▸ parsed.tokens_of }
  else none

theorem parseOf_describes {js : List Byte} {n : Nat} (parsed : Tokenised js n) :
    (parseOf parsed).Describes js parsed.doc n := by
  constructor
  · intro found hfound
    rw [parseOf, dif_pos ⟨rfl, Nat.le_refl n⟩, Option.some.injEq] at hfound
    rw [← hfound]
  · intro hnone
    rw [parseOf, dif_pos ⟨rfl, Nat.le_refl n⟩] at hnone
    cases hnone

/-- The topic of an answer of status 202. -/
def retryTopic : List Byte := text "$dps/registrations/res/202/?$rid=1&retry-after=3"

theorem retryTopic_status : topicStatus retryTopic = some 202 := by decide +kernel

theorem retryTopic_retry_after : strstr retryTopic (text "retry-after=") ≠ none := by decide +kernel

/-- An answer on this topic. -/
def retryMessage (payload : List Byte) (hpayload : 0 ∉ payload) (hfits : payload.length ≤ 512) : Message where
  topic := retryTopic
  payload := payload
  topic_no_nul := by decide
  payload_no_nul := hpayload
  topic_fits := by decide
  payload_fits := hfits

/-- An answer with an operation. -/
def assigningAnswer : List Byte := text "\x7b\"operationId\":\"4.d0\",\"status\":\"assigning\"\x7d"

def assigningParsed : Tokenised assigningAnswer 12 where
  tokens := [⟨.object, 0, 43⟩, ⟨.string, 2, 13⟩, ⟨.string, 16, 20⟩, ⟨.string, 23, 29⟩, ⟨.string, 32, 41⟩]
  doc := .object (.cons (text "operationId") (.string (text "4.d0"))
    (.cons (text "status") (.string (text "assigning")) .nil))
  length_le := by decide
  document := by
    have hanswer : assigningAnswer = text "\x7b" ++ (quoted (text "operationId") ++ text ":" ++
        quoted (text "4.d0") ++ text "," ++ quoted (text "status") ++ text ":" ++ quoted (text "assigning")) ++
          text "\x7d" := by decide +kernel
    rw [hanswer]
    exact isDocument_twoStrings (by decide +kernel) (by decide +kernel) (by decide +kernel) (by decide +kernel)
  tokens_of := by
    refine .cons ?_ (.cons ?_ (.cons ?_ (.cons ?_ (.cons ?_ .nil))))
    all_goals exact ⟨rfl, by decide +kernel, by decide +kernel⟩

def assigning : RetryAnswer where
  message := retryMessage assigningAnswer (by decide) (by decide)
  doc := assigningParsed.doc
  document := assigningParsed.document
  status := retryTopic_status
  retry_after := retryTopic_retry_after

/-- Its operation is asked about. -/
theorem assigning_polls : (parseOf assigningParsed).Describes assigning.message.payload assigning.doc 12 ∧
    ∃ polls : List Retry, (mqttNotifyCb (parseOf assigningParsed) (machine (parseOf assigningParsed) fun _ => 0).start
      (.message assigning.message.topic assigning.message.payload)).retries = polls ∧
        PollsOperation assigning.doc polls := by
  have hparse : (parseOf assigningParsed).Describes assigning.message.payload assigning.doc 12 :=
    parseOf_describes assigningParsed
  obtain ⟨polls, hretries, hiff⟩ := mqttNotifyCb_polls_iff (parseOf assigningParsed)
    (machine (parseOf assigningParsed) fun _ => 0).start assigning hparse
  refine ⟨hparse, polls, hretries, hiff.mpr ⟨text "4.d0", by decide +kernel, ?_, by decide⟩⟩
  rw [if_pos (by decide +kernel)]
  refine ⟨[(⟨.object, []⟩, ⟨.name, operationId⟩)], (⟨.name, operationId⟩, ⟨.string, text "4.d0"⟩), ?_, rfl⟩
  exact ⟨⟨_, rfl⟩, ⟨rfl, rfl, rfl⟩, by decide⟩

/-- An answer without an operation. -/
def emptyAnswer : List Byte := text "\x7b\x7d"

def emptyParsed : Tokenised emptyAnswer 12 where
  tokens := [⟨.object, 0, 2⟩]
  doc := .object .nil
  length_le := by decide
  document := ⟨[], _, [], fun _ hc => absurd hc List.not_mem_nil, fun _ hc => absurd hc List.not_mem_nil,
    .object (.none fun _ hc => absurd hc List.not_mem_nil), rfl⟩
  tokens_of := .cons ⟨rfl, by decide +kernel, fun h => JsmnType.noConfusion h⟩ .nil

def unnamed : RetryAnswer where
  message := retryMessage emptyAnswer (by decide) (by decide)
  doc := emptyParsed.doc
  document := emptyParsed.document
  status := retryTopic_status
  retry_after := retryTopic_retry_after

/-- A poll is made for it. -/
theorem unnamed_polled : (parseOf emptyParsed).Describes unnamed.message.payload unnamed.doc 12 ∧
    ¬PollsOperation unnamed.doc (mqttNotifyCb (parseOf emptyParsed) (machine (parseOf emptyParsed) fun _ => 0).start
      (.message unnamed.message.topic unnamed.message.payload)).retries := by
  have hparse : (parseOf emptyParsed).Describes unnamed.message.payload unnamed.doc 12 :=
    parseOf_describes emptyParsed
  obtain ⟨poll, hretries, -⟩ := unnamed.polls (parseOf emptyParsed)
    (machine (parseOf emptyParsed) fun _ => 0).start hparse
  refine ⟨hparse, ?_⟩
  rw [hretries]
  exact List.cons_ne_nil _ _

end DeviceSample.Dps
