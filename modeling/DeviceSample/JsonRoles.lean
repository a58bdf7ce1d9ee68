import DeviceSample.JsonUtils

/-!
The lookup of strings against the members of the document. It looks at neighbours in the token list
only, and so takes a string for a name wherever a string follows it.
-/

namespace DeviceSample.JsonUtils

open Base

/-- The `i` of the loop of `findJsonString` when it returns `true`: the token that is taken for the key. -/
def keyIndex (m : Memory) (json : Int) (s : List Byte) : List JsmnTok → Option Nat
  | t :: u :: rest =>
      if t.type = .string ∧ u.type = .string ∧ s.length = t.stop - t.start ∧
          m.readString (json + t.start) (t.stop - t.start) = s then
        some 0
      else
        (keyIndex m json s (u :: rest)).map (· + 1)
  | _ => none

/-- The value of a member with this name, if it is a string. -/
def stringValue (s : List Byte) : List Byte × Json → Option (List Byte)
  | (name, .string raw) => if name = s then some raw else none
  | _ => none

/-- The value of the first member with this name and a string as its value, in document order. -/
def firstString (s : List Byte) (doc : Json) : Option (List Byte) :=
  doc.allMembers.findSome? (stringValue s)

/-- What a lookup of the name in the document should do: it succeeds if there is such a member, copies
the value of the first one with a terminator, and takes names only for the key. -/
structure LooksUpMembers (m : Memory) (json : Int) (s : List Byte) (value : Int) (tokens : List JsmnTok)
    (doc : Json) : Prop where
  found_iff : (findJsonString m json s value tokens).2 = true ↔
    ∃ raw, (s, Json.string raw) ∈ doc.allMembers
  first_copied : ∀ raw, firstString s doc = some raw →
    (findJsonString m json s value tokens).1 = storesAt value (raw ++ [0])
  key_is_name : ∀ i, keyIndex m json s tokens = some i →
    ∀ part, doc.parts[i]? = some part → part.kind = .name

/-- A string with this spelling, which may be a name, and a string behind it. -/
def IsStringPair (s : List Byte) (pair : Part × Part) : Prop :=
  jsmnType pair.1.kind = .string ∧ jsmnType pair.2.kind = .string ∧ pair.1.spelling = s

instance (s : List Byte) (pair : Part × Part) : Decidable (IsStringPair s pair) := by
  unfold IsStringPair
  infer_instance

/-- A string that is no name, has the spelling of the name and is followed by a string stands behind a
member with that name and a string as its value. -/
def NamesFirst (s : List Byte) (doc : Json) : Prop :=
  ∀ before pair after, adjacent doc.parts = before ++ pair :: after → IsStringPair s pair →
    pair.1.kind ≠ .name → ∃ earlier ∈ before, IsStringPair s earlier ∧ earlier.1.kind = .name

section pairs

variable {js s : List Byte}

theorem findPart_eq (parts : List Part) : findPart s parts =
    ((adjacent parts).find? fun pair => IsStringPair s pair).map
      fun pair => (pair.1.kind, pair.2.spelling) := by
  induction parts with
  | nil => rfl
  | cons x rest ih =>
      cases rest with
      | nil => rfl
      | cons y rest =>
          rw [findPart, adjacent_cons_cons, List.find?_cons, ih]
          have htest : (jsmnType x.kind = .string ∧ jsmnType y.kind = .string ∧ x.spelling = s) ↔
              IsStringPair s (x, y) := Iff.rfl
          by_cases hpair : IsStringPair s (x, y)
          · rw [if_pos (htest.mpr hpair), decide_eq_true hpair]
            rfl
          · rw [if_neg fun h => hpair (htest.mp h), decide_eq_false hpair]

/-- The token that is taken for the key is that of the first string with a string behind it. -/
theorem keyIndex_eq {m : Memory} {json : Int} {tokens : List JsmnTok} {parts : List Part}
    (hjs : m.IsString json js) (h : List.Forall₂ (IsTokenOf js) tokens parts) :
    keyIndex m json s tokens = (adjacent parts).findIdx? fun pair => IsStringPair s pair := by
  induction h with
  | nil => rfl
  | @cons t x tokens parts htx hrest ih =>
      cases hrest with
      | nil => rfl
      | @cons u y tokens parts huy hrest =>
          obtain ⟨htype, hwithin, hslice⟩ := htx
          rw [keyIndex, adjacent_cons_cons, List.findIdx?_cons, ih, readString_slice hjs hwithin, htype,
            huy.1, ← slice_length hwithin]
          have htest : (jsmnType x.kind = .string ∧ jsmnType y.kind = .string ∧
              s.length = (slice js t).length ∧ slice js t = s) ↔ IsStringPair s (x, y) := by
            constructor
            · rintro ⟨hname, hvalue, -, hspelling⟩
              exact ⟨hname, hvalue, (hslice (htype.trans hname)).symm.trans hspelling⟩
            · rintro ⟨hname, hvalue, hspelling⟩
              have hs : slice js t = s := (hslice (htype.trans hname)).trans hspelling
              exact ⟨hname, hvalue, congrArg List.length hs.symm, hs⟩
          by_cases hpair : IsStringPair s (x, y)
          · rw [if_pos (htest.mpr hpair), if_pos (decide_eq_true hpair)]
          · rw [if_neg fun h => hpair (htest.mp h), if_neg fun h => hpair (of_decide_eq_true h)]

/-- The value behind a name, if the two are such a pair. -/
def pairValue (s : List Byte) (pair : Part × Part) : Option (List Byte) :=
  if pair.1.kind = .name ∧ IsStringPair s pair then some pair.2.spelling else none

theorem pairValue_of_ne {pair : Part × Part} (h : jsmnType pair.2.kind ≠ .string) : pairValue s pair = none :=
  if_neg fun hpair => h hpair.2.2.1

theorem stringValue_eq (s name : List Byte) (value : Json) :
    stringValue s (name, value) = pairValue s (⟨.name, name⟩, value.head) := by
  cases value with
  | string raw =>
      have htest : (Kind.name = .name ∧ IsStringPair s (⟨.name, name⟩, ⟨.string, raw⟩)) ↔ name = s :=
        ⟨fun h => h.2.2.2, fun h => ⟨rfl, rfl, rfl, h⟩⟩
      rw [stringValue, pairValue, Json.head]
      by_cases hname : name = s
      · rw [if_pos hname, if_pos (htest.mpr hname)]
      · rw [if_neg hname, if_neg fun h => hname (htest.mp h)]
  | null => exact (pairValue_of_ne JsmnType.noConfusion).symm
  | bool b => exact (pairValue_of_ne JsmnType.noConfusion).symm
  | number spelling => exact (pairValue_of_ne JsmnType.noConfusion).symm
  | array items => exact (pairValue_of_ne JsmnType.noConfusion).symm
  | object members => exact (pairValue_of_ne JsmnType.noConfusion).symm

/-- The members of a document are its names with what stands behind them. -/
theorem firstString_eq (s : List Byte) (doc : Json) :
    firstString s doc = (adjacent doc.parts).findSome? (pairValue s) := by
  have hmember : stringValue s = (fun pair => pairValue s (⟨.name, pair.1⟩, pair.2)) ∘ shown := by
    funext member
    exact stringValue_eq s member.1 member.2
  have hname : ∀ pair : Part × Part, ((if pair.1.kind = .name then some (pair.1.spelling, pair.2) else none).bind
      fun pair => pairValue s (⟨.name, pair.1⟩, pair.2)) = pairValue s pair := by
    rintro ⟨⟨kind, name⟩, part⟩
    by_cases hkind : kind = .name
    · rw [hkind, if_pos rfl]
      rfl
    · rw [if_neg hkind, pairValue, if_neg fun h => hkind h.1]
      rfl
  calc firstString s doc
      = (doc.allMembers.map shown).findSome? fun pair => pairValue s (⟨.name, pair.1⟩, pair.2) := by
        rw [List.findSome?_map, ← hmember, firstString]
    _ = (namePairs doc.parts).findSome? fun pair => pairValue s (⟨.name, pair.1⟩, pair.2) := by
        rw [namePairs_document]
    _ = (adjacent doc.parts).findSome? (pairValue s) := by
        rw [namePairs_eq, ← List.head?_filterMap, ← List.head?_filterMap, List.filterMap_filterMap]
        exact congrArg (fun f => ((adjacent doc.parts).filterMap f).head?) (funext hname)

theorem pairValue_isSome_iff (pair : Part × Part) :
    (pairValue s pair).isSome ↔ pair.1.kind = .name ∧ IsStringPair s pair := by
  rw [pairValue]
  split
  · exact iff_of_true rfl ‹_›
  · exact iff_of_false Bool.false_ne_true ‹_›

theorem firstString_isSome_iff (doc : Json) :
    (firstString s doc).isSome ↔ ∃ raw, (s, Json.string raw) ∈ doc.allMembers := by
  rw [firstString, List.findSome?_isSome_iff]
  constructor
  · rintro ⟨⟨name, value⟩, hmember, hvalue⟩
    rw [stringValue_eq, pairValue_isSome_iff] at hvalue
    obtain ⟨-, -, hstring, rfl⟩ := hvalue
    exact ⟨value.head.spelling, Json.eq_string_of_head hstring rfl ▸ hmember⟩
  · rintro ⟨raw, hmember⟩
    refine ⟨_, hmember, ?_⟩
    rw [stringValue, if_pos rfl]
    rfl

/-- Without such a pair there is no such member. -/
theorem firstString_eq_none {doc : Json} (hnone : ∀ pair ∈ adjacent doc.parts, ¬IsStringPair s pair) :
    firstString s doc = none := by
  rw [firstString_eq, List.findSome?_eq_none_iff]
  exact fun pair hmem => if_neg fun hpair => hnone pair hmem hpair.2

end pairs

section lookups

variable {m : Memory} {json : Int} {js s : List Byte} {n : Nat} (value : Int) (parsed : Tokenised js n)

theorem findJsonString_parsed (hjs : m.IsString json js) : findJsonString m json s value parsed.tokens =
    match (adjacent parsed.doc.parts).find? fun pair => IsStringPair s pair with
    | some pair => (storesAt value (pair.2.spelling ++ [0]), true)
    | none => ([], false) := by
  rw [findJsonString_eq s value hjs (within_of_forall₂ parsed.tokens_of),
    findString_eq_findPart s parsed.tokens_of, findPart_eq]
  cases (adjacent parsed.doc.parts).find? fun pair => IsStringPair s pair with
  | none => rfl
  | some pair => rfl

/-- Without a pair of strings, there is no member and nothing is found. -/
theorem looksUpMembers_of_absent (hjs : m.IsString json js)
    (hnone : ∀ pair ∈ adjacent parsed.doc.parts, ¬IsStringPair s pair) :
    LooksUpMembers m json s value parsed.tokens parsed.doc := by
  have hlookup := findJsonString_parsed (s := s) value parsed hjs
  have hfind : (adjacent parsed.doc.parts).find? (fun pair => IsStringPair s pair) = none := by
    rw [List.find?_eq_none]
    exact fun pair hmem => mt of_decide_eq_true (hnone pair hmem)
  have hfirst := firstString_eq_none hnone
  rw [hfind] at hlookup
  constructor
  · rw [hlookup, ← firstString_isSome_iff, hfirst]
    exact iff_of_false Bool.false_ne_true Bool.false_ne_true
  · intro raw hraw
    rw [hfirst] at hraw
    cases hraw
  · intro i hi
    rw [keyIndex_eq hjs parsed.tokens_of, List.findIdx?_eq_none_iff.mpr] at hi
    · cases hi
    · exact fun pair hmem => decide_eq_false (hnone pair hmem)

/-- The first string with this spelling and a string behind it. -/
structure FirstPair (s : List Byte) (doc : Json) (before : List (Part × Part)) (pair : Part × Part) : Prop where
  split : ∃ after, adjacent doc.parts = before ++ pair :: after
  strings : IsStringPair s pair
  first : ∀ earlier ∈ before, ¬IsStringPair s earlier

theorem FirstPair.find {doc : Json} {before : List (Part × Part)} {pair : Part × Part}
    (h : FirstPair s doc before pair) :
    (adjacent doc.parts).find? (fun pair => IsStringPair s pair) = some pair := by
  obtain ⟨after, hsplit⟩ := h.split
  rw [List.find?_eq_some_iff_append]
  refine ⟨decide_eq_true h.strings, before, after, hsplit, fun earlier hmem => ?_⟩
  rw [decide_eq_false (h.first earlier hmem)]
  rfl

theorem firstPair_or_none (s : List Byte) (doc : Json) : (∃ before pair, FirstPair s doc before pair) ∨
    ∀ pair ∈ adjacent doc.parts, ¬IsStringPair s pair := by
  cases hfind : (adjacent doc.parts).find? fun pair => IsStringPair s pair with
  | none =>
      refine Or.inr fun pair hmem hpair => ?_
      exact List.find?_eq_none.mp hfind pair hmem (decide_eq_true hpair)
  | some pair =>
      obtain ⟨htest, before, after, hsplit, hearlier⟩ := List.find?_eq_some_iff_append.mp hfind
      refine Or.inl ⟨before, pair, ⟨after, hsplit⟩, of_decide_eq_true htest, fun earlier hmem => ?_⟩
      simpa using hearlier earlier hmem

section first

variable {before : List (Part × Part)} {pair : Part × Part}

theorem keyIndex_first (hjs : m.IsString json js) (h : FirstPair s parsed.doc before pair) :
    keyIndex m json s parsed.tokens = some before.length ∧
      parsed.doc.parts[before.length]? = some pair.1 := by
  obtain ⟨after, hsplit⟩ := h.split
  constructor
  · have hnone : before.findIdx? (fun pair => IsStringPair s pair) = none :=
      List.findIdx?_eq_none_iff.mpr fun earlier hmem => decide_eq_false (h.first earlier hmem)
    rw [keyIndex_eq hjs parsed.tokens_of, hsplit, List.findIdx?_append, hnone, List.findIdx?_cons,
      if_pos (decide_eq_true h.strings), Option.none_or, Option.map_some, Nat.zero_add]
  · refine adjacent_getElem? ?_
    rw [hsplit, List.getElem?_append_right (Nat.le_refl _), Nat.sub_self, List.getElem?_cons_zero]

/-- When the first pair of strings begins with a name, it is the first such member. -/
theorem looksUpMembers_of_name (hjs : m.IsString json js) (h : FirstPair s parsed.doc before pair)
    (hname : pair.1.kind = .name) : LooksUpMembers m json s value parsed.tokens parsed.doc := by
  have hlookup : findJsonString m json s value parsed.tokens = (storesAt value (pair.2.spelling ++ [0]), true) := by
    rw [findJsonString_parsed value parsed hjs, h.find]
  have hfirst : firstString s parsed.doc = some pair.2.spelling := by
    obtain ⟨after, hsplit⟩ := h.split
    have hnone : before.findSome? (pairValue s) = none :=
      List.findSome?_eq_none_iff.mpr fun earlier hmem => if_neg fun hpair => h.first earlier hmem hpair.2
    rw [firstString_eq, hsplit, List.findSome?_append, hnone, List.findSome?_cons, pairValue,
      if_pos ⟨hname, h.strings⟩, Option.none_or]
  constructor
  · rw [hlookup, ← firstString_isSome_iff, hfirst]
    exact iff_of_true rfl rfl
  · intro raw hraw
    rw [hfirst, Option.some.injEq] at hraw
    rw [hlookup, hraw]
  · intro i hi part hpart
    obtain ⟨hindex, hplace⟩ := keyIndex_first parsed hjs h
    rw [hindex, Option.some.injEq] at hi
    rw [← hi, hplace, Option.some.injEq] at hpart
    rw [← hpart]
    exact hname

/-- Behind a first pair that begins with a name, every other pair is in order. -/
theorem namesFirst_of_name {doc : Json} (h : FirstPair s doc before pair) (hname : pair.1.kind = .name) :
    NamesFirst s doc := by
  obtain ⟨after, hsplit⟩ := h.split
  intro before' pair' after' hsplit' hpair' hother
  rcases split_cases (hsplit.symm.trans hsplit') with rfl | hbehind | hearlier
  · exact absurd hname hother
  · exact ⟨pair, hbehind, h.strings, hname⟩
  · exact absurd hpair' (h.first pair' hearlier)

end first

/-- **The lookup is one of members exactly if names come first**: for all documents, all names, and all
memories that hold the text. -/
theorem findJsonString_members_iff (s : List Byte) (hjs : m.IsString json js) :
    LooksUpMembers m json s value parsed.tokens parsed.doc ↔ NamesFirst s parsed.doc := by
  rcases firstPair_or_none s parsed.doc with ⟨before, pair, hfirst⟩ | hnone
  · by_cases hname : pair.1.kind = .name
    · exact iff_of_true (looksUpMembers_of_name value parsed hjs hfirst hname) (namesFirst_of_name hfirst hname)
    · refine iff_of_false (fun hlooks => hname ?_) (fun hnames => ?_)
      · obtain ⟨hindex, hplace⟩ := keyIndex_first parsed hjs hfirst
        exact hlooks.key_is_name _ hindex _ hplace
      · obtain ⟨after, hsplit⟩ := hfirst.split
        obtain ⟨earlier, hmem, hstrings, -⟩ := hnames before pair after hsplit hfirst.strings hname
        exact hfirst.first earlier hmem hstrings
  · refine iff_of_true (looksUpMembers_of_absent value parsed hjs hnone) ?_
    intro before pair after hsplit hpair
    refine absurd hpair (hnone pair ?_)
    rw [hsplit]
    exact List.mem_append_right _ List.mem_cons_self

end lookups

/-- An answer of the service to a device that registered as `deviceId`. -/
def namedAnswer : List Byte := text "\x7b\"registrationId\":\"deviceId\",\"deviceId\":\"board\"\x7d"

def namedDoc : Json :=
  .object (.cons (text "registrationId") (.string (text "deviceId"))
    (.cons (text "deviceId") (.string (text "board")) .nil))

theorem namedAnswer_document : IsDocument namedAnswer namedDoc := by
  have hanswer : namedAnswer = text "\x7b" ++ (quoted (text "registrationId") ++ text ":" ++
      quoted (text "deviceId") ++ text "," ++ quoted (text "deviceId") ++ text ":" ++
        quoted (text "board")) ++ text "\x7d" := by decide +kernel
  rw [hanswer]
  exact isDocument_twoStrings (by decide +kernel) (by decide +kernel) (by decide +kernel) (by decide +kernel)

/-- What jsmn gives for this answer. -/
def namedParsed : Tokenised namedAnswer 64 where
  tokens := [⟨.object, 0, 48⟩, ⟨.string, 2, 16⟩, ⟨.string, 19, 27⟩, ⟨.string, 30, 38⟩, ⟨.string, 41, 46⟩]
  doc := namedDoc
  length_le := by decide
  document := namedAnswer_document
  tokens_of := by
    refine .cons ?_ (.cons ?_ (.cons ?_ (.cons ?_ (.cons ?_ .nil))))
    all_goals exact ⟨rfl, by decide +kernel, by decide +kernel⟩

/-- The message buffer with the answer. -/
def namedMemory : Memory := Memory.run (fun _ => 0) (storesAt 0 (namedAnswer ++ [0]))

/-- The registration id is found as the member that it is. -/
theorem registrationId_member : LooksUpMembers namedMemory 0 (text "registrationId") 512 namedParsed.tokens
    namedParsed.doc := by
  have hsplit : adjacent namedParsed.doc.parts =
      [(⟨.object, []⟩, ⟨.name, text "registrationId"⟩)] ++
        (⟨.name, text "registrationId"⟩, ⟨.string, text "deviceId"⟩) ::
          [(⟨.string, text "deviceId"⟩, ⟨.name, text "deviceId"⟩),
            (⟨.name, text "deviceId"⟩, ⟨.string, text "board"⟩)] := by decide +kernel
  have hfirst : FirstPair (text "registrationId") namedParsed.doc _ _ :=
    ⟨⟨_, hsplit⟩, ⟨rfl, rfl, rfl⟩, by decide⟩
  exact (findJsonString_members_iff 512 namedParsed (text "registrationId")
    (Memory.IsString.ofStores _ 0 (by decide +kernel))).mpr (namesFirst_of_name hfirst rfl)

/-- The device id is taken from behind the registration id: it is the next name, `deviceId`. -/
theorem deviceId_confused :
    ¬LooksUpMembers namedMemory 0 (text "deviceId") 512 namedParsed.tokens namedParsed.doc := by
  intro h
  have hindex : keyIndex namedMemory 0 (text "deviceId") namedParsed.tokens = some 2 := by decide +kernel
  have hkind := h.key_is_name 2 hindex ⟨.string, text "deviceId"⟩ (by decide +kernel)
  cases hkind

end DeviceSample.JsonUtils
