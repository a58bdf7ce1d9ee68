import DeviceSample.BaseJson

/-!
The lookup of strings in a tokenised JSON text. The token list comes from the jsmn library, which
is assumed to give the parts of a document in preorder, with the places of their spellings, or a
negative count. The lookup takes the first string that is spelled like the name and directly followed by a string,
whether it is the name of a member or not.
-/

namespace DeviceSample.JsonUtils

open Base

/-- `jsmntype_t`. -/
inductive JsmnType
  | object
  | array
  | string
  | primitive
  deriving DecidableEq, Repr

/-- `jsmntok_t`, without the number of children. -/
structure JsmnTok where
  type : JsmnType
  start : Nat
  stop : Nat
  deriving DecidableEq, Repr

/-- `findJsonString`: what it stores at `value` and its result. -/
def findJsonString (m : Memory) (json : Int) (s : List Byte) (value : Int) :
    List JsmnTok → List Store × Bool
  | t :: u :: rest =>
      if t.type = .string ∧ u.type = .string ∧ s.length = t.stop - t.start ∧
          m.readString (json + t.start) (t.stop - t.start) = s then
        let valueLen := u.stop - u.start
        (strncpy value (m.readString (json + u.start) valueLen) valueLen ++ [⟨value + valueLen, 0⟩],
          true)
      else
        findJsonString m json s value (u :: rest)
  | _ => ([], false)

/-- The characters of a token. -/
def slice (js : List Byte) (t : JsmnTok) : List Byte := (js.drop t.start).take (t.stop - t.start)

/-- The token lies in the text. -/
def JsmnTok.Within (t : JsmnTok) (js : List Byte) : Prop := t.start ≤ t.stop ∧ t.stop ≤ js.length

instance (t : JsmnTok) (js : List Byte) : Decidable (t.Within js) := by
  unfold JsmnTok.Within
  infer_instance

/-- The string that `findJsonString` finds. -/
def findString (js s : List Byte) : List JsmnTok → Option (List Byte)
  | t :: u :: rest =>
      if t.type = .string ∧ u.type = .string ∧ slice js t = s then some (slice js u)
      else findString js s (u :: rest)
  | _ => none

theorem slice_length {js : List Byte} {t : JsmnTok} (ht : t.Within js) :
    (slice js t).length = t.stop - t.start := by
  obtain ⟨hstart, hstop⟩ := ht
  rw [slice, List.length_take, List.length_drop]
  omega

theorem readString_slice {m : Memory} {json : Int} {js : List Byte} {t : JsmnTok}
    (hjs : m.IsString json js) (ht : t.Within js) :
    m.readString (json + t.start) (t.stop - t.start) = slice js t := by
  have hstart : t.start ≤ js.length := by
    obtain ⟨hstart, hstop⟩ := ht
    omega
  exact (hjs.drop hstart).readString _

theorem copy_slice {m : Memory} {json : Int} {js : List Byte} {t : JsmnTok} (value : Int)
    (hjs : m.IsString json js) (ht : t.Within js) :
    strncpy value (m.readString (json + t.start) (t.stop - t.start)) (t.stop - t.start) ++
        [⟨value + (t.stop - t.start : Nat), 0⟩] = storesAt value (slice js t ++ [0]) := by
  rw [readString_slice hjs ht, strncpy, ← slice_length ht, List.take_length, Nat.sub_self,
    List.replicate_zero, List.append_nil, storesAt_append]
  rfl

/-- On tokens of the text that stands at `json`, the string that is found is stored whole, with a
terminator after it. -/
theorem findJsonString_eq {m : Memory} {json : Int} {js : List Byte} (s : List Byte) (value : Int)
    {tokens : List JsmnTok} (hjs : m.IsString json js) (htokens : ∀ t ∈ tokens, t.Within js) :
    findJsonString m json s value tokens =
      match findString js s tokens with
      | some v => (storesAt value (v ++ [0]), true)
      | none => ([], false) := by
  induction tokens with
  | nil => rfl
  | cons t tokens ih =>
      cases tokens with
      | nil => rfl
      | cons u rest =>
          have ht : t.Within js := htokens t List.mem_cons_self
          have hu : u.Within js := htokens u (List.mem_cons_of_mem _ List.mem_cons_self)
          have hrest := ih fun w hw => htokens w (List.mem_cons_of_mem _ hw)
          have hlength : slice js t = s → s.length = t.stop - t.start := by
            intro h
            rw [← h, slice_length ht]
          rw [findJsonString, findString, readString_slice hjs ht, hrest]
          by_cases hfound : t.type = .string ∧ u.type = .string ∧ slice js t = s
          · have htest : t.type = .string ∧ u.type = .string ∧ s.length = t.stop - t.start ∧
                slice js t = s := ⟨hfound.1, hfound.2.1, hlength hfound.2.2, hfound.2.2⟩
            rw [if_pos htest, if_pos hfound]
            exact congrArg (·, true) (copy_slice value hjs hu)
          · have htest : ¬(t.type = .string ∧ u.type = .string ∧ s.length = t.stop - t.start ∧
                slice js t = s) := fun h => hfound ⟨h.1, h.2.1, h.2.2.2⟩
            rw [if_neg htest, if_neg hfound]

/-- What is found is a piece of the text. -/
theorem findString_piece {js s v : List Byte} {tokens : List JsmnTok}
    (h : findString js s tokens = some v) : v <:+: js := by
  induction tokens with
  | nil => cases h
  | cons t tokens ih =>
      cases tokens with
      | nil => cases h
      | cons u rest =>
          rw [findString] at h
          split at h
          · cases h
            exact (List.take_prefix _ _).isInfix.trans (List.drop_suffix _ _).isInfix
          · exact ih h

/-- The type that jsmn gives a part of a document. -/
def jsmnType : Kind → JsmnType
  | .object => .object
  | .array => .array
  | .name => .string
  | .string => .string
  | .primitive => .primitive

/-- The token is the one of this part. -/
def IsTokenOf (js : List Byte) (t : JsmnTok) (part : Part) : Prop :=
  t.type = jsmnType part.kind ∧ t.Within js ∧ (t.type = .string → slice js t = part.spelling)

/-- What `jsmn_parse` gives for a text and at most `n` tokens when its count is not negative: the
tokens of a document. -/
structure Tokenised (js : List Byte) (n : Nat) where
  tokens : List JsmnTok
  doc : Json
  length_le : tokens.length ≤ n
  document : IsDocument js doc
  tokens_of : List.Forall₂ (IsTokenOf js) tokens doc.parts

/-- `jsmn_parse`, with `none` for a negative count. -/
abbrev JsmnParse := ∀ (js : List Byte) (n : Nat), Option (Tokenised js n)

/-- The tokens that a lookup goes through: none after a negative count. -/
def JsmnParse.tokens (jsmnParse : JsmnParse) (js : List Byte) (n : Nat) : List JsmnTok :=
  match jsmnParse js n with
  | some parsed => parsed.tokens
  | none => []

theorem within_of_forall₂ {js : List Byte} {tokens : List JsmnTok} {parts : List Part}
    (h : List.Forall₂ (IsTokenOf js) tokens parts) : ∀ t ∈ tokens, t.Within js := by
  induction h with
  | nil => exact fun t ht => nomatch ht
  | cons htoken _ ih =>
      intro t ht
      rcases List.mem_cons.mp ht with rfl | ht
      · exact htoken.2.1
      · exact ih t ht

theorem JsmnParse.tokens_within (jsmnParse : JsmnParse) (js : List Byte) (n : Nat) :
    ∀ t ∈ jsmnParse.tokens js n, t.Within js := by
  rw [JsmnParse.tokens]
  cases jsmnParse js n with
  | none => exact fun _ ht => nomatch ht
  | some parsed => exact within_of_forall₂ parsed.tokens_of

/-- The lookup on the parts of a document: the first string with this spelling that a string
follows, with its kind, and the string after it. -/
def findPart (s : List Byte) : List Part → Option (Kind × List Byte)
  | x :: y :: rest =>
      if jsmnType x.kind = .string ∧ jsmnType y.kind = .string ∧ x.spelling = s then
        some (x.kind, y.spelling)
      else findPart s (y :: rest)
  | _ => none

theorem findString_eq_findPart {js : List Byte} {tokens : List JsmnTok} {parts : List Part}
    (s : List Byte) (h : List.Forall₂ (IsTokenOf js) tokens parts) :
    findString js s tokens = (findPart s parts).map Prod.snd := by
  induction h with
  | nil => rfl
  | @cons t x tokens parts htx hrest ih =>
      cases hrest with
      | nil => rfl
      | @cons u y tokens parts huy hrest =>
          obtain ⟨htype, _, hslice⟩ := htx
          obtain ⟨hutype, _, huslice⟩ := huy
          rw [findString, findPart, ih, htype, hutype]
          by_cases hstrings : jsmnType x.kind = .string ∧ jsmnType y.kind = .string
          · rw [hslice (htype.trans hstrings.1), huslice (hutype.trans hstrings.2)]
            split
            · rfl
            · rfl
          · have hleft : ¬(jsmnType x.kind = .string ∧ jsmnType y.kind = .string ∧ slice js t = s) :=
              fun h => hstrings ⟨h.1, h.2.1⟩
            have hright : ¬(jsmnType x.kind = .string ∧ jsmnType y.kind = .string ∧ x.spelling = s) :=
              fun h => hstrings ⟨h.1, h.2.1⟩
            rw [if_neg hleft, if_neg hright]

/-- A match that is a name comes with the string after that name. -/
theorem mem_namePairs_of_findPart {s v : List Byte} {parts : List Part}
    (h : findPart s parts = some (.name, v)) :
    ∃ y, (s, y) ∈ namePairs parts ∧ jsmnType y.kind = .string ∧ y.spelling = v := by
  induction parts with
  | nil => cases h
  | cons x parts ih =>
      cases parts with
      | nil => cases h
      | cons y rest =>
          rw [findPart] at h
          by_cases hmatch : jsmnType x.kind = .string ∧ jsmnType y.kind = .string ∧ x.spelling = s
          · rw [if_pos hmatch, Option.some.injEq, Prod.mk.injEq] at h
            refine ⟨y, ?_, hmatch.2.1, h.2⟩
            rw [namePairs, if_pos h.1, hmatch.2.2]
            exact List.mem_cons_self
          · rw [if_neg hmatch] at h
            obtain ⟨z, hmem, hz⟩ := ih h
            refine ⟨z, ?_, hz⟩
            rw [namePairs]
            split
            · exact List.mem_cons_of_mem _ hmem
            · exact hmem

theorem Json.eq_string_of_head {value : Json} {v : List Byte}
    (htype : jsmnType value.head.kind = .string) (hspelling : value.head.spelling = v) :
    value = .string v := by
  cases value with
  | string raw => exact congrArg Json.string hspelling
  | null => cases htype
  | bool b => cases htype
  | number spelling => cases htype
  | array items => cases htype
  | object members => cases htype

/-- A lookup that stops at a name has found a string member of the document. -/
theorem mem_allMembers_of_findPart {s v : List Byte} {doc : Json}
    (h : findPart s doc.parts = some (.name, v)) : (s, Json.string v) ∈ doc.allMembers := by
  obtain ⟨y, hmem, htype, hspelling⟩ := mem_namePairs_of_findPart h
  rw [namePairs_document] at hmem
  obtain ⟨⟨name, value⟩, hmember, hshown⟩ := List.mem_map.mp hmem
  rw [shown, Prod.mk.injEq] at hshown
  obtain ⟨rfl, rfl⟩ := hshown
  rw [← Json.eq_string_of_head htype hspelling]
  exact hmember

end DeviceSample.JsonUtils
