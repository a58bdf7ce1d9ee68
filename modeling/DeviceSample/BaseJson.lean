import DeviceSample.BaseMemory

/-!
JSON documents: their values, the texts that spell them under the grammar of RFC 8259, and the
preorder list of their parts, in which the name of a member stands directly before its value.
-/

namespace DeviceSample.Base

mutual

/-- A JSON value. Numbers and strings are kept as they are spelled, strings without their quotes. -/
inductive Json
  | null
  | bool (b : Bool)
  | number (spelling : List Byte)
  | string (raw : List Byte)
  | array (items : Items)
  | object (members : Members)

inductive Items
  | nil
  | cons (value : Json) (rest : Items)

inductive Members
  | nil
  | cons (name : List Byte) (value : Json) (rest : Members)

end

/-- White space between the parts of a text. -/
def IsSpace (t : List Byte) : Prop := ∀ c ∈ t, c = 0x20 ∨ c = 0x09 ∨ c = 0x0a ∨ c = 0x0d

def isDigit (c : Byte) : Bool := 48 ≤ c.toNat && c.toNat ≤ 57

def isHexDigit (c : Byte) : Bool :=
  isDigit c || (65 ≤ c.toNat && c.toNat ≤ 70) || (97 ≤ c.toNat && c.toNat ≤ 102)

/-- The characters between the quotes of a string: no quote, no control character, and only the
escapes of the grammar. -/
def isStringBody : List Byte → Bool
  | [] => true
  | c :: rest =>
      if c = ascii '\\' then
        match rest with
        | [] => false
        | e :: rest =>
            if e = ascii 'u' then
              match rest with
              | h1 :: h2 :: h3 :: h4 :: rest =>
                  isHexDigit h1 && isHexDigit h2 && isHexDigit h3 && isHexDigit h4 && isStringBody rest
              | _ => false
            else (text "\"\\/bfnrt").contains e && isStringBody rest
      else c ≠ ascii '"' && 0x20 ≤ c.toNat && isStringBody rest

/-- The text after a number's fraction: nothing, or an exponent. -/
def isExponent : List Byte → Bool
  | [] => true
  | e :: rest =>
      (e = ascii 'e' || e = ascii 'E') &&
        match rest with
        | sign :: digits =>
            if sign = ascii '+' || sign = ascii '-' then !digits.isEmpty && digits.all isDigit
            else rest.all isDigit
        | [] => false

/-- The text after a number's integer part. -/
def isFraction (t : List Byte) : Bool :=
  match t with
  | c :: rest =>
      if c = ascii '.' then
        let digits := rest.takeWhile isDigit
        !digits.isEmpty && isExponent (rest.dropWhile isDigit)
      else isExponent t
  | [] => true

/-- A number without a sign. -/
def isUnsigned (t : List Byte) : Bool :=
  match t with
  | c :: rest =>
      if c = ascii '0' then isFraction rest
      else isDigit c && isFraction (rest.dropWhile isDigit)
  | [] => false

def isNumber (t : List Byte) : Bool :=
  match t with
  | c :: rest => if c = ascii '-' then isUnsigned rest else isUnsigned t
  | [] => false

def quoted (raw : List Byte) : List Byte := text "\"" ++ raw ++ text "\""

mutual

/-- The text spells the value. -/
inductive Json.Spelled : Json → List Byte → Prop
  | null : Json.Spelled .null (text "null")
  | false : Json.Spelled (.bool Bool.false) (text "false")
  | true : Json.Spelled (.bool Bool.true) (text "true")
  | number {t : List Byte} : isNumber t = Bool.true → Json.Spelled (.number t) t
  | string {raw : List Byte} : isStringBody raw = Bool.true → Json.Spelled (.string raw) (quoted raw)
  | array {items : Items} {t : List Byte} :
      Items.Spelled items t → Json.Spelled (.array items) (text "[" ++ t ++ text "]")
  | object {members : Members} {t : List Byte} :
      Members.Spelled members t → Json.Spelled (.object members) (text "\x7b" ++ t ++ text "\x7d")

inductive Items.Spelled : Items → List Byte → Prop
  | none {space : List Byte} : IsSpace space → Items.Spelled .nil space
  | last {value : Json} {before t after : List Byte} :
      IsSpace before → IsSpace after → Json.Spelled value t →
        Items.Spelled (.cons value .nil) (before ++ t ++ after)
  | more {value next : Json} {rest : Items} {before t after others : List Byte} :
      IsSpace before → IsSpace after → Json.Spelled value t →
        Items.Spelled (.cons next rest) others →
          Items.Spelled (.cons value (.cons next rest)) (before ++ t ++ after ++ text "," ++ others)

inductive Members.Spelled : Members → List Byte → Prop
  | none {space : List Byte} : IsSpace space → Members.Spelled .nil space
  | last {name : List Byte} {value : Json} {before colon afterName t after : List Byte} :
      IsSpace before → IsSpace colon → IsSpace afterName → IsSpace after →
        isStringBody name = Bool.true → Json.Spelled value t →
          Members.Spelled (.cons name value .nil)
            (before ++ quoted name ++ colon ++ text ":" ++ afterName ++ t ++ after)
  | more {name next : List Byte} {value nextValue : Json} {rest : Members}
      {before colon afterName t after others : List Byte} :
      IsSpace before → IsSpace colon → IsSpace afterName → IsSpace after →
        isStringBody name = Bool.true → Json.Spelled value t →
          Members.Spelled (.cons next nextValue rest) others →
            Members.Spelled (.cons name value (.cons next nextValue rest))
              (before ++ quoted name ++ colon ++ text ":" ++ afterName ++ t ++ after ++ text "," ++ others)

end

/-- The text is a JSON document with this value. -/
def IsDocument (t : List Byte) (doc : Json) : Prop :=
  ∃ before body after, IsSpace before ∧ IsSpace after ∧ doc.Spelled body ∧ t = before ++ body ++ after

theorem Json.Spelled.ne_nil {value : Json} {t : List Byte} (h : value.Spelled t) : t ≠ [] := by
  cases h with
  | null => decide
  | false => decide
  | true => decide
  | number hnumber =>
      rintro rfl
      cases hnumber
  | string _ => exact List.cons_ne_nil _ _
  | array _ => exact List.cons_ne_nil _ _
  | object _ => exact List.cons_ne_nil _ _

/-- The empty text is no document. -/
theorem IsDocument.ne_nil {t : List Byte} {doc : Json} (h : IsDocument t doc) : t ≠ [] := by
  obtain ⟨before, body, after, _, _, hbody, rfl⟩ := h
  intro hempty
  rw [List.append_eq_nil_iff, List.append_eq_nil_iff] at hempty
  exact hbody.ne_nil hempty.1.2

/-- An object with two strings, without white space. -/
theorem isDocument_twoStrings {name value name' value' : List Byte} (hname : isStringBody name = true)
    (hvalue : isStringBody value = true) (hname' : isStringBody name' = true)
    (hvalue' : isStringBody value' = true) :
    IsDocument (text "\x7b" ++ (quoted name ++ text ":" ++ quoted value ++ text "," ++ quoted name' ++ text ":" ++
        quoted value') ++ text "\x7d")
      (.object (.cons name (.string value) (.cons name' (.string value') .nil))) := by
  have hnone : IsSpace [] := fun c hc => nomatch hc
  have hlast := Members.Spelled.last hnone hnone hnone hnone hname' (.string hvalue')
  have hmembers := Members.Spelled.more hnone hnone hnone hnone hname (.string hvalue) hlast
  refine ⟨[], _, [], hnone, hnone, .object hmembers, ?_⟩
  simp only [List.nil_append, List.append_nil, List.append_assoc]

/-- What a part of a document is. The name of a member is a string of its own kind. -/
inductive Kind
  | object
  | array
  | name
  | string
  | primitive
  deriving DecidableEq, Repr

/-- A part of a document with its spelling; objects and arrays are spelled by their parts. -/
structure Part where
  kind : Kind
  spelling : List Byte
  deriving DecidableEq, Repr

/-- The first part of a value. -/
def Json.head : Json → Part
  | .null => ⟨.primitive, text "null"⟩
  | .bool b => ⟨.primitive, if b then text "true" else text "false"⟩
  | .number spelling => ⟨.primitive, spelling⟩
  | .string raw => ⟨.string, raw⟩
  | .array _ => ⟨.array, []⟩
  | .object _ => ⟨.object, []⟩

mutual

/-- The parts of a value in preorder. -/
def Json.parts : Json → List Part
  | .array items => ⟨.array, []⟩ :: items.parts
  | .object members => ⟨.object, []⟩ :: members.parts
  | .null => [⟨.primitive, text "null"⟩]
  | .bool b => [⟨.primitive, if b then text "true" else text "false"⟩]
  | .number spelling => [⟨.primitive, spelling⟩]
  | .string raw => [⟨.string, raw⟩]

def Items.parts : Items → List Part
  | .nil => []
  | .cons value rest => value.parts ++ rest.parts

def Members.parts : Members → List Part
  | .nil => []
  | .cons name value rest => ⟨.name, name⟩ :: (value.parts ++ rest.parts)

end

mutual

/-- The members of all objects in a value, in document order. -/
def Json.allMembers : Json → List (List Byte × Json)
  | .array items => items.allMembers
  | .object members => members.allMembers
  | .null => []
  | .bool _ => []
  | .number _ => []
  | .string _ => []

def Items.allMembers : Items → List (List Byte × Json)
  | .nil => []
  | .cons value rest => value.allMembers ++ rest.allMembers

def Members.allMembers : Members → List (List Byte × Json)
  | .nil => []
  | .cons name value rest => (name, value) :: (value.allMembers ++ rest.allMembers)

end

theorem Json.parts_eq (value : Json) : ∃ tail, value.parts = value.head :: tail := by
  cases value with
  | array items => exact ⟨items.parts, by rw [Json.parts, Json.head]⟩
  | object members => exact ⟨members.parts, by rw [Json.parts, Json.head]⟩
  | null => exact ⟨[], by rw [Json.parts, Json.head]⟩
  | bool b => exact ⟨[], by rw [Json.parts, Json.head]⟩
  | number spelling => exact ⟨[], by rw [Json.parts, Json.head]⟩
  | string raw => exact ⟨[], by rw [Json.parts, Json.head]⟩

/-- The names in a list of parts, each with the part after it. -/
def namePairs : List Part → List (List Byte × Part)
  | [] => []
  | [_] => []
  | x :: y :: rest => if x.kind = .name then (x.spelling, y) :: namePairs (y :: rest)
      else namePairs (y :: rest)

theorem namePairs_cons_of_ne {x : Part} (rest : List Part) (hx : x.kind ≠ .name) :
    namePairs (x :: rest) = namePairs rest := by
  cases rest with
  | nil => rfl
  | cons y rest => rw [namePairs, if_neg hx]

/-- The members of a document as its parts show them: the name and the first part of the value. -/
def shown (member : List Byte × Json) : List Byte × Part := (member.1, member.2.head)

mutual

theorem Json.namePairs_parts (value : Json) (after : List Part) :
    namePairs (value.parts ++ after) = value.allMembers.map shown ++ namePairs after := by
  cases value with
  | array items =>
      rw [Json.parts, Json.allMembers, List.cons_append, namePairs_cons_of_ne _ (by decide)]
      exact Items.namePairs_parts items after
  | object members =>
      rw [Json.parts, Json.allMembers, List.cons_append, namePairs_cons_of_ne _ (by decide)]
      exact Members.namePairs_parts members after
  | null => exact namePairs_cons_of_ne _ (by decide)
  | bool b => exact namePairs_cons_of_ne _ Kind.noConfusion
  | number spelling => exact namePairs_cons_of_ne _ Kind.noConfusion
  | string raw => exact namePairs_cons_of_ne _ Kind.noConfusion

theorem Items.namePairs_parts (items : Items) (after : List Part) :
    namePairs (items.parts ++ after) = items.allMembers.map shown ++ namePairs after := by
  cases items with
  | nil => rfl
  | cons value rest =>
      rw [Items.parts, Items.allMembers, List.append_assoc, Json.namePairs_parts value,
        Items.namePairs_parts rest, List.map_append, List.append_assoc]

theorem Members.namePairs_parts (members : Members) (after : List Part) :
    namePairs (members.parts ++ after) = members.allMembers.map shown ++ namePairs after := by
  cases members with
  | nil => rfl
  | cons name value rest =>
      have hvalue := Json.namePairs_parts value (rest.parts ++ after)
      obtain ⟨tail, htail⟩ := value.parts_eq
      rw [htail, List.cons_append] at hvalue
      rw [Members.parts, Members.allMembers, List.cons_append, List.append_assoc, htail, List.cons_append,
        namePairs, if_pos rfl, hvalue, Members.namePairs_parts rest, List.map_cons, List.map_append,
        List.cons_append, List.append_assoc]
      rfl

end

/-- The names of a document, with what follows each, are its members in document order. -/
theorem namePairs_document (doc : Json) : namePairs doc.parts = doc.allMembers.map shown := by
  have hdoc := doc.namePairs_parts []
  rw [List.append_nil] at hdoc
  rw [hdoc, namePairs, List.append_nil]

/-- The neighbours in a list. -/
def adjacent {α : Type} (xs : List α) : List (α × α) := xs.zip xs.tail

theorem adjacent_cons_cons {α : Type} (x y : α) (rest : List α) :
    adjacent (x :: y :: rest) = (x, y) :: adjacent (y :: rest) := rfl

/-- The first of two neighbours stands at their place. -/
theorem adjacent_getElem? {α : Type} {xs : List α} {i : Nat} {pair : α × α}
    (h : (adjacent xs)[i]? = some pair) : xs[i]? = some pair.1 :=
  (List.getElem?_zip_eq_some.mp h).1

/-- Of two places in a list, one is in front of the other, or they are the same. -/
theorem split_cases {α : Type} {before before' after after' : List α} {x y : α}
    (h : before ++ x :: after = before' ++ y :: after') : x = y ∨ x ∈ before' ∨ y ∈ before := by
  rw [List.append_eq_append_iff] at h
  rcases h with ⟨between, rfl, hrest⟩ | ⟨between, rfl, hrest⟩
  · cases between with
    | nil => exact Or.inl (List.cons.inj hrest).1
    | cons z between =>
        rw [(List.cons.inj hrest).1]
        exact Or.inr (Or.inl (List.mem_append_right _ List.mem_cons_self))
  · cases between with
    | nil => exact Or.inl (List.cons.inj hrest).1.symm
    | cons z between =>
        rw [(List.cons.inj hrest).1]
        exact Or.inr (Or.inr (List.mem_append_right _ List.mem_cons_self))

theorem namePairs_eq (parts : List Part) : namePairs parts =
    (adjacent parts).filterMap fun pair =>
      if pair.1.kind = .name then some (pair.1.spelling, pair.2) else none := by
  induction parts with
  | nil => rfl
  | cons x rest ih =>
      cases rest with
      | nil => rfl
      | cons y rest =>
          rw [namePairs, adjacent_cons_cons, List.filterMap_cons, ih]
          split
          · rfl
          · rfl

end DeviceSample.Base
