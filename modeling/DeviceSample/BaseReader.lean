import DeviceSample.BaseJson

/-!
Pull readers of JSON. A reader hands out the tokens of a document one by one, with the escapes of
names and strings resolved, and can skip the children of an object. A loop that pulls tokens and only
skips objects on its way passes over every value, however deep it is.
-/

namespace DeviceSample.Base

/-- The kinds of tokens; `none` is that of a reader before its first token. -/
inductive TokenType
  | none
  | beginObject
  | endObject
  | beginArray
  | endArray
  | propertyName
  | string
  | number
  | true
  | false
  | null
  deriving DecidableEq, Repr

/-- A token with its text. -/
inductive Token
  | beginObject
  | endObject
  | beginArray
  | endArray
  | propertyName (name : List Byte)
  | string (value : List Byte)
  | number (spelling : List Byte)
  | bool (b : Bool)
  | null
  deriving DecidableEq, Repr

def Token.type : Token → TokenType
  | .beginObject => .beginObject
  | .endObject => .endObject
  | .beginArray => .beginArray
  | .endArray => .endArray
  | .propertyName _ => .propertyName
  | .string _ => .string
  | .number _ => .number
  | .bool b => if b then .true else .false
  | .null => .null

/-- A token that names nothing and neither begins nor ends an object. -/
def Token.isPlain : Token → Bool
  | .beginObject => false
  | .endObject => false
  | .propertyName _ => false
  | .beginArray => true
  | .endArray => true
  | .string _ => true
  | .number _ => true
  | .bool _ => true
  | .null => true

theorem Token.type_of_isPlain {t : Token} (h : t.isPlain = true) :
    t.type ≠ .propertyName ∧ t.type ≠ .beginObject ∧ t.type ≠ .endObject := by
  cases t with
  | beginObject => cases h
  | endObject => cases h
  | propertyName name => cases h
  | bool b => cases b <;> decide
  | beginArray => decide
  | endArray => decide
  | null => decide
  | string value => exact ⟨TokenType.noConfusion, TokenType.noConfusion, TokenType.noConfusion⟩
  | number spelling => exact ⟨TokenType.noConfusion, TokenType.noConfusion, TokenType.noConfusion⟩

mutual

/-- The tokens of a value. -/
def Json.stream : Json → List Token
  | .null => [.null]
  | .bool b => [.bool b]
  | .number spelling => [.number spelling]
  | .string raw => [.string raw]
  | .array items => .beginArray :: (items.stream ++ [.endArray])
  | .object members => .beginObject :: (members.stream ++ [.endObject])

def Items.stream : Items → List Token
  | .nil => []
  | .cons value rest => value.stream ++ rest.stream

def Members.stream : Members → List Token
  | .nil => []
  | .cons name value rest => .propertyName name :: (value.stream ++ rest.stream)

end

theorem Json.object_stream (members : Members) (after : List Token) :
    (Json.object members).stream ++ after = .beginObject :: (members.stream ++ .endObject :: after) := by
  rw [Json.stream, List.cons_append, List.append_assoc, List.singleton_append]

theorem Members.cons_stream (name : List Byte) (value : Json) (rest : Members) (after : List Token) :
    (Members.cons name value rest).stream ++ after =
      .propertyName name :: (value.stream ++ (rest.stream ++ after)) := by
  rw [Members.stream, List.cons_append, List.append_assoc]

def Token.closes : Token → Int
  | .beginObject => -1
  | .endObject => 1
  | _ => 0

/-- How many more objects end in the tokens than begin. -/
def closedObjects (tokens : List Token) : Int := (tokens.map Token.closes).sum

theorem closedObjects_cons (t : Token) (tokens : List Token) :
    closedObjects (t :: tokens) = t.closes + closedObjects tokens := by
  simp [closedObjects]

theorem closedObjects_append (s t : List Token) : closedObjects (s ++ t) = closedObjects s + closedObjects t := by
  simp [closedObjects]

mutual

theorem Json.closedObjects_stream (value : Json) : closedObjects value.stream = 0 := by
  cases value with
  | null => rfl
  | bool b => rfl
  | number spelling => rfl
  | string raw => rfl
  | array items =>
      rw [Json.stream, closedObjects_cons, closedObjects_append, Items.closedObjects_stream]
      rfl
  | object members =>
      rw [Json.stream, closedObjects_cons, closedObjects_append, Members.closedObjects_stream]
      rfl

theorem Items.closedObjects_stream (items : Items) : closedObjects items.stream = 0 := by
  cases items with
  | nil => rfl
  | cons value rest =>
      rw [Items.stream, closedObjects_append, Json.closedObjects_stream, Items.closedObjects_stream]
      rfl

theorem Members.closedObjects_stream (members : Members) : closedObjects members.stream = 0 := by
  cases members with
  | nil => rfl
  | cons name value rest =>
      rw [Members.stream, closedObjects_cons, closedObjects_append, Json.closedObjects_stream,
        Members.closedObjects_stream]
      rfl

end

/-- The first member of a name: its value and the members after it. -/
def Members.find (name : List Byte) : Members → Option (Json × Members)
  | .nil => none
  | .cons name' value rest => if name' = name then some (value, rest) else rest.find name

def Members.toList : Members → List (List Byte × Json)
  | .nil => []
  | .cons name value rest => (name, value) :: rest.toList

def Json.isObject : Json → Bool
  | .object _ => true
  | .null => false
  | .bool _ => false
  | .number _ => false
  | .string _ => false
  | .array _ => false

theorem Json.eq_object_of_isObject {value : Json} (h : value.isObject = true) :
    ∃ members, value = .object members := by
  cases value with
  | object members => exact ⟨members, rfl⟩
  | null => cases h
  | bool b => cases h
  | number spelling => cases h
  | string raw => cases h
  | array items => cases h

/-- The value of a number without fraction and exponent that 32 bits hold. -/
def int32Value (spelling : List Byte) : Option Int :=
  match spelling with
  | [] => none
  | c :: rest =>
      if c = ascii '-' then
        if rest ≠ [] ∧ rest.all isDigit ∧ digitsValue rest ≤ 2 ^ 31 then some (-(digitsValue rest : Int))
        else none
      else if spelling.all isDigit ∧ digitsValue spelling < 2 ^ 31 then some (digitsValue spelling)
      else none

/-- A value begins with a token that is no name and ends nothing. -/
theorem Json.stream_eq (value : Json) : ∃ t rest, value.stream = t :: rest ∧
    t.type ≠ .endObject ∧ (t.type = .beginObject ↔ value.isObject = true) := by
  cases value with
  | null => exact ⟨_, _, rfl, by decide, by decide⟩
  | bool b => exact ⟨_, _, rfl, by cases b <;> decide, by cases b <;> decide⟩
  | number spelling => exact ⟨_, _, rfl, TokenType.noConfusion, by simp [Token.type, isObject]⟩
  | string raw => exact ⟨_, _, rfl, TokenType.noConfusion, by simp [Token.type, isObject]⟩
  | array items => exact ⟨_, _, rfl, TokenType.noConfusion, by simp [Token.type, isObject]⟩
  | object members => exact ⟨_, _, rfl, TokenType.noConfusion, by simp [Token.type, isObject]⟩

/-- The functions of a reader. The two that move it leave it somewhere also when they fail. -/
structure Reader (ρ ε : Type) where
  nextToken : ρ → EStateM.Result ε ρ Unit
  tokenType : ρ → TokenType
  isTextEqual : ρ → List Byte → Bool
  stringGet : ρ → Nat → Except ε (List Byte)
  int32Get : ρ → Except ε Int
  skipChildren : ρ → EStateM.Result ε ρ Unit

/-- `if BEGIN_OBJECT`: the children of an object are skipped and the loop goes on. -/
def Reader.skipObject {ρ ε β : Type} (reader : Reader ρ ε) (failed again other : ρ → β) (r : ρ) : β :=
  if reader.tokenType r = .beginObject then
    match reader.skipChildren r with
    | .error _ r => failed r
    | .ok _ r => again r
  else other r

/-- What is relied on of a reader. It stands `Before` all tokens of a document, or `At` the first one
of those that are left. -/
structure LawfulReader {ρ ε : Type} (reader : Reader ρ ε) where
  Before : ρ → List Token → Prop
  At : ρ → List Token → Prop
  first : ∀ {r t rest}, Before r (t :: rest) →
    ∃ r', reader.nextToken r = .ok () r' ∧ At r' (t :: rest)
  next : ∀ {r t u rest}, At r (t :: u :: rest) →
    ∃ r', reader.nextToken r = .ok () r' ∧ At r' (u :: rest)
  tokenType_eq : ∀ {r t rest}, At r (t :: rest) → reader.tokenType r = t.type
  isTextEqual_eq : ∀ {r name rest} (s : List Byte), At r (.propertyName name :: rest) →
    reader.isTextEqual r s = decide (name = s)
  stringGet_eq : ∀ {r name rest n}, At r (.propertyName name :: rest) → name.length < n →
    reader.stringGet r n = .ok name
  int32Get_eq : ∀ {r spelling rest v}, At r (.number spelling :: rest) →
    int32Value spelling = some v → reader.int32Get r = .ok v
  skipChildren_eq : ∀ {r rest} (members : Members),
    At r (.beginObject :: (members.stream ++ .endObject :: rest)) →
      ∃ r', reader.skipChildren r = .ok () r' ∧ At r' (.endObject :: rest)

/-- What is relied on of the refusals of a reader: a name that does not fit and a value that is no number
of 32 bits are refused. -/
structure LawfulReader.Refuses {ρ ε : Type} {reader : Reader ρ ε} (law : LawfulReader reader) : Prop where
  stringGet_error : ∀ {r name rest n}, law.At r (.propertyName name :: rest) → n ≤ name.length →
    ∃ e, reader.stringGet r n = .error e
  int32Get_error : ∀ {r rest} (value : Json), law.At r (value.stream ++ rest) →
    (∀ spelling, value = .number spelling → int32Value spelling = none) →
      ∃ e, reader.int32Get r = .error e

/-- What is relied on of the place of a reader: there is one. -/
def LawfulReader.Definite {ρ ε : Type} {reader : Reader ρ ε} (law : LawfulReader reader) : Prop :=
  ∀ {r s t}, law.At r s → law.At r t → s = t

section passing

variable {ρ ε β : Type} {reader : Reader ρ ε} (law : LawfulReader reader)

/-- A loop with fuel that goes on after a token that is no name and ends no object, and that skips
the children of an object. -/
structure Idle (reader : Reader ρ ε) (loop : Nat → ρ → β) : Prop where
  plain : ∀ {n r r'}, reader.nextToken r = .ok () r' → reader.tokenType r' ≠ .propertyName →
    reader.tokenType r' ≠ .beginObject → reader.tokenType r' ≠ .endObject → loop (n + 1) r = loop n r'
  skip : ∀ {n r r' r''}, reader.nextToken r = .ok () r' → reader.tokenType r' = .beginObject →
    reader.skipChildren r' = .ok () r'' → loop (n + 1) r = loop n r''

/-- The loop gets from `r` to some token in front of `rest`, in a number of rounds. -/
def Passes (loop : Nat → ρ → β) (r : ρ) (rest : List Token) : Prop :=
  ∃ k r' t, law.At r' (t :: rest) ∧ ∀ n, loop (n + k) r = loop n r'

variable {loop : Nat → ρ → β} {law}

theorem Passes.trans {r r' : ρ} {t : Token} {k : Nat} {rest rest' : List Token}
    (hfirst : ∀ n, loop (n + k) r = loop n r') (hat : law.At r' (t :: rest'))
    (hrest : law.At r' (t :: rest') → Passes law loop r' rest) : Passes law loop r rest := by
  obtain ⟨k', r'', u, hat', hloop⟩ := hrest hat
  refine ⟨k' + k, r'', u, hat', fun n => ?_⟩
  rw [← Nat.add_assoc, hfirst, hloop]

theorem Idle.pass_plain (hidle : Idle reader loop) {r : ρ} {t u : Token} {rest : List Token}
    (hat : law.At r (t :: u :: rest)) (hplain : u.isPlain = true) :
    ∃ r', law.At r' (u :: rest) ∧ ∀ n, loop (n + 1) r = loop n r' := by
  obtain ⟨r', hnext, hat'⟩ := law.next hat
  obtain ⟨hname, hbegin, hend⟩ := Token.type_of_isPlain hplain
  rw [← law.tokenType_eq hat'] at hname hbegin hend
  exact ⟨r', hat', fun n => hidle.plain hnext hname hbegin hend⟩

mutual

/-- The loop passes over a value. -/
theorem Idle.pass_value (hidle : Idle reader loop) {r : ρ} {t : Token} {rest : List Token}
    (value : Json) (hat : law.At r (t :: (value.stream ++ rest))) : Passes law loop r rest := by
  cases value with
  | null =>
      obtain ⟨r', hat', hloop⟩ := hidle.pass_plain hat rfl
      exact ⟨1, r', _, hat', hloop⟩
  | bool b =>
      obtain ⟨r', hat', hloop⟩ := hidle.pass_plain hat rfl
      exact ⟨1, r', _, hat', hloop⟩
  | number spelling =>
      obtain ⟨r', hat', hloop⟩ := hidle.pass_plain hat rfl
      exact ⟨1, r', _, hat', hloop⟩
  | string raw =>
      obtain ⟨r', hat', hloop⟩ := hidle.pass_plain hat rfl
      exact ⟨1, r', _, hat', hloop⟩
  | array items =>
      rw [Json.stream, List.cons_append, List.append_assoc] at hat
      obtain ⟨r', hat', hloop⟩ := hidle.pass_plain hat rfl
      apply Passes.trans hloop hat'
      intro hat'
      obtain ⟨k, r'', u, hat'', hloop'⟩ := Idle.pass_items hidle items hat'
      apply Passes.trans hloop' hat''
      intro hat''
      obtain ⟨r₃, hat₃, hloop₃⟩ := hidle.pass_plain hat'' rfl
      exact ⟨1, r₃, _, hat₃, hloop₃⟩
  | object members =>
      rw [Json.object_stream] at hat
      obtain ⟨r', hnext, hat'⟩ := law.next hat
      obtain ⟨r'', hskip, hat''⟩ := law.skipChildren_eq members hat'
      exact ⟨1, r'', _, hat'', fun n => hidle.skip hnext (law.tokenType_eq hat') hskip⟩

theorem Idle.pass_items (hidle : Idle reader loop) {r : ρ} {t : Token} {rest : List Token}
    (items : Items) (hat : law.At r (t :: (items.stream ++ rest))) : Passes law loop r rest := by
  cases items with
  | nil => exact ⟨0, r, t, hat, fun n => rfl⟩
  | cons value others =>
      rw [Items.stream, List.append_assoc] at hat
      obtain ⟨k, r', u, hat', hloop⟩ := Idle.pass_value hidle value hat
      exact Passes.trans hloop hat' fun hat' => Idle.pass_items hidle others hat'

end

/-- When the first token of a value that is no object is already read, the loop passes over the
others. -/
theorem Idle.pass_rest (hidle : Idle reader loop) {r : ρ} {rest : List Token} (value : Json)
    (hvalue : value.isObject = false) (hat : law.At r (value.stream ++ rest)) :
    Passes law loop r rest := by
  cases value with
  | null => exact ⟨0, r, _, hat, fun n => rfl⟩
  | bool b => exact ⟨0, r, _, hat, fun n => rfl⟩
  | number spelling => exact ⟨0, r, _, hat, fun n => rfl⟩
  | string raw => exact ⟨0, r, _, hat, fun n => rfl⟩
  | array items =>
      rw [Json.stream, List.cons_append, List.append_assoc] at hat
      obtain ⟨k, r', u, hat', hloop⟩ := hidle.pass_items items hat
      apply Passes.trans hloop hat'
      intro hat'
      obtain ⟨r'', hat'', hloop'⟩ := hidle.pass_plain hat' rfl
      exact ⟨1, r'', _, hat'', hloop'⟩
  | object members => cases hvalue

theorem LawfulReader.next_value (law : LawfulReader reader) {r : ρ} {t : Token} {rest : List Token}
    (value : Json) (hat : law.At r (t :: (value.stream ++ rest))) :
    ∃ r', reader.nextToken r = .ok () r' ∧ law.At r' (value.stream ++ rest) := by
  obtain ⟨u, others, hstream, -, -⟩ := value.stream_eq
  rw [hstream, List.cons_append] at hat ⊢
  exact law.next hat

/-- The two steps onto a name and onto its value. -/
theorem LawfulReader.next_member (law : LawfulReader reader) {r : ρ} {t : Token} {name : List Byte}
    {rest : List Token} (value : Json) (hat : law.At r (t :: .propertyName name :: (value.stream ++ rest))) :
    ∃ r₁ r₂, reader.nextToken r = .ok () r₁ ∧ law.At r₁ (.propertyName name :: (value.stream ++ rest)) ∧
      reader.nextToken r₁ = .ok () r₂ ∧ law.At r₂ (value.stream ++ rest) := by
  obtain ⟨r₁, hnext, hname⟩ := law.next hat
  obtain ⟨r₂, hnext', hvalue⟩ := law.next_value value hname
  exact ⟨r₁, r₂, hnext, hname, hnext', hvalue⟩

theorem LawfulReader.tokenType_value (law : LawfulReader reader) {r : ρ} {rest : List Token}
    {value : Json} (hat : law.At r (value.stream ++ rest)) : reader.tokenType r ≠ .endObject ∧
      (reader.tokenType r = .beginObject ↔ value.isObject = true) := by
  obtain ⟨t, others, hstream, hend, hbegin⟩ := value.stream_eq
  rw [hstream, List.cons_append] at hat
  rw [law.tokenType_eq hat]
  exact ⟨hend, hbegin⟩

/-- The loop passes over a value whose first token is already read, when it skips the children of an
object first. -/
theorem Idle.pass_current (hidle : Idle reader loop) {r : ρ} {rest : List Token} {value : Json}
    (failed : ρ → β) (other : Nat → ρ → β) (hat : law.At r (value.stream ++ rest))
    (hother : value.isObject = false → ∀ n, other n r = loop n r) :
    ∃ k r' t, law.At r' (t :: rest) ∧
      ∀ n, reader.skipObject failed (loop (n + k)) (other (n + k)) r = loop n r' := by
  have hbegin := (law.tokenType_value hat).2
  cases hvalue : value.isObject with
  | false =>
      obtain ⟨k, r', t, hat', hloop⟩ := hidle.pass_rest value hvalue hat
      refine ⟨k, r', t, hat', fun n => ?_⟩
      rw [Reader.skipObject, if_neg, hother hvalue, hloop]
      rw [hbegin, hvalue]
      exact Bool.false_ne_true
  | true =>
      obtain ⟨members, rfl⟩ := Json.eq_object_of_isObject hvalue
      rw [Json.object_stream] at hat
      obtain ⟨r', hskip, hat'⟩ := law.skipChildren_eq members hat
      refine ⟨0, r', _, hat', fun n => ?_⟩
      rw [Reader.skipObject, if_pos (hbegin.2 hvalue), hskip]
      rfl

end passing

section returning

variable {ρ ρ' γ γ' : Type} {loop loop' : Nat → ρ → Option γ} {r r' : ρ} {x : γ}

/-- From some amount of fuel on the loop returns `x`. -/
def Returns (loop : Nat → ρ → Option γ) (r : ρ) (x : γ) : Prop := ∃ k, ∀ n, k ≤ n → loop n r = some x

theorem Returns.of_round (hround : ∀ n, loop (n + 1) r = some x) : Returns loop r x := by
  refine ⟨1, fun n hn => ?_⟩
  rw [← hround (n - 1), Nat.sub_add_cancel hn]

/-- After some rounds the loop is in the state of another one that returns. -/
theorem Returns.after {k : Nat} (h : Returns loop' r' x) (hrounds : ∀ n, loop (n + k) r = loop' n r') :
    Returns loop r x := by
  obtain ⟨k', h⟩ := h
  refine ⟨k' + k, fun n hn => ?_⟩
  rw [← h (n - k) (Nat.le_sub_of_add_le hn), ← hrounds, Nat.sub_add_cancel (by omega)]

/-- A round that runs another loop with the fuel that is left. -/
theorem Returns.after_call {inner : Nat → ρ' → Option γ'} {s : ρ'} {y : γ'} (hinner : Returns inner s y)
    (h : Returns loop' r' x) (hround : ∀ n, inner n s = some y → loop (n + 1) r = loop' n r') :
    Returns loop r x := by
  obtain ⟨k, hinner⟩ := hinner
  obtain ⟨k', h⟩ := h
  refine ⟨k + k' + 1, fun n hn => ?_⟩
  rw [← h (n - 1) (by omega), ← hround (n - 1) (hinner (n - 1) (by omega)),
    Nat.sub_add_cancel (by omega)]

/-- A round that runs another loop and ends. -/
theorem Returns.of_call {inner : Nat → ρ' → Option γ'} {s : ρ'} {y : γ'} (hinner : Returns inner s y)
    (hround : ∀ n, inner n s = some y → loop (n + 1) r = some x) : Returns loop r x := by
  obtain ⟨k, hinner⟩ := hinner
  refine ⟨k + 1, fun n hn => ?_⟩
  rw [← hround (n - 1) (hinner (n - 1) (by omega)), Nat.sub_add_cancel (by omega)]

end returning

/-- A reader of a list of tokens. -/
structure ListReader where
  started : Bool
  tokens : List Token
  deriving DecidableEq, Repr

namespace ListReader

/-- What is left when the current object or array ends, `depth` more being open in it. -/
def skipFrom : Nat → List Token → List Token
  | _, [] => []
  | depth, .beginObject :: rest => skipFrom (depth + 1) rest
  | depth, .beginArray :: rest => skipFrom (depth + 1) rest
  | 0, .endObject :: rest => .endObject :: rest
  | 0, .endArray :: rest => .endArray :: rest
  | depth + 1, .endObject :: rest => skipFrom depth rest
  | depth + 1, .endArray :: rest => skipFrom depth rest
  | depth, .propertyName _ :: rest => skipFrom depth rest
  | depth, .string _ :: rest => skipFrom depth rest
  | depth, .number _ :: rest => skipFrom depth rest
  | depth, .bool _ :: rest => skipFrom depth rest
  | depth, .null :: rest => skipFrom depth rest

variable {ε : Type} (failure : ε)

def nextToken (r : ListReader) : EStateM.Result ε ListReader Unit :=
  match r.started, r.tokens with
  | false, t :: rest => .ok () ⟨true, t :: rest⟩
  | true, _ :: t :: rest => .ok () ⟨true, t :: rest⟩
  | _, _ => .error failure r

/-- The functions of the reader; every failure has the same code. -/
def reader : Reader ListReader ε where
  nextToken := nextToken failure
  tokenType r :=
    match r.tokens with
    | t :: _ => if r.started then t.type else .none
    | [] => .none
  isTextEqual r s := r.tokens.head? = some (.propertyName s) ∨ r.tokens.head? = some (.string s)
  stringGet r n :=
    match r.tokens with
    | .propertyName s :: _ => if s.length < n then .ok s else .error failure
    | .string s :: _ => if s.length < n then .ok s else .error failure
    | _ => .error failure
  int32Get r :=
    match r.tokens with
    | .number spelling :: _ =>
        match int32Value spelling with
        | some v => .ok v
        | none => .error failure
    | _ => .error failure
  skipChildren r :=
    match r.tokens with
    | .beginObject :: rest => .ok () ⟨true, skipFrom 0 rest⟩
    | .beginArray :: rest => .ok () ⟨true, skipFrom 0 rest⟩
    | _ => .ok () r

mutual

theorem skipFrom_value (depth : Nat) (rest : List Token) (value : Json) :
    skipFrom depth (value.stream ++ rest) = skipFrom depth rest := by
  cases value with
  | null => cases depth <;> rfl
  | bool b => cases depth <;> rfl
  | number spelling => cases depth <;> rfl
  | string raw => cases depth <;> rfl
  | array items =>
      rw [Json.stream, List.cons_append, List.append_assoc, skipFrom, skipFrom_items]
      rfl
  | object members =>
      rw [Json.stream, List.cons_append, List.append_assoc, skipFrom, skipFrom_members]
      rfl

theorem skipFrom_items (depth : Nat) (rest : List Token) (items : Items) :
    skipFrom depth (items.stream ++ rest) = skipFrom depth rest := by
  cases items with
  | nil => rfl
  | cons value others => rw [Items.stream, List.append_assoc, skipFrom_value, skipFrom_items]

theorem skipFrom_members (depth : Nat) (rest : List Token) (members : Members) :
    skipFrom depth (members.stream ++ rest) = skipFrom depth rest := by
  cases members with
  | nil => rfl
  | cons name value others =>
      have hname : skipFrom depth (.propertyName name :: (value.stream ++ others.stream ++ rest)) =
          skipFrom depth (value.stream ++ others.stream ++ rest) := by
        cases depth <;> rfl
      rw [Members.stream, List.cons_append, hname, List.append_assoc, skipFrom_value, skipFrom_members]

end

def lawful : LawfulReader (reader failure) where
  Before r tokens := r = ⟨false, tokens⟩
  At r tokens := r = ⟨true, tokens⟩
  first h := ⟨_, by rw [h]; rfl, rfl⟩
  next h := ⟨_, by rw [h]; rfl, rfl⟩
  tokenType_eq h := by rw [h]; rfl
  isTextEqual_eq s h := by simp [h, reader]
  stringGet_eq h hfits := by rw [h]; exact if_pos hfits
  int32Get_eq h hvalue := by rw [h]; simp only [reader, hvalue]
  skipChildren_eq members h := by
    refine ⟨_, ?_, rfl⟩
    rw [h]
    simp only [reader, skipFrom_members]
    rfl

theorem refuses : (lawful failure).Refuses where
  stringGet_error := by
    rintro r name rest n rfl hlong
    exact ⟨failure, if_neg (Nat.not_lt.mpr hlong)⟩
  int32Get_error := by
    rintro r rest value rfl hvalue
    refine ⟨failure, ?_⟩
    cases value with
    | number spelling => simp only [reader, Json.stream, List.cons_append, hvalue spelling rfl]
    | null => rfl
    | bool b => rfl
    | string raw => rfl
    | array items => rfl
    | object members => rfl

theorem definite : (lawful failure).Definite := by
  intro r s t hs ht
  exact (ListReader.mk.inj (hs.symm.trans ht)).2

end ListReader

end DeviceSample.Base
