import DeviceSample.BasePrint
import DeviceSample.BaseReader

/-!
Append-only writers of JSON. A chain of appends ends at the first one that is refused; when it gets to its end, it
has appended the tokens of all its parts.
-/

namespace DeviceSample.Base

/-- A writer: its tokens, how many appends were tried on it, and which it refuses, with which error. -/
structure JsonWriter (ε : Type) where
  tokens : List Token
  tried : Nat
  refusal : Nat → Option ε

/-- Chains of appends. -/
abbrev WriterM (ε : Type) := EStateM ε (JsonWriter ε)

section appends

variable {ε : Type}

def append (token : Token) : WriterM ε Unit := fun w =>
  match w.refusal w.tried with
  | none => .ok () { w with tokens := w.tokens ++ [token], tried := w.tried + 1 }
  | some e => .error e { w with tried := w.tried + 1 }

def appendPropertyWithStringValue (name value : List Byte) : WriterM ε Unit := do
  append (.propertyName name)
  append (.string value)

def appendPropertyWithInt32Value (name : List Byte) (value : BitVec 32) : WriterM ε Unit := do
  append (.propertyName name)
  append (.number (signedDecimal value.toInt))

/-- From `w` to `w'` the tokens were appended, and no append was refused. -/
structure Appended (w : JsonWriter ε) (tokens : List Token) (w' : JsonWriter ε) : Prop where
  tokens_eq : w'.tokens = w.tokens ++ tokens
  refusal_eq : w'.refusal = w.refusal
  accepted : ∀ i, w.tried ≤ i → i < w'.tried → w.refusal i = none

/-- Some append from `w` to `w'` was refused. -/
def Refused (w w' : JsonWriter ε) : Prop := ∃ i, w.tried ≤ i ∧ i < w'.tried ∧ w.refusal i ≠ none

/-- A call that appends tokens of a shape, with no append refused, or fails. -/
structure Appender (ε : Type) (Shape : List Token → Prop) where
  call : WriterM ε Unit
  appends : ∀ ⦃w w' : JsonWriter ε⦄, call w = .ok () w' → ∃ tokens, Shape tokens ∧ Appended w tokens w'

/-- Exactly one value. -/
def IsValue (tokens : List Token) : Prop := ∃ value : Json, tokens = value.stream

/-- Exactly one member. -/
def IsMember (tokens : List Token) : Prop :=
  ∃ (name : List Byte) (value : Json), tokens = .propertyName name :: value.stream

variable {w w' w'' : JsonWriter ε} {s t : List Token}

theorem Appended.trans (h : Appended w s w') (h' : Appended w' t w'') : Appended w (s ++ t) w'' where
  tokens_eq := by rw [h'.tokens_eq, h.tokens_eq, List.append_assoc]
  refusal_eq := h'.refusal_eq.trans h.refusal_eq
  accepted i hfrom hto := by
    rcases Nat.lt_or_ge i w'.tried with hfirst | hsecond
    · exact h.accepted i hfrom hfirst
    · rw [← h.refusal_eq]
      exact h'.accepted i hsecond hto

theorem Appended.not_refused (h : Appended w s w') : ¬Refused w w' := by
  rintro ⟨i, hfrom, hto, hrefused⟩
  exact hrefused (h.accepted i hfrom hto)

theorem bind_ok {first second : WriterM ε Unit} (h : (first >>= fun _ => second) w = .ok () w'') :
    ∃ w', first w = .ok () w' ∧ second w' = .ok () w'' := by
  simp only [bind, EStateM.bind] at h
  cases hfirst : first w with
  | ok u w' =>
      rw [hfirst] at h
      exact ⟨w', rfl, h⟩
  | error e w' =>
      rw [hfirst] at h
      cases h

/-- A chain that appends these tokens when it gets to its end. -/
def Writes (chain : WriterM ε Unit) (tokens : List Token) : Prop :=
  ∀ ⦃w w' : JsonWriter ε⦄, chain w = .ok () w' → Appended w tokens w'

theorem writes_pure : Writes (pure () : WriterM ε Unit) [] := by
  intro w w' h
  cases h
  exact ⟨(List.append_nil _).symm, rfl, fun i hfrom hto => absurd hto (Nat.not_lt.mpr hfrom)⟩

theorem writes_append (token : Token) : Writes (append token : WriterM ε Unit) [token] := by
  intro w w' h
  rw [append] at h
  split at h
  · rename_i haccepted
    cases h
    refine ⟨rfl, rfl, fun i hfrom hto => ?_⟩
    have hthis : i = w.tried := Nat.le_antisymm (Nat.lt_succ_iff.mp hto) hfrom
    rw [hthis]
    exact haccepted
  · cases h

theorem Writes.seq {first second : WriterM ε Unit} (h : Writes first s) (h' : Writes second t) :
    Writes (first >>= fun _ => second) (s ++ t) := by
  intro w w'' hchain
  obtain ⟨w', hfirst, hsecond⟩ := bind_ok hchain
  exact (h hfirst).trans (h' hsecond)

theorem writes_stringValue (name value : List Byte) :
    Writes (appendPropertyWithStringValue name value : WriterM ε Unit) [.propertyName name, .string value] :=
  (writes_append _).seq (writes_append _)

theorem writes_int32Value (name : List Byte) (value : BitVec 32) :
    Writes (appendPropertyWithInt32Value name value : WriterM ε Unit)
      [.propertyName name, .number (signedDecimal value.toInt)] :=
  (writes_append _).seq (writes_append _)

/-- A chain that appends `s`, runs the call, and appends `t`. -/
def Encloses (call chain : WriterM ε Unit) (s t : List Token) : Prop :=
  ∀ ⦃w w' : JsonWriter ε⦄, chain w = .ok () w' → ∃ w₁ w₂, call w₁ = .ok () w₂ ∧
    ∀ tokens, Appended w₁ tokens w₂ → Appended w (s ++ (tokens ++ t)) w'

theorem encloses_call (call : WriterM ε Unit) {back : WriterM ε Unit} (hback : Writes back t) :
    Encloses call (call >>= fun _ => back) [] t := by
  intro w w' hchain
  obtain ⟨w₂, hcall, hrest⟩ := bind_ok hchain
  exact ⟨w, w₂, hcall, fun tokens happended => happended.trans (hback hrest)⟩

theorem Writes.encloses {call first chain : WriterM ε Unit} {s' : List Token} (hfirst : Writes first s)
    (hchain : Encloses call chain s' t) : Encloses call (first >>= fun _ => chain) (s ++ s') t := by
  intro w w' h
  obtain ⟨w₀, hbegun, hrest⟩ := bind_ok h
  obtain ⟨w₁, w₂, hcall, hbetween⟩ := hchain hrest
  refine ⟨w₁, w₂, hcall, fun tokens happended => ?_⟩
  rw [List.append_assoc]
  exact (hfirst hbegun).trans (hbetween tokens happended)

end appends

end DeviceSample.Base
