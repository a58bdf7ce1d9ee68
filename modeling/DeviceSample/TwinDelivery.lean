import DeviceSample.TwinWalker
import Mathlib.Data.List.Forall2

/-!
What the walk reports. The callback is called once for each property that the desired object holds, in
the order of the document, for every lawful reader and enough fuel.
-/

namespace DeviceSample.Twin

open Base

/-- A call that is due: the component or none, the property, and the tokens from its value on. -/
structure Delivery where
  component : Option (List Byte)
  property : List Byte
  position : List Token
  deriving DecidableEq

/-- The list of components, when there is one, has the name. -/
def listed (components : Option (List CString)) (name : List Byte) : Bool :=
  match components with
  | none => false
  | some list => list.any fun c => c.bytes = name

/-- The properties in the object of a component; `after` are the tokens behind its members. -/
def componentDeliveries (component : List Byte) : Members → List Token → List Delivery
  | .nil, _ => []
  | .cons name value rest, after =>
      if name = pnpComponentTypePropertyName ∨ name = twinDesiredVersion then
        componentDeliveries component rest after
      else
        ⟨some component, name, value.stream ++ (rest.stream ++ after)⟩ ::
          componentDeliveries component rest after

/-- The properties that a member of the desired object stands for: those in a listed component, or the
member itself. -/
def memberDeliveries (components : Option (List CString)) (name : List Byte) (value : Json)
    (after : List Token) : List Delivery :=
  match value with
  | .object members =>
      if listed components name then componentDeliveries name members (.endObject :: after)
      else [⟨none, name, value.stream ++ after⟩]
  | _ => [⟨none, name, value.stream ++ after⟩]

/-- The properties in the desired object. -/
def desiredDeliveries (components : Option (List CString)) : Members → List Token → List Delivery
  | .nil, _ => []
  | .cons name value rest, after =>
      if name = twinDesiredVersion then desiredDeliveries components rest after
      else
        memberDeliveries components name value (rest.stream ++ after) ++
          desiredDeliveries components rest after

/-- The names of the members fit in the scratch buffer, and those that are stepped over hold no
object. -/
structure Walkable (scratchBufLen : Nat) (steppedOver : List (List Byte)) (members : Members) : Prop where
  fits : ∀ p ∈ members.toList, p.1.length < scratchBufLen
  plain : ∀ p ∈ members.toList, p.1 ∈ steppedOver → p.2.isObject = false

theorem Walkable.rest {scratchBufLen : Nat} {steppedOver : List (List Byte)} {name : List Byte}
    {value : Json} {rest : Members} (h : Walkable scratchBufLen steppedOver (.cons name value rest)) :
    Walkable scratchBufLen steppedOver rest where
  fits p hmem := h.fits p (List.mem_cons_of_mem _ hmem)
  plain p hmem := h.plain p (List.mem_cons_of_mem _ hmem)

section loops

variable {ρ : Type} {reader : Reader ρ Status} {law : LawfulReader reader}

/-- The call is the one that is due. -/
structure Delivered (law : LawfulReader reader) (version : BitVec 32) (call : Call ρ) (d : Delivery) :
    Prop where
  component_eq : call.component = d.component
  property_eq : call.property = d.property
  value_at : law.At call.value d.position
  version_eq : call.version = version

theorem move_idle (propertyName : List Byte) :
    Idle reader (sampleJsonChildTokenMove reader propertyName) where
  plain hnext hname hbegin hend := by
    simp only [sampleJsonChildTokenMove, hnext, Reader.skipObject, if_neg hbegin, if_neg hend,
      if_neg fun h => hname (And.left h)]
  skip hnext hbegin hskip := by
    simp only [sampleJsonChildTokenMove, hnext, Reader.skipObject, hbegin, hskip]
    simp

/-- The reader is moved to the value of the first member of the name. -/
theorem move_finds {propertyName : List Byte} {value : Json} {rest : Members} {after : List Token}
    (members : Members) {r : ρ} {t : Token} (hfind : members.find propertyName = some (value, rest))
    (hat : law.At r (t :: (members.stream ++ after))) :
    ∃ r', law.At r' (value.stream ++ (rest.stream ++ after)) ∧
      Returns (sampleJsonChildTokenMove reader propertyName) r (.success, r') := by
  cases members with
  | nil => cases hfind
  | cons name value' rest' =>
      rw [Members.cons_stream] at hat
      obtain ⟨r₁, r₂, hnext, hname, hnext', hvalue⟩ := law.next_member value' hat
      have htype := law.tokenType_eq hname
      have htext := law.isTextEqual_eq propertyName hname
      rw [Members.find] at hfind
      split at hfind
      · rename_i hequal
        cases hfind
        refine ⟨r₂, hvalue, Returns.of_round fun n => ?_⟩
        simp only [sampleJsonChildTokenMove, hnext, hnext', htype, htext, hequal]
        simp [Token.type]
      · rename_i hother
        obtain ⟨k, r₃, u, hat', hrounds⟩ := (move_idle propertyName).pass_value value' hname
        obtain ⟨r', hfound, hreturns⟩ := move_finds rest' hfind hat'
        refine ⟨r', hfound, (hreturns.after hrounds).after (k := 1) fun n => ?_⟩
        simp only [sampleJsonChildTokenMove, hnext, htype, htext, Reader.skipObject, Token.type]
        simp [hother]

theorem endOfRound_end {again : List (Call ρ) → ρ → Option (Status × ρ × List (Call ρ))}
    {calls : List (Call ρ)} {r : ρ} (hend : reader.tokenType r = .endObject) :
    endOfRound reader again calls r = some (.success, r, calls) := by
  rw [endOfRound, Reader.skipObject, if_neg (by rw [hend]; exact TokenType.noConfusion), if_pos hend]

theorem endOfRound_plain {again : List (Call ρ) → ρ → Option (Status × ρ × List (Call ρ))}
    {calls : List (Call ρ)} {r : ρ} (hbegin : reader.tokenType r ≠ .beginObject)
    (hend : reader.tokenType r ≠ .endObject) : endOfRound reader again calls r = again calls r := by
  rw [endOfRound, Reader.skipObject, if_neg hbegin, if_neg hend]

theorem endOfRound_skip {again : List (Call ρ) → ρ → Option (Status × ρ × List (Call ρ))}
    {calls : List (Call ρ)} {r r' : ρ} (hbegin : reader.tokenType r = .beginObject)
    (hskip : reader.skipChildren r = .ok () r') : endOfRound reader again calls r = again calls r' := by
  rw [endOfRound, Reader.skipObject, if_pos hbegin, hskip]

section component

variable {component : List Byte} {version : BitVec 32} {scratchBufLen : Nat}

theorem visit_round {n : Nat} {calls : List (Call ρ)} {r r' : ρ} (hnext : reader.nextToken r = .ok () r')
    (hname : reader.tokenType r' ≠ .propertyName) :
    visitComponentProperties reader component version scratchBufLen (n + 1) calls r =
      endOfRound reader (visitComponentProperties reader component version scratchBufLen n) calls r' := by
  rw [visitComponentProperties, hnext]
  exact if_neg hname

variable (component version scratchBufLen) in
theorem visit_idle (calls : List (Call ρ)) :
    Idle reader (fun n => visitComponentProperties reader component version scratchBufLen n calls) where
  plain hnext hname hbegin hend := by
    rw [visit_round hnext hname, endOfRound_plain hbegin hend]
  skip hnext hbegin hskip := by
    rw [visit_round hnext (by rw [hbegin]; exact TokenType.noConfusion), endOfRound_skip hbegin hskip]

/-- A round at a name. -/
theorem visit_name {n : Nat} {calls : List (Call ρ)} {r r₁ r₂ : ρ} {name : List Byte}
    {value : List Token} (hfits : name.length < scratchBufLen) (hnext : reader.nextToken r = .ok () r₁)
    (hname : law.At r₁ (.propertyName name :: value)) (hnext' : reader.nextToken r₁ = .ok () r₂) :
    visitComponentProperties reader component version scratchBufLen (n + 1) calls r =
      if name = pnpComponentTypePropertyName ∨ name = twinDesiredVersion then
        visitComponentProperties reader component version scratchBufLen n calls r₂
      else
        endOfRound reader (visitComponentProperties reader component version scratchBufLen n)
          (calls ++ [⟨some component, name, r₂, version⟩]) r₂ := by
  rw [visitComponentProperties, hnext]
  simp only [law.tokenType_eq hname, Token.type, law.stringGet_eq hname hfits, hnext', if_true]
  by_cases htype : name = pnpComponentTypePropertyName
  · rw [if_pos htype, if_pos (Or.inl htype)]
  · rw [if_neg htype]
    simp only [htype, false_or]

/-- The loop behind a value that was just reported. -/
theorem endOfRound_value {loop : Nat → List (Call ρ) → ρ → Option (Status × ρ × List (Call ρ))}
    {calls : List (Call ρ)} {r : ρ} {value : Json} {rest : List Token}
    (hidle : Idle reader fun n => loop n calls) (hat : law.At r (value.stream ++ rest)) :
    ∃ k r' t, law.At r' (t :: rest) ∧
      ∀ n, endOfRound reader (loop (n + k)) calls r = loop n calls r' := by
  have hend := (law.tokenType_value hat).1
  exact hidle.pass_current _ (fun n r =>
    if reader.tokenType r = .endObject then some (.success, r, calls) else loop n calls r) hat
    fun _ n => if_neg hend

variable (component version) in
/-- The walk over a component reports each of its properties, and stops at the end of its object. -/
theorem visit_delivers (members : Members) {after : List Token} (calls : List (Call ρ)) {r : ρ} {t : Token}
    (hwalk : Walkable scratchBufLen [pnpComponentTypePropertyName, twinDesiredVersion] members)
    (hat : law.At r (t :: (members.stream ++ .endObject :: after))) :
    ∃ r' delivered, law.At r' (.endObject :: after) ∧
      List.Forall₂ (Delivered law version) delivered
        (componentDeliveries component members (.endObject :: after)) ∧
      Returns (fun n => visitComponentProperties reader component version scratchBufLen n calls) r
        (.success, r', calls ++ delivered) := by
  cases members with
  | nil =>
      obtain ⟨r', hnext, hend⟩ := law.next hat
      have htype : reader.tokenType r' = .endObject := law.tokenType_eq hend
      refine ⟨r', [], hend, List.Forall₂.nil, Returns.of_round fun n => ?_⟩
      rw [visit_round hnext (by rw [htype]; exact TokenType.noConfusion), endOfRound_end htype,
        List.append_nil]
  | cons name value rest =>
      rw [Members.cons_stream] at hat
      obtain ⟨r₁, r₂, hnext, hname, hnext', hvalue⟩ := law.next_member value hat
      have hfits := hwalk.fits (name, value) List.mem_cons_self
      rw [componentDeliveries]
      by_cases hover : name = pnpComponentTypePropertyName ∨ name = twinDesiredVersion
      · have hplain := hwalk.plain (name, value) List.mem_cons_self (by simpa using hover)
        obtain ⟨k, r₃, u, hat', hrounds⟩ :=
          (visit_idle component version scratchBufLen calls).pass_rest value hplain hvalue
        obtain ⟨r', delivered, hend, hdelivered, hreturns⟩ := visit_delivers rest _ hwalk.rest hat'
        rw [if_pos hover]
        refine ⟨r', delivered, hend, hdelivered, hreturns.after (k := k + 1) fun n => ?_⟩
        exact (visit_name hfits hnext hname hnext').trans ((if_pos hover).trans (hrounds n))
      · obtain ⟨k, r₃, u, hat', hrounds⟩ := endOfRound_value
          (visit_idle component version scratchBufLen
          (calls ++ [⟨some component, name, r₂, version⟩])) hvalue
        obtain ⟨r', delivered, hend, hdelivered, hreturns⟩ := visit_delivers rest _ hwalk.rest hat'
        rw [if_neg hover]
        refine ⟨r', ⟨some component, name, r₂, version⟩ :: delivered, hend,
          List.Forall₂.cons ⟨rfl, rfl, hvalue, rfl⟩ hdelivered, ?_⟩
        rw [List.append_cons]
        apply hreturns.after (k := k + 1)
        intro n
        exact (visit_name hfits hnext hname hnext').trans ((if_neg hover).trans (hrounds n))

end component

theorem isComponentInModel_ok {name : List Byte} {components : List CString}
    {index : Fin components.length} (h : isComponentInModel name components = .ok index) :
    (components.get index).bytes = name := by
  unfold isComponentInModel at h
  split at h
  · cases h
  · split at h
    · rename_i found hfind
      cases h
      simpa using (List.findFinIdx?_eq_some_iff.1 hfind).1
    · cases h

theorem isComponentInModel_error {name : List Byte} {components : List CString} {status : Status}
    (hnames : ∀ c ∈ components, c.bytes ≠ []) (h : isComponentInModel name components = .error status) :
    ∀ c ∈ components, c.bytes ≠ name := by
  unfold isComponentInModel at h
  split at h
  · rename_i hempty
    rw [hempty]
    exact hnames
  · split at h
    · cases h
    · rename_i hfind
      simpa using List.findFinIdx?_eq_none_iff.1 hfind

/-- Component names are not empty. -/
def Named (components : Option (List CString)) : Prop :=
  ∀ list, components = some list → ∀ c ∈ list, c.bytes ≠ []

theorem componentOf_eq {components : Option (List CString)} (hnames : Named components) (name : List Byte)
    (type : TokenType) : componentOf components type name =
      if type = .beginObject ∧ listed components name = true then some name else none := by
  by_cases hbegin : type = .beginObject
  · unfold componentOf
    rw [if_pos hbegin]
    cases components with
    | none => exact (if_neg fun h => Bool.false_ne_true h.2).symm
    | some list =>
        cases hmodel : isComponentInModel name list with
        | ok index =>
            have hlisted : listed (some list) name = true := by
              rw [listed, List.any_eq_true]
              exact ⟨list.get index, List.get_mem _ _, decide_eq_true (isComponentInModel_ok hmodel)⟩
            rw [if_pos ⟨hbegin, hlisted⟩]
            simp only [hmodel, isComponentInModel_ok hmodel]
        | error status =>
            have hother := isComponentInModel_error (hnames list rfl) hmodel
            have hunlisted : ¬(type = .beginObject ∧ listed (some list) name = true) := by
              rintro ⟨-, hlisted⟩
              obtain ⟨c, hmem, hname⟩ := List.any_eq_true.1 hlisted
              exact hother c hmem (of_decide_eq_true hname)
            rw [if_neg hunlisted]
            simp only [hmodel]
  · unfold componentOf
    rw [if_neg hbegin, if_neg fun h => hbegin h.1]

theorem memberDeliveries_own {components : Option (List CString)} {name : List Byte} {value : Json}
    {after : List Token} (h : ¬(value.isObject = true ∧ listed components name = true)) :
    memberDeliveries components name value after = [⟨none, name, value.stream ++ after⟩] := by
  cases value with
  | object members => exact if_neg fun hlisted => h ⟨rfl, hlisted⟩
  | null => rfl
  | bool b => rfl
  | number spelling => rfl
  | string raw => rfl
  | array items => rfl

section desired

variable {components : Option (List CString)} {version : BitVec 32} {scratchBufLen : Nat}

theorem desired_round {n : Nat} {calls : List (Call ρ)} {r r' : ρ} (hnext : reader.nextToken r = .ok () r')
    (hname : reader.tokenType r' ≠ .propertyName) :
    desiredLoop reader components version scratchBufLen (n + 1) calls r =
      endOfRound reader (desiredLoop reader components version scratchBufLen n) calls r' := by
  rw [desiredLoop, hnext]
  exact if_neg hname

variable (components version scratchBufLen) in
theorem desired_idle (calls : List (Call ρ)) :
    Idle reader (fun n => desiredLoop reader components version scratchBufLen n calls) where
  plain hnext hname hbegin hend := by
    rw [desired_round hnext hname, endOfRound_plain hbegin hend]
  skip hnext hbegin hskip := by
    rw [desired_round hnext (by rw [hbegin]; exact TokenType.noConfusion), endOfRound_skip hbegin hskip]

variable (version) in
/-- A round at a name. -/
theorem desired_name (n : Nat) (calls : List (Call ρ)) {r r₁ r₂ : ρ} {name : List Byte} {value : Json}
    {rest : List Token} (hnames : Named components) (hfits : name.length < scratchBufLen)
    (hnext : reader.nextToken r = .ok () r₁)
    (hname : law.At r₁ (.propertyName name :: (value.stream ++ rest)))
    (hnext' : reader.nextToken r₁ = .ok () r₂) (hvalue : law.At r₂ (value.stream ++ rest)) :
    desiredLoop reader components version scratchBufLen (n + 1) calls r =
      if name = twinDesiredVersion then desiredLoop reader components version scratchBufLen n calls r₂
      else if value.isObject = true ∧ listed components name = true then
        match visitComponentProperties reader name version scratchBufLen n calls r₂ with
        | none => none
        | some (status, r, calls) =>
            if status ≠ .success then some (.notSuccessful, r, calls)
            else desiredLoop reader components version scratchBufLen n calls r
      else
        reader.skipObject (fun r => some (.notSuccessful, r, calls ++ [⟨none, name, r₂, version⟩]))
          (desiredLoop reader components version scratchBufLen n (calls ++ [⟨none, name, r₂, version⟩]))
          (desiredLoop reader components version scratchBufLen n (calls ++ [⟨none, name, r₂, version⟩]))
          r₂ := by
  rw [desiredLoop, hnext]
  simp only [law.tokenType_eq hname, Token.type, law.stringGet_eq hname hfits, hnext', if_true,
    componentOf_eq hnames, (law.tokenType_value hvalue).2]
  split_ifs <;> rfl

variable (version) in
/-- A member of the desired object that is not the version is reported, and the loop goes on behind
it. -/
theorem desired_member (calls : List (Call ρ)) {r : ρ} {t : Token} {name : List Byte} {value : Json}
    {rest : List Token} (hnames : Named components) (hversion : name ≠ twinDesiredVersion)
    (hfits : name.length < scratchBufLen)
    (hcomponent : ∀ members, value = .object members → listed components name = true →
      Walkable scratchBufLen [pnpComponentTypePropertyName, twinDesiredVersion] members)
    (hat : law.At r (t :: .propertyName name :: (value.stream ++ rest))) :
    ∃ r' u delivered, law.At r' (u :: rest) ∧
      List.Forall₂ (Delivered law version) delivered (memberDeliveries components name value rest) ∧
      ∀ x, Returns (fun n => desiredLoop reader components version scratchBufLen n (calls ++ delivered))
          r' x →
        Returns (fun n => desiredLoop reader components version scratchBufLen n calls) r x := by
  obtain ⟨r₁, r₂, hnext, hname, hnext', hvalue⟩ := law.next_member value hat
  by_cases hlisted : value.isObject = true ∧ listed components name = true
  · obtain ⟨members, rfl⟩ := Json.eq_object_of_isObject hlisted.1
    have hround := fun n => desired_name version n calls hnames hfits hnext hname hnext' hvalue
    rw [Json.object_stream] at hvalue
    obtain ⟨r', delivered, hend, hdelivered, hvisit⟩ := visit_delivers name version members calls
      (hcomponent members rfl hlisted.2) hvalue
    refine ⟨r', _, delivered, hend, ?_, fun x hreturns => ?_⟩
    · rw [memberDeliveries, if_pos hlisted.2]
      exact hdelivered
    · apply hvisit.after_call hreturns
      intro n hvisited
      have h := hround n
      rw [if_neg hversion, if_pos hlisted, hvisited] at h
      exact h
  · obtain ⟨k, r', u, hat', hrounds⟩ := (desired_idle components version scratchBufLen
      (calls ++ [⟨none, name, r₂, version⟩])).pass_current _ _ hvalue fun _ n => rfl
    refine ⟨r', u, [⟨none, name, r₂, version⟩], hat', ?_, fun x hreturns => ?_⟩
    · rw [memberDeliveries_own hlisted]
      exact List.Forall₂.cons ⟨rfl, rfl, hvalue, rfl⟩ List.Forall₂.nil
    · apply hreturns.after (k := k + 1)
      intro n
      have h := desired_name version (n + k) calls hnames hfits hnext hname hnext' hvalue
      rw [if_neg hversion, if_neg hlisted] at h
      exact h.trans (hrounds n)

variable (version) in
/-- The walk over the desired object reports each of its properties, and stops at its end. -/
theorem desired_delivers (members : Members) {after : List Token} (calls : List (Call ρ)) {r : ρ}
    {t : Token} (hnames : Named components) (hwalk : Walkable scratchBufLen [twinDesiredVersion] members)
    (hcomponents : ∀ name value, (name, .object value) ∈ members.toList → listed components name = true →
      Walkable scratchBufLen [pnpComponentTypePropertyName, twinDesiredVersion] value)
    (hat : law.At r (t :: (members.stream ++ .endObject :: after))) :
    ∃ r' delivered, law.At r' (.endObject :: after) ∧
      List.Forall₂ (Delivered law version) delivered
        (desiredDeliveries components members (.endObject :: after)) ∧
      Returns (fun n => desiredLoop reader components version scratchBufLen n calls) r
        (.success, r', calls ++ delivered) := by
  cases members with
  | nil =>
      obtain ⟨r', hnext, hend⟩ := law.next hat
      have htype : reader.tokenType r' = .endObject := law.tokenType_eq hend
      refine ⟨r', [], hend, List.Forall₂.nil, Returns.of_round fun n => ?_⟩
      rw [desired_round hnext (by rw [htype]; exact TokenType.noConfusion), endOfRound_end htype,
        List.append_nil]
  | cons name value rest =>
      rw [Members.cons_stream] at hat
      have hfits := hwalk.fits (name, value) List.mem_cons_self
      have hothers := fun name value hmem => hcomponents name value (List.mem_cons_of_mem _ hmem)
      rw [desiredDeliveries]
      by_cases hversion : name = twinDesiredVersion
      · obtain ⟨r₁, r₂, hnext, hname, hnext', hvalue⟩ := law.next_member value hat
        have hplain := hwalk.plain (name, value) List.mem_cons_self (List.mem_singleton.2 hversion)
        obtain ⟨k, r₃, u, hat', hrounds⟩ :=
          (desired_idle components version scratchBufLen calls).pass_rest value hplain hvalue
        obtain ⟨r', delivered, hend, hdelivered, hreturns⟩ :=
          desired_delivers rest _ hnames hwalk.rest hothers hat'
        rw [if_pos hversion]
        refine ⟨r', delivered, hend, hdelivered, hreturns.after (k := k + 1) fun n => ?_⟩
        exact (desired_name version (n + k) calls hnames hfits hnext hname hnext' hvalue).trans
          ((if_pos hversion).trans (hrounds n))
      · obtain ⟨r₁, u, first, hat', hfirst, hmember⟩ := desired_member version calls hnames
          hversion hfits (fun members hvalue hlisted =>
            hcomponents name members (by rw [hvalue]; exact List.mem_cons_self) hlisted) hat
        obtain ⟨r', others, hend, hdelivered, hreturns⟩ :=
          desired_delivers rest _ hnames hwalk.rest hothers hat'
        rw [if_neg hversion]
        refine ⟨r', first ++ others, hend, List.rel_append hfirst hdelivered, hmember _ ?_⟩
        rw [← List.append_assoc]
        exact hreturns

end desired

/-- The object whose properties are reported: the whole patch, or the first member `desired` of a full
twin. `after` are the tokens behind it. -/
inductive Walks (isPartial : BitVec 32) : Json → Members → List Token → Prop
  | patch {desired : Members} : isPartial ≠ 0 → Walks isPartial (.object desired) desired []
  | full {top desired rest : Members} : isPartial = 0 →
      top.find twinDesired = some (.object desired, rest) →
        Walks isPartial (.object top) desired (rest.stream ++ [.endObject])

/-- What a walk expects of the desired object: a version that 32 bits hold, names that fit in the
scratch buffer, and no object under a name that is stepped over. -/
structure WalkableTwin (components : Option (List CString)) (scratchBufLen : Nat) (desired : Members)
    (version : Int) : Prop where
  has_version : ∃ spelling rest, desired.find twinDesiredVersion = some (.number spelling, rest) ∧
    int32Value spelling = some version
  members_walkable : Walkable scratchBufLen [twinDesiredVersion] desired
  component_walkable : ∀ name members, (name, .object members) ∈ desired.toList →
    listed components name = true →
      Walkable scratchBufLen [pnpComponentTypePropertyName, twinDesiredVersion] members

theorem moveToDesired_returns {isPartial : BitVec 32} {doc : Json} {desired : Members}
    {after : List Token} {r : ρ} (hdoc : Walks isPartial doc desired after) (hat : law.At r doc.stream) :
    ∃ r', law.At r' (.beginObject :: (desired.stream ++ .endObject :: after)) ∧
      Returns (moveToDesired reader isPartial) r (.success, r') := by
  cases hdoc with
  | patch hpartial => exact ⟨r, hat, 0, fun n _ => if_neg hpartial⟩
  | full hfull hfind =>
      obtain ⟨r', hfound, k, hmoves⟩ := move_finds _ hfind hat
      rw [Json.object_stream] at hfound
      exact ⟨r', hfound, k, fun n hn => (if_pos hfull).trans (hmoves n hn)⟩

/-- **The walk reports the desired properties, each once and in the order of the document.** -/
theorem twinDataParse_delivers (law : LawfulReader reader) {isPartial : BitVec 32} {doc : Json}
    {desired : Members} {after : List Token} {components : Option (List CString)} {scratchBufLen : Nat}
    {version : Int} {r : ρ} (hdoc : Walks isPartial doc desired after) (hbefore : law.Before r doc.stream)
    (hnames : Named components) (hwalk : WalkableTwin components scratchBufLen desired version) :
    ∃ r' calls, List.Forall₂ (Delivered law (BitVec.ofInt 32 version)) calls
        (desiredDeliveries components desired (.endObject :: after)) ∧
      Returns (nxAzureIotPnpHelperTwinDataParse reader isPartial components scratchBufLen) r
        (.success, r', calls) := by
  obtain ⟨t, rest, hstream, -, -⟩ := doc.stream_eq
  rw [hstream] at hbefore
  obtain ⟨r₁, hfirst, hat⟩ := law.first hbefore
  rw [← hstream] at hat
  obtain ⟨r₂, hdesired, k₂, hmoves⟩ := moveToDesired_returns hdoc hat
  obtain ⟨spelling, others, hfind, hvalue⟩ := hwalk.has_version
  obtain ⟨r₃, hnumber, k₃, hfinds⟩ := move_finds desired hfind hdesired
  obtain ⟨r', calls, -, hdelivered, k₄, hwalks⟩ := desired_delivers (BitVec.ofInt 32 version) desired
    [] hnames hwalk.members_walkable hwalk.component_walkable hdesired
  refine ⟨r', calls, hdelivered, k₂ + k₃ + k₄, fun n hn => ?_⟩
  have hmoved := hmoves n (by omega)
  have hfound := hfinds n (by omega)
  have hwalked := hwalks n (by omega)
  simp only [nxAzureIotPnpHelperTwinDataParse, hfirst, hmoved, hfound, law.int32Get_eq hnumber hvalue]
  exact hwalked

end loops

/-- The desired object of a full twin, with a component in front of the version. -/
def sampleDesired : Members :=
  .cons (text "led")
    (.object (.cons (text "__t") (.string (text "c")) (.cons (text "on") (.bool true) .nil)))
    (.cons (text "$version") (.number (text "7"))
      (.cons (text "rates") (.array (.cons (.object (.cons (text "on") .null .nil)) .nil)) .nil))

def sampleTwin : Json :=
  .object (.cons (text "reported") (.object (.cons (text "desired") .null .nil))
    (.cons (text "desired") (.object sampleDesired) .nil))

def sampleComponents : List CString := [⟨text "fan", by decide⟩, ⟨text "led", by decide⟩]

theorem sampleComponents_named : Named (some sampleComponents) := by
  intro list hlist
  cases hlist
  decide

example : (desiredDeliveries (some sampleComponents) sampleDesired []).map
    (fun d => (d.component, d.property)) = [(some (text "led"), text "on"), (none, text "rates")] := by
  decide

theorem twinDataParse_delivers_sample : ∃ r' calls,
    List.Forall₂ (Delivered (ListReader.lawful Status.notConnected) (BitVec.ofInt 32 7)) calls
      (desiredDeliveries (some sampleComponents) sampleDesired [.endObject, .endObject]) ∧
    Returns (nxAzureIotPnpHelperTwinDataParse (ListReader.reader Status.notConnected) 0
      (some sampleComponents) 16) ⟨false, sampleTwin.stream⟩ (.success, r', calls) :=
  twinDataParse_delivers (ListReader.lawful Status.notConnected)
    (show Walks 0 sampleTwin sampleDesired (Members.nil.stream ++ [.endObject]) from .full rfl rfl) rfl
    sampleComponents_named
    { has_version := ⟨text "7", _, rfl, by decide⟩
      members_walkable := ⟨by decide, by decide⟩
      component_walkable := by
        intro name members hmem hlisted
        simp only [sampleDesired, Members.toList, List.mem_cons, Prod.mk.injEq, Json.object.injEq,
          reduceCtorEq, and_false, List.not_mem_nil, or_false] at hmem
        rw [hmem.2]
        exact ⟨by decide, by decide⟩ }

end DeviceSample.Twin
