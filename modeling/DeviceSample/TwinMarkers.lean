import DeviceSample.TwinAgree

/-!
Objects under `__t` and `$version`. The walk over a component stays at the brace of such an object, so the next names
that it reads are inside, and the brace at the end of the object ends it.
-/

namespace DeviceSample.Twin

open Base

/-- The members that a component has beside its properties. -/
abbrev IsMarker (name : List Byte) : Prop := name = pnpComponentTypePropertyName ∨ name = twinDesiredVersion

section walks

/- With `enters` the walk goes on inside an object under a marker, without it behind the object. -/
variable (enters : Bool) (n : Nat) (components : Option (List CString))

mutual

/-- The calls of a walk over the members of a component with a scratch buffer of `n` bytes: `behind` are those of the
walk over what follows the component. -/
def componentWalk (component : List Byte) : Members → List Token → List Delivery → List Delivery
  | .nil, _, behind => behind
  | .cons name (.object inner) rest, after, behind =>
      if n ≤ name.length then []
      else if IsMarker name then
        if enters then componentWalk component inner (.endObject :: (rest.stream ++ after)) (desiredWalk rest after)
        else componentWalk component rest after behind
      else
        ⟨some component, name, (Json.object inner).stream ++ (rest.stream ++ after)⟩ ::
          componentWalk component rest after behind
  | .cons name value rest, after, behind =>
      if n ≤ name.length then []
      else if IsMarker name then
        componentWalk component rest after behind
      else
        ⟨some component, name, value.stream ++ (rest.stream ++ after)⟩ :: componentWalk component rest after behind

/-- The calls of a walk over the members of the desired object. -/
def desiredWalk : Members → List Token → List Delivery
  | .nil, _ => []
  | .cons name (.object inner) rest, after =>
      if n ≤ name.length then []
      else if name = twinDesiredVersion then
        if enters then desiredWalk inner (.endObject :: (rest.stream ++ after)) else desiredWalk rest after
      else if listed components name then
        componentWalk name inner (.endObject :: (rest.stream ++ after)) (desiredWalk rest after)
      else ⟨none, name, (Json.object inner).stream ++ (rest.stream ++ after)⟩ :: desiredWalk rest after
  | .cons name value rest, after =>
      if n ≤ name.length then []
      else if name = twinDesiredVersion then desiredWalk rest after
      else ⟨none, name, value.stream ++ (rest.stream ++ after)⟩ :: desiredWalk rest after

end

variable {n components} {component name : List Byte} {value : Json} {inner rest : Members} {after : List Token}
  {behind : List Delivery}

theorem componentWalk_plain (hplain : value.isObject = false) :
    componentWalk enters n components component (.cons name value rest) after behind =
      if n ≤ name.length then []
      else if IsMarker name then componentWalk enters n components component rest after behind
      else
        ⟨some component, name, value.stream ++ (rest.stream ++ after)⟩ ::
          componentWalk enters n components component rest after behind := by
  rw [componentWalk]
  rintro inner rfl
  cases hplain

theorem componentWalk_long (hlong : n ≤ name.length) :
    componentWalk enters n components component (.cons name value rest) after behind = [] := by
  cases hobject : value.isObject with
  | false => rw [componentWalk_plain enters hobject, if_pos hlong]
  | true =>
      obtain ⟨inner, rfl⟩ := Json.eq_object_of_isObject hobject
      rw [componentWalk, if_pos hlong]

theorem componentWalk_property (hfits : name.length < n) (hother : ¬IsMarker name) :
    componentWalk enters n components component (.cons name value rest) after behind =
      ⟨some component, name, value.stream ++ (rest.stream ++ after)⟩ ::
        componentWalk enters n components component rest after behind := by
  cases hobject : value.isObject with
  | false => rw [componentWalk_plain enters hobject, if_neg (Nat.not_le.mpr hfits), if_neg hother]
  | true =>
      obtain ⟨inner, rfl⟩ := Json.eq_object_of_isObject hobject
      rw [componentWalk, if_neg (Nat.not_le.mpr hfits), if_neg hother]

theorem componentWalk_over (hfits : name.length < n) (hmarker : IsMarker name)
    (hover : enters = true → value.isObject = false) :
    componentWalk enters n components component (.cons name value rest) after behind =
      componentWalk enters n components component rest after behind := by
  cases hobject : value.isObject with
  | false => rw [componentWalk_plain enters hobject, if_neg (Nat.not_le.mpr hfits), if_pos hmarker]
  | true =>
      obtain ⟨inner, rfl⟩ := Json.eq_object_of_isObject hobject
      have henters : enters ≠ true := fun henters => nomatch hover henters
      rw [componentWalk, if_neg (Nat.not_le.mpr hfits), if_pos hmarker, if_neg henters]

theorem componentWalk_enter (hfits : name.length < n) (hmarker : IsMarker name) :
    componentWalk true n components component (.cons name (.object inner) rest) after behind =
      componentWalk true n components component inner (.endObject :: (rest.stream ++ after))
        (desiredWalk true n components rest after) := by
  rw [componentWalk, if_neg (Nat.not_le.mpr hfits), if_pos hmarker, if_pos rfl]

theorem desiredWalk_plain (hplain : value.isObject = false) :
    desiredWalk enters n components (.cons name value rest) after =
      if n ≤ name.length then []
      else if name = twinDesiredVersion then desiredWalk enters n components rest after
      else
        ⟨none, name, value.stream ++ (rest.stream ++ after)⟩ :: desiredWalk enters n components rest after := by
  rw [desiredWalk]
  rintro inner rfl
  cases hplain

theorem desiredWalk_long (hlong : n ≤ name.length) :
    desiredWalk enters n components (.cons name value rest) after = [] := by
  cases hobject : value.isObject with
  | false => rw [desiredWalk_plain enters hobject, if_pos hlong]
  | true =>
      obtain ⟨inner, rfl⟩ := Json.eq_object_of_isObject hobject
      rw [desiredWalk, if_pos hlong]

theorem desiredWalk_over (hfits : name.length < n) (hversion : name = twinDesiredVersion)
    (hover : enters = true → value.isObject = false) :
    desiredWalk enters n components (.cons name value rest) after = desiredWalk enters n components rest after := by
  cases hobject : value.isObject with
  | false => rw [desiredWalk_plain enters hobject, if_neg (Nat.not_le.mpr hfits), if_pos hversion]
  | true =>
      obtain ⟨inner, rfl⟩ := Json.eq_object_of_isObject hobject
      have henters : enters ≠ true := fun henters => nomatch hover henters
      rw [desiredWalk, if_neg (Nat.not_le.mpr hfits), if_pos hversion, if_neg henters]

theorem desiredWalk_enter (hfits : name.length < n) (hversion : name = twinDesiredVersion) :
    desiredWalk true n components (.cons name (.object inner) rest) after =
      desiredWalk true n components inner (.endObject :: (rest.stream ++ after)) := by
  rw [desiredWalk, if_neg (Nat.not_le.mpr hfits), if_pos hversion, if_pos rfl]

theorem desiredWalk_component (hfits : name.length < n) (hother : name ≠ twinDesiredVersion)
    (hlisted : listed components name = true) :
    desiredWalk enters n components (.cons name (.object inner) rest) after =
      componentWalk enters n components name inner (.endObject :: (rest.stream ++ after))
        (desiredWalk enters n components rest after) := by
  rw [desiredWalk, if_neg (Nat.not_le.mpr hfits), if_neg hother, if_pos hlisted]

theorem desiredWalk_own (hfits : name.length < n) (hother : name ≠ twinDesiredVersion)
    (hown : ¬(value.isObject = true ∧ listed components name = true)) :
    desiredWalk enters n components (.cons name value rest) after =
      ⟨none, name, value.stream ++ (rest.stream ++ after)⟩ :: desiredWalk enters n components rest after := by
  cases hobject : value.isObject with
  | false => rw [desiredWalk_plain enters hobject, if_neg (Nat.not_le.mpr hfits), if_neg hother]
  | true =>
      obtain ⟨inner, rfl⟩ := Json.eq_object_of_isObject hobject
      rw [desiredWalk, if_neg (Nat.not_le.mpr hfits), if_neg hother, if_neg fun hlisted => hown ⟨rfl, hlisted⟩]

end walks

section loops

variable {ρ : Type} {reader : Reader ρ Status} {law : LawfulReader reader} {components : Option (List CString)}
  {version : BitVec 32} {n : Nat}

/-- The loop over the desired object, started here, makes these calls. -/
def Continues (law : LawfulReader reader) (components : Option (List CString)) (version : BitVec 32) (n : Nat) (r : ρ)
    (due : List Delivery) : Prop :=
  ∀ calls, ∃ status r' delivered, List.Forall₂ (Delivered law version) delivered due ∧
    Returns (fun fuel => desiredLoop reader components version n fuel calls) r (status, r', calls ++ delivered)

/-- A loop over a component that ends so makes the first of these calls, or all of them if it fails; the loop over the
desired object makes the others. -/
def Leaves (law : LawfulReader reader) (components : Option (List CString)) (version : BitVec 32) (n : Nat)
    (status : Status) (r : ρ) (delivered : List (Call ρ)) (due : List Delivery) : Prop :=
  ∃ first more, due = first ++ more ∧ List.Forall₂ (Delivered law version) delivered first ∧
    if status = .success then Continues law components version n r more else more = []

theorem Leaves.cons {status : Status} {r : ρ} {delivered : List (Call ρ)} {due : List Delivery} {call : Call ρ}
    {d : Delivery} (h : Leaves law components version n status r delivered due) (hcall : Delivered law version call d) :
    Leaves law components version n status r (call :: delivered) (d :: due) := by
  obtain ⟨first, more, rfl, hdelivered, hrest⟩ := h
  exact ⟨d :: first, more, rfl, List.Forall₂.cons hcall hdelivered, hrest⟩

/-- A round of the loop over the desired object in which the loop over a component ends. -/
theorem Leaves.resume {status : Status} {r₁ r₂ r₃ : ρ} {calls delivered : List (Call ρ)} {due : List Delivery}
    {visit : Nat → ρ → Option (Status × ρ × List (Call ρ))}
    (h : Leaves law components version n status r₃ delivered due)
    (hvisit : Returns visit r₂ (status, r₃, calls ++ delivered))
    (hround : ∀ fuel, visit fuel r₂ = some (status, r₃, calls ++ delivered) →
      desiredLoop reader components version n (fuel + 1) calls r₁ =
        if status ≠ .success then some (.notSuccessful, r₃, calls ++ delivered)
        else desiredLoop reader components version n fuel (calls ++ delivered) r₃) :
    ∃ status' r' delivered', List.Forall₂ (Delivered law version) delivered' due ∧
      Returns (fun fuel => desiredLoop reader components version n fuel calls) r₁
        (status', r', calls ++ delivered') := by
  obtain ⟨first, more, rfl, hfirst, hmore⟩ := h
  by_cases hsuccess : status = .success
  · rw [if_pos hsuccess] at hmore
    obtain ⟨status', r', others, hothers, hreturns⟩ := hmore (calls ++ delivered)
    refine ⟨status', r', delivered ++ others, List.rel_append hfirst hothers, ?_⟩
    rw [← List.append_assoc]
    apply hvisit.after_call hreturns
    intro fuel hvisited
    exact (hround fuel hvisited).trans (if_neg (not_not.mpr hsuccess))
  · rw [if_neg hsuccess] at hmore
    rw [hmore, List.append_nil]
    refine ⟨.notSuccessful, r₃, delivered, hfirst, hvisit.of_call fun fuel hvisited => ?_⟩
    exact (hround fuel hvisited).trans (if_pos hsuccess)

theorem visit_long (hrefuses : law.Refuses) {component : List Byte} {fuel : Nat} {calls : List (Call ρ)} {r r' : ρ}
    {name : List Byte} {rest : List Token} (hnext : reader.nextToken r = .ok () r')
    (hname : law.At r' (.propertyName name :: rest)) (hlong : n ≤ name.length) :
    visitComponentProperties reader component version n (fuel + 1) calls r = some (.notSuccessful, r', calls) := by
  obtain ⟨e, herror⟩ := hrefuses.stringGet_error hname hlong
  simp only [visitComponentProperties, hnext, law.tokenType_eq hname, Token.type, if_true, herror]

mutual

/-- The loop over the members of a component, or of an object under one of its markers. -/
theorem visit_leaves (hrefuses : law.Refuses) (hnames : Named components) (component : List Byte) (members : Members)
    {after : List Token} {behind : List Delivery} (calls : List (Call ρ)) {r : ρ} {t : Token}
    (hbehind : ∀ r', law.At r' (.endObject :: after) → Continues law components version n r' behind)
    (hat : law.At r (t :: (members.stream ++ .endObject :: after))) :
    ∃ status r' delivered, Leaves law components version n status r' delivered
        (componentWalk true n components component members (.endObject :: after) behind) ∧
      Returns (fun fuel => visitComponentProperties reader component version n fuel calls) r
        (status, r', calls ++ delivered) := by
  cases members with
  | nil =>
      obtain ⟨r', hnext, hend⟩ := law.next hat
      have htype : reader.tokenType r' = .endObject := law.tokenType_eq hend
      refine ⟨.success, r', [], ⟨[], behind, by rw [componentWalk]; rfl, List.Forall₂.nil, hbehind r' hend⟩,
        Returns.of_round fun fuel => ?_⟩
      rw [visit_round hnext (by rw [htype]; exact TokenType.noConfusion), endOfRound_end htype, List.append_nil]
  | cons name value rest =>
      rw [Members.cons_stream] at hat
      obtain ⟨r₁, r₂, hnext, hname, hnext', hvalue⟩ := law.next_member value hat
      rcases Nat.lt_or_ge name.length n with hfits | hlong
      · by_cases hmarker : IsMarker name
        · have hround : ∀ fuel, visitComponentProperties reader component version n (fuel + 1) calls r =
              visitComponentProperties reader component version n fuel calls r₂ :=
            fun fuel => (visit_name hfits hnext hname hnext').trans (if_pos hmarker)
          cases hobject : value.isObject with
          | false =>
              obtain ⟨k, r₃, u, hat', hrounds⟩ := (visit_idle component version n calls).pass_rest value hobject hvalue
              obtain ⟨status, r', delivered, hleaves, hreturns⟩ :=
                visit_leaves hrefuses hnames component rest calls hbehind hat'
              rw [componentWalk_over true hfits hmarker fun _ => hobject]
              exact ⟨status, r', delivered, hleaves,
                hreturns.after (k := k + 1) fun fuel => (hround (fuel + k)).trans (hrounds fuel)⟩
          | true =>
              cases value with
              | object inner =>
                  -- behind the end of this object the loop over the desired object goes on in the component
                  rw [Json.object_stream] at hvalue
                  obtain ⟨status, r', delivered, hleaves, hreturns⟩ := visit_leaves hrefuses hnames component inner calls
                    (fun r' hend => desired_continues hrefuses hnames rest hend) hvalue
                  rw [componentWalk_enter hfits hmarker]
                  exact ⟨status, r', delivered, hleaves, hreturns.after (k := 1) hround⟩
              | _ => cases hobject
        · obtain ⟨k, r₃, u, hat', hrounds⟩ := endOfRound_value
            (visit_idle component version n (calls ++ [⟨some component, name, r₂, version⟩])) hvalue
          obtain ⟨status, r', delivered, hleaves, hreturns⟩ :=
            visit_leaves hrefuses hnames component rest _ hbehind hat'
          rw [componentWalk_property true hfits hmarker]
          refine ⟨status, r', ⟨some component, name, r₂, version⟩ :: delivered,
            hleaves.cons ⟨rfl, rfl, hvalue, rfl⟩, ?_⟩
          rw [List.append_cons]
          apply hreturns.after (k := k + 1)
          intro fuel
          exact (visit_name hfits hnext hname hnext').trans ((if_neg hmarker).trans (hrounds fuel))
      · rw [componentWalk_long true hlong]
        refine ⟨.notSuccessful, r₁, [], ⟨[], [], rfl, List.Forall₂.nil, rfl⟩, Returns.of_round fun fuel => ?_⟩
        rw [List.append_nil]
        exact visit_long hrefuses hnext hname hlong

/-- The loop over the members of the desired object, or of what is taken for it. -/
theorem desired_continues (hrefuses : law.Refuses) (hnames : Named components) (members : Members) {after : List Token}
    {r : ρ} {t : Token} (hat : law.At r (t :: (members.stream ++ .endObject :: after))) :
    Continues law components version n r (desiredWalk true n components members (.endObject :: after)) := by
  intro calls
  cases members with
  | nil =>
      obtain ⟨r', hnext, hend⟩ := law.next hat
      have htype : reader.tokenType r' = .endObject := law.tokenType_eq hend
      refine ⟨.success, r', [], by rw [desiredWalk]; exact List.Forall₂.nil, Returns.of_round fun fuel => ?_⟩
      rw [desired_round hnext (by rw [htype]; exact TokenType.noConfusion), endOfRound_end htype, List.append_nil]
  | cons name value rest =>
      rw [Members.cons_stream] at hat
      obtain ⟨r₁, r₂, hnext, hname, hnext', hvalue⟩ := law.next_member value hat
      rcases Nat.lt_or_ge name.length n with hfits | hlong
      · have hround := fun fuel => desired_name version fuel calls hnames hfits hnext hname hnext' hvalue
        by_cases hversion : name = twinDesiredVersion
        · simp only [if_pos hversion] at hround
          cases hobject : value.isObject with
          | false =>
              obtain ⟨k, r₃, u, hat', hrounds⟩ :=
                (desired_idle components version n calls).pass_rest value hobject hvalue
              obtain ⟨status, r', delivered, hdelivered, hreturns⟩ := desired_continues hrefuses hnames rest hat' calls
              rw [desiredWalk_over true hfits hversion fun _ => hobject]
              exact ⟨status, r', delivered, hdelivered,
                hreturns.after (k := k + 1) fun fuel => (hround (fuel + k)).trans (hrounds fuel)⟩
          | true =>
              cases value with
              | object inner =>
                  rw [Json.object_stream] at hvalue
                  obtain ⟨status, r', delivered, hdelivered, hreturns⟩ :=
                    desired_continues hrefuses hnames inner hvalue calls
                  rw [desiredWalk_enter hfits hversion]
                  exact ⟨status, r', delivered, hdelivered, hreturns.after (k := 1) hround⟩
              | _ => cases hobject
        · simp only [if_neg hversion] at hround
          by_cases hlisted : value.isObject = true ∧ listed components name = true
          · simp only [if_pos hlisted] at hround
            cases value with
            | object inner =>
                rw [Json.object_stream] at hvalue
                obtain ⟨status, r₃, delivered, hleaves, hvisit⟩ := visit_leaves hrefuses hnames name inner calls
                  (fun r' hend => desired_continues hrefuses hnames rest hend) hvalue
                rw [desiredWalk_component true hfits hversion hlisted.2]
                exact hleaves.resume hvisit fun fuel hvisited => by rw [hround, hvisited]
            | _ => cases hlisted.1
          · simp only [if_neg hlisted] at hround
            obtain ⟨k, r₃, u, hat', hrounds⟩ := (desired_idle components version n
              (calls ++ [⟨none, name, r₂, version⟩])).pass_current _ _ hvalue fun _ n => rfl
            obtain ⟨status, r', delivered, hdelivered, hreturns⟩ :=
              desired_continues hrefuses hnames rest hat' (calls ++ [⟨none, name, r₂, version⟩])
            rw [desiredWalk_own true hfits hversion hlisted]
            refine ⟨status, r', ⟨none, name, r₂, version⟩ :: delivered,
              List.Forall₂.cons ⟨rfl, rfl, hvalue, rfl⟩ hdelivered, ?_⟩
            rw [List.append_cons]
            exact hreturns.after (k := k + 1) fun fuel => (hround (fuel + k)).trans (hrounds fuel)
      · rw [desiredWalk_long true hlong]
        refine ⟨.notSuccessful, r₁, [], List.Forall₂.nil, Returns.of_round fun fuel => ?_⟩
        rw [List.append_nil]
        exact desired_long hrefuses hnext hname hlong

end

/-- The calls of the parse are those of the walk that enters the objects. -/
theorem twinDataParse_calls (hrefuses : law.Refuses) {isPartial : BitVec 32} {doc : Json} {desired rest : Members}
    {spelling : List Byte} {value : Int} {after : List Token} {r : ρ} (hdoc : Walks isPartial doc desired after)
    (hbefore : law.Before r doc.stream) (hnames : Named components)
    (hfind : desired.find twinDesiredVersion = some (.number spelling, rest))
    (hvalue : int32Value spelling = some value) :
    ∃ status r' calls, List.Forall₂ (Delivered law (BitVec.ofInt 32 value)) calls
        (desiredWalk true n components desired (.endObject :: after)) ∧
      Returns (nxAzureIotPnpHelperTwinDataParse reader isPartial components n) r (status, r', calls) := by
  obtain ⟨t, tokens, hstream, -, -⟩ := doc.stream_eq
  rw [hstream] at hbefore
  obtain ⟨r₁, hfirst, hat⟩ := law.first hbefore
  rw [← hstream] at hat
  obtain ⟨r₂, hdesired, k₂, hmoves⟩ := moveToDesired_returns hdoc hat
  obtain ⟨r₃, hnumber, k₃, hfinds⟩ := move_finds desired hfind hdesired
  have hcontinues : Continues law components (BitVec.ofInt 32 value) n r₂
      (desiredWalk true n components desired (.endObject :: after)) :=
    desired_continues hrefuses hnames desired hdesired
  obtain ⟨status, r', calls, hdelivered, k₄, hwalks⟩ := hcontinues []
  refine ⟨status, r', calls, hdelivered, k₂ + k₃ + k₄, fun fuel hfuel => ?_⟩
  have hmoved := hmoves fuel (by omega)
  have hfound := hfinds fuel (by omega)
  have hwalked := hwalks fuel (by omega)
  simp only [nxAzureIotPnpHelperTwinDataParse, hfirst, hmoved, hfound, law.int32Get_eq hnumber hvalue]
  exact hwalked

end loops

end DeviceSample.Twin
