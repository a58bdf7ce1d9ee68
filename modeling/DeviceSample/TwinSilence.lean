import DeviceSample.TwinMarkers

/-!
When the objects under markers do no harm. What the walk finds in such an object and behind it is deeper in the
document than anything that is due, so it makes the right calls only if it finds nothing and nothing is due.
-/

namespace DeviceSample.Twin

open Base

section depth

/-- How deep a call is in the document, where the members of a component count as those of the desired object. -/
def Delivery.depth (d : Delivery) : Int := closedObjects d.position + if d.component = none then 1 else 0

variable {n : Nat} {components : Option (List CString)}

theorem closedObjects_member (value : Json) (rest : Members) (after : List Token) :
    closedObjects (value.stream ++ (rest.stream ++ after)) = closedObjects after := by
  rw [closedObjects_append, closedObjects_append, value.closedObjects_stream, rest.closedObjects_stream]
  simp

theorem closedObjects_behind (rest : Members) (after : List Token) :
    closedObjects (.endObject :: (rest.stream ++ after)) = closedObjects after + 1 := by
  rw [closedObjects_cons, closedObjects_append, rest.closedObjects_stream, Token.closes]
  omega

theorem depth_property (component name : List Byte) (value : Json) (rest : Members) (after : List Token) :
    Delivery.depth ⟨some component, name, value.stream ++ (rest.stream ++ after)⟩ = closedObjects after := by
  simp [Delivery.depth, closedObjects_member]

theorem depth_own (name : List Byte) (value : Json) (rest : Members) (after : List Token) :
    Delivery.depth ⟨none, name, value.stream ++ (rest.stream ++ after)⟩ = closedObjects after + 1 := by
  simp [Delivery.depth, closedObjects_member]

mutual

/-- The walk that enters objects makes no call above the members it started with. -/
theorem componentWalk_depth (component : List Byte) (members : Members) (after : List Token)
    (behind : List Delivery) (d : Delivery)
    (hmem : d ∈ componentWalk true n components component members after behind) :
    closedObjects after ≤ d.depth ∨ d ∈ behind := by
  cases members with
  | nil =>
      rw [componentWalk] at hmem
      exact Or.inr hmem
  | cons name value rest =>
      rcases Nat.lt_or_ge name.length n with hfits | hlong
      · by_cases hmarker : IsMarker name
        · cases hobject : value.isObject with
          | false =>
              rw [componentWalk_over true hfits hmarker fun _ => hobject] at hmem
              exact componentWalk_depth component rest after behind d hmem
          | true =>
              cases value with
              | object inner =>
                  rw [componentWalk_enter hfits hmarker] at hmem
                  rcases componentWalk_depth _ inner _ _ d hmem with hinside | hbehind
                  · rw [closedObjects_behind] at hinside
                    exact Or.inl (by omega)
                  · exact Or.inl (Int.le_of_lt (desiredWalk_depth rest after d hbehind))
              | _ => cases hobject
        · rw [componentWalk_property true hfits hmarker] at hmem
          rcases List.mem_cons.mp hmem with rfl | hmem
          · exact Or.inl (Int.le_of_eq (depth_property component name value rest after).symm)
          · exact componentWalk_depth component rest after behind d hmem
      · rw [componentWalk_long true hlong] at hmem
        cases hmem

theorem desiredWalk_depth (members : Members) (after : List Token) (d : Delivery)
    (hmem : d ∈ desiredWalk true n components members after) : closedObjects after + 1 ≤ d.depth := by
  cases members with
  | nil =>
      rw [desiredWalk] at hmem
      cases hmem
  | cons name value rest =>
      rcases Nat.lt_or_ge name.length n with hfits | hlong
      · by_cases hversion : name = twinDesiredVersion
        · cases hobject : value.isObject with
          | false =>
              rw [desiredWalk_over true hfits hversion fun _ => hobject] at hmem
              exact desiredWalk_depth rest after d hmem
          | true =>
              cases value with
              | object inner =>
                  rw [desiredWalk_enter hfits hversion] at hmem
                  have hinside := desiredWalk_depth inner _ d hmem
                  rw [closedObjects_behind] at hinside
                  omega
              | _ => cases hobject
        · by_cases hlisted : value.isObject = true ∧ listed components name = true
          · cases value with
            | object inner =>
                rw [desiredWalk_component true hfits hversion hlisted.2] at hmem
                rcases componentWalk_depth _ inner _ _ d hmem with hinside | hbehind
                · rw [closedObjects_behind] at hinside
                  exact hinside
                · exact desiredWalk_depth rest after d hbehind
            | _ => cases hlisted.1
          · rw [desiredWalk_own true hfits hversion hlisted] at hmem
            rcases List.mem_cons.mp hmem with rfl | hmem
            · exact Int.le_of_eq (depth_own name value rest after).symm
            · exact desiredWalk_depth rest after d hmem
      · rw [desiredWalk_long true hlong] at hmem
        cases hmem

end

/-- What is called behind the brace of an entered object is deeper than what is due. -/
theorem entered_depth (component : List Byte) (inner rest : Members) (after : List Token) (d : Delivery)
    (hmem : d ∈ componentWalk true n components component inner (.endObject :: (rest.stream ++ after))
      (desiredWalk true n components rest after)) : closedObjects after + 1 ≤ d.depth := by
  rcases componentWalk_depth _ inner _ _ d hmem with hinside | hbehind
  · rw [closedObjects_behind] at hinside
    exact hinside
  · exact desiredWalk_depth rest after d hbehind

theorem componentWalk_due_depth (component : List Byte) (members : Members) (after : List Token)
    (behind : List Delivery) (d : Delivery)
    (hmem : d ∈ componentWalk false n components component members after behind) :
    d.depth = closedObjects after ∨ d ∈ behind := by
  cases members with
  | nil =>
      rw [componentWalk] at hmem
      exact Or.inr hmem
  | cons name value rest =>
      rcases Nat.lt_or_ge name.length n with hfits | hlong
      · by_cases hmarker : IsMarker name
        · rw [componentWalk_over false hfits hmarker nofun] at hmem
          exact componentWalk_due_depth component rest after behind d hmem
        · rw [componentWalk_property false hfits hmarker] at hmem
          rcases List.mem_cons.mp hmem with rfl | hmem
          · exact Or.inl (depth_property component name value rest after)
          · exact componentWalk_due_depth component rest after behind d hmem
      · rw [componentWalk_long false hlong] at hmem
        cases hmem

theorem desiredWalk_due_depth (members : Members) (after : List Token) (d : Delivery)
    (hmem : d ∈ desiredWalk false n components members after) : d.depth = closedObjects after + 1 := by
  cases members with
  | nil =>
      rw [desiredWalk] at hmem
      cases hmem
  | cons name value rest =>
      rcases Nat.lt_or_ge name.length n with hfits | hlong
      · by_cases hversion : name = twinDesiredVersion
        · rw [desiredWalk_over false hfits hversion nofun] at hmem
          exact desiredWalk_due_depth rest after d hmem
        · by_cases hlisted : value.isObject = true ∧ listed components name = true
          · cases value with
            | object inner =>
                rw [desiredWalk_component false hfits hversion hlisted.2] at hmem
                rcases componentWalk_due_depth _ inner _ _ d hmem with hinside | hbehind
                · rw [hinside, closedObjects_behind]
                · exact desiredWalk_due_depth rest after d hbehind
            | _ => cases hlisted.1
          · rw [desiredWalk_own false hfits hversion hlisted] at hmem
            rcases List.mem_cons.mp hmem with rfl | hmem
            · exact depth_own name value rest after
            · exact desiredWalk_due_depth rest after d hmem
      · rw [desiredWalk_long false hlong] at hmem
        cases hmem

end depth

section silence

variable (enters : Bool) (n : Nat) (components : Option (List CString))

mutual

/-- There is no property here that a component has: up to the end, or to a name too long for the buffer, stand only
markers. `next` says so of what follows. -/
def NothingInComponent : Members → Prop → Prop
  | .nil, next => next
  | .cons name (.object inner) rest, next =>
      n ≤ name.length ∨ IsMarker name ∧
        if enters then NothingInComponent inner (NothingInDesired rest) else NothingInComponent rest next
  | .cons name _ rest, next =>
      n ≤ name.length ∨ IsMarker name ∧ NothingInComponent rest next

/-- There is no property here that the desired object has: up to the end, or to a name too long for the buffer, stand
only `$version` and known components with no property. -/
def NothingInDesired : Members → Prop
  | .nil => True
  | .cons name (.object inner) rest =>
      n ≤ name.length ∨
        if name = twinDesiredVersion then if enters then NothingInDesired inner else NothingInDesired rest
        else listed components name = true ∧ NothingInComponent inner (NothingInDesired rest)
  | .cons name _ rest => n ≤ name.length ∨ name = twinDesiredVersion ∧ NothingInDesired rest

end

end silence

/-- An object under a marker of a known component, with the members behind it in the component, and those of the
desired object behind the component. -/
structure Entered where
  inner : Members
  rest : Members
  others : Members

section entering

variable (n : Nat) (components : Option (List CString))

/-- The first object under a marker among these members of a component. -/
def enteredIn (others : Members) : Members → Option Entered → Option Entered
  | .nil, next => next
  | .cons name (.object inner) rest, next =>
      if n ≤ name.length then none
      else if IsMarker name then some ⟨inner, rest, others⟩
      else enteredIn others rest next
  | .cons name _ rest, next => if n ≤ name.length then none else enteredIn others rest next

/-- The first object under a marker of a known component, unless a name too long for the buffer stands in front. -/
def firstEntered : Members → Option Entered
  | .nil => none
  | .cons name (.object inner) rest =>
      if n ≤ name.length then none
      else if name ≠ twinDesiredVersion ∧ listed components name = true then
        enteredIn n rest inner (firstEntered rest)
      else firstEntered rest
  | .cons name _ rest => if n ≤ name.length then none else firstEntered rest

/-- Nothing is found in the object and, as if it stood in the desired object, behind it; and no property is due
behind it. -/
def Entered.Silent (entered : Entered) : Prop :=
  NothingInComponent true n components entered.inner (NothingInDesired true n components entered.rest) ∧
    NothingInComponent false n components entered.rest (NothingInDesired false n components entered.others)

variable {n components} {enters : Bool} {name : List Byte} {value : Json} {inner rest others : Members} {next : Prop}
  {found : Option Entered}

theorem nothingInComponent_plain (hplain : value.isObject = false) :
    NothingInComponent enters n components (.cons name value rest) next =
      (n ≤ name.length ∨ IsMarker name ∧ NothingInComponent enters n components rest next) := by
  rw [NothingInComponent]
  rintro inner rfl
  cases hplain

theorem nothingInComponent_over (hfits : name.length < n) (hmarker : IsMarker name)
    (hover : enters = true → value.isObject = false) :
    NothingInComponent enters n components (.cons name value rest) next ↔
      NothingInComponent enters n components rest next := by
  cases hobject : value.isObject with
  | false => rw [nothingInComponent_plain hobject, or_iff_right (Nat.not_le.mpr hfits), and_iff_right hmarker]
  | true =>
      obtain ⟨inner, rfl⟩ := Json.eq_object_of_isObject hobject
      have henters : enters ≠ true := fun henters => nomatch hover henters
      rw [NothingInComponent, or_iff_right (Nat.not_le.mpr hfits), and_iff_right hmarker, if_neg henters]

theorem nothingInComponent_property (hfits : name.length < n) (hother : ¬IsMarker name) :
    ¬NothingInComponent enters n components (.cons name value rest) next := by
  cases hobject : value.isObject with
  | false =>
      rw [nothingInComponent_plain hobject, or_iff_right (Nat.not_le.mpr hfits)]
      exact fun h => hother h.1
  | true =>
      obtain ⟨inner, rfl⟩ := Json.eq_object_of_isObject hobject
      rw [NothingInComponent, or_iff_right (Nat.not_le.mpr hfits)]
      exact fun h => hother h.1

theorem nothingInComponent_long (hlong : n ≤ name.length) :
    NothingInComponent enters n components (.cons name value rest) next := by
  cases hobject : value.isObject with
  | false =>
      rw [nothingInComponent_plain hobject]
      exact Or.inl hlong
  | true =>
      obtain ⟨inner, rfl⟩ := Json.eq_object_of_isObject hobject
      rw [NothingInComponent]
      exact Or.inl hlong

theorem nothingInDesired_plain (hplain : value.isObject = false) :
    NothingInDesired enters n components (.cons name value rest) =
      (n ≤ name.length ∨ name = twinDesiredVersion ∧ NothingInDesired enters n components rest) := by
  rw [NothingInDesired]
  rintro inner rfl
  cases hplain

theorem nothingInDesired_over (hfits : name.length < n) (hversion : name = twinDesiredVersion)
    (hover : enters = true → value.isObject = false) :
    NothingInDesired enters n components (.cons name value rest) ↔ NothingInDesired enters n components rest := by
  cases hobject : value.isObject with
  | false => rw [nothingInDesired_plain hobject, or_iff_right (Nat.not_le.mpr hfits), and_iff_right hversion]
  | true =>
      obtain ⟨inner, rfl⟩ := Json.eq_object_of_isObject hobject
      have henters : enters ≠ true := fun henters => nomatch hover henters
      rw [NothingInDesired, or_iff_right (Nat.not_le.mpr hfits), if_pos hversion, if_neg henters]

theorem nothingInDesired_own (hfits : name.length < n) (hother : name ≠ twinDesiredVersion)
    (hown : ¬(value.isObject = true ∧ listed components name = true)) :
    ¬NothingInDesired enters n components (.cons name value rest) := by
  cases hobject : value.isObject with
  | false =>
      rw [nothingInDesired_plain hobject, or_iff_right (Nat.not_le.mpr hfits)]
      exact fun h => hother h.1
  | true =>
      obtain ⟨inner, rfl⟩ := Json.eq_object_of_isObject hobject
      rw [NothingInDesired, or_iff_right (Nat.not_le.mpr hfits), if_neg hother]
      exact fun h => hown ⟨rfl, h.1⟩

theorem nothingInDesired_long (hlong : n ≤ name.length) :
    NothingInDesired enters n components (.cons name value rest) := by
  cases hobject : value.isObject with
  | false =>
      rw [nothingInDesired_plain hobject]
      exact Or.inl hlong
  | true =>
      obtain ⟨inner, rfl⟩ := Json.eq_object_of_isObject hobject
      rw [NothingInDesired]
      exact Or.inl hlong

mutual

theorem componentWalk_eq_nil (component : List Byte) (members : Members) (after : List Token) {behind : List Delivery}
    {next : Prop} (hnext : behind = [] ↔ next) :
    componentWalk enters n components component members after behind = [] ↔
      NothingInComponent enters n components members next := by
  cases members with
  | nil => rw [componentWalk, NothingInComponent, hnext]
  | cons name value rest =>
      rcases Nat.lt_or_ge name.length n with hfits | hlong
      · by_cases hmarker : IsMarker name
        · by_cases hover : enters = true → value.isObject = false
          · rw [componentWalk_over enters hfits hmarker hover, nothingInComponent_over hfits hmarker hover]
            exact componentWalk_eq_nil component rest after hnext
          · obtain ⟨henters, hobject⟩ := Classical.not_imp.mp hover
            cases value with
            | object inner =>
                have hinner := componentWalk_eq_nil component inner (.endObject :: (rest.stream ++ after))
                  (desiredWalk_eq_nil rest after)
                subst henters
                rw [componentWalk_enter hfits hmarker, NothingInComponent, if_pos rfl, or_iff_right (Nat.not_le.mpr hfits),
                  and_iff_right hmarker]
                exact hinner
            | _ => exact absurd rfl hobject
        · rw [componentWalk_property enters hfits hmarker]
          exact iff_of_false (List.cons_ne_nil _ _) (nothingInComponent_property hfits hmarker)
      · rw [componentWalk_long enters hlong]
        exact iff_of_true rfl (nothingInComponent_long hlong)

theorem desiredWalk_eq_nil (members : Members) (after : List Token) :
    desiredWalk enters n components members after = [] ↔ NothingInDesired enters n components members := by
  cases members with
  | nil =>
      rw [desiredWalk, NothingInDesired]
      exact iff_of_true rfl trivial
  | cons name value rest =>
      rcases Nat.lt_or_ge name.length n with hfits | hlong
      · by_cases hversion : name = twinDesiredVersion
        · by_cases hover : enters = true → value.isObject = false
          · rw [desiredWalk_over enters hfits hversion hover, nothingInDesired_over hfits hversion hover]
            exact desiredWalk_eq_nil rest after
          · obtain ⟨henters, hobject⟩ := Classical.not_imp.mp hover
            cases value with
            | object inner =>
                have hinner := desiredWalk_eq_nil inner (.endObject :: (rest.stream ++ after))
                subst henters
                rw [desiredWalk_enter hfits hversion, NothingInDesired, if_pos hversion, if_pos rfl,
                  or_iff_right (Nat.not_le.mpr hfits)]
                exact hinner
            | _ => exact absurd rfl hobject
        · by_cases hlisted : value.isObject = true ∧ listed components name = true
          · cases value with
            | object inner =>
                rw [desiredWalk_component enters hfits hversion hlisted.2, NothingInDesired, if_neg hversion,
                  or_iff_right (Nat.not_le.mpr hfits), and_iff_right hlisted.2]
                exact componentWalk_eq_nil name inner _ (desiredWalk_eq_nil rest after)
            | _ => cases hlisted.1
          · rw [desiredWalk_own enters hfits hversion hlisted]
            exact iff_of_false (List.cons_ne_nil _ _) (nothingInDesired_own hfits hversion hlisted)
      · rw [desiredWalk_long enters hlong]
        exact iff_of_true rfl (nothingInDesired_long hlong)

end

theorem enteredIn_plain (hplain : value.isObject = false) :
    enteredIn n others (.cons name value rest) found =
      if n ≤ name.length then none else enteredIn n others rest found := by
  rw [enteredIn]
  rintro inner rfl
  cases hplain

theorem enteredIn_over (hfits : name.length < n) (hover : ¬(IsMarker name ∧ value.isObject = true)) :
    enteredIn n others (.cons name value rest) found = enteredIn n others rest found := by
  cases hobject : value.isObject with
  | false => rw [enteredIn_plain hobject, if_neg (Nat.not_le.mpr hfits)]
  | true =>
      obtain ⟨inner, rfl⟩ := Json.eq_object_of_isObject hobject
      rw [enteredIn, if_neg (Nat.not_le.mpr hfits), if_neg fun hmarker => hover ⟨hmarker, rfl⟩]

theorem enteredIn_long (hlong : n ≤ name.length) : enteredIn n others (.cons name value rest) found = none := by
  cases hobject : value.isObject with
  | false => rw [enteredIn_plain hobject, if_pos hlong]
  | true =>
      obtain ⟨inner, rfl⟩ := Json.eq_object_of_isObject hobject
      rw [enteredIn, if_pos hlong]

theorem firstEntered_plain (hplain : value.isObject = false) :
    firstEntered n components (.cons name value rest) =
      if n ≤ name.length then none else firstEntered n components rest := by
  rw [firstEntered]
  rintro inner rfl
  cases hplain

theorem firstEntered_over (hfits : name.length < n)
    (hover : ¬(name ≠ twinDesiredVersion ∧ value.isObject = true ∧ listed components name = true)) :
    firstEntered n components (.cons name value rest) = firstEntered n components rest := by
  cases hobject : value.isObject with
  | false => rw [firstEntered_plain hobject, if_neg (Nat.not_le.mpr hfits)]
  | true =>
      obtain ⟨inner, rfl⟩ := Json.eq_object_of_isObject hobject
      rw [firstEntered, if_neg (Nat.not_le.mpr hfits), if_neg fun h => hover ⟨h.1, rfl, h.2⟩]

theorem firstEntered_long (hlong : n ≤ name.length) : firstEntered n components (.cons name value rest) = none := by
  cases hobject : value.isObject with
  | false => rw [firstEntered_plain hobject, if_pos hlong]
  | true =>
      obtain ⟨inner, rfl⟩ := Json.eq_object_of_isObject hobject
      rw [firstEntered, if_pos hlong]

/-- Lists of calls at different depths are the same only if there are none. -/
theorem eq_iff_nil_of_depth {deeper due : List Delivery} {k : Int} (hdeeper : ∀ d ∈ deeper, k < d.depth)
    (hdue : ∀ d ∈ due, d.depth ≤ k) : deeper = due ↔ deeper = [] ∧ due = [] := by
  constructor
  · rintro rfl
    cases deeper with
    | nil => exact ⟨rfl, rfl⟩
    | cons d others =>
        have habove := hdeeper d List.mem_cons_self
        have hbelow := hdue d List.mem_cons_self
        exact absurd habove (Int.not_lt.mpr hbelow)
  · rintro ⟨rfl, rfl⟩
    rfl

/-- Over the members of a component the two walks agree up to the first object that is entered. -/
theorem componentWalk_agree_iff (component : List Byte) (others members : Members) (after : List Token)
    {entered due : List Delivery}
    (hbehind : entered = due ↔ ∀ x, found = some x → x.Silent n components)
    (hdepth : ∀ d ∈ due, d.depth ≤ closedObjects after) (hdue : due = [] ↔ NothingInDesired false n components others) :
    componentWalk true n components component members after entered =
        componentWalk false n components component members after due ↔
      ∀ x, enteredIn n others members found = some x → x.Silent n components := by
  cases members with
  | nil => rw [componentWalk, componentWalk, enteredIn, hbehind]
  | cons name value rest =>
      have hrest := componentWalk_agree_iff component others rest after hbehind hdepth hdue
      rcases Nat.lt_or_ge name.length n with hfits | hlong
      · by_cases hmarker : IsMarker name
        · rw [componentWalk_over false hfits hmarker nofun]
          cases hobject : value.isObject with
          | false =>
              have hover : ¬(IsMarker name ∧ value.isObject = true) :=
                fun h => Bool.false_ne_true (hobject.symm.trans h.2)
              rw [componentWalk_over true hfits hmarker fun _ => hobject, enteredIn_over hfits hover]
              exact hrest
          | true =>
              obtain ⟨inner, rfl⟩ := Json.eq_object_of_isObject hobject
              have hdeeper : ∀ d ∈ componentWalk true n components component inner (.endObject :: (rest.stream ++ after))
                  (desiredWalk true n components rest after), closedObjects after < d.depth :=
                entered_depth component inner rest after
              have hshallow : ∀ d ∈ componentWalk false n components component rest after due,
                  d.depth ≤ closedObjects after := by
                intro d hmem
                rcases componentWalk_due_depth component rest after due d hmem with heq | hmem
                · exact Int.le_of_eq heq
                · exact hdepth d hmem
              rw [componentWalk_enter hfits hmarker, enteredIn, if_neg (Nat.not_le.mpr hfits), if_pos hmarker,
                eq_iff_nil_of_depth hdeeper hshallow, componentWalk_eq_nil component rest after hdue,
                componentWalk_eq_nil component inner _ (desiredWalk_eq_nil rest after)]
              constructor
              · rintro hsilent x hx
                cases hx
                exact hsilent
              · intro hall
                exact hall _ rfl
        · have hover : ¬(IsMarker name ∧ value.isObject = true) :=
            fun h => hmarker h.1
          rw [componentWalk_property true hfits hmarker, componentWalk_property false hfits hmarker,
            enteredIn_over hfits hover, List.cons_inj_right]
          exact hrest
      · rw [componentWalk_long true hlong, componentWalk_long false hlong, enteredIn_long hlong]
        exact iff_of_true rfl nofun

/-- The walk that enters objects makes the calls that are due exactly if the first object that it enters, with what
stands behind, is silent. -/
theorem desiredWalk_agree_iff (members : Members) (after : List Token)
    (hplain : ∀ p ∈ members.toList, p.1 = twinDesiredVersion → p.2.isObject = false) :
    desiredWalk true n components members after = desiredWalk false n components members after ↔
      ∀ x, firstEntered n components members = some x → x.Silent n components := by
  cases members with
  | nil =>
      rw [desiredWalk, desiredWalk, firstEntered]
      exact iff_of_true rfl nofun
  | cons name value rest =>
      have hrest := desiredWalk_agree_iff rest after fun p hmem => hplain p (List.mem_cons_of_mem _ hmem)
      rcases Nat.lt_or_ge name.length n with hfits | hlong
      · by_cases hversion : name = twinDesiredVersion
        · have hobject := hplain (name, value) List.mem_cons_self hversion
          rw [desiredWalk_over true hfits hversion fun _ => hobject, desiredWalk_over false hfits hversion nofun,
            firstEntered_over hfits fun h => h.1 hversion]
          exact hrest
        · by_cases hlisted : value.isObject = true ∧ listed components name = true
          · obtain ⟨inner, rfl⟩ := Json.eq_object_of_isObject hlisted.1
            have hdepth : ∀ d ∈ desiredWalk false n components rest after,
                d.depth ≤ closedObjects (.endObject :: (rest.stream ++ after)) := by
              intro d hmem
              rw [closedObjects_behind]
              exact Int.le_of_eq (desiredWalk_due_depth rest after d hmem)
            rw [desiredWalk_component true hfits hversion hlisted.2,
              desiredWalk_component false hfits hversion hlisted.2, firstEntered, if_neg (Nat.not_le.mpr hfits),
              if_pos ⟨hversion, hlisted.2⟩]
            exact componentWalk_agree_iff name rest inner _ hrest hdepth (desiredWalk_eq_nil rest after)
          · rw [desiredWalk_own true hfits hversion hlisted, desiredWalk_own false hfits hversion hlisted,
              firstEntered_over hfits fun h => hlisted h.2, List.cons_inj_right]
            exact hrest
      · rw [desiredWalk_long true hlong, desiredWalk_long false hlong, firstEntered_long hlong]
        exact iff_of_true rfl nofun

end entering

section due

variable {components : Option (List CString)} {n : Nat}

theorem componentWalk_due (component : List Byte) (members : Members) (after : List Token) (behind : List Delivery)
    (hfits : ∀ p ∈ members.toList, p.1.length < n) :
    componentWalk false n components component members after behind =
      componentDeliveries component members after ++ behind := by
  cases members with
  | nil => rw [componentWalk, componentDeliveries, List.nil_append]
  | cons name value rest =>
      have hname := hfits (name, value) List.mem_cons_self
      have hrest := componentWalk_due component rest after behind fun p hmem => hfits p (List.mem_cons_of_mem _ hmem)
      rw [componentDeliveries]
      by_cases hmarker : IsMarker name
      · have hover : false = true → value.isObject = false := fun h => absurd h Bool.false_ne_true
        rw [componentWalk_over false hname hmarker hover, if_pos hmarker, hrest]
      · rw [componentWalk_property false hname hmarker, if_neg hmarker, hrest, List.cons_append]

/-- When the names fit, the walk that steps over the objects makes the calls that are due for the members. -/
theorem desiredWalk_due (members : Members) (after : List Token) (hfits : ∀ p ∈ members.toList, p.1.length < n)
    (hcomponents : ∀ name inner, (name, .object inner) ∈ members.toList → listed components name = true →
      ∀ p ∈ inner.toList, p.1.length < n) :
    desiredWalk false n components members after = desiredDeliveries components members after := by
  cases members with
  | nil => rw [desiredWalk, desiredDeliveries]
  | cons name value rest =>
      have hname := hfits (name, value) List.mem_cons_self
      have hrest := desiredWalk_due rest after (fun p hmem => hfits p (List.mem_cons_of_mem _ hmem))
        fun name inner hmem => hcomponents name inner (List.mem_cons_of_mem _ hmem)
      rw [desiredDeliveries]
      by_cases hversion : name = twinDesiredVersion
      · have hover : false = true → value.isObject = false := fun h => absurd h Bool.false_ne_true
        rw [desiredWalk_over false hname hversion hover, if_pos hversion, hrest]
      · rw [if_neg hversion]
        by_cases hlisted : value.isObject = true ∧ listed components name = true
        · obtain ⟨inner, rfl⟩ := Json.eq_object_of_isObject hlisted.1
          have hinner := hcomponents name inner List.mem_cons_self hlisted.2
          rw [desiredWalk_component false hname hversion hlisted.2, memberDeliveries, if_pos hlisted.2, hrest,
            componentWalk_due name inner _ _ hinner]
        · rw [desiredWalk_own false hname hversion hlisted, memberDeliveries_own hlisted, hrest, List.singleton_append]

end due

/-- A reader stands at one place, so a call is made for one delivery. -/
theorem delivered_rightUnique {ρ : Type} {reader : Reader ρ Status} {law : LawfulReader reader}
    (hdefinite : law.Definite) (version : BitVec 32) : Relator.RightUnique (Delivered law version) := by
  intro call d d' h h'
  have hcomponent := h.component_eq.symm.trans h'.component_eq
  have hproperty := h.property_eq.symm.trans h'.property_eq
  have hposition := hdefinite h.value_at h'.value_at
  cases d
  cases d'
  simp only [Delivery.mk.injEq]
  exact ⟨hcomponent, hproperty, hposition⟩

/-- **The calls are those of a walk that steps over every value of a marker exactly if the first object under a marker
of a known component, with what stands behind it, is silent**, for every reader that keeps its laws, all documents, all
lists of component names and all scratch buffers. -/
theorem twinDataParse_markers_iff {ρ : Type} {reader : Reader ρ Status} {law : LawfulReader reader}
    (hrefuses : law.Refuses) (hdefinite : law.Definite) {isPartial : BitVec 32} {doc : Json} {desired rest : Members}
    {after : List Token} {r : ρ} (hdoc : Walks isPartial doc desired after) (hbefore : law.Before r doc.stream)
    {components : Option (List CString)} (hnames : Named components) (n : Nat) {spelling : List Byte} {value : Int}
    (hfind : desired.find twinDesiredVersion = some (.number spelling, rest))
    (hvalue : int32Value spelling = some value)
    (hplain : ∀ p ∈ desired.toList, p.1 = twinDesiredVersion → p.2.isObject = false) :
    ∃ status r' calls,
      Returns (nxAzureIotPnpHelperTwinDataParse reader isPartial components n) r (status, r', calls) ∧
        (List.Forall₂ (Delivered law (BitVec.ofInt 32 value)) calls
            (desiredWalk false n components desired (.endObject :: after)) ↔
          ∀ entered, firstEntered n components desired = some entered → entered.Silent n components) := by
  obtain ⟨status, r', calls, hdelivered, hreturns⟩ :=
    twinDataParse_calls (n := n) hrefuses hdoc hbefore hnames hfind hvalue
  refine ⟨status, r', calls, hreturns, ?_⟩
  rw [← desiredWalk_agree_iff desired (.endObject :: after) hplain]
  constructor
  · intro hdue
    exact List.right_unique_forall₂' (delivered_rightUnique hdefinite _) hdelivered hdue
  · intro hagree
    rw [← hagree]
    exact hdelivered

/-- Desired properties with an empty object under the marker of the last component. -/
def silentDesired : Members :=
  .cons (text "$version") (.number (text "7"))
    (.cons (text "led") (.object (.cons (text "on") (.bool true) (.cons (text "__t") (.object .nil) .nil))) .nil)

theorem silentDesired_delivered : ∃ status r' calls,
    Returns (nxAzureIotPnpHelperTwinDataParse (ListReader.reader Status.notConnected) 1 (some sampleComponents) 16)
      ⟨false, (Json.object silentDesired).stream⟩ (status, r', calls) ∧
    List.Forall₂ (Delivered (ListReader.lawful Status.notConnected) (BitVec.ofInt 32 7)) calls
      (desiredWalk false 16 (some sampleComponents) silentDesired [.endObject]) := by
  have hplain : ∀ p ∈ silentDesired.toList, p.1 = twinDesiredVersion → p.2.isObject = false := by decide
  have hdoc : Walks 1 (.object silentDesired) silentDesired [] := .patch (by decide)
  have hvalue : int32Value (text "7") = some 7 := by decide
  obtain ⟨rest, hfind⟩ : ∃ rest, silentDesired.find twinDesiredVersion = some (.number (text "7"), rest) := ⟨_, rfl⟩
  obtain ⟨status, r', calls, hreturns, hdelivered⟩ := twinDataParse_markers_iff
    (ListReader.refuses Status.notConnected) (ListReader.definite Status.notConnected)
    (r := ⟨false, (Json.object silentDesired).stream⟩) hdoc rfl sampleComponents_named 16 hfind hvalue hplain
  refine ⟨status, r', calls, hreturns, hdelivered.mpr ?_⟩
  intro entered hentered
  have hfirst : firstEntered 16 (some sampleComponents) silentDesired = some ⟨.nil, .nil, .nil⟩ := rfl
  obtain rfl := Option.some.inj (hfirst.symm.trans hentered)
  exact ⟨trivial, trivial⟩

/-- Desired properties with an object under the marker of the component `led`, and properties behind it. -/
def markedDesired : Members :=
  .cons (text "$version") (.number (text "7"))
    (.cons (text "led")
      (.object (.cons (text "__t") (.object (.cons (text "x") (.bool true) .nil))
        (.cons (text "on") (.bool true) .nil)))
      (.cons (text "rate") (.number (text "5")) .nil))

theorem delivered_names {ρ : Type} {reader : Reader ρ Status} {law : LawfulReader reader} {version : BitVec 32}
    {calls : List (Call ρ)} {due : List Delivery} (h : List.Forall₂ (Delivered law version) calls due) :
    calls.map (fun call => (call.component, call.property)) = due.map fun d => (d.component, d.property) := by
  induction h with
  | nil => rfl
  | @cons call d calls due hcall _ ih =>
      rw [List.map_cons, List.map_cons, ih, hcall.component_eq, hcall.property_eq]

/-- The name inside the marker is reported as a property of the component, the property behind it as one of no
component, and the last one not at all. -/
theorem markedDesired_leaks : ∃ status r' calls,
    Returns (nxAzureIotPnpHelperTwinDataParse (ListReader.reader Status.notConnected) 1 (some sampleComponents) 16)
      ⟨false, (Json.object markedDesired).stream⟩ (status, r', calls) ∧
    calls.map (fun call => (call.component, call.property)) = [(some (text "led"), text "x"), (none, text "on")] ∧
    ¬List.Forall₂ (Delivered (ListReader.lawful Status.notConnected) (BitVec.ofInt 32 7)) calls
      (desiredDeliveries (some sampleComponents) markedDesired [.endObject]) := by
  have hdoc : Walks 1 (.object markedDesired) markedDesired [] := .patch (by decide)
  have hvalue : int32Value (text "7") = some 7 := by decide
  obtain ⟨rest, hfind⟩ : ∃ rest, markedDesired.find twinDesiredVersion = some (.number (text "7"), rest) := ⟨_, rfl⟩
  obtain ⟨status, r', calls, hdelivered, hreturns⟩ := twinDataParse_calls (n := 16)
    (ListReader.refuses Status.notConnected) (r := ⟨false, (Json.object markedDesired).stream⟩) hdoc rfl
    sampleComponents_named hfind hvalue
  have hcalls : calls.map (fun call => (call.component, call.property)) =
      [(some (text "led"), text "x"), (none, text "on")] := delivered_names hdelivered
  have hdue : (desiredDeliveries (some sampleComponents) markedDesired [.endObject]).map
      (fun d => (d.component, d.property)) = [(some (text "led"), text "on"), (none, text "rate")] := rfl
  refine ⟨status, r', calls, hreturns, hcalls, fun h => ?_⟩
  have hsame := hcalls.symm.trans ((delivered_names h).trans hdue)
  exact absurd hsame (by decide)

end DeviceSample.Twin
