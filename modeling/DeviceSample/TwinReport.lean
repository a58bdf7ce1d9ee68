import DeviceSample.BaseWriter
import DeviceSample.TwinDelivery

/-!
The two builders of reported properties in `nx_azure_iot_pnp_helpers.c`. What they write is one object, and the
walk over a component finds the property in it.
-/

namespace DeviceSample.Twin

open Base

/-- `reported_component_type_value`. -/
def reportedComponentTypeValue : List Byte := text "c"

/-- `reported_value_property_name`. -/
def reportedValuePropertyName : List Byte := text "value"

/-- `reported_status_property_name`. -/
def reportedStatusPropertyName : List Byte := text "ac"

/-- `reported_version_property_name`. -/
def reportedVersionPropertyName : List Byte := text "av"

/-- `reported_description_property_name`. -/
def reportedDescriptionPropertyName : List Byte := text "ad"

section building

/-- The object of a component begins with its type; without a component there is none. -/
def beginComponent : Option (List Byte) → WriterM Status Unit
  | none => pure ()
  | some componentName => do
      append (.propertyName componentName)
      append .beginObject
      appendPropertyWithStringValue pnpComponentTypePropertyName reportedComponentTypeValue

def endComponent : Option (List Byte) → WriterM Status Unit
  | none => pure ()
  | some _ => append .endObject

/-- The status of a chain: that of a refusal is not handed on. -/
def built (chain : WriterM Status Unit) (w : JsonWriter Status) : Status × JsonWriter Status :=
  match chain w with
  | .ok _ w => (.success, w)
  | .error _ w => (.notSuccessful, w)

variable (component : Option (List Byte))

def reportedPropertyChain (appendReportedProperty : WriterM Status Unit) : WriterM Status Unit := do
  append .beginObject
  beginComponent component
  appendReportedProperty
  endComponent component
  append .endObject

/-- `nx_azure_iot_pnp_helper_build_reported_property`. -/
def nxAzureIotPnpHelperBuildReportedProperty (appendReportedProperty : WriterM Status Unit)
    (w : JsonWriter Status) : Status × JsonWriter Status :=
  built (reportedPropertyChain component appendReportedProperty) w

variable (propertyName : List Byte) (result : BitVec 32) (description : List Byte) (ackVersion : BitVec 32)

def reportedPropertyWithStatusChain (appendValue : WriterM Status Unit) : WriterM Status Unit := do
  append .beginObject
  beginComponent component
  append (.propertyName propertyName)
  append .beginObject
  append (.propertyName reportedValuePropertyName)
  appendValue
  appendPropertyWithInt32Value reportedStatusPropertyName result
  appendPropertyWithStringValue reportedDescriptionPropertyName description
  appendPropertyWithInt32Value reportedVersionPropertyName ackVersion
  append .endObject
  append .endObject
  endComponent component

/-- `nx_azure_iot_pnp_helper_build_reported_property_with_status`. -/
def nxAzureIotPnpHelperBuildReportedPropertyWithStatus (appendValue : WriterM Status Unit)
    (w : JsonWriter Status) : Status × JsonWriter Status :=
  built (reportedPropertyWithStatusChain component propertyName result description ackVersion appendValue) w

end building

section objects

/-- The members of a component with one property. -/
def componentMembers (name : List Byte) (value : Json) : Members :=
  .cons pnpComponentTypePropertyName (.string reportedComponentTypeValue) (.cons name value .nil)

/-- What is reported of a property: itself, or its component with it. -/
def reportedMember (component : Option (List Byte)) (name : List Byte) (value : Json) : Members :=
  match component with
  | none => .cons name value .nil
  | some componentName => .cons componentName (.object (componentMembers name value)) .nil

/-- A value with the status, the description and the version of its acknowledgement. -/
def withStatus (value : Json) (result : BitVec 32) (description : List Byte) (ackVersion : BitVec 32) : Json :=
  .object (.cons reportedValuePropertyName value
    (.cons reportedStatusPropertyName (.number (signedDecimal result.toInt))
      (.cons reportedDescriptionPropertyName (.string description)
        (.cons reportedVersionPropertyName (.number (signedDecimal ackVersion.toInt)) .nil))))

/-- The tokens of a reported object in front of its property. -/
def objectFront : Option (List Byte) → List Token
  | none => [.beginObject]
  | some componentName => [.beginObject, .propertyName componentName, .beginObject,
      .propertyName pnpComponentTypePropertyName, .string reportedComponentTypeValue]

def objectBack : Option (List Byte) → List Token
  | none => [.endObject]
  | some _ => [.endObject, .endObject]

/-- The tokens of a status behind the value. -/
def statusBack (result : BitVec 32) (description : List Byte) (ackVersion : BitVec 32) : List Token :=
  [.propertyName reportedStatusPropertyName, .number (signedDecimal result.toInt),
    .propertyName reportedDescriptionPropertyName, .string description,
    .propertyName reportedVersionPropertyName, .number (signedDecimal ackVersion.toInt), .endObject]

theorem reportedMember_stream (component : Option (List Byte)) (name : List Byte) (value : Json) :
    (Json.object (reportedMember component name value)).stream =
      objectFront component ++ (.propertyName name :: value.stream ++ objectBack component) := by
  cases component with
  | none => simp [reportedMember, Json.stream, Members.stream, objectFront, objectBack]
  | some componentName =>
      simp [reportedMember, componentMembers, Json.stream, Members.stream, objectFront, objectBack]

theorem withStatus_stream (value : Json) (result : BitVec 32) (description : List Byte) (ackVersion : BitVec 32) :
    (withStatus value result description ackVersion).stream =
      [.beginObject, .propertyName reportedValuePropertyName] ++
        (value.stream ++ statusBack result description ackVersion) := by
  simp [withStatus, Json.stream, Members.stream, statusBack]

end objects

section chains

variable (component : Option (List Byte))

theorem writes_front : Writes (append .beginObject >>= fun _ => beginComponent component) (objectFront component) := by
  cases component with
  | none => exact (writes_append _).seq writes_pure
  | some componentName =>
      exact (writes_append _).seq ((writes_append _).seq ((writes_append _).seq (writes_stringValue _ _)))

theorem writes_endComponent_endObject :
    Writes (endComponent component >>= fun _ => append .endObject) (objectBack component) := by
  cases component with
  | none => exact writes_pure.seq (writes_append _)
  | some componentName => exact (writes_append _).seq (writes_append _)

theorem writes_endObject_endComponent :
    Writes (append .endObject >>= fun _ => endComponent component) (objectBack component) := by
  cases component with
  | none => exact (writes_append _).seq writes_pure
  | some componentName => exact (writes_append _).seq (writes_append _)

theorem reportedProperty_encloses (appendReportedProperty : WriterM Status Unit) :
    Encloses appendReportedProperty (reportedPropertyChain component appendReportedProperty) (objectFront component)
      (objectBack component) := by
  have hback := writes_endComponent_endObject component
  have hchain := (writes_front component).encloses (encloses_call appendReportedProperty hback)
  rw [List.append_nil, bind_assoc] at hchain
  exact hchain

theorem reportedPropertyWithStatus_encloses (propertyName : List Byte) (result : BitVec 32) (description : List Byte)
    (ackVersion : BitVec 32) (appendValue : WriterM Status Unit) :
    Encloses appendValue
      (reportedPropertyWithStatusChain component propertyName result description ackVersion appendValue)
      (objectFront component ++ [.propertyName propertyName, .beginObject, .propertyName reportedValuePropertyName])
      (statusBack result description ackVersion ++ objectBack component) := by
  have hstatus := (@writes_int32Value Status reportedStatusPropertyName result).seq
    ((writes_stringValue reportedDescriptionPropertyName description).seq
      ((writes_int32Value reportedVersionPropertyName ackVersion).seq
        ((writes_append .endObject).seq (writes_endObject_endComponent component))))
  have hvalue := (writes_append (.propertyName propertyName)).encloses ((writes_append .beginObject).encloses
    ((writes_append (.propertyName reportedValuePropertyName)).encloses (encloses_call appendValue hstatus)))
  have hchain := (writes_front component).encloses hvalue
  rw [bind_assoc] at hchain
  exact hchain

theorem built_success {chain : WriterM Status Unit} {w : JsonWriter Status} (h : (built chain w).1 = .success) :
    chain w = .ok () (built chain w).2 := by
  cases hchain : chain w with
  | ok u w' => rw [built, hchain]
  | error e w' =>
      rw [built, hchain] at h
      cases h

theorem built_status (chain : WriterM Status Unit) (w : JsonWriter Status) :
    (built chain w).1 = .success ∨ (built chain w).1 = .notSuccessful := by
  cases hchain : chain w with
  | ok u w' => exact Or.inl (by rw [built, hchain])
  | error e w' => exact Or.inr (by rw [built, hchain])

end chains

/-- The walk over the object of the component calls back once, for the property and at its value, with every reader
and every scratch buffer that holds the two names. -/
def ReadsBack (component : Option (List Byte)) (name : List Byte) (value : Json) : Prop :=
  ∀ componentName, component = some componentName → name ≠ pnpComponentTypePropertyName →
    name ≠ twinDesiredVersion → ∀ {ρ : Type} {reader : Reader ρ Status} (law : LawfulReader reader)
      (version : BitVec 32) (scratchBufLen : Nat) (r : ρ) (after : List Token),
        name.length < scratchBufLen → pnpComponentTypePropertyName.length < scratchBufLen →
          law.At r ((Json.object (componentMembers name value)).stream ++ after) →
            ∃ r' call, Delivered law version call
                ⟨some componentName, name, value.stream ++ .endObject :: after⟩ ∧
              Returns (fun n => visitComponentProperties reader componentName version scratchBufLen n []) r
                (.success, r', [call])

/-- A build that starts with `w`. Success: one object was appended, which holds such a property and reads back. A
refused append: `NX_NOT_SUCCESSFUL`. -/
structure Builds (component : Option (List Byte)) (Property : List Byte → Json → Prop) (w : JsonWriter Status)
    (result : Status × JsonWriter Status) : Prop where
  object : result.1 = .success → ∃ name value, Property name value ∧ ReadsBack component name value ∧
    result.2.tokens = w.tokens ++ (Json.object (reportedMember component name value)).stream
  refused : Refused w result.2 → result.1 = .notSuccessful

theorem reads_back (component : Option (List Byte)) (name : List Byte) (value : Json) :
    ReadsBack component name value := by
  intro componentName _ htype hversion ρ reader law version scratchBufLen r after hname hfits hat
  have hwalk : Walkable scratchBufLen [pnpComponentTypePropertyName, twinDesiredVersion]
      (componentMembers name value) := by
    constructor
    · intro p hmem
      rcases List.mem_cons.mp hmem with rfl | hmem
      · exact hfits
      · obtain rfl := List.mem_singleton.mp hmem
        exact hname
    · intro p hmem hover
      rcases List.mem_cons.mp hmem with rfl | hmem
      · rfl
      · obtain rfl := List.mem_singleton.mp hmem
        rcases List.mem_cons.mp hover with hover | hover
        · exact absurd hover htype
        · exact absurd (List.mem_singleton.mp hover) hversion
  rw [Json.object_stream] at hat
  obtain ⟨r', delivered, -, hdelivered, hreturns⟩ := visit_delivers componentName version (componentMembers name value)
    [] hwalk hat
  have hdue : componentDeliveries componentName (componentMembers name value) (.endObject :: after) =
      [⟨some componentName, name, value.stream ++ .endObject :: after⟩] := by
    rw [componentMembers, componentDeliveries, if_pos (Or.inl rfl), componentDeliveries,
      if_neg (not_or_intro htype hversion), componentDeliveries]
    rfl
  rw [hdue] at hdelivered
  obtain ⟨call, others, hcall, hothers, rfl⟩ := List.forall₂_cons_right_iff.mp hdelivered
  obtain rfl := List.forall₂_nil_right_iff.mp hothers
  exact ⟨r', call, hcall, hreturns⟩

/-- A chain around a call that appends a shape. -/
theorem builds_of_encloses {Shape : List Token → Prop} {component : Option (List Byte)}
    {Property : List Byte → Json → Prop} {chain : WriterM Status Unit} {front back : List Token}
    (appender : Appender Status Shape) (hencloses : Encloses appender.call chain front back)
    (hobject : ∀ {w₁ w₂ tokens}, appender.call w₁ = .ok () w₂ → Shape tokens → Appended w₁ tokens w₂ →
      ∃ name value, Property name value ∧
        front ++ (tokens ++ back) = (Json.object (reportedMember component name value)).stream)
    (w : JsonWriter Status) : Builds component Property w (built chain w) where
  object hsuccess := by
    obtain ⟨w₁, w₂, hcall, hbetween⟩ := hencloses (built_success hsuccess)
    obtain ⟨tokens, hshape, happended⟩ := appender.appends hcall
    obtain ⟨name, value, hproperty, hstream⟩ := hobject hcall hshape happended
    refine ⟨name, value, hproperty, reads_back component name value, ?_⟩
    rw [← hstream]
    exact (hbetween tokens happended).tokens_eq
  refused hrefused := by
    rcases built_status chain w with hsuccess | hfailed
    · obtain ⟨w₁, w₂, hcall, hbetween⟩ := hencloses (built_success hsuccess)
      obtain ⟨tokens, -, happended⟩ := appender.appends hcall
      exact absurd hrefused (hbetween tokens happended).not_refused
    · exact hfailed

/-- **What the two builders write is one object and reads back**, for all components, properties, statuses and
versions, all callbacks and all refusals of the writer. -/
theorem reportedProperties_build (component : Option (List Byte)) (w : JsonWriter Status) :
    (∀ appendReportedProperty : Appender Status IsMember,
      Builds component (fun name value => ∃ w₁ w₂, appendReportedProperty.call w₁ = .ok () w₂ ∧
          Appended w₁ (.propertyName name :: value.stream) w₂) w
        (nxAzureIotPnpHelperBuildReportedProperty component appendReportedProperty.call w)) ∧
      ∀ (propertyName : List Byte) (result : BitVec 32) (description : List Byte) (ackVersion : BitVec 32)
        (appendValue : Appender Status IsValue),
        Builds component (fun name value => name = propertyName ∧ ∃ w₁ w₂ given,
            appendValue.call w₁ = .ok () w₂ ∧ Appended w₁ given.stream w₂ ∧
              value = withStatus given result description ackVersion) w
          (nxAzureIotPnpHelperBuildReportedPropertyWithStatus component propertyName result description ackVersion
            appendValue.call w) := by
  constructor
  · intro appendReportedProperty
    refine builds_of_encloses appendReportedProperty (reportedProperty_encloses component _) ?_ w
    rintro w₁ w₂ tokens hcall ⟨name, value, rfl⟩ happended
    exact ⟨name, value, ⟨w₁, w₂, hcall, happended⟩, (reportedMember_stream component name value).symm⟩
  · intro propertyName result description ackVersion appendValue
    refine builds_of_encloses appendValue
      (reportedPropertyWithStatus_encloses component propertyName result description ackVersion _) ?_ w
    rintro w₁ w₂ tokens hcall ⟨given, rfl⟩ happended
    refine ⟨propertyName, withStatus given result description ackVersion,
      ⟨rfl, w₁, w₂, given, hcall, happended, rfl⟩, ?_⟩
    rw [reportedMember_stream, withStatus_stream]
    simp only [List.append_assoc, List.cons_append, List.nil_append]

/-- A callback that appends a property `a`. -/
def appendFlag : Appender Status IsMember where
  call := append (.propertyName (text "a")) >>= fun _ => append (.bool true)
  appends w w' h := by
    have happended := (writes_append _).seq (writes_append _) h
    exact ⟨_, ⟨text "a", .bool true, rfl⟩, happended⟩

/-- A writer that refuses nothing. -/
def openWriter : JsonWriter Status := ⟨[], 0, fun _ => none⟩

/-- The name fits in a scratch buffer of two bytes, but the type of the component in front of it does not. -/
theorem shortBuffer_not_read_back :
    nxAzureIotPnpHelperBuildReportedProperty (some (text "led")) appendFlag.call openWriter =
        (.success, ⟨(Json.object (reportedMember (some (text "led")) (text "a") (.bool true))).stream, 9,
          fun _ => none⟩) ∧
      (text "a").length < 2 ∧
      ∀ (after : List Token) (version : BitVec 32),
        ¬∃ r' call, Returns (fun n => visitComponentProperties (ListReader.reader Status.notConnected) (text "led")
            version 2 n []) ⟨true, (Json.object (componentMembers (text "a") (.bool true))).stream ++ after⟩
          (.success, r', [call]) := by
  refine ⟨rfl, by decide, fun after version => ?_⟩
  rintro ⟨r', call, k, hreturns⟩
  have hround := hreturns (k + 1) (Nat.le_succ k)
  cases hround

end DeviceSample.Twin
