import DeviceSample.BaseReader
import DeviceSample.Sdk

/-!
The walk over a device twin in `nx_azure_iot_pnp_helpers.c`: three loops that pull tokens from one
reader. Each loop has fuel for its rounds, and `none` says that it ran out. The calls of the callback
are kept in order.
-/

namespace DeviceSample.Twin

open Base

/-- `NX_AZURE_IOT_NOT_FOUND`. -/
def azureIotNotFound : Status := .other 0x20007

/-- `sample_iot_hub_twin_desired_version`. -/
def twinDesiredVersion : List Byte := text "$version"

/-- `sample_iot_hub_twin_desired`. -/
def twinDesired : List Byte := text "desired"

/-- `sample_pnp_component_type_property_name`. -/
def pnpComponentTypePropertyName : List Byte := text "__t"

/-- A call of `sample_desired_property_callback`: the component or `NX_NULL`, the property, the copy
of the reader at the value, and the version. -/
structure Call (ρ : Type) where
  component : Option (List Byte)
  property : List Byte
  value : ρ
  version : BitVec 32
  deriving DecidableEq

section loops

variable {ρ : Type} (reader : Reader ρ Status)

/-- `sample_json_child_token_move`: the status and where it leaves the reader. -/
def sampleJsonChildTokenMove (propertyName : List Byte) : Nat → ρ → Option (Status × ρ)
  | 0, _ => none
  | fuel + 1, r =>
      match reader.nextToken r with
      | .error _ r => some (azureIotNotFound, r)
      | .ok _ r =>
          if reader.tokenType r = .propertyName ∧ reader.isTextEqual r propertyName then
            match reader.nextToken r with
            | .error _ r => some (.notSuccessful, r)
            | .ok _ r => some (.success, r)
          else
            reader.skipObject (fun r => some (.notSuccessful, r))
              (sampleJsonChildTokenMove propertyName fuel)
              (fun r =>
                if reader.tokenType r = .endObject then some (azureIotNotFound, r)
                else sampleJsonChildTokenMove propertyName fuel r)
              r

/-- The end of a round: an object is skipped, and the end of the walked object ends the loop. -/
def endOfRound (again : List (Call ρ) → ρ → Option (Status × ρ × List (Call ρ))) (calls : List (Call ρ))
    (r : ρ) : Option (Status × ρ × List (Call ρ)) :=
  reader.skipObject (fun r => some (.notSuccessful, r, calls)) (again calls)
    (fun r => if reader.tokenType r = .endObject then some (.success, r, calls) else again calls r) r

/-- `visit_component_properties`. -/
def visitComponentProperties (component : List Byte) (version : BitVec 32) (scratchBufLen : Nat) :
    Nat → List (Call ρ) → ρ → Option (Status × ρ × List (Call ρ))
  | 0, _, _ => none
  | fuel + 1, calls, r =>
      match reader.nextToken r with
      | .error _ r => some (.success, r, calls)
      | .ok _ r =>
          if reader.tokenType r = .propertyName then
            match reader.stringGet r scratchBufLen with
            | .error _ => some (.notSuccessful, r, calls)
            | .ok property =>
                match reader.nextToken r with
                | .error _ r => some (.notSuccessful, r, calls)
                | .ok _ r =>
                    if property = pnpComponentTypePropertyName then
                      visitComponentProperties component version scratchBufLen fuel calls r
                    else if property = twinDesiredVersion then
                      visitComponentProperties component version scratchBufLen fuel calls r
                    else
                      endOfRound reader (visitComponentProperties component version scratchBufLen fuel)
                        (calls ++ [⟨some component, property, r, version⟩]) r
          else
            endOfRound reader (visitComponentProperties component version scratchBufLen fuel) calls r

/-- `is_component_in_model`: the index of the first component of the name. -/
def isComponentInModel (name : List Byte) (components : List CString) :
    Except Status (Fin components.length) :=
  if name = [] then .error .notSuccessful
  else
    match components.findFinIdx? fun c => c.bytes = name with
    | some index => .ok index
    | none => .error azureIotNotFound

/-- The component whose properties the value of a member holds: the value is an object, and its name
is in the list. -/
def componentOf (components : Option (List CString)) (type : TokenType) (name : List Byte) :
    Option (List Byte) :=
  if type = .beginObject then
    match components with
    | none => none
    | some components =>
        match isComponentInModel name components with
        | .ok index => some (components.get index).bytes
        | .error _ => none
  else none

/-- The loop of `nx_azure_iot_pnp_helper_twin_data_parse` over the desired object. -/
def desiredLoop (components : Option (List CString)) (version : BitVec 32) (scratchBufLen : Nat) :
    Nat → List (Call ρ) → ρ → Option (Status × ρ × List (Call ρ))
  | 0, _, _ => none
  | fuel + 1, calls, r =>
      match reader.nextToken r with
      | .error _ r => some (.success, r, calls)
      | .ok _ r =>
          if reader.tokenType r = .propertyName then
            match reader.stringGet r scratchBufLen with
            | .error _ => some (.notSuccessful, r, calls)
            | .ok property =>
                match reader.nextToken r with
                | .error _ r => some (.notSuccessful, r, calls)
                | .ok _ r =>
                    if property = twinDesiredVersion then
                      desiredLoop components version scratchBufLen fuel calls r
                    else
                      match componentOf components (reader.tokenType r) property with
                      | some component =>
                          match visitComponentProperties reader component version scratchBufLen fuel calls r
                          with
                          | none => none
                          | some (status, r, calls) =>
                              if status ≠ .success then some (.notSuccessful, r, calls)
                              else desiredLoop components version scratchBufLen fuel calls r
                      | none =>
                          let calls := calls ++ [⟨none, property, r, version⟩]
                          reader.skipObject (fun r => some (.notSuccessful, r, calls))
                            (desiredLoop components version scratchBufLen fuel calls)
                            (desiredLoop components version scratchBufLen fuel calls)
                            r
          else
            endOfRound reader (desiredLoop components version scratchBufLen fuel) calls r

/-- The reader at the first token of the desired object: a full twin has it as a member. -/
def moveToDesired (isPartial : BitVec 32) (fuel : Nat) (r : ρ) : Option (Status × ρ) :=
  if isPartial = 0 then sampleJsonChildTokenMove reader twinDesired fuel r else some (.success, r)

/-- `nx_azure_iot_pnp_helper_twin_data_parse`: the status, the reader and the calls. The version is
looked up with a copy of the reader. -/
def nxAzureIotPnpHelperTwinDataParse (isPartial : BitVec 32) (components : Option (List CString))
    (scratchBufLen : Nat) (fuel : Nat) (r : ρ) : Option (Status × ρ × List (Call ρ)) :=
  match reader.nextToken r with
  | .error status r => some (status, r, [])
  | .ok _ r =>
      match moveToDesired reader isPartial fuel r with
      | none => none
      | some (status, r) =>
          if status ≠ .success then some (.notSuccessful, r, [])
          else
            match sampleJsonChildTokenMove reader twinDesiredVersion fuel r with
            | none => none
            | some (status, copyJsonReader) =>
                if status ≠ .success then some (.notSuccessful, r, [])
                else
                  match reader.int32Get copyJsonReader with
                  | .error _ => some (.notSuccessful, r, [])
                  | .ok version =>
                      desiredLoop reader components (BitVec.ofInt 32 version) scratchBufLen fuel [] r

end loops

end DeviceSample.Twin
