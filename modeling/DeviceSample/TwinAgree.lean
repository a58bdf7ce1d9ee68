import DeviceSample.TwinDelivery

/-!
Full twins and patches. Both entry points of the NX client run the walk over the desired properties, a
full twin from its member `desired` and with a scratch buffer half as long.
-/

namespace DeviceSample.Twin

open Base

/-- A received message: its document, the length of its packet, and how much of it the first piece of
the packet holds. -/
structure Packet where
  body : Json
  packetLength : Nat
  firstLength : Nat

/-- The packet has further pieces. -/
def Packet.chained (packet : Packet) : Bool := packet.packetLength > packet.firstLength

/-- What the processing of a message did: whether it ended without an error, and the calls. -/
structure Processed (ρ : Type) where
  succeeded : Bool
  calls : List (Call ρ)
  deriving DecidableEq

section processing

variable {ρ : Type} (reader : Reader ρ Status) (jsonReaderInit : Packet → Except Status ρ)

/-- The common body of the two functions that process a twin message. -/
def processDeviceTwin (isPartial : BitVec 32) (bufferSize : Nat) (registered : Bool)
    (fuel : Nat) (received : Except Status Packet) : Option (Processed ρ) :=
  match received with
  | .error _ => some ⟨false, []⟩
  | .ok packet =>
      if packet.chained then some ⟨false, []⟩
      else
        match jsonReaderInit packet with
        | .error _ => some ⟨false, []⟩
        | .ok r =>
            if registered then
              match nxAzureIotPnpHelperTwinDataParse reader isPartial none bufferSize fuel r with
              | none => none
              | some (status, _, calls) => some ⟨status = .success, calls⟩
            else some ⟨true, []⟩

/-- `process_device_twin_get`, with a buffer of `PUBLISH_BUFFER_SIZE`. -/
def processDeviceTwinGet (registered : Bool) (fuel : Nat) (received : Except Status Packet) :
    Option (Processed ρ) :=
  processDeviceTwin reader jsonReaderInit 0 64 registered fuel received

/-- `process_device_twin_desired_property`. -/
def processDeviceTwinDesiredProperty (registered : Bool) (fuel : Nat) (received : Except Status Packet) :
    Option (Processed ρ) :=
  processDeviceTwin reader jsonReaderInit 1 128 registered fuel received

end processing

/-- The members that the walk over the desired object looks at. Under `$version` an object is not
stepped over but walked instead of what follows it. -/
def walked : Members → List (List Byte × Json)
  | .nil => []
  | .cons name (.object inner) rest =>
      (name, .object inner) :: if name = twinDesiredVersion then walked inner else walked rest
  | .cons name value rest => (name, value) :: walked rest

/-- The properties that a walk over these members reports with a buffer of `n` bytes. -/
def reported (n : Nat) (members : List (List Byte × Json)) : List (List Byte × Json) :=
  (members.takeWhile fun member => member.1.length < n).filter fun member => member.1 ≠ twinDesiredVersion

/-- A name is too long for the buffer. -/
def stops (n : Nat) (members : List (List Byte × Json)) : Bool :=
  members.any fun member => n ≤ member.1.length

/-- The version of the desired object, if its first `$version` is a number that 32 bits hold. -/
def desiredVersion (members : Members) : Option Int :=
  match members.find twinDesiredVersion with
  | some (.number spelling, _) => int32Value spelling
  | _ => none

section walked

variable {n : Nat} {name : List Byte} {value : Json} {rest : Members} {members : List (List Byte × Json)}

theorem walked_of_plain (hvalue : value.isObject = false) :
    walked (.cons name value rest) = (name, value) :: walked rest := by
  rw [walked]
  rintro inner rfl
  cases hvalue

theorem walked_of_ne (hname : name ≠ twinDesiredVersion) :
    walked (.cons name value rest) = (name, value) :: walked rest := by
  cases hobject : value.isObject with
  | false => exact walked_of_plain hobject
  | true =>
      obtain ⟨inner, rfl⟩ := Json.eq_object_of_isObject hobject
      rw [walked, if_neg hname]

theorem walked_cons (name : List Byte) (value : Json) (rest : Members) :
    ∃ others, walked (.cons name value rest) = (name, value) :: others := by
  cases hobject : value.isObject with
  | false => exact ⟨_, walked_of_plain hobject⟩
  | true =>
      obtain ⟨inner, rfl⟩ := Json.eq_object_of_isObject hobject
      exact ⟨_, by rw [walked]⟩

theorem reported_cons_long (hlong : n ≤ name.length) : reported n ((name, value) :: members) = [] := by
  rw [reported, List.takeWhile_cons_of_neg (by simpa using hlong), List.filter_nil]

theorem stops_cons_long (hlong : n ≤ name.length) : stops n ((name, value) :: members) = true := by
  rw [stops, List.any_cons, decide_eq_true hlong, Bool.true_or]

theorem stops_cons_fits (hfits : name.length < n) : stops n ((name, value) :: members) = stops n members := by
  rw [stops, List.any_cons, decide_eq_false (Nat.not_le.mpr hfits), Bool.false_or]
  rfl

theorem reported_cons_version (hfits : name.length < n) (hname : name = twinDesiredVersion) :
    reported n ((name, value) :: members) = reported n members := by
  rw [reported, List.takeWhile_cons_of_pos (by simpa using hfits), List.filter_cons_of_neg (by simpa using hname)]
  rfl

theorem reported_cons_fits (hfits : name.length < n) (hname : name ≠ twinDesiredVersion) :
    reported n ((name, value) :: members) = (name, value) :: reported n members := by
  rw [reported, List.takeWhile_cons_of_pos (by simpa using hfits), List.filter_cons_of_pos (by simpa using hname)]
  rfl

end walked

section loops

variable {ρ : Type} {reader : Reader ρ Status} {law : LawfulReader reader} {version : BitVec 32} {n : Nat}

/-- The call reports the member: no component, and the reader at the member's value. -/
structure Reports (law : LawfulReader reader) (version : BitVec 32) (call : Call ρ)
    (member : List Byte × Json) : Prop where
  component_eq : call.component = none
  property_eq : call.property = member.1
  version_eq : call.version = version
  value_at : ∃ rest, law.At call.value (member.2.stream ++ rest)

/-- A name that is too long ends the walk. -/
theorem desired_long (hrefuses : law.Refuses) {components : Option (List CString)} {fuel : Nat}
    {calls : List (Call ρ)} {r r' : ρ} {name : List Byte} {rest : List Token}
    (hnext : reader.nextToken r = .ok () r') (hname : law.At r' (.propertyName name :: rest))
    (hlong : n ≤ name.length) :
    desiredLoop reader components version n (fuel + 1) calls r = some (.notSuccessful, r', calls) := by
  obtain ⟨e, herror⟩ := hrefuses.stringGet_error hname hlong
  simp only [desiredLoop, hnext, law.tokenType_eq hname, Token.type, if_true, herror]

variable (version n) in
/-- What the walk does to any object: it reports the members in front of the first name that is too
long, and fails if there is one. -/
theorem desired_walks (hrefuses : law.Refuses) (members : Members) {after : List Token}
    (calls : List (Call ρ)) {r : ρ} {t : Token}
    (hat : law.At r (t :: (members.stream ++ .endObject :: after))) :
    ∃ r' delivered, List.Forall₂ (Reports law version) delivered (reported n (walked members)) ∧
      Returns (fun fuel => desiredLoop reader none version n fuel calls) r
        (if stops n (walked members) then .notSuccessful else .success, r', calls ++ delivered) := by
  cases members with
  | nil =>
      obtain ⟨r', hnext, hend⟩ := law.next hat
      have htype : reader.tokenType r' = .endObject := law.tokenType_eq hend
      refine ⟨r', [], List.Forall₂.nil, Returns.of_round fun fuel => ?_⟩
      rw [desired_round hnext (by rw [htype]; exact TokenType.noConfusion), endOfRound_end htype,
        List.append_nil]
      rfl
  | cons name value rest =>
      rw [Members.cons_stream] at hat
      obtain ⟨r₁, r₂, hnext, hname, hnext', hvalue⟩ := law.next_member value hat
      have hnames : Named none := nofun
      rcases Nat.lt_or_ge name.length n with hfits | hlong
      · by_cases hversion : name = twinDesiredVersion
        · have hround := fun fuel => desired_name version fuel calls hnames hfits hnext hname hnext' hvalue
          simp only [if_pos hversion] at hround
          cases hobject : value.isObject with
          | false =>
              obtain ⟨k, r₃, u, hat', hrounds⟩ :=
                (desired_idle none version n calls).pass_rest value hobject hvalue
              obtain ⟨r', delivered, hdelivered, hreturns⟩ := desired_walks hrefuses rest calls hat'
              rw [walked_of_plain hobject, reported_cons_version hfits hversion, stops_cons_fits hfits]
              exact ⟨r', delivered, hdelivered,
                hreturns.after (k := k + 1) fun fuel => (hround (fuel + k)).trans (hrounds fuel)⟩
          | true =>
              cases value with
              | object inner =>
                  -- the reader stands at the brace of the object, and the next round is in it
                  rw [Json.object_stream] at hvalue
                  obtain ⟨r', delivered, hdelivered, hreturns⟩ := desired_walks hrefuses inner calls hvalue
                  rw [walked, if_pos hversion, reported_cons_version hfits hversion, stops_cons_fits hfits]
                  exact ⟨r', delivered, hdelivered, hreturns.after (k := 1) hround⟩
              | _ => cases hobject
        · obtain ⟨r₃, u, first, hat', hfirst, hmember⟩ := desired_member version calls hnames hversion hfits
            nofun hat
          obtain ⟨r', delivered, hdelivered, hreturns⟩ := desired_walks hrefuses rest (calls ++ first) hat'
          have hlisted : ¬(value.isObject = true ∧ listed none name = true) := fun h => Bool.false_ne_true h.2
          rw [memberDeliveries_own hlisted] at hfirst
          obtain ⟨call, others, hcall, hothers, rfl⟩ := List.forall₂_cons_right_iff.mp hfirst
          obtain rfl := List.forall₂_nil_right_iff.mp hothers
          rw [walked_of_ne hversion, reported_cons_fits hfits hversion, stops_cons_fits hfits]
          refine ⟨r', call :: delivered, List.Forall₂.cons ?_ hdelivered, hmember _ ?_⟩
          · exact ⟨hcall.component_eq, hcall.property_eq, hcall.version_eq, _, hcall.value_at⟩
          · rw [List.append_cons calls call delivered]
            exact hreturns
      · obtain ⟨others, hcons⟩ := walked_cons name value rest
        refine ⟨r₁, [], ?_, Returns.of_round fun fuel => ?_⟩
        · rw [hcons, reported_cons_long hlong]
          exact List.Forall₂.nil
        · rw [hcons, stops_cons_long hlong, if_pos rfl, List.append_nil]
          exact desired_long hrefuses hnext hname hlong

variable (n) in
/-- The parse of a document whose desired object has a version: it fails when that is no number of 32
bits, and walks the object otherwise. -/
theorem twinDataParse_walks (hrefuses : law.Refuses) {isPartial : BitVec 32} {doc : Json} {desired rest : Members}
    {value : Json} {after : List Token} {r : ρ} (hdoc : Walks isPartial doc desired after)
    (hbefore : law.Before r doc.stream) (hfind : desired.find twinDesiredVersion = some (value, rest)) :
    (desiredVersion desired = none ∧
        ∃ r', Returns (nxAzureIotPnpHelperTwinDataParse reader isPartial none n) r (.notSuccessful, r', [])) ∨
      ∃ v r' delivered, desiredVersion desired = some v ∧
        List.Forall₂ (Reports law (BitVec.ofInt 32 v)) delivered (reported n (walked desired)) ∧
          Returns (nxAzureIotPnpHelperTwinDataParse reader isPartial none n) r
            (if stops n (walked desired) then .notSuccessful else .success, r', delivered) := by
  obtain ⟨t, tokens, hstream, -, -⟩ := doc.stream_eq
  rw [hstream] at hbefore
  obtain ⟨r₁, hfirst, hat⟩ := law.first hbefore
  rw [← hstream] at hat
  obtain ⟨r₂, hdesired, k₂, hmoves⟩ := moveToDesired_returns hdoc hat
  obtain ⟨r₃, hvalue, k₃, hfinds⟩ := move_finds desired hfind hdesired
  cases hversion : desiredVersion desired with
  | none =>
      have hrefused : ∃ e, reader.int32Get r₃ = .error e := by
        refine hrefuses.int32Get_error value hvalue ?_
        rintro spelling rfl
        rw [desiredVersion, hfind] at hversion
        exact hversion
      obtain ⟨e, hrefused⟩ := hrefused
      refine Or.inl ⟨rfl, r₂, k₂ + k₃, fun fuel hfuel => ?_⟩
      have hmoved := hmoves fuel (by omega)
      have hfound := hfinds fuel (by omega)
      simp [nxAzureIotPnpHelperTwinDataParse, hfirst, hmoved, hfound, hrefused]
  | some v =>
      have hnumber : reader.int32Get r₃ = .ok v := by
        rw [desiredVersion, hfind] at hversion
        cases value with
        | number spelling => exact law.int32Get_eq hvalue hversion
        | null => cases hversion
        | bool b => cases hversion
        | string raw => cases hversion
        | array items => cases hversion
        | object members => cases hversion
      obtain ⟨r', delivered, hdelivered, k₄, hwalks⟩ :=
        desired_walks (BitVec.ofInt 32 v) n hrefuses desired [] hdesired
      refine Or.inr ⟨v, r', delivered, rfl, hdelivered, k₂ + k₃ + k₄, fun fuel hfuel => ?_⟩
      have hmoved := hmoves fuel (by omega)
      have hfound := hfinds fuel (by omega)
      have hwalked := hwalks fuel (by omega)
      simp only [nxAzureIotPnpHelperTwinDataParse, hfirst, hmoved, hfound, hnumber]
      exact hwalked

/-- A reader on a packet in one piece stands before its document. -/
def StartsBefore (law : LawfulReader reader) (jsonReaderInit : Packet → Except Status ρ) : Prop :=
  ∀ packet, packet.chained = false → ∃ r, jsonReaderInit packet = .ok r ∧ law.Before r packet.body.stream

/-- What a message should do: nothing with success, when it has further pieces or no version; else what
the walk does. -/
def outcome (n : Nat) (chained : Bool) (desired : Members) : Bool × List (List Byte × Json) :=
  if chained = true ∨ desiredVersion desired = none then (false, [])
  else (!stops n (walked desired), reported n (walked desired))

/-- The version of a walk that reports something. -/
def reportedVersion (desired : Members) : BitVec 32 := BitVec.ofInt 32 ((desiredVersion desired).getD 0)

variable (n) in
theorem processDeviceTwin_returns (hrefuses : law.Refuses) {jsonReaderInit : Packet → Except Status ρ}
    (hinit : StartsBefore law jsonReaderInit) {isPartial : BitVec 32} (packet : Packet) {desired rest : Members}
    {value : Json} {after : List Token} (hdoc : Walks isPartial packet.body desired after)
    (hfind : desired.find twinDesiredVersion = some (value, rest)) :
    ∃ x, Returns (processDeviceTwin reader jsonReaderInit isPartial n true) (.ok packet) x ∧
      x.succeeded = (outcome n packet.chained desired).1 ∧
        List.Forall₂ (Reports law (reportedVersion desired)) x.calls (outcome n packet.chained desired).2 := by
  cases hchained : packet.chained with
  | true =>
      refine ⟨⟨false, []⟩, ⟨0, fun fuel _ => ?_⟩, ?_⟩
      · simp only [processDeviceTwin, hchained, if_true]
      · rw [outcome, if_pos (Or.inl rfl)]
        exact ⟨rfl, List.Forall₂.nil⟩
  | false =>
      obtain ⟨r, hstart, hbefore⟩ := hinit packet hchained
      rcases twinDataParse_walks n hrefuses hdoc hbefore hfind with
        ⟨hversion, r', k, hreturns⟩ | ⟨v, r', delivered, hversion, hdelivered, k, hreturns⟩
      · refine ⟨⟨false, []⟩, ⟨k, fun fuel hfuel => ?_⟩, ?_⟩
        · simp only [processDeviceTwin, hchained, hstart, hreturns fuel hfuel]
          rfl
        · rw [outcome, if_pos (Or.inr hversion)]
          exact ⟨rfl, List.Forall₂.nil⟩
      · refine ⟨⟨!stops n (walked desired), delivered⟩, ⟨k, fun fuel hfuel => ?_⟩, ?_⟩
        · simp only [processDeviceTwin, hchained, hstart, hreturns fuel hfuel]
          cases stops n (walked desired) <;> rfl
        · have hwalks : ¬(false = true ∨ desiredVersion desired = none) := by
            rw [hversion]
            exact not_or_intro Bool.false_ne_true (Option.some_ne_none v)
          rw [outcome, if_neg hwalks, reportedVersion, hversion]
          exact ⟨rfl, hdelivered⟩

end loops

section agreement

variable {ρ : Type} {reader : Reader ρ Status} (law : LawfulReader reader)

/-- Two calls with the same property, the same value and the same version. -/
structure SameCall (call call' : Call ρ) : Prop where
  component_eq : call.component = call'.component
  property_eq : call.property = call'.property
  version_eq : call.version = call'.version
  value_same : ∃ value rest rest', law.At call.value (Json.stream value ++ rest) ∧
    law.At call'.value (value.stream ++ rest')

/-- Two messages that both succeed or both fail, with the same calls. -/
structure Agree (x y : Processed ρ) : Prop where
  succeeded_eq : x.succeeded = y.succeeded
  calls_same : List.Forall₂ (SameCall law) x.calls y.calls

/-- The first name that is too long for the buffer of a full twin is too long for that of a patch. -/
def SameStop (desired : Members) : Prop :=
  ∀ member, (walked desired).find? (fun member => 64 ≤ member.1.length) = some member → 128 ≤ member.1.length

/-- The first property has a name that is too long for the buffer. -/
def StopsAtOnce (n : Nat) (desired : Members) : Prop :=
  ∃ member, (walked desired).find? (fun member => member.1 ≠ twinDesiredVersion) = some member ∧
    n ≤ member.1.length

/-- There is no version; or the walks of a patch and of a full twin stop at the same name; or one of the
messages has further pieces, and the other stops before it reports anything. -/
def Agreeing (patchChained twinChained : Bool) (desired : Members) : Prop :=
  desiredVersion desired = none ∨
    match patchChained, twinChained with
    | false, false => SameStop desired
    | false, true => StopsAtOnce 128 desired
    | true, false => StopsAtOnce 64 desired
    | true, true => True

variable {law}

theorem sameCall_of_reports {version : BitVec 32} {calls calls' : List (Call ρ)}
    {members : List (List Byte × Json)} (h : List.Forall₂ (Reports law version) calls members)
    (h' : List.Forall₂ (Reports law version) calls' members) : List.Forall₂ (SameCall law) calls calls' := by
  induction h generalizing calls' with
  | nil =>
      obtain rfl := List.forall₂_nil_right_iff.mp h'
      exact List.Forall₂.nil
  | @cons call member calls members hcall _ ih =>
      obtain ⟨call', others, hcall', hothers, rfl⟩ := List.forall₂_cons_right_iff.mp h'
      refine List.Forall₂.cons ⟨?_, ?_, ?_, ?_⟩ (ih hothers)
      · exact hcall.component_eq.trans hcall'.component_eq.symm
      · exact hcall.property_eq.trans hcall'.property_eq.symm
      · exact hcall.version_eq.trans hcall'.version_eq.symm
      · obtain ⟨rest, hat⟩ := hcall.value_at
        obtain ⟨rest', hat'⟩ := hcall'.value_at
        exact ⟨member.2, rest, rest', hat, hat'⟩

/-- With a longer buffer no less is reported. -/
theorem reported_mono {n k : Nat} (hle : n ≤ k) (members : List (List Byte × Json)) :
    reported n members <+: reported k members := by
  induction members with
  | nil => exact List.prefix_rfl
  | cons member members ih =>
      obtain ⟨name, value⟩ := member
      rcases Nat.lt_or_ge name.length n with hfits | hlong
      · have hfits' := Nat.lt_of_lt_of_le hfits hle
        by_cases hversion : name = twinDesiredVersion
        · rw [reported_cons_version hfits hversion, reported_cons_version hfits' hversion]
          exact ih
        · rw [reported_cons_fits hfits hversion, reported_cons_fits hfits' hversion]
          exact (List.prefix_cons_inj _).mpr ih
      · rw [reported_cons_long hlong]
        exact List.nil_prefix

theorem outcome_comparable (patchChained twinChained : Bool) (desired : Members) :
    (outcome 64 twinChained desired).2 <+: (outcome 128 patchChained desired).2 ∨
      (outcome 128 patchChained desired).2 <+: (outcome 64 twinChained desired).2 := by
  rw [outcome, outcome]
  split
  · exact Or.inl List.nil_prefix
  · split
    · exact Or.inr List.nil_prefix
    · exact Or.inl (reported_mono (by decide) _)

/-- Two messages agree exactly if they should do the same. -/
theorem agree_iff_outcome {patchChained twinChained : Bool} {desired : Members} {x y : Processed ρ}
    (hx : x.succeeded = (outcome 128 patchChained desired).1)
    (hy : y.succeeded = (outcome 64 twinChained desired).1)
    (hcalls : List.Forall₂ (Reports law (reportedVersion desired)) x.calls (outcome 128 patchChained desired).2)
    (hcalls' : List.Forall₂ (Reports law (reportedVersion desired)) y.calls
      (outcome 64 twinChained desired).2) :
    Agree law x y ↔ outcome 128 patchChained desired = outcome 64 twinChained desired := by
  constructor
  · intro h
    have hlength : (outcome 128 patchChained desired).2.length = (outcome 64 twinChained desired).2.length := by
      rw [← hcalls.length_eq, ← hcalls'.length_eq]
      exact h.calls_same.length_eq
    refine Prod.ext (hx.symm.trans (h.succeeded_eq.trans hy)) ?_
    rcases outcome_comparable patchChained twinChained desired with hcomparable | hcomparable
    · exact (hcomparable.eq_of_length hlength.symm).symm
    · exact hcomparable.eq_of_length hlength
  · intro h
    rw [h] at hx hcalls
    exact ⟨hx.trans hy.symm, sameCall_of_reports hcalls hcalls'⟩

end agreement

section conditions

variable (members : List (List Byte × Json))

theorem twinDesiredVersion_length : twinDesiredVersion.length = 8 := rfl

theorem sameStop_iff :
    (stops 128 members = stops 64 members ∧ reported 128 members = reported 64 members) ↔
      ∀ member, members.find? (fun member => 64 ≤ member.1.length) = some member →
        128 ≤ member.1.length := by
  induction members with
  | nil => exact iff_of_true ⟨rfl, rfl⟩ nofun
  | cons member members ih =>
      obtain ⟨name, value⟩ := member
      rcases Nat.lt_or_ge name.length 64 with hfits | hlong
      · have hfits' : name.length < 128 := by omega
        rw [List.find?_cons_of_neg (by simpa using hfits), ← ih, stops_cons_fits hfits, stops_cons_fits hfits']
        by_cases hversion : name = twinDesiredVersion
        · rw [reported_cons_version hfits hversion, reported_cons_version hfits' hversion]
        · rw [reported_cons_fits hfits hversion, reported_cons_fits hfits' hversion, List.cons_inj_right]
      · rw [List.find?_cons_of_pos (by simpa using hlong), stops_cons_long hlong, reported_cons_long hlong]
        rcases Nat.lt_or_ge name.length 128 with hfits | hlong'
        · have hversion : name ≠ twinDesiredVersion := by
            rintro rfl
            rw [twinDesiredVersion_length] at hlong
            omega
          rw [reported_cons_fits hfits hversion]
          refine iff_of_false (fun h => List.cons_ne_nil _ _ h.2) fun h => ?_
          exact absurd (h _ rfl) (Nat.not_le.mpr hfits)
        · rw [stops_cons_long hlong', reported_cons_long hlong']
          refine iff_of_true ⟨rfl, rfl⟩ fun member hmember => ?_
          cases hmember
          exact hlong'

theorem stopsAtOnce_iff {n : Nat} (hn : 8 < n) : (stops n members = true ∧ reported n members = []) ↔
    ∃ member, members.find? (fun member => member.1 ≠ twinDesiredVersion) = some member ∧
      n ≤ member.1.length := by
  induction members with
  | nil => exact iff_of_false (fun h => Bool.false_ne_true h.1) nofun
  | cons member members ih =>
      obtain ⟨name, value⟩ := member
      by_cases hversion : name = twinDesiredVersion
      · have hfits : name.length < n := by
          rw [hversion]
          exact hn
        rw [List.find?_cons_of_neg (by simpa using hversion), ← ih, stops_cons_fits hfits,
          reported_cons_version hfits hversion]
      · rw [List.find?_cons_of_pos (by simpa using hversion)]
        rcases Nat.lt_or_ge name.length n with hfits | hlong
        · rw [reported_cons_fits hfits hversion]
          refine iff_of_false (fun h => List.cons_ne_nil _ _ h.2) ?_
          rintro ⟨member, hmember, hlong⟩
          cases hmember
          exact absurd hlong (Nat.not_le.mpr hfits)
        · rw [stops_cons_long hlong, reported_cons_long hlong]
          exact iff_of_true ⟨rfl, rfl⟩ ⟨_, rfl, hlong⟩

end conditions

section conditions

theorem outcome_chained (n : Nat) (desired : Members) : outcome n true desired = (false, []) :=
  if_pos (Or.inl rfl)

theorem outcome_none (n : Nat) (chained : Bool) {desired : Members} (h : desiredVersion desired = none) :
    outcome n chained desired = (false, []) := if_pos (Or.inr h)

theorem outcome_some (n : Nat) {desired : Members} (h : desiredVersion desired ≠ none) :
    outcome n false desired = (!stops n (walked desired), reported n (walked desired)) :=
  if_neg (not_or_intro Bool.false_ne_true h)

theorem outcome_eq_iff (patchChained twinChained : Bool) (desired : Members) :
    outcome 128 patchChained desired = outcome 64 twinChained desired ↔
      Agreeing patchChained twinChained desired := by
  by_cases hversion : desiredVersion desired = none
  · rw [outcome_none 128 patchChained hversion, outcome_none 64 twinChained hversion]
    exact iff_of_true rfl (Or.inl hversion)
  · unfold Agreeing
    rw [or_iff_right hversion]
    cases patchChained with
    | true =>
        cases twinChained with
        | true =>
            rw [outcome_chained, outcome_chained]
            exact iff_of_true rfl trivial
        | false =>
            have hstops := stopsAtOnce_iff (walked desired) (show 8 < 64 by decide)
            rw [outcome_chained, outcome_some 64 hversion, Prod.mk.injEq, Eq.comm, Bool.not_eq_false',
              Eq.comm (a := [])]
            exact hstops
    | false =>
        cases twinChained with
        | true =>
            have hstops := stopsAtOnce_iff (walked desired) (show 8 < 128 by decide)
            rw [outcome_chained, outcome_some 128 hversion, Prod.mk.injEq, Bool.not_eq_false']
            exact hstops
        | false =>
            have hstops := sameStop_iff (walked desired)
            rw [outcome_some 128 hversion, outcome_some 64 hversion, Prod.mk.injEq, Bool.not_inj_iff]
            exact hstops

end conditions

/-- A full twin: the desired and the reported properties, in either order. -/
def fullTwin (desiredFirst : Bool) (desired : Members) (reported : Json) : Json :=
  if desiredFirst then
    .object (.cons twinDesired (.object desired) (.cons (text "reported") reported .nil))
  else .object (.cons (text "reported") reported (.cons twinDesired (.object desired) .nil))

theorem fullTwin_walks (desiredFirst : Bool) (desired : Members) (reported : Json) :
    ∃ after, Walks 0 (fullTwin desiredFirst desired reported) desired after := by
  have hother : text "reported" ≠ twinDesired := by decide
  cases desiredFirst with
  | true => exact ⟨_, .full rfl (if_pos rfl)⟩
  | false => exact ⟨_, .full rfl ((if_neg hother).trans (if_pos rfl))⟩

/-- **Patches and full twins agree** exactly under the condition, for every reader that keeps its laws,
all desired properties with a version, and all reported ones. -/
theorem patch_fullTwin_agree_iff {ρ : Type} {reader : Reader ρ Status} {law : LawfulReader reader}
    {jsonReaderInit : Packet → Except Status ρ} (hrefuses : law.Refuses)
    (hinit : StartsBefore law jsonReaderInit) (desired : Members)
    (hversion : (desired.find twinDesiredVersion).isSome) (desiredFirst : Bool) (reported : Json)
    (patchLength patchFirst twinLength twinFirst : Nat) :
    let patch : Packet := ⟨.object desired, patchLength, patchFirst⟩
    let twin : Packet := ⟨fullTwin desiredFirst desired reported, twinLength, twinFirst⟩
    ∃ x y, Returns (processDeviceTwinDesiredProperty reader jsonReaderInit true) (.ok patch) x ∧
      Returns (processDeviceTwinGet reader jsonReaderInit true) (.ok twin) y ∧
        (Agree law x y ↔ Agreeing patch.chained twin.chained desired) := by
  intro patch twin
  obtain ⟨⟨value, rest⟩, hfind⟩ := Option.isSome_iff_exists.mp hversion
  obtain ⟨after, htwin⟩ := fullTwin_walks desiredFirst desired reported
  have hpatch : Walks 1 patch.body desired [] := .patch (by decide)
  obtain ⟨x, hx, hsucceeded, hcalls⟩ := processDeviceTwin_returns 128 hrefuses hinit patch hpatch hfind
  obtain ⟨y, hy, hsucceeded', hcalls'⟩ := processDeviceTwin_returns 64 hrefuses hinit twin htwin hfind
  refine ⟨x, y, hx, hy, ?_⟩
  rw [agree_iff_outcome hsucceeded hsucceeded' hcalls hcalls', outcome_eq_iff]

/-- The reader of the tokens of a packet's document. -/
def listReaderInit (packet : Packet) : Except Status ListReader := .ok ⟨false, packet.body.stream⟩

theorem listReader_startsBefore : StartsBefore (ListReader.lawful Status.notConnected) listReaderInit :=
  fun packet _ => ⟨⟨false, packet.body.stream⟩, rfl, rfl⟩

/-- The messages of the sample agree: its names are short. -/
theorem sampleDesired_agree : ∃ x y,
    Returns (processDeviceTwinDesiredProperty (ListReader.reader Status.notConnected) listReaderInit true)
      (.ok ⟨.object sampleDesired, 60, 60⟩) x ∧
    Returns (processDeviceTwinGet (ListReader.reader Status.notConnected) listReaderInit true)
      (.ok ⟨fullTwin false sampleDesired .null, 90, 90⟩) y ∧
    Agree (ListReader.lawful Status.notConnected) x y := by
  obtain ⟨x, y, hx, hy, hagree⟩ := patch_fullTwin_agree_iff (ListReader.refuses Status.notConnected)
    listReader_startsBefore sampleDesired rfl false .null 60 60 90 90
  refine ⟨x, y, hx, hy, hagree.mpr (Or.inr ?_)⟩
  exact fun member hmember => nomatch hmember

/-- Desired properties with a name of 70 characters. -/
def longDesired : Members :=
  .cons (List.replicate 70 (ascii 'a')) (.bool true) (.cons twinDesiredVersion (.number (text "7")) .nil)

/-- The name of 70 characters is reported from a patch, and a full twin fails at it. -/
theorem longDesired_disagree : ∃ x y,
    Returns (processDeviceTwinDesiredProperty (ListReader.reader Status.notConnected) listReaderInit true)
      (.ok ⟨.object longDesired, 100, 100⟩) x ∧
    Returns (processDeviceTwinGet (ListReader.reader Status.notConnected) listReaderInit true)
      (.ok ⟨fullTwin true longDesired .null, 130, 130⟩) y ∧
    ¬Agree (ListReader.lawful Status.notConnected) x y := by
  have hfind : longDesired.find twinDesiredVersion = some (.number (text "7"), .nil) := rfl
  have hpatch : Walks 1 (.object longDesired) longDesired [] := .patch (by decide)
  obtain ⟨after, htwin⟩ := fullTwin_walks true longDesired .null
  obtain ⟨x, hx, hsucceeded, -⟩ := processDeviceTwin_returns 128 (ListReader.refuses Status.notConnected)
    listReader_startsBefore ⟨.object longDesired, 100, 100⟩ hpatch hfind
  obtain ⟨y, hy, hfailed, -⟩ := processDeviceTwin_returns 64 (ListReader.refuses Status.notConnected)
    listReader_startsBefore ⟨fullTwin true longDesired .null, 130, 130⟩ htwin hfind
  refine ⟨x, y, hx, hy, fun h => ?_⟩
  have hsame := hsucceeded.symm.trans (h.succeeded_eq.trans hfailed)
  exact absurd hsame (by decide)

end DeviceSample.Twin
