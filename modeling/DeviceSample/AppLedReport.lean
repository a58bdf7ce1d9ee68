import DeviceSample.BaseRun
import DeviceSample.Sdk

/-!
The reported LED state. The application remembers twice what it has reported: once that the state
was sent at all (`sample_device_properties_sent`) and once which state a change report sent
(`sample_led_state_reported`). The service records a value exactly when its report succeeds.
-/

namespace DeviceSample.App

open Base

/-- The LED of the device component, the two memories of its reports, and the value that the
service recorded last. -/
structure LedReport where
  sensorLEDState : Bool
  sampleLedStateReported : Bool
  sampleDevicePropertiesSent : Bool
  service : Option Bool
  deriving DecidableEq, Repr

/-- What the SDK calls of one report return. -/
structure LedReplies where
  propertiesCreate : Status
  componentBegin : Status
  appendBool : Status
  componentEnd : Status
  propertiesSend : Status
  responseStatus : Nat
  deriving DecidableEq, Repr

/-- Every call of the report succeeds and the service accepts it. -/
def LedReplies.Succeeds (r : LedReplies) : Prop :=
  r.propertiesCreate = .success ∧ r.componentBegin = .success ∧ r.appendBool = .success ∧
    r.componentEnd = .success ∧ r.propertiesSend = .success ∧
    200 ≤ r.responseStatus ∧ r.responseStatus < 300

instance (r : LedReplies) : Decidable r.Succeeds := by
  unfold LedReplies.Succeeds
  infer_instance

namespace LedReport

/-- `sample_components_init`. -/
def sampleComponentsInit : LedReport where
  sensorLEDState := false
  sampleLedStateReported := false
  sampleDevicePropertiesSent := false
  service := none

/-- A `setLedState` command with a boolean payload. -/
def setLedState (level : Bool) (d : LedReport) : LedReport := { d with sensorLEDState := level }

/-- `sample_pnp_device_led_state_property`: the status, and the value reaching the service when the
report is sent and answered with a code of class 2xx. -/
def samplePnpDeviceLedStateProperty (r : LedReplies) (d : LedReport) : Status × LedReport :=
  if r.propertiesCreate ≠ .success then
    (r.propertiesCreate, d)
  else if firstFailure [r.componentBegin, r.appendBool, r.componentEnd] ≠ .success then
    (firstFailure [r.componentBegin, r.appendBool, r.componentEnd], d)
  else if r.propertiesSend ≠ .success then
    (r.propertiesSend, d)
  else if r.responseStatus < 200 ∨ 300 ≤ r.responseStatus then
    (.notSuccessful, d)
  else
    (r.propertiesSend, { d with service := some d.sensorLEDState })

/-- The first branch of the action, "only report once", with the statuses of its reports. -/
def reportOnce (r : LedReplies) (d : LedReport) : List Status × LedReport :=
  if d.sampleDevicePropertiesSent = false then
    let (status, d) := d.samplePnpDeviceLedStateProperty r
    if status ≠ .success then ([status], d)
    else ([status], { d with sampleDevicePropertiesSent := true })
  else ([], d)

/-- The second branch of the action, "only report when changed". -/
def reportChanged (r : LedReplies) (d : LedReport) : List Status × LedReport :=
  if d.sampleLedStateReported ≠ d.sensorLEDState then
    let (status, d) := d.samplePnpDeviceLedStateProperty r
    if status ≠ .success then ([status], d)
    else ([status], { d with sampleLedStateReported := d.sensorLEDState })
  else ([], d)

/-- `sample_device_reported_property_action` in `CONNECTED`, with the statuses of the reports it
makes. -/
def sampleDeviceReportedPropertyAction (once changed : LedReplies) (d : LedReport) :
    List Status × LedReport :=
  let (first, d) := d.reportOnce once
  let (second, d) := d.reportChanged changed
  (first ++ second, d)

/-- What can happen to the LED and its reports. -/
inductive Event where
  | setLedState (level : Bool)
  | reportedPropertyAction (once changed : LedReplies)
  deriving DecidableEq, Repr

def step (d : LedReport) : Event → LedReport
  | .setLedState level => d.setLedState level
  | .reportedPropertyAction once changed =>
      (d.sampleDeviceReportedPropertyAction once changed).2

def machine : Machine LedReport Event where
  start := sampleComponentsInit
  step d event := some (d.step event)

/-! ### Reports that succeed and reports that fail -/

theorem ledStateProperty_success {r : LedReplies} {d : LedReport} (h : r.Succeeds) :
    d.samplePnpDeviceLedStateProperty r = (.success, { d with service := some d.sensorLEDState }) := by
  obtain ⟨hcreate, hbegin, happend, hend, hsend, hlow, hhigh⟩ := h
  have hcode : ¬(r.responseStatus < 200 ∨ 300 ≤ r.responseStatus) := by omega
  simp [samplePnpDeviceLedStateProperty, firstFailure, hcreate, hbegin, happend, hend, hsend, hcode]

theorem ledStateProperty_failure {r : LedReplies} {d : LedReport} (h : ¬r.Succeeds) :
    ∃ status, status ≠ .success ∧ d.samplePnpDeviceLedStateProperty r = (status, d) := by
  unfold samplePnpDeviceLedStateProperty
  split_ifs with hcreate hbuild hsend hcode
  · exact ⟨_, hcreate, rfl⟩
  · exact ⟨_, hbuild, rfl⟩
  · exact ⟨_, hsend, rfl⟩
  · exact ⟨.notSuccessful, by decide, rfl⟩
  · exfalso
    simp only [ne_eq, Decidable.not_not, firstFailure_eq_success, List.mem_cons,
      List.not_mem_nil, or_false, forall_eq_or_imp, forall_eq] at hcreate hbuild hsend
    exact h ⟨hcreate, hbuild.1, hbuild.2.1, hbuild.2.2, hsend, by omega, by omega⟩

/-- A change report that succeeds leaves the service and the second memory at the LED state. -/
theorem reportChanged_of_ne {r : LedReplies} {d : LedReport}
    (hne : d.sampleLedStateReported ≠ d.sensorLEDState) (h : r.Succeeds) :
    d.reportChanged r = ([.success], { d with
      service := some d.sensorLEDState, sampleLedStateReported := d.sensorLEDState }) := by
  simp [reportChanged, hne, ledStateProperty_success h]

theorem reportChanged_of_eq {r : LedReplies} {d : LedReport}
    (heq : d.sampleLedStateReported = d.sensorLEDState) : d.reportChanged r = ([], d) := by
  simp [reportChanged, heq]

theorem reportChanged_failure {r : LedReplies} {d : LedReport}
    (hne : d.sampleLedStateReported ≠ d.sensorLEDState) (h : ¬r.Succeeds) :
    ∃ status, status ≠ .success ∧ d.reportChanged r = ([status], d) := by
  obtain ⟨status, hstatus, heq⟩ := ledStateProperty_failure (d := d) h
  exact ⟨status, hstatus, by simp [reportChanged, hne, heq, hstatus]⟩

theorem reportOnce_success {r : LedReplies} {d : LedReport}
    (hsent : d.sampleDevicePropertiesSent = false) (h : r.Succeeds) :
    d.reportOnce r = ([.success], { d with
      service := some d.sensorLEDState, sampleDevicePropertiesSent := true }) := by
  simp [reportOnce, hsent, ledStateProperty_success h]

theorem reportOnce_sent {r : LedReplies} {d : LedReport}
    (hsent : d.sampleDevicePropertiesSent = true) : d.reportOnce r = ([], d) := by
  simp [reportOnce, hsent]

theorem reportOnce_failure {r : LedReplies} {d : LedReport}
    (hsent : d.sampleDevicePropertiesSent = false) (h : ¬r.Succeeds) :
    ∃ status, status ≠ .success ∧ d.reportOnce r = ([status], d) := by
  obtain ⟨status, hstatus, heq⟩ := ledStateProperty_failure (d := d) h
  exact ⟨status, hstatus, by simp [reportOnce, hsent, heq, hstatus]⟩

/-- The first branch changes nothing unless it makes the report and the report succeeds. -/
theorem reportOnce_snd_of_not {r : LedReplies} {d : LedReport}
    (h : ¬(d.sampleDevicePropertiesSent = false ∧ r.Succeeds)) : (d.reportOnce r).2 = d := by
  cases hsent : d.sampleDevicePropertiesSent with
  | true => rw [reportOnce_sent hsent]
  | false =>
      obtain ⟨_, _, hreport⟩ := reportOnce_failure (d := d) hsent fun hr => h ⟨hsent, hr⟩
      rw [hreport]

theorem action_eq (once changed : LedReplies) (d : LedReport) :
    d.sampleDeviceReportedPropertyAction once changed =
      ((d.reportOnce once).1 ++ ((d.reportOnce once).2.reportChanged changed).1,
        ((d.reportOnce once).2.reportChanged changed).2) := rfl

/-! ### The two memories over a run -/

/-- The invariant of the two memories: once the state was sent, the service holds the state of the
last change report. -/
def Recorded (d : LedReport) : Prop :=
  d.sampleDevicePropertiesSent = true → d.service = some d.sampleLedStateReported

/-- The first report of the state succeeds while the LED differs from the state of the last change
report, and the change report that the same run makes next fails. -/
def SplitReport (d : LedReport) : Event → Prop
  | .setLedState _ => False
  | .reportedPropertyAction once changed =>
      d.sampleDevicePropertiesSent = false ∧ d.sampleLedStateReported ≠ d.sensorLEDState ∧
        once.Succeeds ∧ ¬changed.Succeeds

theorem reportChanged_recorded {r : LedReplies} {d : LedReport} (hrec : d.Recorded) :
    (d.reportChanged r).2.Recorded := by
  by_cases heq : d.sampleLedStateReported = d.sensorLEDState
  · rwa [reportChanged_of_eq heq]
  · by_cases hr : r.Succeeds
    · rw [reportChanged_of_ne heq hr]
      exact fun _ => rfl
    · obtain ⟨_, _, hreport⟩ := reportChanged_failure heq hr
      rwa [hreport]

/-- Right after the first report the service holds the LED state, and the change report, when the
second memory calls for one, brings that memory to the same state. -/
theorem reportChanged_recorded_of_service {r : LedReplies} {d : LedReport}
    (hservice : d.service = some d.sensorLEDState)
    (hr : d.sampleLedStateReported ≠ d.sensorLEDState → r.Succeeds) :
    (d.reportChanged r).2.Recorded := by
  by_cases heq : d.sampleLedStateReported = d.sensorLEDState
  · rw [reportChanged_of_eq heq]
    intro _
    rw [hservice, heq]
  · rw [reportChanged_of_ne heq (hr heq)]
    exact fun _ => rfl

/-- One run of the action without a split report. -/
theorem action_recorded {once changed : LedReplies} {d : LedReport} (hrec : d.Recorded)
    (hsplit : ¬d.SplitReport (.reportedPropertyAction once changed)) :
    (d.sampleDeviceReportedPropertyAction once changed).2.Recorded := by
  rw [action_eq]
  by_cases hfirst : d.sampleDevicePropertiesSent = false ∧ once.Succeeds
  · rw [reportOnce_success hfirst.1 hfirst.2]
    refine reportChanged_recorded_of_service rfl fun hne => ?_
    by_contra hfail
    exact hsplit ⟨hfirst.1, hne, hfirst.2, hfail⟩
  · rw [reportOnce_snd_of_not hfirst]
    exact reportChanged_recorded hrec

theorem step_recorded {d : LedReport} (hrec : d.Recorded) (event : Event)
    (hsplit : ¬d.SplitReport event) : (d.step event).Recorded := by
  cases event with
  | setLedState level => exact hrec
  | reportedPropertyAction once changed => exact action_recorded hrec hsplit

theorem recorded_of_reachable {d : LedReport}
    (h : machine.ReachableUnder (fun d event => ¬d.SplitReport event) d) : d.Recorded := by
  refine h.invariant machine Recorded (fun hsent => by cases hsent) ?_
  intro d event next _ hrec hsplit hstep
  cases hstep
  exact step_recorded hrec event hsplit

/-- A run of the action in which no report fails brings a recorded state to the LED state. -/
theorem action_converges {once changed : LedReplies} {d : LedReport} (hrec : d.Recorded)
    (hok : ∀ status ∈ (d.sampleDeviceReportedPropertyAction once changed).1, status = .success) :
    (d.sampleDeviceReportedPropertyAction once changed).2.service =
      some (d.sampleDeviceReportedPropertyAction once changed).2.sensorLEDState := by
  rw [action_eq] at hok ⊢
  simp only [List.mem_append] at hok
  have hfirst : d.sampleDevicePropertiesSent = false → once.Succeeds := by
    intro hsent
    by_contra hfail
    obtain ⟨status, hstatus, hreport⟩ := reportOnce_failure (d := d) hsent hfail
    exact hstatus (hok status (.inl (by simp [hreport])))
  have hchanged : (d.reportOnce once).2.sampleLedStateReported ≠
      (d.reportOnce once).2.sensorLEDState → changed.Succeeds := by
    intro hne
    by_contra hfail
    obtain ⟨status, hstatus, hreport⟩ := reportChanged_failure hne hfail
    exact hstatus (hok status (.inr (by simp [hreport])))
  by_cases heq : (d.reportOnce once).2.sampleLedStateReported =
      (d.reportOnce once).2.sensorLEDState
  · -- no change report: what the service holds comes from the first report or from the memory
    rw [reportChanged_of_eq heq]
    cases hsent : d.sampleDevicePropertiesSent with
    | true =>
        rw [reportOnce_sent hsent] at heq ⊢
        rw [hrec hsent, heq]
    | false => rw [reportOnce_success hsent (hfirst hsent)]
  · rw [reportChanged_of_ne heq (hchanged heq)]

/-- The value recorded by the service follows the LED in every run without a split report. -/
theorem service_converges {d : LedReport}
    (h : machine.ReachableUnder (fun d event => ¬d.SplitReport event) d)
    (once changed : LedReplies)
    (hok : ∀ status ∈ (d.sampleDeviceReportedPropertyAction once changed).1, status = .success) :
    (d.sampleDeviceReportedPropertyAction once changed).2.service =
      some (d.sampleDeviceReportedPropertyAction once changed).2.sensorLEDState :=
  action_converges (recorded_of_reachable h) hok

/-- Every reply succeeds. -/
def accepted : LedReplies := ⟨.success, .success, .success, .success, .success, 200⟩

/-- The send fails. -/
def dropped : LedReplies := ⟨.success, .success, .success, .success, .notConnected, 0⟩

theorem service_converges_on :
    ((setLedState true sampleComponentsInit).sampleDeviceReportedPropertyAction
      accepted accepted).2.service = some true :=
  service_converges (.step (.setLedState true) .start (fun h => h) rfl) accepted accepted (by decide)

/-- The LED is switched on, the first report succeeds, the change report is dropped, and the LED is
switched off again: the next run reports nothing and the service keeps `true`. -/
theorem service_stays_behind :
    ∃ d, machine.Reachable d ∧ ∃ once changed,
      (∀ status ∈ (d.sampleDeviceReportedPropertyAction once changed).1, status = .success) ∧
      (d.sampleDeviceReportedPropertyAction once changed).2.service ≠
        some (d.sampleDeviceReportedPropertyAction once changed).2.sensorLEDState := by
  obtain ⟨d, hd, htest⟩ := machine.exists_reachable
    [.setLedState true, .reportedPropertyAction accepted dropped, .setLedState false]
    (fun d => decide ((d.sampleDeviceReportedPropertyAction accepted accepted).1 = []) &&
      decide ((d.sampleDeviceReportedPropertyAction accepted accepted).2.service ≠
        some (d.sampleDeviceReportedPropertyAction accepted accepted).2.sensorLEDState)) (by decide)
  simp only [Bool.and_eq_true, decide_eq_true_eq] at htest
  exact ⟨d, hd, accepted, accepted, by simp [htest.1], htest.2⟩

/-- A split report is where runs go wrong: switching the LED back to the state of the second memory
silences the action, whatever its replies would be, and the service keeps the other state. -/
theorem splitReport_diverges {d : LedReport} {once changed : LedReplies}
    (hsplit : d.SplitReport (.reportedPropertyAction once changed)) (once' changed' : LedReplies) :
    let back := (d.sampleDeviceReportedPropertyAction once changed).2.setLedState
      d.sampleLedStateReported
    (back.sampleDeviceReportedPropertyAction once' changed').1 = [] ∧
      (back.sampleDeviceReportedPropertyAction once' changed').2.service ≠
        some (back.sampleDeviceReportedPropertyAction once' changed').2.sensorLEDState := by
  obtain ⟨hsent, hne, honce, hchanged⟩ := hsplit
  have hrun : (d.sampleDeviceReportedPropertyAction once changed).2 = { d with
      service := some d.sensorLEDState, sampleDevicePropertiesSent := true } := by
    rw [action_eq, reportOnce_success hsent honce]
    obtain ⟨_, _, hreport⟩ := reportChanged_failure (d := { d with
      service := some d.sensorLEDState, sampleDevicePropertiesSent := true }) hne hchanged
    rw [hreport]
  intro back
  have hback : back.sampleDeviceReportedPropertyAction once' changed' = ([], back) := by
    rw [action_eq, reportOnce_sent (by simp [back, setLedState, hrun])]
    rw [reportChanged_of_eq (by simp [back, setLedState, hrun])]
    rfl
  rw [hback]
  refine ⟨rfl, fun heq => hne ?_⟩
  simpa [back, setLedState, hrun] using heq.symm

end LedReport
end DeviceSample.App
