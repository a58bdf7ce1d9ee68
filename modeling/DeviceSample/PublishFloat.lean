import DeviceSample.BaseNumber
import DeviceSample.Publish

/-!
The floats that both clients publish, as JSON numbers. The whole part, the sign and the fraction are
printed apart: the sign is that of the whole part, and a fraction below ten hundredths is padded with a
blank.
-/

namespace DeviceSample.Publish

open Base Mqtt Nx

/-- Exact arithmetic. -/
def rationals : FloatArithmetic ℚ where
  toInt := truncate
  ofInt i := i
  sub := (· - ·)
  mul := (· * ·)

/-- The value without what is behind its hundredths. -/
def twoDecimals (v : ℚ) : ℚ := truncate (100 * v) / 100

/-- A label and a value whose text fits an array of this size. -/
structure FloatReport (size : Nat) where
  label : CString
  value : ℚ
  label_plain : ∀ c ∈ label.bytes, c ≠ ascii '"' ∧ c ≠ ascii '\\' ∧ 0x20 ≤ c.toNat
  value_bound : |value| < 2 ^ 31
  text_fits : (floatText label.bytes (decvalue rationals value) (fracvalue rationals value)).length < size

/-- One message was built: an object with the label as its only member, a number of this value. -/
def ShowsFloat (label : List Byte) (v : ℚ) (messages : List (List Byte)) : Prop :=
  ∃ message spelling, messages = [message] ∧ IsDocument message (singleNumber label spelling) ∧
    numberValue spelling = twoDecimals v

/-- The fraction is at least a tenth, and the whole part shows the sign. -/
structure FloatReport.Printable {size : Nat} (x : FloatReport size) : Prop where
  tenth : 1 / 10 ≤ Int.fract |x.value|
  signed : ¬(-1 < x.value ∧ x.value < 0)

/-- The whole part of the absolute value. -/
def whole (v : ℚ) : Nat := ⌊|v|⌋₊

/-- The hundredths behind the whole part. -/
def hundredths (v : ℚ) : Nat := ⌊100 * (|v| - whole v)⌋₊

theorem decvalue_rationals (v : ℚ) : decvalue rationals v = if 0 ≤ v then (whole v : Int) else -whole v := by
  show truncate v = _
  split
  · rename_i hv
    rw [truncate_of_nonneg hv, whole, abs_of_nonneg hv]
  · rename_i hv
    rw [truncate_of_neg (not_le.mp hv), whole, abs_of_neg (not_le.mp hv)]

theorem fracvalue_rationals (v : ℚ) : fracvalue rationals v = hundredths v := by
  have hnonneg : 0 ≤ 100 * (|v| - whole v) := by
    have hwhole : (whole v : ℚ) ≤ |v| := Nat.floor_le (abs_nonneg v)
    linarith
  show (truncate (100 * (v - (decvalue rationals v : ℚ)))).natAbs = _
  rw [decvalue_rationals]
  split
  · rename_i hv
    rw [abs_of_nonneg hv] at hnonneg
    rw [Int.cast_natCast, truncate_of_nonneg hnonneg, Int.natAbs_natCast, hundredths, abs_of_nonneg hv]
  · rename_i hv
    rw [abs_of_neg (not_le.mp hv)] at hnonneg
    have hsign : 100 * (v - ((-(whole v : Int) : Int) : ℚ)) = -(100 * (-v - whole v)) := by
      push_cast
      ring
    rw [hsign, truncate_neg, Int.natAbs_neg, truncate_of_nonneg hnonneg, Int.natAbs_natCast, hundredths,
      abs_of_neg (not_le.mp hv)]

theorem twoDecimals_eq (v : ℚ) :
    twoDecimals v = (if v < 0 then -1 else 1) * (whole v + hundredths v / 100) := by
  have hvalue : ((⌊100 * |v|⌋₊ : Nat) : ℚ) / 100 = whole v + hundredths v / 100 := by
    calc ((⌊100 * |v|⌋₊ : Nat) : ℚ) / 100
        = ((100 * whole v + hundredths v : Nat) : ℚ) / 100 := by
          rw [floor_hundred (abs_nonneg v), hundredths, whole]
      _ = whole v + hundredths v / 100 := by
          push_cast
          ring
  rw [← hvalue, twoDecimals]
  split
  · rename_i hv
    rw [truncate_of_neg (by linarith), abs_of_neg hv]
    push_cast
    ring_nf
  · rename_i hv
    rw [truncate_of_nonneg (by linarith), abs_of_nonneg (not_lt.mp hv), one_mul]
    push_cast
    rfl

theorem tenth_iff (v : ℚ) : 1 / 10 ≤ Int.fract |v| ↔ 10 ≤ hundredths v := by
  have hfract : Int.fract |v| = |v| - whole v := by
    rw [Int.fract, ← Int.natCast_floor_eq_floor (abs_nonneg v)]
    rfl
  rw [hundredths, Nat.le_floor_iff' (by decide), hfract]
  push_cast
  constructor
  · intro h
    linarith
  · intro h
    linarith

/-- The number behind the label, as it is printed. -/
def numberText (v : ℚ) : List Byte :=
  signedDecimal (decvalue rationals v) ++ ascii '.' :: paddedDecimal 2 (fracvalue rationals v)

theorem floatText_eq (label : List Byte) (v : ℚ) :
    floatText label (decvalue rationals v) (fracvalue rationals v) =
      text "\x7b" ++ (quoted label ++ (text ":" ++ numberText v)) ++ text "\x7d" := by
  have hopening : text "\x7b\"" = text "\x7b" ++ text "\"" := rfl
  have hcolon : text "\":" = text "\"" ++ text ":" := rfl
  have hpoint : text "." = [ascii '.'] := rfl
  simp only [floatText, numberText, quoted, hopening, hcolon, hpoint, List.append_assoc,
    List.cons_append, List.nil_append]

theorem paddedDecimal_of_le {n : Nat} (hfirst : 10 ≤ n) (hlast : n < 100) : paddedDecimal 2 n = decimal n := by
  rw [paddedDecimal, decimal_length_two hfirst hlast]
  rfl

theorem paddedDecimal_of_lt {n : Nat} (hn : n < 10) : paddedDecimal 2 n = ascii ' ' :: decimal n := by
  rw [paddedDecimal, decimal_length_of_lt hn]
  rfl

theorem hundredths_lt_hundred (v : ℚ) : hundredths v < 100 := hundredths_lt

/-- The printed number is one exactly if its fraction has two digits. -/
theorem isNumber_numberText (v : ℚ) : isNumber (numberText v) = true ↔ 10 ≤ hundredths v := by
  rw [numberText, isNumber_signedDecimal, fracvalue_rationals]
  rcases Nat.lt_or_ge (hundredths v) 10 with hone | htwo
  · rw [paddedDecimal_of_lt hone, isFraction_blank]
    exact iff_of_false Bool.false_ne_true (not_le.mpr hone)
  · rw [paddedDecimal_of_le htwo (hundredths_lt_hundred v), isFraction_decimal]
    exact iff_of_true rfl htwo

theorem numberText_front (v : ℚ) : ∃ first back, numberText v = first :: back ∧ ¬IsSpace [first] :=
  signedDecimal_front _ _

theorem numberText_back (v : ℚ) : ∃ front last, numberText v = front ++ [last] ∧ ¬IsSpace [last] := by
  have hsplit : numberText v = (signedDecimal (decvalue rationals v) ++ ascii '.' ::
      List.replicate (2 - (decimal (fracvalue rationals v)).length) (ascii ' ')) ++
        decimal (fracvalue rationals v) := by
    rw [List.append_assoc, List.cons_append]
    rfl
  rw [hsplit]
  exact decimal_back _ _

theorem numberValue_numberText {v : ℚ} (hv : 10 ≤ hundredths v) : numberValue (numberText v) =
    (if decvalue rationals v < 0 then -1 else 1) * (whole v + hundredths v / 100) := by
  have hwhole : (decvalue rationals v).natAbs = whole v := by
    rw [decvalue_rationals]
    split
    · exact Int.natAbs_natCast _
    · rw [Int.natAbs_neg, Int.natAbs_natCast]
  rw [numberText, fracvalue_rationals, paddedDecimal_of_le hv (hundredths_lt_hundred v),
    numberValue_signedDecimal, hwhole, decimal_length_two hv (hundredths_lt_hundred v)]
  norm_num

/-- The sign is lost between minus one and zero. -/
theorem decvalue_neg_iff (v : ℚ) : decvalue rationals v < 0 ↔ v ≤ -1 := by
  rw [decvalue_rationals]
  split
  · rename_i hv
    exact iff_of_false (by omega) (by linarith)
  · rename_i hv
    have hwhole : 1 ≤ whole v ↔ 1 ≤ |v| := Nat.one_le_floor_iff |v|
    rw [abs_of_neg (not_le.mp hv)] at hwhole
    constructor
    · intro hnegative
      have hone := hwhole.mp (by omega)
      linarith
    · intro hone
      have hwhole := hwhole.mpr (by linarith)
      omega

/-- A printed number has the value exactly if it has the sign. -/
theorem numberValue_eq_iff {v : ℚ} (hv : 10 ≤ hundredths v) :
    numberValue (numberText v) = twoDecimals v ↔ ¬(-1 < v ∧ v < 0) := by
  have hpositive : (0 : ℚ) < whole v + hundredths v / 100 := by
    have hhundredths : (10 : ℚ) ≤ hundredths v := by exact_mod_cast hv
    have hwhole : (0 : ℚ) ≤ whole v := Nat.cast_nonneg _
    linarith
  rw [numberValue_numberText hv, twoDecimals_eq]
  by_cases hneg : v < 0
  · rw [if_pos hneg]
    by_cases hone : v ≤ -1
    · rw [if_pos ((decvalue_neg_iff v).mpr hone)]
      exact iff_of_true rfl fun h => absurd h.1 (not_lt.mpr hone)
    · rw [if_neg fun h => hone ((decvalue_neg_iff v).mp h)]
      refine iff_of_false (fun h => ?_) (not_not_intro ⟨not_le.mp hone, hneg⟩)
      linarith
  · have hsigned : ¬decvalue rationals v < 0 := fun h => hneg (by linarith [(decvalue_neg_iff v).mp h])
    rw [if_neg hneg, if_neg hsigned]
    exact iff_of_true rfl fun h => hneg h.2

theorem isStringBody_of_plain {label : List Byte}
    (h : ∀ c ∈ label, c ≠ ascii '"' ∧ c ≠ ascii '\\' ∧ 0x20 ≤ c.toNat) : isStringBody label = true := by
  induction label with
  | nil => rfl
  | cons c label ih =>
      obtain ⟨hquote, hbackslash, hcontrol⟩ := h c List.mem_cons_self
      unfold isStringBody
      rw [if_neg hbackslash, ih fun d hd => h d (List.mem_cons_of_mem _ hd), Bool.and_true,
        Bool.and_eq_true, decide_eq_true_eq, decide_eq_true_eq]
      exact ⟨hquote, hcontrol⟩

/-- A built text shows its value exactly if the value is printable. -/
theorem FloatReport.showsFloat_iff {size : Nat} (x : FloatReport size) :
    ShowsFloat x.label.bytes x.value
        [snprintfText size (floatText x.label.bytes (decvalue rationals x.value) (fracvalue rationals x.value))] ↔
      x.Printable := by
  have hsize : size ≠ 0 := Nat.ne_of_gt (Nat.lt_of_le_of_lt (Nat.zero_le _) x.text_fits)
  obtain ⟨first, back, hfirst, hfirstBlank⟩ := numberText_front x.value
  obtain ⟨front, last, hlast, hlastBlank⟩ := numberText_back x.value
  have hdocument : ∀ spelling, IsDocument (text "\x7b" ++ (quoted x.label.bytes ++
      (text ":" ++ numberText x.value)) ++ text "\x7d") (singleNumber x.label.bytes spelling) ↔ _ :=
    fun _ => isDocument_singleNumber_iff hfirst hfirstBlank hlast hlastBlank
  rw [(snprintfText_eq_self hsize).mpr x.text_fits, floatText_eq]
  constructor
  · rintro ⟨message, spelling, hmessage, hdoc, hvalue⟩
    rw [← (List.cons.inj hmessage).1, hdocument] at hdoc
    obtain ⟨-, hnumber, rfl⟩ := hdoc
    have htenth := (isNumber_numberText x.value).mp hnumber
    exact ⟨(tenth_iff x.value).mpr htenth, (numberValue_eq_iff htenth).mp hvalue⟩
  · rintro ⟨htenth, hsigned⟩
    have htenth := (tenth_iff x.value).mp htenth
    refine ⟨_, _, rfl, (hdocument _).mpr ⟨isStringBody_of_plain x.label_plain, ?_, rfl⟩, ?_⟩
    · exact (isNumber_numberText x.value).mpr htenth
    · exact (numberValue_eq_iff htenth).mpr hsigned

/-- **Published floats are numbers of the right value exactly if they are printable**, in the MQTT
client and in both functions of the NX client, whatever the transport answers. -/
theorem publishFloat_shows_iff (reply send : Status) (topic : List Byte) (r : ReportReplies) :
    (∀ x : FloatReport 100,
      ShowsFloat x.label.bytes x.value (mqttPublishFloat rationals reply topic x.label x.value).messages ↔
        x.Printable) ∧
    (∀ x : FloatReport publishBufferSize,
      ShowsFloat x.label.bytes x.value
          (azureIotNxClientPublishFloatTelemetry rationals ⟨.success, send⟩ x.label x.value).sent ↔
        x.Printable) ∧
    ∀ x : FloatReport publishBufferSize,
      ShowsFloat x.label.bytes x.value (azureIotNxClientPublishFloatProperty rationals r x.label x.value).sent ↔
        x.Printable := by
  have hfits : ∀ x : FloatReport publishBufferSize, ¬TooLong
      (floatText x.label.bytes (decvalue rationals x.value) (fracvalue rationals x.value)) := by
    intro x hlong
    exact absurd x.text_fits (not_lt.mpr ((tooLong_iff _).mp hlong).1)
  refine ⟨fun x => x.showsFloat_iff, fun x => ?_, fun x => ?_⟩
  · rw [azureIotNxClientPublishFloatTelemetry, if_neg (hfits x), if_neg (not_not_intro rfl)]
    split
    · exact x.showsFloat_iff
    · exact x.showsFloat_iff
  · rw [azureIotNxClientPublishFloatProperty, publishProperty, if_neg (hfits x)]
    split
    · exact x.showsFloat_iff
    · split
      · exact x.showsFloat_iff
      · exact x.showsFloat_iff

/-- A temperature of one degree, printed as `1. 0`. -/
def oneDegree : FloatReport 100 where
  label := ⟨text "temperature", by decide⟩
  value := 1
  label_plain := by decide
  value_bound := by decide +kernel
  text_fits := by decide +kernel

/-- One degree is published, and not as a number. -/
theorem oneDegree_not_shown : ¬ShowsFloat oneDegree.label.bytes oneDegree.value
    (mqttPublishFloat rationals .success [] oneDegree.label oneDegree.value).messages := by
  intro h
  have htenth := (oneDegree.showsFloat_iff.mp h).tenth
  revert htenth
  decide +kernel

end DeviceSample.Publish
