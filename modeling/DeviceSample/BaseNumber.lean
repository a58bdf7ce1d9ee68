import DeviceSample.BasePrint
import Mathlib.Data.List.TakeWhile
import Mathlib.Data.Rat.Floor
import Mathlib.Tactic.Linarith
import Mathlib.Tactic.NormNum
import Mathlib.Tactic.Ring

/-!
Numbers as texts: the value of a JSON number, printed decimals as JSON numbers, and the documents with
a number as their only member. The last section is about the conversion of a rational to an integer as
C does it, toward zero.
-/

namespace DeviceSample.Base

/-- The value of decimal digits. -/
def decimalValue (t : List Byte) : Nat := t.foldl (fun n c => 10 * n + (c.toNat - 48)) 0

/-- The exponent behind a number, with its letter. -/
def exponentValue : List Byte → Int
  | _ :: sign :: digits =>
      if sign = ascii '-' then -(decimalValue digits : Int)
      else if sign = ascii '+' then decimalValue digits
      else decimalValue (sign :: digits)
  | _ => 0

/-- The value of a number without a sign. -/
def unsignedValue (t : List Byte) : ℚ :=
  let whole := t.takeWhile isDigit
  match t.dropWhile isDigit with
  | c :: rest =>
      if c = ascii '.' then
        let fraction := rest.takeWhile isDigit
        (decimalValue whole + decimalValue fraction / 10 ^ fraction.length) *
          10 ^ exponentValue (rest.dropWhile isDigit)
      else decimalValue whole * 10 ^ exponentValue (c :: rest)
  | [] => decimalValue whole

/-- The value of a JSON number. -/
def numberValue (t : List Byte) : ℚ :=
  match t with
  | c :: rest => if c = ascii '-' then -unsignedValue rest else unsignedValue t
  | [] => 0

example : numberValue (text "-12.5e1") = -125 := by decide +kernel

section decimals

theorem ascii_digitChar {d : Nat} (hd : d < 10) : ascii d.digitChar = BitVec.ofNat 8 (48 + d) := by
  revert d
  decide

/-- The last digit stands at the end. -/
theorem decimal_eq (n : Nat) : decimal n =
    (if n < 10 then [] else decimal (n / 10)) ++ [BitVec.ofNat 8 (48 + n % 10)] := by
  rw [decimal, Nat.toDigits_eq_if (by decide)]
  split
  · rw [List.map_singleton, ascii_digitChar ‹_›, Nat.mod_eq_of_lt ‹_›]
    rfl
  · rw [List.map_append, List.map_singleton, ascii_digitChar (Nat.mod_lt n (by decide))]
    rfl

theorem decimalValue_concat (t : List Byte) (c : Byte) :
    decimalValue (t ++ [c]) = 10 * decimalValue t + (c.toNat - 48) := by
  rw [decimalValue, List.foldl_append]
  rfl

theorem decimalValue_decimal (n : Nat) : decimalValue (decimal n) = n := by
  induction n using Nat.strongRecOn with
  | ind n ih =>
      have hdigit : (BitVec.ofNat 8 (48 + n % 10)).toNat - 48 = n % 10 := by
        rw [BitVec.toNat_ofNat]
        omega
      rw [decimal_eq, decimalValue_concat, hdigit]
      split
      · rw [decimalValue, List.foldl_nil]
        omega
      · rw [ih (n / 10) (by omega)]
        omega

theorem decimal_injective : Function.Injective decimal := fun m n h => by
  rw [← decimalValue_decimal m, h, decimalValue_decimal]

/-- `atoi` reads what `%d` has printed of a number that is not negative. -/
theorem atoi_decimal (n : Nat) : atoi (decimal n) = n := by
  have hdigits : ∀ c ∈ decimal n, 48 ≤ c.toNat ∧ c.toNat ≤ 57 := by
    intro c hc
    have hdigit := isDigit_of_mem_decimal hc
    rw [isDigit, Bool.and_eq_true, decide_eq_true_iff, decide_eq_true_iff] at hdigit
    exact hdigit
  have hvalue : digitsValue (decimal n) = n := by
    rw [digitsValue, List.takeWhile_eq_self_iff.mpr]
    · exact decimalValue_decimal n
    · intro c hc
      rw [Bool.and_eq_true, decide_eq_true_iff, decide_eq_true_iff]
      exact hdigits c hc
  cases hdecimal : decimal n with
  | nil => exact absurd hdecimal (decimal_ne_nil n)
  | cons c rest =>
      have hc := hdigits c (hdecimal ▸ List.mem_cons_self)
      have hspace : isSpace c = false := by
        rw [isSpace, Bool.or_eq_false_iff, decide_eq_false_iff_not, Bool.and_eq_false_iff,
          decide_eq_false_iff_not, decide_eq_false_iff_not]
        refine ⟨?_, Or.inr (by omega)⟩
        rintro rfl
        exact absurd hc.1 (by decide)
      have hminus : c ≠ ascii '-' := by
        rintro rfl
        exact absurd hc.1 (by decide)
      have hplus : c ≠ ascii '+' := by
        rintro rfl
        exact absurd hc.1 (by decide)
      rw [hdecimal] at hvalue
      rw [atoi, List.dropWhile_cons, hspace]
      simp only [Bool.false_eq_true, if_false, if_neg hminus, if_neg hplus, hvalue]

/-- A number is printed without a leading zero. -/
theorem decimal_head_ne {n : Nat} (hn : n ≠ 0) {c : Byte} {rest : List Byte} (h : decimal n = c :: rest) :
    c ≠ ascii '0' := by
  induction n using Nat.strongRecOn generalizing c rest with
  | ind n ih =>
      rw [decimal_eq] at h
      by_cases hsmall : n < 10
      · rw [if_pos hsmall, List.nil_append, Nat.mod_eq_of_lt hsmall] at h
        rw [← (List.cons.inj h).1]
        intro hzero
        have hvalue := congrArg BitVec.toNat hzero
        rw [BitVec.toNat_ofNat] at hvalue
        have hcode : (ascii '0').toNat = 48 := rfl
        omega
      · rw [if_neg hsmall] at h
        cases hfirst : decimal (n / 10) with
        | nil => exact absurd hfirst (decimal_ne_nil _)
        | cons d digits =>
            rw [hfirst, List.cons_append] at h
            obtain ⟨rfl, -⟩ := List.cons.inj h
            exact ih (n / 10) (by omega) (by omega) hfirst

theorem decimal_length_of_lt {n : Nat} (hn : n < 10) : (decimal n).length = 1 := by
  rw [decimal_eq, if_pos hn]
  rfl

theorem decimal_length_two {n : Nat} (hfirst : 10 ≤ n) (hlast : n < 100) : (decimal n).length = 2 := by
  rw [decimal_eq, if_neg (by omega), List.length_append, decimal_length_of_lt (by omega)]
  rfl

theorem takeWhile_decimal (n : Nat) (rest : List Byte) :
    (decimal n ++ ascii '.' :: rest).takeWhile isDigit = decimal n := by
  rw [List.takeWhile_append_of_pos fun c hc => isDigit_of_mem_decimal hc,
    List.takeWhile_cons_of_neg (by decide), List.append_nil]

theorem dropWhile_decimal (n : Nat) (rest : List Byte) :
    (decimal n ++ ascii '.' :: rest).dropWhile isDigit = ascii '.' :: rest := by
  rw [List.dropWhile_append_of_pos fun c hc => isDigit_of_mem_decimal hc,
    List.dropWhile_cons_of_neg (by decide)]

/-- What stands behind the point decides about a printed number with a point. -/
theorem isUnsigned_decimal (n : Nat) (rest : List Byte) :
    isUnsigned (decimal n ++ ascii '.' :: rest) = isFraction (ascii '.' :: rest) := by
  by_cases hn : n = 0
  · rw [hn]
    rfl
  · have hdrop := dropWhile_decimal n rest
    cases hdigits : decimal n with
    | nil => exact absurd hdigits (decimal_ne_nil n)
    | cons c digits =>
        have hdigit : isDigit c = true := isDigit_of_mem_decimal (hdigits ▸ List.mem_cons_self)
        rw [hdigits, List.cons_append, List.dropWhile_cons_of_pos hdigit] at hdrop
        rw [List.cons_append, isUnsigned, if_neg (decimal_head_ne hn hdigits), hdigit, hdrop, Bool.true_and]

theorem takeWhile_decimal_end (n : Nat) : (decimal n).takeWhile isDigit = decimal n :=
  List.takeWhile_eq_self_iff.mpr fun _ hc => isDigit_of_mem_decimal hc

theorem dropWhile_decimal_end (n : Nat) : (decimal n).dropWhile isDigit = [] :=
  List.dropWhile_eq_nil_iff.mpr fun _ hc => isDigit_of_mem_decimal hc

/-- Digits behind a point are a fraction. -/
theorem isFraction_decimal (n : Nat) : isFraction (ascii '.' :: decimal n) = true := by
  rw [isFraction, if_pos rfl, takeWhile_decimal_end, dropWhile_decimal_end]
  cases hdigits : decimal n with
  | nil => exact absurd hdigits (decimal_ne_nil n)
  | cons c digits => rfl

/-- A blank behind a point is none. -/
theorem isFraction_blank (rest : List Byte) : isFraction (ascii '.' :: ascii ' ' :: rest) = false := rfl

theorem unsignedValue_decimal (n f : Nat) : unsignedValue (decimal n ++ ascii '.' :: decimal f) =
    n + f / 10 ^ (decimal f).length := by
  rw [unsignedValue, takeWhile_decimal, dropWhile_decimal]
  simp only [if_true, takeWhile_decimal_end, dropWhile_decimal_end, decimalValue_decimal, exponentValue,
    zpow_zero, mul_one]

end decimals

section documents

theorem IsSpace.eq_nil_of_front {space rest t : List Byte} {c : Byte} (hspace : IsSpace space)
    (hc : ¬IsSpace [c]) (h : c :: t = space ++ rest) : space = [] := by
  cases space with
  | nil => rfl
  | cons d space =>
      rw [List.cons_append, List.cons.injEq] at h
      rw [h.1] at hc
      exact absurd (fun x hx => hspace x (List.mem_cons.mpr (Or.inl (List.mem_singleton.mp hx)))) hc

theorem IsSpace.eq_nil_of_back {space rest t : List Byte} {c : Byte} (hspace : IsSpace space)
    (hc : ¬IsSpace [c]) (h : t ++ [c] = rest ++ space) : space = [] := by
  rcases List.eq_nil_or_concat space with hnil | ⟨front, d, rfl⟩
  · exact hnil
  · rw [List.concat_eq_append] at hspace h
    rw [← List.append_assoc] at h
    have hlast : [c] = [d] := List.append_inj_right' h rfl
    rw [hlast] at hc
    exact absurd (fun x hx => hspace x (List.mem_append_right _ hx)) hc

/-- The object with a number as its only member. -/
def singleNumber (label spelling : List Byte) : Json := .object (.cons label (.number spelling) .nil)

/-- A text that begins and ends with the braces of this object, with nothing but the label and the
spelling between them, spells no other number. -/
theorem isDocument_singleNumber_iff {label number front back spelling : List Byte} {first last : Byte}
    (hfirst : number = first :: back) (hfirstBlank : ¬IsSpace [first]) (hlast : number = front ++ [last])
    (hlastBlank : ¬IsSpace [last]) :
    IsDocument (text "\x7b" ++ (quoted label ++ (text ":" ++ number)) ++ text "\x7d")
        (singleNumber label spelling) ↔
      isStringBody label = true ∧ isNumber number = true ∧ spelling = number := by
  constructor
  · rintro ⟨before, body, after, hbefore, hafter, hbody, heq⟩
    cases hbody with
    | @object members t hmembers =>
        cases hmembers with
        | @last name value inner colon afterName t behind hinner hcolon hafterName hbehind hlabel hvalue =>
            cases hvalue with
            | number hnumber =>
                -- the braces leave no white space outside, and the quote of the label none in front of it
                obtain rfl := hbefore.eq_nil_of_front (by unfold IsSpace; decide)
                  (heq.trans (List.append_assoc _ _ _))
                obtain rfl := hafter.eq_nil_of_back (by unfold IsSpace; decide) heq
                rw [List.nil_append, List.append_nil, List.append_left_inj, List.append_right_inj] at heq
                simp only [List.append_assoc] at heq
                obtain rfl := hinner.eq_nil_of_front (by unfold IsSpace; decide) heq
                rw [List.nil_append, List.append_right_inj] at heq
                obtain rfl := hcolon.eq_nil_of_front (by unfold IsSpace; decide) heq
                rw [List.nil_append, List.append_right_inj] at heq
                obtain rfl := hafterName.eq_nil_of_front hfirstBlank (hfirst.symm.trans heq)
                obtain rfl := hbehind.eq_nil_of_back hlastBlank (hlast.symm.trans heq)
                rw [List.nil_append, List.append_nil] at heq
                rw [heq]
                exact ⟨hlabel, hnumber, rfl⟩
  · rintro ⟨hlabel, hnumber, rfl⟩
    have hnone : IsSpace [] := fun c hc => nomatch hc
    refine ⟨[], _, [], hnone, hnone, .object (.last hnone hnone hnone hnone hlabel (.number hnumber)), ?_⟩
    simp only [List.nil_append, List.append_nil, List.append_assoc]

theorem not_isSpace_digit {c : Byte} (hc : isDigit c = true) : ¬IsSpace [c] := by
  intro hspace
  rcases hspace c List.mem_cons_self with rfl | rfl | rfl | rfl
  · exact absurd hc (by decide)
  · exact absurd hc (by decide)
  · exact absurd hc (by decide)
  · exact absurd hc (by decide)

end documents

section signed

/-- What stands behind the point decides about a signed decimal with a point. -/
theorem isNumber_signedDecimal (d : Int) (rest : List Byte) :
    isNumber (signedDecimal d ++ ascii '.' :: rest) = isFraction (ascii '.' :: rest) := by
  rw [signedDecimal]
  split
  · rw [List.cons_append, isNumber, if_pos rfl]
    exact isUnsigned_decimal _ _
  · cases hdigits : decimal d.natAbs with
    | nil => exact absurd hdigits (decimal_ne_nil _)
    | cons c digits =>
        have hdigit : isDigit c = true := isDigit_of_mem_decimal (hdigits ▸ List.mem_cons_self)
        have hminus : c ≠ ascii '-' := by
          rintro rfl
          exact absurd hdigit (by decide)
        rw [← isUnsigned_decimal d.natAbs, hdigits]
        exact if_neg hminus

theorem numberValue_signedDecimal (d : Int) (f : Nat) :
    numberValue (signedDecimal d ++ ascii '.' :: decimal f) =
      (if d < 0 then -1 else 1) * (d.natAbs + f / 10 ^ (decimal f).length) := by
  rw [signedDecimal]
  split
  · rw [neg_one_mul, ← unsignedValue_decimal, List.cons_append, numberValue, if_pos rfl]
  · rw [one_mul, ← unsignedValue_decimal]
    cases hdigits : decimal d.natAbs with
    | nil => exact absurd hdigits (decimal_ne_nil _)
    | cons c digits =>
        have hdigit : isDigit c = true := isDigit_of_mem_decimal (hdigits ▸ List.mem_cons_self)
        refine if_neg ?_
        rintro rfl
        exact absurd hdigit (by decide)

/-- A sign is no digit, so different numbers are printed differently. -/
theorem signedDecimal_injective : Function.Injective signedDecimal := by
  have hsign : ∀ n m, ascii '-' :: decimal n ≠ decimal m := by
    intro n m h
    have hdigit := isDigit_of_mem_decimal (h ▸ List.mem_cons_self : ascii '-' ∈ decimal m)
    exact absurd hdigit (by decide)
  intro a b h
  rw [signedDecimal, signedDecimal] at h
  split at h
  · split at h
    · have hsame := decimal_injective (List.cons.inj h).2
      omega
    · exact absurd h (hsign _ _)
  · split at h
    · exact absurd h.symm (hsign _ _)
    · have hsame := decimal_injective h
      omega

/-- A signed decimal with a point begins with no white space. -/
theorem signedDecimal_front (d : Int) (rest : List Byte) : ∃ first back,
    signedDecimal d ++ rest = first :: back ∧ ¬IsSpace [first] := by
  rw [signedDecimal]
  split
  · refine ⟨_, _, rfl, ?_⟩
    unfold IsSpace
    decide
  · cases hdigits : decimal d.natAbs with
    | nil => exact absurd hdigits (decimal_ne_nil _)
    | cons c digits =>
        exact ⟨_, _, rfl, not_isSpace_digit (isDigit_of_mem_decimal (hdigits ▸ List.mem_cons_self))⟩

/-- A decimal ends with a digit. -/
theorem decimal_back (n : Nat) (before : List Byte) : ∃ front last,
    before ++ decimal n = front ++ [last] ∧ ¬IsSpace [last] := by
  refine ⟨before ++ (if n < 10 then [] else decimal (n / 10)), BitVec.ofNat 8 (48 + n % 10), ?_, ?_⟩
  · rw [List.append_assoc, ← decimal_eq]
  · refine not_isSpace_digit (isDigit_of_mem_decimal (n := n) ?_)
    rw [decimal_eq]
    exact List.mem_append_right _ List.mem_cons_self

end signed

section truncation

/-- The conversion of a rational to an integer, toward zero. -/
def truncate (v : ℚ) : Int := if 0 ≤ v then ⌊v⌋ else -⌊-v⌋

theorem truncate_of_nonneg {v : ℚ} (hv : 0 ≤ v) : truncate v = (⌊v⌋₊ : Int) := by
  rw [truncate, if_pos hv, Int.natCast_floor_eq_floor hv]

theorem truncate_of_neg {v : ℚ} (hv : v < 0) : truncate v = -(⌊-v⌋₊ : Int) := by
  rw [truncate, if_neg (not_le.mpr hv), Int.natCast_floor_eq_floor (by linarith)]

theorem truncate_neg (v : ℚ) : truncate (-v) = -truncate v := by
  rcases lt_trichotomy v 0 with hneg | rfl | hpos
  · rw [truncate_of_neg hneg, truncate_of_nonneg (by linarith), neg_neg]
  · decide +kernel
  · rw [truncate_of_nonneg hpos.le, truncate_of_neg (by linarith), neg_neg]

/-- Hundredths: the hundredths of a number are its whole part and the first two digits behind it. -/
theorem floor_hundred {a : ℚ} (ha : 0 ≤ a) : ⌊100 * a⌋₊ = 100 * ⌊a⌋₊ + ⌊100 * (a - ⌊a⌋₊)⌋₊ := by
  have hwhole : (⌊a⌋₊ : ℚ) ≤ a := Nat.floor_le ha
  calc ⌊100 * a⌋₊ = ⌊100 * (a - ⌊a⌋₊) + ((100 * ⌊a⌋₊ : Nat) : ℚ)⌋₊ := by
        congr 1
        push_cast
        ring
    _ = ⌊100 * (a - ⌊a⌋₊)⌋₊ + 100 * ⌊a⌋₊ := Nat.floor_add_natCast (by linarith) _
    _ = 100 * ⌊a⌋₊ + ⌊100 * (a - ⌊a⌋₊)⌋₊ := Nat.add_comm _ _

theorem hundredths_lt {a : ℚ} : ⌊100 * (a - ⌊a⌋₊)⌋₊ < 100 := by
  have hnext : a < ⌊a⌋₊ + 1 := Nat.lt_floor_add_one a
  rw [Nat.floor_lt' (by decide)]
  push_cast
  linarith

end truncation

end DeviceSample.Base
