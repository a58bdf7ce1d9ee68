import DeviceSample.BaseJson

/-!
Printed texts: signed decimals, padded fields, and what `snprintf` leaves in its array. Behind them
the two searches of C strings, and what is read at a place after stores.
-/

namespace DeviceSample.Base

/-- The characters that `%d` prints. -/
def signedDecimal (n : Int) : List Byte :=
  if n < 0 then ascii '-' :: decimal n.natAbs else decimal n.natAbs

/-- `%2d`, for a number that is not negative. -/
def paddedDecimal (width : Nat) (n : Nat) : List Byte :=
  List.replicate (width - (decimal n).length) (ascii ' ') ++ decimal n

/-- The string in an array after `snprintf` of a text without NUL. -/
def snprintfText (size : Nat) (t : List Byte) : List Byte := t.take (size - 1)

theorem snprintfText_eq_self {size : Nat} {t : List Byte} (hsize : size ≠ 0) :
    snprintfText size t = t ↔ t.length < size := by
  constructor
  · intro h
    have hlength := congrArg List.length h
    rw [snprintfText, List.length_take] at hlength
    omega
  · exact fun h => List.take_of_length_le (by omega)

/-- `strchr`: the rest of the text from the first occurrence on. -/
def strchr (c : Byte) : List Byte → Option (List Byte)
  | [] => none
  | x :: s => if x = c then some (x :: s) else strchr c s

theorem strchr_append {c : Byte} {s : List Byte} (rest : List Byte) (hs : c ∉ s) :
    strchr c (s ++ c :: rest) = some (c :: rest) := by
  induction s with
  | nil => exact if_pos rfl
  | cons x s ih =>
      rw [List.mem_cons, not_or] at hs
      exact (if_neg fun h => hs.1 h.symm).trans (ih hs.2)

theorem strstr_cons_of_ne {x y : Byte} (s pattern : List Byte) (hne : y ≠ x) :
    strstr (x :: s) (y :: pattern) = strstr s (y :: pattern) := by
  rw [strstr, List.isPrefixOf_cons_cons, beq_false_of_ne hne, Bool.false_and]
  rfl

theorem strstr_append (pattern rest : List Byte) :
    strstr (pattern ++ rest) pattern = some (pattern ++ rest) := by
  unfold strstr
  exact if_pos (List.isPrefixOf_iff_prefix.mpr (List.prefix_append _ _))

theorem decimal_ne_nil (n : Nat) : decimal n ≠ [] := by
  rw [decimal, ne_eq, List.map_eq_nil_iff]
  exact Nat.toDigits_ne_nil

/-- Decimal digits are digits. -/
theorem isDigit_of_mem_decimal {n : Nat} {c : Byte} (h : c ∈ decimal n) : isDigit c = true := by
  obtain ⟨d, hd, rfl⟩ := List.mem_map.mp h
  have hdigit : d.isDigit = true := Nat.isDigit_of_mem_toDigits (by decide) (by decide) hd
  have hrange : 48 ≤ d.toNat ∧ d.toNat ≤ 57 := by
    simp only [Char.isDigit, Bool.and_eq_true, decide_eq_true_eq, UInt32.le_iff_toNat_le] at hdigit
    exact hdigit
  rw [isDigit, ascii, BitVec.toNat_ofNat, Nat.mod_eq_of_lt (by omega), Bool.and_eq_true,
    decide_eq_true_eq, decide_eq_true_eq]
  exact hrange

/-- A text that is stored without a terminator ends where a NUL stands behind it. -/
theorem Memory.isString_run_storesAt (m : Memory) (place : Int) {s : List Byte} (hs : 0 ∉ s) :
    (m.run (storesAt place s)).IsString place s ↔ m (place + s.length) = 0 := by
  have hbehind := Memory.run_storesAt_outside m place (place + s.length) s (Or.inr (Int.le_refl _))
  constructor
  · intro h
    have hend := h.drop (Nat.le_refl s.length)
    rw [List.drop_length] at hend
    exact hbehind.symm.trans hend
  · intro hnul
    apply (Memory.IsString.ofStores m place hs).congr
    intro at' _ hlast
    rw [storesAt_append, Memory.run_append]
    show _ = (if at' = place + s.length then 0 else m.run (storesAt place s) at')
    split
    · rename_i hat
      rw [hat, hbehind, hnul]
    · rfl

/-- What is read depends on the places that are read only. -/
theorem Memory.readString_congr {m m' : Memory} {place : Int} {n : Nat}
    (h : ∀ at', place ≤ at' → at' < place + n → m' at' = m at') :
    m'.readString place n = m.readString place n := by
  induction n generalizing place with
  | zero => rfl
  | succ n ih =>
      rw [Memory.readString, Memory.readString, h place (by omega) (by omega),
        ih fun at' hfirst hlast => h at' (by omega) (by omega)]

/-- What is read behind a stored text, when it is stored without a terminator. -/
theorem Memory.readString_run_storesAt (m : Memory) (place : Int) {s : List Byte} (hs : 0 ∉ s) (n : Nat) :
    (m.run (storesAt place s)).readString place (s.length + n) =
      s ++ m.readString (place + s.length) n := by
  induction s generalizing m place with
  | nil =>
      rw [List.length_nil, Nat.zero_add, List.nil_append]
      exact congrArg (Memory.readString m · n) (Int.add_zero place).symm
  | cons x s ih =>
      rw [List.mem_cons, not_or] at hs
      have hhead := Memory.run_storesAt_cons m place x s
      have hplace : place + ((x :: s).length : Int) = place + 1 + s.length := by
        rw [List.length_cons]
        omega
      have hrest := ih (m.store ⟨place, x⟩) (place + 1) hs.2
      have hlength : (x :: s).length + n = s.length + n + 1 := by
        rw [List.length_cons]
        omega
      have hbehind : (m.store ⟨place, x⟩).readString (place + 1 + s.length) n =
          m.readString (place + 1 + s.length) n :=
        Memory.readString_congr fun at' hfirst _ => if_neg (show at' ≠ place by omega)
      rw [hlength, Memory.readString, hhead, if_neg fun h => hs.1 h.symm, hplace, List.cons_append,
        ← hbehind, ← hrest]
      rfl

end DeviceSample.Base
