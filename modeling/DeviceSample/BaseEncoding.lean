import DeviceSample.BaseMemory

/-!
The text encodings of RFC 4648 and RFC 3986, in their own terms: base64 groups three bytes into a
number of 24 bits, and percent decoding replaces each escape by the byte it names.
-/

namespace DeviceSample.Base

def base64Alphabet : List Byte :=
  text "ABCDEFGHIJKLMNOPQRSTUVWXYZabcdefghijklmnopqrstuvwxyz0123456789+/"

/-- The character of a number of 6 bits. -/
def base64Char (v : Nat) : Byte := base64Alphabet.getD v 0

/-- The padded base64 encoding. -/
def base64 : List Byte → List Byte
  | a :: b :: c :: rest =>
      let n := a.toNat * 2 ^ 16 + b.toNat * 2 ^ 8 + c.toNat
      base64Char (n / 2 ^ 18) :: base64Char (n / 2 ^ 12 % 64) :: base64Char (n / 2 ^ 6 % 64) ::
        base64Char (n % 64) :: base64 rest
  | [a, b] =>
      let n := a.toNat * 2 ^ 16 + b.toNat * 2 ^ 8
      [base64Char (n / 2 ^ 18), base64Char (n / 2 ^ 12 % 64), base64Char (n / 2 ^ 6 % 64), ascii '=']
  | [a] =>
      let n := a.toNat * 2 ^ 16
      [base64Char (n / 2 ^ 18), base64Char (n / 2 ^ 12 % 64), ascii '=', ascii '=']
  | [] => []

theorem base64_length (data : List Byte) : (base64 data).length = 4 * ((data.length + 2) / 3) := by
  induction data using base64.induct with
  | case1 a b c rest ih =>
      rw [base64]
      simp only [List.length_cons, ih]
      omega
  | case2 a b => simp [base64]
  | case3 a => simp [base64]
  | case4 => rfl

theorem base64Char_ne_pad {v : Nat} (hv : v < 64) : base64Char v ≠ ascii '=' := by
  have hall : ∀ i : Fin 64, base64Char i ≠ ascii '=' := by decide +kernel
  exact hall ⟨v, hv⟩

theorem base64Char_ne_nul {v : Nat} (hv : v < 64) : base64Char v ≠ 0 := by
  have hall : ∀ i : Fin 64, base64Char i ≠ 0 := by decide +kernel
  exact hall ⟨v, hv⟩

theorem base64_no_nul (data : List Byte) : 0 ∉ base64 data := by
  have hpad : ascii '=' ≠ 0 := by decide
  induction data using base64.induct with
  | case1 a b c rest ih =>
      simp only [base64, List.mem_cons, not_or]
      exact ⟨(base64Char_ne_nul (by omega)).symm, (base64Char_ne_nul (by omega)).symm,
        (base64Char_ne_nul (by omega)).symm, (base64Char_ne_nul (by omega)).symm, ih⟩
  | case2 a b =>
      simp only [base64, List.mem_cons, not_or]
      exact ⟨(base64Char_ne_nul (by omega)).symm, (base64Char_ne_nul (by omega)).symm,
        (base64Char_ne_nul (by omega)).symm, hpad.symm, List.not_mem_nil⟩
  | case3 a =>
      simp only [base64, List.mem_cons, not_or]
      exact ⟨(base64Char_ne_nul (by omega)).symm, (base64Char_ne_nul (by omega)).symm, hpad.symm,
        hpad.symm, List.not_mem_nil⟩
  | case4 => exact List.not_mem_nil

/-- The value of a hexadecimal digit. -/
def hexValue (c : Byte) : Option Nat :=
  if 48 ≤ c.toNat ∧ c.toNat ≤ 57 then some (c.toNat - 48)
  else if 65 ≤ c.toNat ∧ c.toNat ≤ 70 then some (c.toNat - 55)
  else if 97 ≤ c.toNat ∧ c.toNat ≤ 102 then some (c.toNat - 87)
  else none

/-- Percent decoding. A percent sign without two digits stands for itself. -/
def percentDecode : List Byte → List Byte
  | x :: h :: l :: rest =>
      if x = ascii '%' then
        match hexValue h, hexValue l with
        | some high, some low => BitVec.ofNat 8 (16 * high + low) :: percentDecode rest
        | _, _ => x :: percentDecode (h :: l :: rest)
      else x :: percentDecode (h :: l :: rest)
  | rest => rest

theorem percentDecode_cons_of_ne {x : Byte} (rest : List Byte) (hx : x ≠ ascii '%') :
    percentDecode (x :: rest) = x :: percentDecode rest := by
  cases rest with
  | nil => rfl
  | cons h rest =>
      cases rest with
      | nil => rfl
      | cons l rest => rw [percentDecode, if_neg hx]

theorem percentDecode_escape {h l : Byte} {high low : Nat} (rest : List Byte)
    (hhigh : hexValue h = some high) (hlow : hexValue l = some low) :
    percentDecode (ascii '%' :: h :: l :: rest) =
      BitVec.ofNat 8 (16 * high + low) :: percentDecode rest := by
  rw [percentDecode, if_pos rfl, hhigh, hlow]

end DeviceSample.Base
