import DeviceSample.BaseEncoding
import Mathlib.Data.List.TakeWhile
import Mathlib.Tactic.IntervalCases

/-!
The encodings of the token. `base64_encode` and `base64_decode` work on bytes with masks and shifts;
on a padded key the decoder gives the bytes that were encoded, and a few more for the padding.
-/

namespace DeviceSample.Sas

open Base

/-- The alphabet `b` of `base64_encode`. -/
def b64 (i : Byte) : Byte := base64Alphabet.getD i.toNat 0

/-- `base64_encode`, without the terminator. -/
def base64Encode : List Byte → List Byte
  | p0 :: p1 :: p2 :: p =>
      b64 ((p0 >>> 2) &&& 0x3f) :: b64 (((p0 &&& 0x03) <<< 4) ||| ((p1 &&& 0xf0) >>> 4)) ::
        b64 (((p1 &&& 0x0f) <<< 2) ||| ((p2 &&& 0xc0) >>> 6)) :: b64 (p2 &&& 0x3f) :: base64Encode p
  | [p0, p1] =>
      [b64 ((p0 >>> 2) &&& 0x3f), b64 (((p0 &&& 0x03) <<< 4) ||| ((p1 &&& 0xf0) >>> 4)),
        b64 ((p1 &&& 0x0f) <<< 2), ascii '=']
  | [p0] => [b64 ((p0 >>> 2) &&& 0x3f), b64 ((p0 &&& 0x03) <<< 4), ascii '=', ascii '=']
  | [] => []

/-- The table `b` of `base64_decode`. -/
def decodeTable (c : Byte) : Byte :=
  if c = ascii '+' then 62
  else if c = ascii '/' then 63
  else if 48 ≤ c.toNat ∧ c.toNat ≤ 57 then c + 4
  else if 65 ≤ c.toNat ∧ c.toNat ≤ 90 then c - 65
  else if 97 ≤ c.toNat ∧ c.toNat ≤ 122 then c - 71
  else 64

/-- The three bytes of four characters. -/
def decodeGroup (p0 p1 p2 p3 : Byte) : List Byte :=
  [decodeTable p0 <<< 2 ||| decodeTable p1 >>> 4, decodeTable p1 <<< 4 ||| decodeTable p2 >>> 2,
    decodeTable p2 <<< 6 ||| decodeTable p3]

/-- The bytes that `base64_decode` stores: its loop runs while more than four characters are left. -/
def base64Decode : List Byte → List Byte
  | p0 :: p1 :: p2 :: p3 :: p4 :: p => decodeGroup p0 p1 p2 p3 ++ base64Decode (p4 :: p)
  | [p0, p1, p2, p3] => decodeGroup p0 p1 p2 p3 ++ [0]
  | [p0, p1, p2] => (decodeGroup p0 p1 p2 0).take 2 ++ [0]
  | [p0, p1] => (decodeGroup p0 p1 0 0).take 1 ++ [0]
  | _ => [0]

/-- The number of padding characters at the end of a string. -/
def pads (str : List Byte) : Nat := (str.reverse.takeWhile (· = ascii '=')).length

/-- `base64_decode_length` of a string that is not all padding; of one that is, the source goes on
to read in front of it. -/
def base64DecodeLength (str : List Byte) : Int := (str.length * 6 / 8 : Nat) - (pads str : Int)

/-- The digits `hex` of `url_encode`. -/
def hex (i : Nat) : Byte := (text "0123456789abcdef").getD i 0

/-- The characters that `url_encode` copies. -/
def isAlnum (c : Byte) : Bool :=
  (97 ≤ c.toNat && c.toNat ≤ 122) || (65 ≤ c.toNat && c.toNat ≤ 90) || (48 ≤ c.toNat && c.toNat ≤ 57)

/-- `url_encode`, without the terminator. -/
def urlEncode (msg : List Byte) : List Byte :=
  msg.flatMap fun c =>
    if isAlnum c then [c] else [ascii '%', hex (c.toNat >>> 4), hex (c.toNat &&& 15)]

section sextets

variable (p0 p1 p2 : Byte)

theorem low_toNat (k : Nat) (mask : Byte) (hmask : mask.toNat = 2 ^ k - 1) :
    (p0 &&& mask).toNat = p0.toNat % 2 ^ k := by
  rw [BitVec.toNat_and, hmask, Nat.and_two_pow_sub_one_eq_mod]

theorem or_toNat {x y : Byte} (k : Nat) (hx : x.toNat % 2 ^ k = 0) (hy : y.toNat < 2 ^ k) :
    (x ||| y).toNat = x.toNat + y.toNat := by
  have hsplit : x.toNat = (x.toNat / 2 ^ k) <<< k := by
    rw [Nat.shiftLeft_eq, Nat.mul_comm, Nat.mul_div_cancel' (Nat.dvd_of_mod_eq_zero hx)]
  rw [BitVec.toNat_or, hsplit, Nat.shiftLeft_add_eq_or_of_lt hy]

theorem high_toNat (k : Nat) (hk : k ≤ 8) (mask : Byte) (hmask : mask = (0xff : Byte) <<< k) :
    ((p1 &&& mask) >>> k) = p1 >>> k := by
  apply BitVec.eq_of_getLsbD_eq
  intro i hi
  subst hmask
  interval_cases k <;> interval_cases i <;> simp

theorem sextet0_toNat : ((p0 >>> 2) &&& 0x3f).toNat = p0.toNat / 4 := by
  rw [low_toNat (p0 >>> 2) 6 0x3f rfl, BitVec.toNat_ushiftRight, Nat.shiftRight_eq_div_pow]
  omega

theorem sextet1_high : ((p0 &&& 0x03) <<< 4).toNat = p0.toNat % 4 * 16 := by
  rw [BitVec.toNat_shiftLeft, low_toNat p0 2 0x03 rfl, Nat.shiftLeft_eq]
  omega

theorem sextet1_toNat :
    (((p0 &&& 0x03) <<< 4) ||| ((p1 &&& 0xf0) >>> 4)).toNat = p0.toNat % 4 * 16 + p1.toNat / 16 := by
  have hlow : ((p1 &&& 0xf0) >>> 4).toNat = p1.toNat / 16 := by
    rw [high_toNat p1 4 (by decide) 0xf0 rfl, BitVec.toNat_ushiftRight, Nat.shiftRight_eq_div_pow]
  rw [or_toNat 4 (by rw [sextet1_high]; omega) (by rw [hlow]; omega), sextet1_high, hlow]

theorem sextet2_high : ((p1 &&& 0x0f) <<< 2).toNat = p1.toNat % 16 * 4 := by
  rw [BitVec.toNat_shiftLeft, low_toNat p1 4 0x0f rfl, Nat.shiftLeft_eq]
  omega

theorem sextet2_toNat :
    (((p1 &&& 0x0f) <<< 2) ||| ((p2 &&& 0xc0) >>> 6)).toNat = p1.toNat % 16 * 4 + p2.toNat / 64 := by
  have hlow : ((p2 &&& 0xc0) >>> 6).toNat = p2.toNat / 64 := by
    rw [high_toNat p2 6 (by decide) 0xc0 rfl, BitVec.toNat_ushiftRight, Nat.shiftRight_eq_div_pow]
  rw [or_toNat 2 (by rw [sextet2_high]; omega) (by rw [hlow]; omega), sextet2_high, hlow]

theorem sextet3_toNat : (p2 &&& 0x3f).toNat = p2.toNat % 64 := low_toNat p2 6 0x3f rfl

/-- The sextets of three bytes put the bytes together again. -/
theorem join_first : ((p0 >>> 2) &&& 0x3f) <<< 2 |||
    (((p0 &&& 0x03) <<< 4) ||| ((p1 &&& 0xf0) >>> 4)) >>> 4 = p0 := by
  apply BitVec.eq_of_getLsbD_eq
  intro i hi
  interval_cases i <;> simp

theorem join_second : (((p0 &&& 0x03) <<< 4) ||| ((p1 &&& 0xf0) >>> 4)) <<< 4 |||
    (((p1 &&& 0x0f) <<< 2) ||| ((p2 &&& 0xc0) >>> 6)) >>> 2 = p1 := by
  apply BitVec.eq_of_getLsbD_eq
  intro i hi
  interval_cases i <;> simp

theorem join_third : (((p1 &&& 0x0f) <<< 2) ||| ((p2 &&& 0xc0) >>> 6)) <<< 6 |||
    (p2 &&& 0x3f) = p2 := by
  apply BitVec.eq_of_getLsbD_eq
  intro i hi
  interval_cases i <;> simp

end sextets

theorem b64_eq (i : Byte) : b64 i = base64Char i.toNat := rfl

/-- The encoder of the source is the encoding of RFC 4648. -/
theorem base64Encode_eq (data : List Byte) : base64Encode data = base64 data := by
  induction data using base64Encode.induct with
  | case1 p0 p1 p2 p ih =>
      rw [base64Encode, base64, ih, b64_eq, b64_eq, b64_eq, b64_eq, sextet0_toNat, sextet1_toNat,
        sextet2_toNat, sextet3_toNat]
      have h0 : (p0.toNat * 2 ^ 16 + p1.toNat * 2 ^ 8 + p2.toNat) / 2 ^ 18 = p0.toNat / 4 := by omega
      have h1 : (p0.toNat * 2 ^ 16 + p1.toNat * 2 ^ 8 + p2.toNat) / 2 ^ 12 % 64 =
          p0.toNat % 4 * 16 + p1.toNat / 16 := by omega
      have h2 : (p0.toNat * 2 ^ 16 + p1.toNat * 2 ^ 8 + p2.toNat) / 2 ^ 6 % 64 =
          p1.toNat % 16 * 4 + p2.toNat / 64 := by omega
      have h3 : (p0.toNat * 2 ^ 16 + p1.toNat * 2 ^ 8 + p2.toNat) % 64 = p2.toNat % 64 := by omega
      simp only [h0, h1, h2, h3]
  | case2 p0 p1 =>
      rw [base64Encode, base64, b64_eq, b64_eq, b64_eq, sextet0_toNat, sextet1_toNat, sextet2_high]
      have h0 : (p0.toNat * 2 ^ 16 + p1.toNat * 2 ^ 8) / 2 ^ 18 = p0.toNat / 4 := by omega
      have h1 : (p0.toNat * 2 ^ 16 + p1.toNat * 2 ^ 8) / 2 ^ 12 % 64 =
          p0.toNat % 4 * 16 + p1.toNat / 16 := by omega
      have h2 : (p0.toNat * 2 ^ 16 + p1.toNat * 2 ^ 8) / 2 ^ 6 % 64 = p1.toNat % 16 * 4 := by omega
      simp only [h0, h1, h2]
  | case3 p0 =>
      rw [base64Encode, base64, b64_eq, b64_eq, sextet0_toNat, sextet1_high]
      have h0 : p0.toNat * 2 ^ 16 / 2 ^ 18 = p0.toNat / 4 := by omega
      have h1 : p0.toNat * 2 ^ 16 / 2 ^ 12 % 64 = p0.toNat % 4 * 16 := by omega
      simp only [h0, h1]
  | case4 => rfl

/-- The table of the decoder inverts the alphabet of the encoder. -/
theorem decodeTable_b64 {i : Byte} (hi : i.toNat < 64) : decodeTable (b64 i) = i := by
  have hall : ∀ v : Fin 64, decodeTable (base64Char v) = BitVec.ofNat 8 v := by decide +kernel
  rw [b64_eq, hall ⟨i.toNat, hi⟩]
  exact BitVec.ofNat_toNat 8 i

theorem decodeGroup_b64 (p0 p1 p2 : Byte) :
    decodeGroup (b64 ((p0 >>> 2) &&& 0x3f)) (b64 (((p0 &&& 0x03) <<< 4) ||| ((p1 &&& 0xf0) >>> 4)))
      (b64 (((p1 &&& 0x0f) <<< 2) ||| ((p2 &&& 0xc0) >>> 6))) (b64 (p2 &&& 0x3f)) = [p0, p1, p2] := by
  rw [decodeGroup, decodeTable_b64, decodeTable_b64, decodeTable_b64, decodeTable_b64, join_first,
    join_second, join_third]
  · rw [sextet3_toNat]
    omega
  · rw [sextet2_toNat]
    omega
  · rw [sextet1_toNat]
    omega
  · rw [sextet0_toNat]
    omega

theorem decodeGroup_two (p0 p1 p3 : Byte) :
    (decodeGroup (b64 ((p0 >>> 2) &&& 0x3f)) (b64 (((p0 &&& 0x03) <<< 4) ||| ((p1 &&& 0xf0) >>> 4)))
      (b64 ((p1 &&& 0x0f) <<< 2)) p3).take 2 = [p0, p1] := by
  have hpad : (p1 &&& 0x0f) <<< 2 ||| (((0 : Byte) &&& 0xc0) >>> 6) = (p1 &&& 0x0f) <<< 2 := by
    simp
  have hsecond := join_second p0 p1 0
  rw [hpad] at hsecond
  rw [decodeGroup, decodeTable_b64, decodeTable_b64, decodeTable_b64, join_first, hsecond]
  · rfl
  · rw [sextet2_high]
    omega
  · rw [sextet1_toNat]
    omega
  · rw [sextet0_toNat]
    omega

theorem decodeGroup_one (p0 p2 p3 : Byte) :
    (decodeGroup (b64 ((p0 >>> 2) &&& 0x3f)) (b64 ((p0 &&& 0x03) <<< 4)) p2 p3).take 1 = [p0] := by
  have hpad : (p0 &&& 0x03) <<< 4 ||| (((0 : Byte) &&& 0xf0) >>> 4) = (p0 &&& 0x03) <<< 4 := by simp
  have hfirst := join_first p0 0
  rw [hpad] at hfirst
  rw [decodeGroup, decodeTable_b64, decodeTable_b64, hfirst]
  · rfl
  · rw [sextet1_high]
    omega
  · rw [sextet0_toNat]
    omega

theorem base64Decode_group (p0 p1 p2 p3 : Byte) {p : List Byte} (hp : p ≠ []) :
    base64Decode (p0 :: p1 :: p2 :: p3 :: p) = decodeGroup p0 p1 p2 p3 ++ base64Decode p := by
  cases p with
  | nil => exact absurd rfl hp
  | cons p4 p => rw [base64Decode]

theorem base64Encode_ne_nil {data : List Byte} (hdata : data ≠ []) : base64Encode data ≠ [] := by
  intro hempty
  have hlength := base64_length data
  rw [← base64Encode_eq, hempty, List.length_nil] at hlength
  have hpos := List.length_pos_iff.mpr hdata
  omega

/-- The decoder gives back what was encoded; what it stores for the padding comes after it. -/
theorem base64Decode_base64Encode {data : List Byte} (hdata : data ≠ []) :
    (base64Decode (base64Encode data)).take data.length = data := by
  induction data using base64Encode.induct with
  | case1 p0 p1 p2 p ih =>
      rw [base64Encode]
      by_cases hp : p = []
      · subst hp
        rw [base64Encode, base64Decode, decodeGroup_b64]
        rfl
      · rw [base64Decode_group _ _ _ _ (base64Encode_ne_nil hp), decodeGroup_b64]
        simp [ih hp]
  | case2 p0 p1 =>
      rw [base64Encode, base64Decode, List.take_append_of_le_length (by simp [decodeGroup])]
      exact decodeGroup_two p0 p1 _
  | case3 p0 =>
      rw [base64Encode, base64Decode, List.take_append_of_le_length (by simp [decodeGroup])]
      exact decodeGroup_one p0 _ _
  | case4 => exact absurd rfl hdata

theorem b64_ne_pad {i : Byte} (hi : i.toNat < 64) : b64 i ≠ ascii '=' := base64Char_ne_pad hi

/-- A text with another character is not all padding. -/
theorem pads_lt {s : List Byte} (hstop : ∃ c ∈ s, c ≠ ascii '=') : pads s < s.length := by
  by_contra hall
  obtain ⟨c, hmem, hc⟩ := hstop
  have hwhole : s.reverse.takeWhile (· = ascii '=') = s.reverse :=
    (List.takeWhile_prefix _).eq_of_length_le (by rw [List.length_reverse]; exact Nat.not_lt.mp hall)
  rw [List.takeWhile_eq_self_iff] at hwhole
  exact hc (of_decide_eq_true (hwhole c (List.mem_reverse.mpr hmem)))

theorem pads_append (front : List Byte) {rest : List Byte} (hrest : ∃ c ∈ rest, c ≠ ascii '=') :
    pads (front ++ rest) = pads rest := by
  have hstops : (rest.reverse.takeWhile (· = ascii '=')).length ≠ rest.reverse.length := by
    rw [List.length_reverse]
    exact Nat.ne_of_lt (pads_lt hrest)
  rw [pads, pads, List.reverse_append, List.takeWhile_append, if_neg hstops]

theorem pads_concat {c : Byte} (front : List Byte) (hc : c ≠ ascii '=') : pads (front ++ [c]) = 0 := by
  rw [pads_append front ⟨c, List.mem_singleton.mpr rfl, hc⟩, pads, List.reverse_singleton,
    List.takeWhile_cons_of_neg (by simpa using hc), List.length_nil]

theorem base64Encode_has_char {data : List Byte} (hdata : data ≠ []) :
    ∃ c ∈ base64Encode data, c ≠ ascii '=' := by
  have hfirst : ∀ p0 : Byte, b64 ((p0 >>> 2) &&& 0x3f) ≠ ascii '=' := by
    intro p0
    apply b64_ne_pad
    rw [sextet0_toNat]
    omega
  cases data using base64Encode.fun_cases with
  | case1 p0 p1 p2 p => exact ⟨_, by rw [base64Encode]; exact List.mem_cons_self, hfirst p0⟩
  | case2 p0 p1 => exact ⟨_, by rw [base64Encode]; exact List.mem_cons_self, hfirst p0⟩
  | case3 p0 => exact ⟨_, by rw [base64Encode]; exact List.mem_cons_self, hfirst p0⟩
  | case4 => exact absurd rfl hdata

theorem pads_base64Encode (data : List Byte) :
    pads (base64Encode data) = (3 - data.length % 3) % 3 := by
  induction data using base64Encode.induct with
  | case1 p0 p1 p2 p ih =>
      have hlength : (3 - (p0 :: p1 :: p2 :: p).length % 3) % 3 = (3 - p.length % 3) % 3 := by
        simp only [List.length_cons]
        omega
      rw [base64Encode, hlength]
      by_cases hp : p = []
      · subst hp
        have hlast : b64 (p2 &&& 0x3f) ≠ ascii '=' := by
          apply b64_ne_pad
          rw [sextet3_toNat]
          omega
        exact pads_concat [_, _, _] hlast
      · rw [← ih]
        exact pads_append [_, _, _, _] (base64Encode_has_char hp)
  | case2 p0 p1 =>
      have hlast : b64 ((p1 &&& 0x0f) <<< 2) ≠ ascii '=' := by
        apply b64_ne_pad
        rw [sextet2_high]
        omega
      simp only [base64Encode, pads, List.reverse_cons, List.reverse_nil, List.nil_append,
        List.cons_append, List.takeWhile_cons, decide_true, decide_eq_false hlast]
      rfl
  | case3 p0 =>
      have hlast : b64 ((p0 &&& 0x03) <<< 4) ≠ ascii '=' := by
        apply b64_ne_pad
        rw [sextet1_high]
        omega
      simp only [base64Encode, pads, List.reverse_cons, List.reverse_nil, List.nil_append,
        List.cons_append, List.takeWhile_cons, decide_true, decide_eq_false hlast]
      rfl
  | case4 => rfl

theorem base64DecodeLength_base64Encode (data : List Byte) :
    base64DecodeLength (base64Encode data) = data.length := by
  rw [base64DecodeLength, pads_base64Encode, base64Encode_eq, base64_length]
  omega

/-- What the decoder and the computed length give of an encoded key. -/
theorem decoded_key {key : List Byte} (hkey : key ≠ []) :
    (base64Decode (base64 key)).take (base64DecodeLength (base64 key)).toNat = key := by
  rw [← base64Encode_eq, base64DecodeLength_base64Encode, Int.toNat_natCast,
    base64Decode_base64Encode hkey]

/-- The number of characters that `url_encode` escapes. -/
def escapes (msg : List Byte) : Nat := msg.countP fun c => !isAlnum c

theorem urlEncode_cons (c : Byte) (msg : List Byte) :
    urlEncode (c :: msg) =
      (if isAlnum c then [c] else [ascii '%', hex (c.toNat >>> 4), hex (c.toNat &&& 15)]) ++
        urlEncode msg := rfl

theorem urlEncode_length (msg : List Byte) :
    (urlEncode msg).length = msg.length + 2 * escapes msg := by
  induction msg with
  | nil => rfl
  | cons c msg ih =>
      rw [urlEncode_cons, escapes, List.countP_cons, List.length_append, ih, List.length_cons, escapes]
      cases isAlnum c <;> simp <;> omega

theorem hexValue_hex {v : Nat} (hv : v < 16) : hexValue (hex v) = some v := by
  have hall : ∀ i : Fin 16, hexValue (hex i) = some i.val := by decide +kernel
  exact hall ⟨v, hv⟩

theorem hex_ne_nul {v : Nat} (hv : v < 16) : hex v ≠ 0 := by
  have hall : ∀ i : Fin 16, hex i ≠ 0 := by decide +kernel
  exact hall ⟨v, hv⟩

theorem isAlnum_ne {c d : Byte} (hc : isAlnum c = true) (hd : isAlnum d = false) : c ≠ d := by
  rintro rfl
  rw [hc] at hd
  exact Bool.noConfusion hd

theorem nibbles (c : Byte) : c.toNat >>> 4 < 16 ∧ c.toNat &&& 15 < 16 ∧
    16 * (c.toNat >>> 4) + (c.toNat &&& 15) = c.toNat := by
  have hlow : c.toNat &&& 15 = c.toNat % 16 := Nat.and_two_pow_sub_one_eq_mod c.toNat 4
  rw [hlow, Nat.shiftRight_eq_div_pow]
  omega

/-- Decoding a percent-encoded text gives the text. -/
theorem percentDecode_urlEncode (msg : List Byte) : percentDecode (urlEncode msg) = msg := by
  induction msg with
  | nil => rfl
  | cons c msg ih =>
      rw [urlEncode_cons]
      cases hc : isAlnum c with
      | true =>
          rw [if_pos rfl, List.singleton_append,
            percentDecode_cons_of_ne _ (isAlnum_ne hc (by decide)), ih]
      | false =>
          obtain ⟨hhigh, hlow, hjoin⟩ := nibbles c
          rw [if_neg Bool.false_ne_true, List.cons_append, List.cons_append, List.cons_append,
            List.nil_append, percentDecode_escape _ (hexValue_hex hhigh) (hexValue_hex hlow), hjoin, ih]
          exact congrArg (· :: msg) (BitVec.ofNat_toNat 8 c)

theorem urlEncode_no_nul (msg : List Byte) : 0 ∉ urlEncode msg := by
  induction msg with
  | nil => exact List.not_mem_nil
  | cons c msg ih =>
      obtain ⟨hhigh, hlow, _⟩ := nibbles c
      rw [urlEncode_cons, List.mem_append, not_or]
      refine ⟨?_, ih⟩
      cases hc : isAlnum c with
      | true =>
          rw [if_pos rfl, List.mem_singleton]
          exact (isAlnum_ne hc (by decide)).symm
      | false =>
          rw [if_neg Bool.false_ne_true, List.mem_cons, List.mem_cons, List.mem_singleton]
          rintro (hpercent | hdigit | hdigit)
          · exact absurd hpercent (by decide)
          · exact hex_ne_nul hhigh hdigit.symm
          · exact hex_ne_nul hlow hdigit.symm

end DeviceSample.Sas
