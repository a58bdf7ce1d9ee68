import DeviceSample.SasDecode
import DeviceSample.SasToken

/-!
The key of the two token builders. It is decoded into the 96 bytes of `key_binary`, whatever its length
is, and `key_binary_size` is counted from its length and its padding. The text of a usual key, with 44 or
88 characters, is far from the limits of both.
-/

namespace DeviceSample.Sas

open Base

/-- The bytes of `key_binary`. -/
def keyBinarySpace : Nat := 96

/-- `base64_decode(key, key_size, key_binary)` in `create_sas_token` and in `create_dps_sas_token`. Places
that are read count from the start of the key, and places of stores from the start of `key_binary`. -/
def decodeKey (m : Memory) (key : CString) : Decoding := base64DecodeAt m key.length 0 0

/-- `base64_decode_length(key, key_size)` behind it. -/
def keyBinarySize (m : Memory) (key : CString) (rounds : Nat) : List Int × Option Int :=
  base64DecodeLengthAt m rounds 0 key.length

/-- The two calls use their arrays within their sizes, and count no more bytes than are there. -/
structure KeyInBounds (m : Memory) (key : CString) : Prop where
  stores : InBounds keyBinarySpace (decodeKey m key).stores
  decode_reads : ∀ place ∈ (decodeKey m key).reads, 0 ≤ place ∧ place < key.length
  length_reads : ∀ rounds, ∀ place ∈ (keyBinarySize m key rounds).1, 0 ≤ place ∧ place < key.length
  size : ∃ rounds size, (keyBinarySize m key rounds).2 = some size ∧ 0 ≤ size ∧
    size ≤ (decodeKey m key).stores.length

section bounds

variable {m : Memory} {key : CString}

theorem decodeKey_stores (hm : m.IsString 0 key.bytes) :
    (decodeKey m key).stores = storesAt 0 (base64Decode key.bytes) := by
  rw [decodeKey, base64DecodeAt_stores]
  exact congrArg (fun str => storesAt 0 (base64Decode str)) hm.bytes

theorem decodeKey_stores_length (hm : m.IsString 0 key.bytes) (hkey : key.bytes ≠ []) :
    (decodeKey m key).stores.length = key.length - (key.length - 1) / 4 := by
  rw [decodeKey_stores hm, storesAt_length, base64Decode_length hkey, CString.length]

/-- `key_binary` has space for the keys of up to 127 characters. -/
theorem decodeKey_inBounds_iff (hm : m.IsString 0 key.bytes) (hkey : key.bytes ≠ []) :
    InBounds keyBinarySpace (decodeKey m key).stores ↔ key.length ≤ 127 := by
  have hlength := base64Decode_length hkey
  have hpos := List.length_pos_iff.mpr hkey
  have hne : base64Decode key.bytes ≠ [] := by
    intro hnil
    rw [hnil, List.length_nil] at hlength
    omega
  rw [decodeKey_stores hm, inBounds_storesAt, hlength, CString.length, keyBinarySpace]
  constructor
  · rintro (hnil | ⟨-, hfits⟩)
    · exact absurd hnil hne
    · omega
  · intro hshort
    exact Or.inr ⟨Int.le_refl 0, by omega⟩

/-- The bytes of `key_binary` that go into the hash are the ones that `createToken` takes. -/
theorem keyBinary_contents (hm : m.IsString 0 key.bytes) (hkey : key.bytes ≠ []) (before : Memory) :
    (before.run (decodeKey m key).stores).bytes 0 (base64DecodeLength key.bytes).toNat =
      (base64Decode key.bytes).take (base64DecodeLength key.bytes).toNat := by
  have hcount : (base64DecodeLength key.bytes).toNat ≤ (base64Decode key.bytes).length := by
    rw [base64Decode_length hkey, base64DecodeLength]
    omega
  rw [decodeKey_stores hm, Memory.bytes_run_storesAt_take _ _ hcount]

/-- Of a key that is all padding, the byte in front of it is read. -/
theorem length_reads_of_pads (hm : m.IsString 0 key.bytes) (hpads : ∀ c ∈ key.bytes, c = ascii '=') :
    -1 ∈ (keyBinarySize m key (key.length + 1)).1 := by
  have hback := padLoop_of_pads (readsBack_of_isString hm)
    (fun c hc => hpads c (List.mem_reverse.mp hc)) (key.length * 6 / 8 : Nat)
  rw [List.length_reverse] at hback
  have hfront : 0 + (key.bytes.length : Int) - 1 - key.bytes.length = -1 := by omega
  rw [hfront] at hback
  exact hback

theorem pads_of_all {s : List Byte} (hpads : ∀ c ∈ s, c = ascii '=') : pads s = s.length := by
  have hwhole : s.reverse.takeWhile (· = ascii '=') = s.reverse := by
    rw [List.takeWhile_eq_self_iff]
    exact fun c hc => decide_eq_true (hpads c (List.mem_reverse.mp hc))
  rw [pads, hwhole, List.length_reverse]

/-- **The key is decoded in bounds exactly if it has at most 127 characters and no more than three
quarters of them are padding**, for all keys that the clients accept and all contents of the memory
around them. -/
theorem keyInBounds_iff (hm : m.IsString 0 key.bytes) (hkey : key.bytes ≠ []) :
    KeyInBounds m key ↔ key.length ≤ 127 ∧ 4 * pads key.bytes ≤ 3 * key.length := by
  have hpos : 0 < key.length := List.length_pos_iff.mpr hkey
  by_cases hstop : ∃ c ∈ key.bytes, c ≠ ascii '='
  · have hlength := base64DecodeLengthAt_eq hm hstop
    constructor
    · rintro ⟨hstores, -, -, rounds, size, hsize, hnonneg, -⟩
      refine ⟨(decodeKey_inBounds_iff hm hkey).mp hstores, ?_⟩
      have hresult := (hlength rounds).2
      rw [keyBinarySize, CString.length, hresult] at hsize
      split at hsize
      · rw [Option.some.injEq, base64DecodeLength] at hsize
        rw [CString.length]
        omega
      · cases hsize
    · rintro ⟨hshort, hpads⟩
      refine ⟨(decodeKey_inBounds_iff hm hkey).mpr hshort, ?_, ?_, ?_⟩
      · intro place hplace
        have hrange := base64DecodeAt_reads m key.length 0 0 place hplace
        omega
      · intro rounds place hplace
        have hrange := (hlength rounds).1 place hplace
        rw [CString.length]
        omega
      · have hresult := (hlength (pads key.bytes + 1)).2
        rw [if_pos (Nat.lt_succ_self _)] at hresult
        refine ⟨pads key.bytes + 1, base64DecodeLength key.bytes, hresult, ?_, ?_⟩
        · rw [base64DecodeLength, ← CString.length]
          omega
        · rw [decodeKey_stores_length hm hkey, base64DecodeLength, ← CString.length]
          omega
  · have hall : ∀ c ∈ key.bytes, c = ascii '=' := fun c hc =>
      Classical.not_not.mp fun hne => hstop ⟨c, hc, hne⟩
    constructor
    · intro h
      have hfront := h.length_reads _ _ (length_reads_of_pads hm hall)
      omega
    · rintro ⟨-, hpads⟩
      rw [pads_of_all hall, ← CString.length] at hpads
      omega

end bounds

/-- The memory that holds a key and its terminator. -/
def keyMemory (key : CString) : Memory := Memory.run (fun _ => 0) (storesAt 0 (key.bytes ++ [0]))

theorem keyMemory_isString (key : CString) : (keyMemory key).IsString 0 key.bytes :=
  Memory.IsString.ofStores _ 0 key.no_nul

/-- The key of one byte. -/
def shortKey : CString := ⟨text "TQ==", by decide⟩

theorem shortKey_inBounds : (keyMemory shortKey).IsString 0 shortKey.bytes ∧ shortKey.bytes ≠ [] ∧
    KeyInBounds (keyMemory shortKey) shortKey := by
  have hkey : shortKey.bytes ≠ [] := List.cons_ne_nil _ _
  have hlimits : shortKey.length ≤ 127 ∧ 4 * pads shortKey.bytes ≤ 3 * shortKey.length := by decide +kernel
  exact ⟨keyMemory_isString shortKey, hkey, (keyInBounds_iff (keyMemory_isString shortKey) hkey).mpr hlimits⟩

/-- A key of 128 characters. -/
def longKey : CString := ⟨List.replicate 128 (ascii 'A'), by decide⟩

/-- A key of one character, the padding. -/
def padKey : CString := ⟨text "=", by decide⟩

/-- The terminator of the one is stored behind `key_binary`, and the other is read in front of its
start. -/
theorem longKey_padKey_not_inBounds :
    (longKey.bytes ≠ [] ∧ ¬KeyInBounds (keyMemory longKey) longKey) ∧
      padKey.bytes ≠ [] ∧ ¬KeyInBounds (keyMemory padKey) padKey := by
  have hlong : longKey.bytes ≠ [] := by decide
  refine ⟨⟨hlong, fun h => ?_⟩, List.cons_ne_nil _ _, fun h => ?_⟩
  · have hfits := (decodeKey_inBounds_iff (keyMemory_isString longKey) hlong).mp h.stores
    exact absurd hfits (by decide +kernel)
  · have hread := length_reads_of_pads (keyMemory_isString padKey) (by decide +kernel)
    have hfront := (h.length_reads _ _ hread).1
    exact absurd hfront (by decide)

end DeviceSample.Sas
