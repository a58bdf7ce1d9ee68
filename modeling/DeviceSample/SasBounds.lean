import DeviceSample.SasToken

/-!
Where the token builders store. Both formats are told how much room is left, the encoding of the
hash between them is not.
-/

namespace DeviceSample.Sas

open Base

theorem base64Encode_length_of_hash {hash : List Byte} (hhash : hash.length = 32) :
    (base64Encode hash).length = 44 := by
  rw [base64Encode_eq, base64_length, hhash]

theorem printedLength_eq {t : List Byte} (ht : t.length < 2 ^ 31) : printedLength t = t.length :=
  if_pos ht

/-- The builders stay inside an output of 256 bytes exactly if the resource leaves room for the
encoded hash, whose escapes take three characters each. -/
theorem token_inBounds_iff (kind : TokenKind) (first second : CString) (validUntil : BitVec 32)
    (hash : List Byte) (hhash : hash.length = 32) :
    InBounds 256 (writeToken kind first second validUntil (base64Encode hash) 256).1 ↔
      first.length + kind.separator.length + second.length + 30 +
        (44 + 2 * escapes (base64Encode hash)) ≤ 255 := by
  have hencoded : (urlEncode (base64Encode hash)).length = 44 + 2 * escapes (base64Encode hash) := by
    rw [urlEncode_length, base64Encode_length_of_hash hhash]
  have hresource : (resource kind first second).length =
      first.length + kind.separator.length + second.length := by
    rw [resource, List.length_append, List.length_append]
    rfl
  rw [← hresource, ← tokenHead_length, ← hencoded]
  rw [writeToken, inBounds_append, inBounds_append, inBounds_storesAt]
  constructor
  · rintro ⟨⟨-, hsig⟩, -⟩
    rcases hsig with hempty | ⟨hfirst, hlast⟩
    · exact absurd hempty (List.concat_ne_nil _ _)
    · rw [List.length_append, List.length_singleton] at hlast
      have hhead : (tokenHead kind first second).length < 2 ^ 31 := by
        by_contra hlong
        rw [snprintf, printedLength, if_neg hlong] at hfirst
        omega
      rw [snprintf, printedLength_eq hhead] at hlast
      omega
  · intro hroom
    have hhead : (snprintf 0 (sizeT (256 : Nat)) (tokenHead kind first second)).2 =
        (tokenHead kind first second).length := printedLength_eq (by omega)
    refine ⟨⟨snprintf_inBounds _ (by omega) ?_, Or.inr ?_⟩, snprintf_inBounds _ ?_ ?_⟩
    · rw [sizeT_eq (by omega) (by omega)]
      omega
    · rw [hhead, List.length_append, List.length_singleton]
      omega
    · rw [hhead]
      omega
    · rw [hhead, sizeT_eq (by omega) (by omega)]
      omega

/-- A short host name and device id, and a hash of zeros. -/
theorem token_inBounds_short :
    InBounds 256 (writeToken .sas ⟨text "hub.azure-devices.net", by decide⟩ ⟨text "board", by decide⟩ 0
      (base64Encode (List.replicate 32 0)) 256).1 :=
  (token_inBounds_iff .sas ⟨text "hub.azure-devices.net", by decide⟩ ⟨text "board", by decide⟩ 0
    (List.replicate 32 0) (by decide)).mpr (by decide)

/-- The longest host name and device id that the caller stores, and a hash of ones. -/
theorem token_out_of_bounds :
    ¬ InBounds 256 (writeToken .sas ⟨List.replicate 99 (ascii 'h'), by decide⟩
      ⟨List.replicate 63 (ascii 'd'), by decide⟩ 0 (base64Encode (List.replicate 32 0xff)) 256).1 := by
  decide +kernel

end DeviceSample.Sas
