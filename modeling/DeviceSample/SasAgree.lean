import DeviceSample.SasToken

/-!
What a token says and what was signed. The output takes 254 characters and the buffer of the signed
text 127, so a token can be whole while the text behind its signature was cut.
-/

namespace DeviceSample.Sas

open Base Sha

/-- The string at the start of the output is a token whose signature is that of the resource and of
the expiry that it shows. -/
def SelfConsistent (m : Memory) (kind : TokenKind) (key : List Byte) (first second : CString)
    (validUntil : BitVec 32) : Prop :=
  ∃ sig, m.IsString 0 (tokenHead kind first second ++ sig ++ tokenTail kind validUntil) ∧
    percentDecode sig = base64 (hmac key (signedText kind first second validUntil))

section output

variable (kind : TokenKind) (first second : CString) (validUntil : BitVec 32) (m : Memory)
variable {encodedHash : List Byte}

/-- A builder that reports success has stored its three pieces whole. -/
theorem writeToken_isString (hresource : (resource kind first second).length < 2 ^ 30)
    (hok : (writeToken kind first second validUntil encodedHash 256).2 = true) :
    (m.run (writeToken kind first second validUntil encodedHash 256).1).IsString 0
      (tokenHead kind first second ++ urlEncode encodedHash ++ tokenTail kind validUntil) := by
  have hheadLength := tokenHead_length kind first second
  have htailLength := tokenTail_length kind validUntil
  have hhead : printedLength (tokenHead kind first second) = (tokenHead kind first second).length :=
    if_pos (by omega)
  have htail : printedLength (tokenTail kind validUntil) = (tokenTail kind validUntil).length :=
    if_pos (by omega)
  have hroom : (tokenHead kind first second).length + (urlEncode encodedHash).length +
      (tokenTail kind validUntil).length ≤ 254 := by
    rw [writeToken, snprintf, snprintf, Bool.not_eq_true', decide_eq_false_iff_not, hhead, htail] at hok
    omega
  have hheadStores : (snprintf 0 (sizeT (256 : Nat)) (tokenHead kind first second)).1 =
      storesAt 0 (tokenHead kind first second ++ [0]) := by
    apply snprintf_of_fits
    rw [sizeT_eq (by omega) (by omega)]
    omega
  have hplace : (snprintf 0 (sizeT (256 : Nat)) (tokenHead kind first second)).2 =
      0 + ((tokenHead kind first second).length : Int) := by
    rw [snprintf, hhead]
    omega
  have hplace' : (snprintf 0 (sizeT (256 : Nat)) (tokenHead kind first second)).2 +
      ((urlEncode encodedHash).length : Int) =
        0 + ((tokenHead kind first second ++ urlEncode encodedHash).length : Int) := by
    rw [hplace, List.length_append]
    omega
  rw [writeToken, Memory.run_append, Memory.run_append, hplace', hplace, hheadStores]
  rw [snprintf_of_fits]
  · have hfirst := Memory.IsString.ofStores m 0 (tokenHead_no_nul kind first second)
    have hsecond := hfirst.append (urlEncode_no_nul encodedHash)
    exact hsecond.append (tokenTail_no_nul kind validUntil)
  · rw [List.length_append, sizeT_eq (by omega) (by omega)]
    omega

end output

/-- The bytes that are signed: the text, cut to what the local buffer holds. -/
theorem createToken_eq (kind : TokenKind) (ss : Sha256T) {key : List Byte} (hkey : key ≠ [])
    (first second : CString) (now : BitVec 32) (outputSize : Nat) :
    createToken kind ss (base64 key) first second now outputSize =
      writeToken kind first second (now + kind.expirationSecs)
        (base64Encode (hmac key ((signedText kind first second (now + kind.expirationSecs)).take 127)))
        outputSize := by
  rw [createToken, hmacSha256_eq, decoded_key hkey]

/-- A token reported as good agrees with itself exactly if the cut text and the whole text have the
same signature. -/
theorem selfConsistent_iff (kind : TokenKind) (ss : Sha256T) (m : Memory) {key : List Byte}
    (hkey : key ≠ []) (first second : CString) (now : BitVec 32)
    (hresource : (resource kind first second).length < 2 ^ 30)
    (hok : (createToken kind ss (base64 key) first second now 256).2 = true) :
    SelfConsistent (m.run (createToken kind ss (base64 key) first second now 256).1) kind key first second
        (now + kind.expirationSecs) ↔
      base64 (hmac key ((signedText kind first second (now + kind.expirationSecs)).take 127)) =
        base64 (hmac key (signedText kind first second (now + kind.expirationSecs))) := by
  rw [createToken_eq kind ss hkey] at hok ⊢
  have hstring := writeToken_isString kind first second (now + kind.expirationSecs) m hresource hok
  constructor
  · rintro ⟨sig, hshown, hdecoded⟩
    have hsame := hstring.unique hshown
    rw [List.append_left_inj, List.append_right_inj] at hsame
    rw [← hdecoded, ← hsame, percentDecode_urlEncode, base64Encode_eq]
  · intro hsame
    refine ⟨_, hstring, ?_⟩
    rw [percentDecode_urlEncode, base64Encode_eq, hsame]

theorem createToken_selfConsistent (kind : TokenKind) (ss : Sha256T) (m : Memory) {key : List Byte}
    (hkey : key ≠ []) (first second : CString) (now : BitVec 32)
    (hfits : (signedText kind first second (now + kind.expirationSecs)).length ≤ 127)
    (hok : (createToken kind ss (base64 key) first second now 256).2 = true) :
    SelfConsistent (m.run (createToken kind ss (base64 key) first second now 256).1) kind key first second
      (now + kind.expirationSecs) := by
  have hresource : (resource kind first second).length < 2 ^ 30 := by
    rw [signedText, List.length_append, List.length_append] at hfits
    omega
  rw [selfConsistent_iff kind ss m hkey first second now hresource hok, List.take_of_length_le hfits]

/-- Tokens whose text to sign fits the local buffer are self-consistent: a token reported as good
signs the resource and the expiry that it shows. -/
theorem tokens_agree (ss : Sha256T) (m : Memory) (key : List Byte)
    (hkey : 1 ≤ key.length ∧ key.length ≤ 64) (first second : CString) (now : BitVec 32) :
    ((signedText .sas first second (now + TokenKind.sas.expirationSecs)).length ≤ 127 →
      (createSasToken ss (base64 key) first second now 256).2 = true →
        SelfConsistent (m.run (createSasToken ss (base64 key) first second now 256).1) .sas key
          first second (now + TokenKind.sas.expirationSecs)) ∧
    ((signedText .dps first second (now + TokenKind.dps.expirationSecs)).length ≤ 127 →
      (createDpsSasToken ss (base64 key) first second now 256).2 = true →
        SelfConsistent (m.run (createDpsSasToken ss (base64 key) first second now 256).1) .dps key
          first second (now + TokenKind.dps.expirationSecs)) := by
  have hnonempty : key ≠ [] := List.length_pos_iff.mp hkey.1
  constructor
  · intro hfits hok
    exact createToken_selfConsistent .sas ss m hnonempty first second now hfits hok
  · intro hfits hok
    exact createToken_selfConsistent .dps ss m hnonempty first second now hfits hok

/-- A builder with a short resource succeeds: at worst each of the 44 characters of the encoded hash
takes three. -/
theorem createToken_succeeds (kind : TokenKind) (ss : Sha256T) {key : List Byte} (hkey : key ≠ [])
    (first second : CString) (now : BitVec 32) (hresource : (resource kind first second).length ≤ 61) :
    (createToken kind ss (base64 key) first second now 256).2 = true := by
  have hheadLength := tokenHead_length kind first second
  have htailLength := tokenTail_length kind (now + kind.expirationSecs)
  have hhead : printedLength (tokenHead kind first second) = (tokenHead kind first second).length :=
    if_pos (by omega)
  have htail : printedLength (tokenTail kind (now + kind.expirationSecs)) =
      (tokenTail kind (now + kind.expirationSecs)).length := if_pos (by omega)
  have hencoded : ∀ message, (urlEncode (base64Encode (hmac key message))).length ≤ 132 := by
    intro message
    have hhash : (hmac key message).length = 32 := sha256_length _
    have hescapes : escapes (base64Encode (hmac key message)) ≤ (base64Encode (hmac key message)).length :=
      List.countP_le_length
    rw [base64Encode_eq, base64_length, hhash] at hescapes
    rw [urlEncode_length, base64Encode_eq, base64_length, hhash]
    omega
  have hsig := hencoded ((signedText kind first second (now + kind.expirationSecs)).take 127)
  rw [createToken_eq kind ss hkey, writeToken, snprintf, snprintf, Bool.not_eq_true',
    decide_eq_false_iff_not, hhead, htail]
  omega

/-- A context of the hash before it is initialised. -/
def blankContext : Sha256T where
  state := initialState
  count := 0
  buffer := List.replicate 64 0
  buffer_length := List.length_replicate

/-- A hub token and a provisioning token with short names. -/
theorem tokens_agree_short :
    SelfConsistent
        (Memory.run (fun _ => 0) (createSasToken blankContext (base64 (List.replicate 32 0))
          ⟨text "hub.azure-devices.net", by decide⟩ ⟨text "board", by decide⟩ 1700000000 256).1)
        .sas (List.replicate 32 0) ⟨text "hub.azure-devices.net", by decide⟩ ⟨text "board", by decide⟩
        (1700000000 + TokenKind.sas.expirationSecs) ∧
      SelfConsistent
        (Memory.run (fun _ => 0) (createDpsSasToken blankContext (base64 (List.replicate 32 0))
          ⟨text "0ne00000000", by decide⟩ ⟨text "board", by decide⟩ 1700000000 256).1)
        .dps (List.replicate 32 0) ⟨text "0ne00000000", by decide⟩ ⟨text "board", by decide⟩
        (1700000000 + TokenKind.dps.expirationSecs) := by
  have hkey : List.replicate 32 (0 : Byte) ≠ [] := by decide
  constructor
  · refine (tokens_agree blankContext _ (List.replicate 32 0) (by decide) _ _ _).1 (by decide +kernel) ?_
    exact createToken_succeeds .sas blankContext hkey _ _ _ (by decide)
  · refine (tokens_agree blankContext _ (List.replicate 32 0) (by decide) _ _ _).2 (by decide +kernel) ?_
    exact createToken_succeeds .dps blankContext hkey _ _ _ (by decide)

/-- A host name of 55 characters. -/
def longHost : CString where
  bytes := text "verified-telemetry-field-trial-hub-01.azure-devices.net"
  no_nul := by decide

/-- A device id of 53 characters. -/
def longDevice : CString where
  bytes := text "environment-station-north-building-7-floor-3-room-312"
  no_nul := by decide

/-- With these names the buffer ends inside the expiry, and the token is whole. -/
theorem token_signs_cut_text :
    (createSasToken blankContext (base64 (List.replicate 32 0)) longHost longDevice 1700000000 256).2 =
        true ∧
      ¬ SelfConsistent
        (Memory.run (fun _ => 0)
          (createSasToken blankContext (base64 (List.replicate 32 0)) longHost longDevice 1700000000
            256).1)
        .sas (List.replicate 32 0) longHost longDevice (1700000000 + TokenKind.sas.expirationSecs) := by
  have hkey : List.replicate 32 (0 : Byte) ≠ [] := by decide
  have hok : (createToken .sas blankContext (base64 (List.replicate 32 0)) longHost longDevice 1700000000
      256).2 = true := by
    rw [createToken_eq .sas blankContext hkey]
    decide +kernel
  refine ⟨hok, ?_⟩
  have hiff := selfConsistent_iff .sas blankContext (fun _ => 0) hkey longHost longDevice 1700000000
    (by decide +kernel) hok
  rw [createSasToken, hiff]
  decide +kernel

end DeviceSample.Sas
