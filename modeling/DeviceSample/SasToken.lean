import DeviceSample.SasBase64
import DeviceSample.ShaHmac

/-!
The two token builders. They differ in the separator of the resource, the lifetime and the end of
the token, and each formats the resource and the expiry twice: once into a local buffer that is
signed, and once into the output.
-/

namespace DeviceSample.Sas

open Base Sha

/-- What tells the builders apart: hub tokens and tokens for the provisioning service. -/
inductive TokenKind
  | sas
  | dps
  deriving DecidableEq, Repr

namespace TokenKind

/-- The text that both formats have between their two strings. -/
def separator : TokenKind → List Byte
  | .sas => text "%2Fdevices%2F"
  | .dps => text "%2Fregistrations%2F"

/-- `SAS_EXPIRATION_SECS` and `SAS_DPS_EXPIRATION_SECS`. -/
def expirationSecs : TokenKind → BitVec 32
  | .sas => BitVec.ofNat 32 (364 * 24 * 60 * 60)
  | .dps => BitVec.ofNat 32 (60 * 60)

def suffix : TokenKind → List Byte
  | .sas => []
  | .dps => text "&skn=registration"

end TokenKind

section formats

variable (kind : TokenKind) (first second : CString) (validUntil : BitVec 32)

def resource : List Byte := first.bytes ++ kind.separator ++ second.bytes

/-- The text to sign: the resource and the expiry on a line of its own. -/
def signedText : List Byte := resource kind first second ++ text "\n" ++ decimal validUntil.toNat

/-- The first piece of the token. -/
def tokenHead : List Byte :=
  text "SharedAccessSignature sr=" ++ resource kind first second ++ text "&sig="

/-- The last piece of the token. -/
def tokenTail : List Byte := text "&se=" ++ decimal validUntil.toNat ++ kind.suffix

/-- The part of the builders that writes the output: two formats around the encoded hash, and the
only check of the room. -/
def writeToken (encodedHash : List Byte) (outputSize : Nat) : List Store × Bool :=
  let outputEnd : Int := outputSize
  let head := snprintf 0 (sizeT outputEnd) (tokenHead kind first second)
  let output := head.2
  let encoded := urlEncode encodedHash
  let sig := storesAt output (encoded ++ [0])
  let output := output + encoded.length
  let tail := snprintf output (sizeT (outputEnd - output)) (tokenTail kind validUntil)
  let output := output + tail.2
  (head.1 ++ sig ++ tail.1, !decide (outputEnd - output < 2))

end formats

/-- The body that the two builders share; `ss` is the memory of the hash context. -/
def createToken (kind : TokenKind) (ss : Sha256T) (key : List Byte) (first second : CString)
    (validUntil : BitVec 32) (outputSize : Nat) : List Store × Bool :=
  let validUntil := validUntil + kind.expirationSecs
  let buffer := (signedText kind first second validUntil).take (128 - 1)
  let keyBinary := (base64Decode key).take (base64DecodeLength key).toNat
  let hash := hmacSha256 ss buffer keyBinary
  writeToken kind first second validUntil (base64Encode hash) outputSize

/-- `create_sas_token`. -/
def createSasToken (ss : Sha256T) (key : List Byte) (hostname deviceId : CString)
    (validUntil : BitVec 32) (outputSize : Nat) : List Store × Bool :=
  createToken .sas ss key hostname deviceId validUntil outputSize

/-- `create_dps_sas_token`. -/
def createDpsSasToken (ss : Sha256T) (key : List Byte) (idScope registrationId : CString)
    (validUntil : BitVec 32) (outputSize : Nat) : List Store × Bool :=
  createToken .dps ss key idScope registrationId validUntil outputSize

section lengths

variable (kind : TokenKind) (first second : CString) (validUntil : BitVec 32)

theorem tokenHead_length :
    (tokenHead kind first second).length = (resource kind first second).length + 30 := by
  have hhead : (text "SharedAccessSignature sr=").length = 25 := by decide
  have hsig : (text "&sig=").length = 5 := by decide
  rw [tokenHead, List.length_append, List.length_append, hhead, hsig]
  omega

theorem decimal_validUntil : (decimal validUntil.toNat).length ≤ 10 := by
  apply decimal_length_le (by decide)
  have hlt := validUntil.isLt
  omega

theorem tokenTail_length : (tokenTail kind validUntil).length ≤ 31 := by
  have hse : (text "&se=").length = 4 := by decide
  have hsuffix : kind.suffix.length ≤ 17 := by cases kind <;> decide
  have hdigits := decimal_validUntil validUntil
  rw [tokenTail, List.length_append, List.length_append, hse]
  omega

theorem resource_no_nul : 0 ∉ resource kind first second := by
  have hseparator : 0 ∉ kind.separator := by cases kind <;> decide
  rw [resource, List.mem_append, List.mem_append]
  rintro ((hmem | hmem) | hmem)
  · exact first.no_nul hmem
  · exact hseparator hmem
  · exact second.no_nul hmem

theorem tokenHead_no_nul : 0 ∉ tokenHead kind first second := by
  rw [tokenHead, List.mem_append, List.mem_append]
  rintro ((hmem | hmem) | hmem)
  · exact absurd hmem (by decide)
  · exact resource_no_nul kind first second hmem
  · exact absurd hmem (by decide)

theorem tokenTail_no_nul : 0 ∉ tokenTail kind validUntil := by
  have hsuffix : 0 ∉ kind.suffix := by cases kind <;> decide
  rw [tokenTail, List.mem_append, List.mem_append]
  rintro ((hmem | hmem) | hmem)
  · exact absurd hmem (by decide)
  · exact decimal_no_nul _ hmem
  · exact hsuffix hmem

end lengths

end DeviceSample.Sas
