import DeviceSample.ShaStream

/-!
The keyed hash over the streaming one. One context serves both hashes, and the digest of the inner
hash is input of the outer one.
-/

namespace DeviceSample.Sha

open Base

def iPad : Byte := 0x36

def oPad : Byte := 0x5c

/-- The bytes of `kx` after the two loops that fill it from a key of at most 64 bytes. -/
def kx (pad : Byte) (key : List Byte) : List Byte :=
  key.map (pad ^^^ ·) ++ List.replicate (64 - key.length) (pad ^^^ 0)

/-- The two hashes of `hmac_sha256`, for a key of at most one block. -/
def hmacHashes (ss : Sha256T) (data key : List Byte) : List Byte :=
  let inner := ((ss.sha256Init.sha256Update (kx iPad key)).sha256Update data).sha256Final
  ((inner.1.sha256Init.sha256Update (kx oPad key)).sha256Update inner.2).sha256Final.2

/-- `hmac_sha256`; `ss` is the context before it is initialised. -/
def hmacSha256 (ss : Sha256T) (data key : List Byte) : List Byte :=
  if 64 < key.length then
    let kh := (ss.sha256Init.sha256Update key).sha256Final
    hmacHashes kh.1 data kh.2
  else
    hmacHashes ss data key

/-- The key of RFC 2104: hashed if it is longer than a block, and filled with zeros to a block. -/
def blockKey (key : List Byte) : List Byte :=
  let key := if 64 < key.length then sha256 key else key
  key ++ List.replicate (64 - key.length) 0

/-- HMAC as in RFC 2104, over this file's hash. -/
def hmac (key message : List Byte) : List Byte :=
  sha256 ((blockKey key).map (oPad ^^^ ·) ++ sha256 ((blockKey key).map (iPad ^^^ ·) ++ message))

theorem Sha256T.final_update (ss : Sha256T) (data : List Byte) :
    (ss.sha256Init.sha256Update data).sha256Final.2 = sha256 data :=
  (ss.sha256Init_contains.update data).final

theorem Sha256T.final_update_update (ss : Sha256T) (front data : List Byte) :
    ((ss.sha256Init.sha256Update front).sha256Update data).sha256Final.2 = sha256 (front ++ data) :=
  ((ss.sha256Init_contains.update front).update data).final

theorem kx_eq (pad : Byte) (key : List Byte) :
    kx pad key = (key ++ List.replicate (64 - key.length) 0).map (pad ^^^ ·) := by
  rw [kx, List.map_append, List.map_replicate]

theorem hmacHashes_eq (ss : Sha256T) (data key : List Byte) :
    hmacHashes ss data key = sha256 (kx oPad key ++ sha256 (kx iPad key ++ data)) := by
  rw [hmacHashes, Sha256T.final_update_update, Sha256T.final_update_update]

theorem hmacSha256_eq (ss : Sha256T) (data key : List Byte) :
    hmacSha256 ss data key = hmac key data := by
  by_cases hlong : 64 < key.length
  · rw [hmacSha256, if_pos hlong, hmac, blockKey, if_pos hlong, ← kx_eq, ← kx_eq, hmacHashes_eq,
      Sha256T.final_update]
  · rw [hmacSha256, if_neg hlong, hmac, blockKey, if_neg hlong, ← kx_eq, ← kx_eq, hmacHashes_eq]

theorem digestBytes_length (state : Registers) : (digestBytes state).length = 32 := rfl

theorem sha256_length (message : List Byte) : (sha256 message).length = 32 :=
  digestBytes_length _

end DeviceSample.Sha
