import DeviceSample.BaseBytes
import DeviceSample.ShaHmac

/-!
The keyed hash as it runs in memory. The key may be re-pointed to a local array, a second local array is
filled twice from it, and the output is written by the inner hash, read by the outer one and written
again.
-/

namespace DeviceSample.Sha

open Base

/-- The arrays of a call of `hmac_sha256`, its arguments and its local ones. The local arrays lie apart
from everything, and the output apart from the key. -/
structure HmacArrays where
  out : Extent
  data : Extent
  key : Extent
  kh : Extent
  kx : Extent
  out_size : out.size = 32
  kh_size : kh.size = 32
  kx_size : kx.size = 64
  key_out : key.Apart out
  key_kx : key.Apart kx
  data_kh : data.Apart kh
  data_kx : data.Apart kx
  out_kx : out.Apart kx
  kh_out : kh.Apart out
  kh_kx : kh.Apart kx

section filling

/-- `for (i = ...; i < key_len; i++) kx[i] = pad ^ key[i];` -/
def padKeyLoop (pad : Byte) (kx key : Int) : Nat → Memory → Memory
  | 0, m => m
  | n + 1, m => padKeyLoop pad (kx + 1) (key + 1) n (m.store ⟨kx, pad ^^^ m key⟩)

/-- `for (i = key_len; i < B; i++) kx[i] = pad ^ 0;` -/
def padZeroLoop (pad : Byte) (kx : Int) : Nat → Memory → Memory
  | 0, m => m
  | n + 1, m => padZeroLoop pad (kx + 1) n (m.store ⟨kx, pad ^^^ 0⟩)

/-- The two loops that fill `kx` from a key of at most 64 bytes. -/
def fillKx (pad : Byte) (kx : Int) (key : Extent) (m : Memory) : Memory :=
  padZeroLoop pad (kx + key.size) (64 - key.size) (padKeyLoop pad kx key.place key.size m)

theorem padKeyLoop_eq (pad : Byte) {kx key : Int} {n : Nat} (m : Memory)
    (h : key + n ≤ kx ∨ kx + n ≤ key) :
    padKeyLoop pad kx key n m = m.run (storesAt kx ((m.bytes key n).map (pad ^^^ ·))) := by
  induction n generalizing kx key m with
  | zero => rfl
  | succ n ih =>
      have hkey : (m.store ⟨kx, pad ^^^ m key⟩).bytes (key + 1) n = m.bytes (key + 1) n :=
        Memory.bytes_congr fun at' hfirst hlast => if_neg (show at' ≠ kx by omega)
      rw [padKeyLoop, ih _ (by omega), hkey]
      rfl

theorem padZeroLoop_eq (pad : Byte) (kx : Int) (n : Nat) (m : Memory) :
    padZeroLoop pad kx n m = m.run (storesAt kx (List.replicate n (pad ^^^ 0))) := by
  induction n generalizing kx m with
  | zero => rfl
  | succ n ih =>
      rw [padZeroLoop, ih]
      rfl

theorem kx_length (pad : Byte) {key : List Byte} (hkey : key.length ≤ 64) : (kx pad key).length = 64 := by
  rw [kx, List.length_append, List.length_map, List.length_replicate]
  omega

/-- The loops store the block of the key. -/
theorem fillKx_eq (pad : Byte) {e key : Extent} (m : Memory) (he : e.size = 64) (hkey : key.size ≤ 64)
    (h : key.Apart e) :
    fillKx pad e.place key m = m.run (storesAt e.place (kx pad (m.contents key))) := by
  rw [Extent.Apart, he] at h
  rw [fillKx, padKeyLoop_eq pad m (by omega), padZeroLoop_eq, kx, storesAt_append, Memory.run_append,
    List.length_map, Memory.contents_length, Memory.contents]

end filling

namespace HmacArrays

variable (f : HmacArrays)

/-- `hmac_sha256` behind the choice of its key: the memory and the context at its end. -/
def hashes (ss : Sha256T) (key : Extent) (m : Memory) : Memory × Sha256T :=
  let m := fillKx iPad f.kx.place key m
  let inner := ((ss.sha256Init.sha256Update (m.contents f.kx)).sha256Update (m.contents f.data)).sha256Final
  let m := m.run (storesAt f.out.place inner.2)
  let m := fillKx oPad f.kx.place key m
  let outer :=
    ((inner.1.sha256Init.sha256Update (m.contents f.kx)).sha256Update (m.contents f.out)).sha256Final
  (m.run (storesAt f.out.place outer.2), outer.1)

/-- `hmac_sha256`. -/
def hmacSha256 (ss : Sha256T) (m : Memory) : Memory × Sha256T :=
  if 64 < f.key.size then
    let hashed := (ss.sha256Init.sha256Update (m.contents f.key)).sha256Final
    f.hashes hashed.1 f.kh (m.run (storesAt f.kh.place hashed.2))
  else f.hashes ss f.key m

end HmacArrays

section specification

/-- The digest of `sha256_init`, `sha256_update` and `sha256_final`, in any context. -/
def digest (ss : Sha256T) (data : List Byte) : List Byte :=
  (ss.sha256Init.sha256Update data).sha256Final.2

/-- HMAC as in RFC 2104, over a hash with blocks of 64 bytes. -/
def rfc2104 (hash : List Byte → List Byte) (key message : List Byte) : List Byte :=
  let key := if 64 < key.length then hash key else key
  let block := key ++ List.replicate (64 - key.length) 0
  hash (block.map (0x5c ^^^ ·) ++ hash (block.map (0x36 ^^^ ·) ++ message))

theorem digest_eq (ss : Sha256T) : digest ss = sha256 := funext fun data => ss.final_update data

theorem rfc2104_digest (ss : Sha256T) (key message : List Byte) :
    rfc2104 (digest ss) key message = hmac key message := by
  rw [digest_eq]
  rfl

end specification

namespace HmacArrays

variable (f : HmacArrays) (ss : Sha256T) {key : Extent} (m : Memory)

/-- The two hashes in memory are those of the bytes: the second filling of `kx` still reads the key, and
the outer hash reads what the inner one left in the output. -/
theorem hashes_contents (hsize : key.size ≤ 64) (hkx : key.Apart f.kx) (hout : key.Apart f.out) :
    (f.hashes ss key m).1.contents f.out = hmacHashes ss (m.contents f.data) (m.contents key) := by
  have hlength : ∀ pad, (Sha.kx pad (m.contents key)).length = f.kx.size := by
    intro pad
    rw [f.kx_size, kx_length pad (by rw [Memory.contents_length]; exact hsize)]
  have hfilled := fillKx_eq iPad m f.kx_size hsize hkx
  have hdata : (m.run (storesAt f.kx.place (Sha.kx iPad (m.contents key)))).contents f.data = m.contents f.data :=
    Memory.contents_apart m f.data_kx (Nat.le_of_eq (hlength iPad))
  rw [hashes, hfilled, Memory.contents_stored m (hlength iPad), hdata]
  generalize hinner : ((ss.sha256Init.sha256Update (Sha.kx iPad (m.contents key))).sha256Update
    (m.contents f.data)).sha256Final = inner
  have hdigest : inner.2.length = f.out.size := by
    rw [← hinner, Sha256T.final_update_update, sha256_length, f.out_size]
  have hkey : ((m.run (storesAt f.kx.place (Sha.kx iPad (m.contents key)))).run
      (storesAt f.out.place inner.2)).contents key = m.contents key := by
    rw [Memory.contents_apart _ hout (Nat.le_of_eq hdigest),
      Memory.contents_apart m hkx (Nat.le_of_eq (hlength iPad))]
  have hrefilled := fillKx_eq oPad ((m.run (storesAt f.kx.place (Sha.kx iPad (m.contents key)))).run
    (storesAt f.out.place inner.2)) f.kx_size hsize hkx
  rw [hkey] at hrefilled
  dsimp only
  rw [hrefilled, Memory.contents_stored _ (hlength oPad),
    Memory.contents_apart _ f.out_kx (Nat.le_of_eq (hlength oPad)), Memory.contents_stored _ hdigest,
    Memory.contents_stored, hmacHashes, hinner]
  rw [Sha256T.final_update_update, sha256_length, f.out_size]

/-- The hashes store in the output and in `kx` only. -/
theorem hashes_frame (hsize : key.size ≤ 64) (hkx : key.Apart f.kx) {place : Int}
    (hplaceOut : ¬f.out.Has place) (hplaceKx : ¬f.kx.Has place) :
    (f.hashes ss key m).1 place = m place := by
  have hkxStores : ∀ (pad : Byte) (m : Memory),
      fillKx pad f.kx.place key m place = m place := by
    intro pad m
    rw [fillKx_eq pad m f.kx_size hsize hkx]
    apply Memory.run_storesAt_not_has m _ hplaceKx
    rw [f.kx_size, kx_length pad (by rw [Memory.contents_length]; exact hsize)]
  have hout : ∀ (p : Sha256T) (first second : List Byte),
      ((p.sha256Init.sha256Update first).sha256Update second).sha256Final.2.length ≤ f.out.size := by
    intro p first second
    rw [Sha256T.final_update_update, sha256_length, f.out_size]
  rw [hashes]
  dsimp only
  rw [Memory.run_storesAt_not_has _ (hout _ _ _) hplaceOut, hkxStores,
    Memory.run_storesAt_not_has _ (hout _ _ _) hplaceOut, hkxStores]

/-- The call computes the keyed hash of the bytes in its arrays. -/
theorem hmacSha256_contents :
    (f.hmacSha256 ss m).1.contents f.out = Sha.hmacSha256 ss (m.contents f.data) (m.contents f.key) := by
  rw [hmacSha256, Sha.hmacSha256, Memory.contents_length]
  by_cases hlong : 64 < f.key.size
  · rw [if_pos hlong, if_pos hlong]
    have hdigest : (ss.sha256Init.sha256Update (m.contents f.key)).sha256Final.2.length = f.kh.size := by
      rw [Sha256T.final_update, sha256_length, f.kh_size]
    have hsize : f.kh.size ≤ 64 := by
      rw [f.kh_size]
      decide
    have hhashes := f.hashes_contents (ss.sha256Init.sha256Update (m.contents f.key)).sha256Final.1
      (m.run (storesAt f.kh.place (ss.sha256Init.sha256Update (m.contents f.key)).sha256Final.2)) hsize
      f.kh_kx f.kh_out
    rw [Memory.contents_stored m hdigest, Memory.contents_apart m f.data_kh (Nat.le_of_eq hdigest)] at hhashes
    exact hhashes
  · rw [if_neg hlong, if_neg hlong]
    exact f.hashes_contents ss m (Nat.not_lt.mp hlong) f.key_kx f.key_out

theorem hmacSha256_frame {place : Int} (hout : ¬f.out.Has place) (hkh : ¬f.kh.Has place)
    (hkx : ¬f.kx.Has place) : (f.hmacSha256 ss m).1 place = m place := by
  rw [hmacSha256]
  by_cases hlong : 64 < f.key.size
  · rw [if_pos hlong]
    have hsize : f.kh.size ≤ 64 := by
      rw [f.kh_size]
      decide
    rw [f.hashes_frame _ _ hsize f.kh_kx hout hkx]
    apply Memory.run_storesAt_not_has m _ hkh
    rw [Sha256T.final_update, sha256_length, f.kh_size]
  · rw [if_neg hlong]
    exact f.hashes_frame ss m (Nat.not_lt.mp hlong) f.key_kx hout hkx

/-- **The keyed hash is the one of RFC 2104** over the digest of this library, for keys and messages of
all lengths, wherever the arrays lie and whatever the contexts and the local arrays held before. -/
theorem hmacSha256_rfc2104 (anyContext : Sha256T) :
    (f.hmacSha256 ss m).1.contents f.out =
        rfc2104 (digest anyContext) (m.contents f.key) (m.contents f.data) ∧
      ∀ place, ¬f.out.Has place → ¬f.kh.Has place → ¬f.kx.Has place →
        (f.hmacSha256 ss m).1 place = m place := by
  constructor
  · rw [hmacSha256_contents, rfc2104_digest, hmacSha256_eq]
  · exact fun _ hout hkh hkx => f.hmacSha256_frame ss m hout hkh hkx

/-- The arrays of a token builder and those of its call, one behind the other. -/
def ofToken (dataLen keyLen : Nat) (hdata : dataLen ≤ 128) (hkey : keyLen ≤ 96) : HmacArrays where
  data := ⟨0, dataLen⟩
  key := ⟨128, keyLen⟩
  out := ⟨224, 32⟩
  kh := ⟨256, 32⟩
  kx := ⟨288, 64⟩
  out_size := rfl
  kh_size := rfl
  kx_size := rfl
  key_out := Or.inl (show (128 : Int) + keyLen ≤ 224 by omega)
  key_kx := Or.inl (show (128 : Int) + keyLen ≤ 288 by omega)
  data_kh := Or.inl (show (0 : Int) + dataLen ≤ 256 by omega)
  data_kx := Or.inl (show (0 : Int) + dataLen ≤ 288 by omega)
  out_kx := by decide
  kh_out := by decide
  kh_kx := by decide

/-- With its arrays, a token builder gets the hash of its bytes. -/
theorem ofToken_hash {dataLen keyLen : Nat} (hdata : dataLen ≤ 128) (hkey : keyLen ≤ 96) :
    ((ofToken dataLen keyLen hdata hkey).hmacSha256 ss m).1.bytes 224 32 =
      Sha.hmacSha256 ss (m.bytes 0 dataLen) (m.bytes 128 keyLen) :=
  hmacSha256_contents (ofToken dataLen keyLen hdata hkey) ss m

end HmacArrays

end DeviceSample.Sha
