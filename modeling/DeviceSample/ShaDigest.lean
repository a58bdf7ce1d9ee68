import DeviceSample.BaseBits
import DeviceSample.ShaMemory
import DeviceSample.ShaStandard

/-!
The whole hash of FIPS 180-4, which is stated on strings of bits, and that the streaming hash on bytes computes
it. The keyed hash then is the one of RFC 2104 over the standard.
-/

namespace DeviceSample.Sha

open Base

namespace Standard

/-- The least number of zeros that ends the bits behind the marker 64 short of a block. -/
def zeroBits (l : Nat) : Nat := (959 - l % 512) % 512

theorem zeroBits_isLeast (l : Nat) :
    (l + 1 + zeroBits l) % 512 = 448 ∧ ∀ k, (l + 1 + k) % 512 = 448 → zeroBits l ≤ k := by
  unfold zeroBits
  exact ⟨by omega, fun k hk => by omega⟩

/-- The padded message. The standard is for messages of less than 2 ^ 64 bits. -/
def pad (message : List Bool) : List Bool :=
  message ++ [true] ++ List.replicate (zeroBits message.length) false ++ bits (BitVec.ofNat 64 message.length)

/-- The blocks of a padded message, each of sixteen words. -/
def parse (message : List Bool) : List (List Word) :=
  (blocks 512 message).map fun block => (blocks 32 block).map (ofBits 32)

/-- The first thirty-two bits of the fractional parts of the square roots of the primes. -/
def initialWord (i : Nat) : Word := BitVec.ofNat 32 (Nat.nthRoot 2 (primes.getD i 0 * 2 ^ 64))

def initialHash : Registers where
  a := initialWord 0
  b := initialWord 1
  c := initialWord 2
  d := initialWord 3
  e := initialWord 4
  f := initialWord 5
  g := initialWord 6
  h := initialWord 7

/-- The digest of a string of bits, as bits. -/
def hash (message : List Bool) : List Bool :=
  let s := (parse (pad message)).foldl compress initialHash
  [s.a, s.b, s.c, s.d, s.e, s.f, s.g, s.h].flatMap bits

/-- The digest of bytes, as bytes. -/
def digest (message : List Byte) : List Byte := (blocks 8 (hash (message.flatMap bits))).map (ofBits 8)

end Standard

open Standard

theorem initialHash_eq : initialHash = initialState := by
  simp only [initialHash, initialWord, primes_eq]
  decide +kernel

section bytes

variable {message : List Byte}

theorem bits_zeros (n : Nat) : (List.replicate n (0 : Byte)).flatMap bits = List.replicate (8 * n) false := by
  induction n with
  | zero => rfl
  | succ n ih =>
      rw [List.replicate_succ, List.flatMap_cons, ih, Nat.mul_succ, Nat.add_comm, List.replicate_add]
      rfl

theorem bits_lengthBytes (len : BitVec 64) : (lengthBytes len).flatMap bits = bits len := by
  simp [lengthBytes, bits, List.range_succ, BitVec.getMsbD_eq_getLsbD]

/-- The bits of the padded bytes are the padded bits. -/
theorem pad_bits (message : List Byte) : pad (message.flatMap bits) = (padded message).flatMap bits := by
  have hlength : (message.flatMap bits).length = 8 * message.length := length_flatMap_of_length bits_length message
  have hzeros : 1 + zeroBits (8 * message.length) = 8 + 8 * zeroCount message.length := by
    rw [zeroBits, zeroCount]
    omega
  have hmarker : [true] ++ List.replicate (zeroBits (8 * message.length)) false =
      bits (0x80 : Byte) ++ List.replicate (8 * zeroCount message.length) false := by
    calc [true] ++ List.replicate (zeroBits (8 * message.length)) false
        = [true] ++ List.replicate (7 + 8 * zeroCount message.length) false := by
          rw [show zeroBits (8 * message.length) = 7 + 8 * zeroCount message.length by omega]
      _ = bits (0x80 : Byte) ++ List.replicate (8 * zeroCount message.length) false := by
          rw [List.replicate_add, ← List.append_assoc]
          rfl
  calc pad (message.flatMap bits)
      = message.flatMap bits ++ ([true] ++ List.replicate (zeroBits (8 * message.length)) false) ++
          bits (BitVec.ofNat 64 (8 * message.length)) := by
        rw [pad, hlength, List.append_assoc (message.flatMap bits)]
    _ = (padded message).flatMap bits := by
        rw [hmarker, padded, List.flatMap_append, List.flatMap_append, List.flatMap_append, List.flatMap_singleton,
          bits_zeros, bits_lengthBytes, ← List.append_assoc (message.flatMap bits)]

/-- Four bytes are loaded as the word of their bits. -/
theorem ofBits_bytes (b0 b1 b2 b3 : Byte) : ofBits 32 ([b0, b1, b2, b3].flatMap bits) =
    (b0.setWidth 32 <<< 24) + (b1.setWidth 32 <<< 16) + (b2.setWidth 32 <<< 8) + b3.setWidth 32 := by
  have h0 := b0.isLt
  have h1 := b1.isLt
  have h2 := b2.isLt
  have h3 := b3.isLt
  apply BitVec.eq_of_toNat_eq
  simp only [ofBits, List.flatMap_cons, List.flatMap_nil, List.append_nil, value_append, value_bits, List.length_append,
    bits_length, BitVec.toNat_ofNat, BitVec.toNat_add, BitVec.toNat_shiftLeft, BitVec.toNat_setWidth, Nat.shiftLeft_eq]
  omega

theorem data32_eq {block : List Byte} (hblock : block.length = 64) :
    data32 block = (blocks 32 (block.flatMap bits)).map (ofBits 32) := by
  have hblocks : blocks 32 (block.flatMap bits) = (blocks 4 block).map (List.flatMap bits) :=
    blocks_flatMap (n := 4) bits_length (by decide) block
  rw [hblocks, blocks, hblock, List.map_map, List.map_map, data32]
  refine List.map_congr_left fun i hi => ?_
  have hlt : i < 16 := List.mem_range.mp hi
  have hget : ∀ k (hk : 4 * i + k < block.length), block.getD (i * 4 + k) 0 = block[4 * i + k] := fun k hk => by
    rw [Nat.mul_comm i 4, List.getD_eq_getElem _ _ hk]
  have hbytes : (block.drop (4 * i)).take 4 =
      [block.getD (i * 4) 0, block.getD (i * 4 + 1) 0, block.getD (i * 4 + 2) 0, block.getD (i * 4 + 3) 0] := by
    refine List.ext_getElem ?_ fun j hj hj' => ?_
    · rw [List.length_take, List.length_drop, hblock]
      simp only [List.length_cons, List.length_nil]
      omega
    · rw [List.getElem_take, List.getElem_drop]
      simp only [List.length_cons, List.length_nil] at hj'
      rcases j with _ | _ | _ | _ | j
      · exact (hget 0 (by omega)).symm
      · exact (hget 1 (by omega)).symm
      · exact (hget 2 (by omega)).symm
      · exact (hget 3 (by omega)).symm
      · omega
  change _ = ofBits 32 (((block.drop (4 * i)).take 4).flatMap bits)
  rw [hbytes, ofBits_bytes]

theorem digestBytes_bits (s : Registers) :
    (digestBytes s).flatMap bits = [s.a, s.b, s.c, s.d, s.e, s.f, s.g, s.h].flatMap bits := by
  rw [digestBytes, List.flatMap_assoc]
  refine List.flatMap_congr fun x _ => ?_
  simp [bits, List.range_succ, BitVec.getMsbD_eq_getLsbD]

end bytes

/-- The digest of the library is the digest of the standard. -/
theorem sha256_eq (message : List Byte) : sha256 message = Standard.digest message := by
  have hblocks : (parse (pad (message.flatMap bits))).foldl compress initialHash =
      (blocks 64 (padded message)).foldl writeBlock initialState := by
    rw [pad_bits, parse, show 512 = 8 * 64 from rfl, blocks_flatMap bits_length (by decide), List.map_map,
      List.foldl_map, initialHash_eq]
    refine List.foldl_ext _ _ _ fun state block hblock => ?_
    have hregisters := (tied_rounds state (data32 block) (List.length_replicate (a := 0))).registers_eq
    change compress state ((blocks 32 (block.flatMap bits)).map (ofBits 32)) = _
    rw [← data32_eq (length_of_mem_blocks hblock)]
    simp only [writeBlock, sha256Transform, compress, hregisters, BitVec.add_comm]
  rw [Standard.digest, Standard.hash, hblocks, ← digestBytes_bits, ofBits_blocks (by decide), sha256]

/-- In whatever chunks a message comes, the three calls compute the digest of the standard, which pads and cuts the
message as a string of bits and runs its own schedule and rounds. -/
theorem chunks_standard (p : Sha256T) (chunks : List (List Byte)) :
    (chunks.foldl Sha256T.sha256Update p.sha256Init).sha256Final.2 = Standard.digest chunks.flatten := by
  have htaken := p.sha256Init_contains.updates chunks
  rw [List.nil_append] at htaken
  rw [htaken.final, sha256_eq]

/-- The keyed hash leaves HMAC over the standard's digest in the caller's array. -/
theorem hmac_standard (f : HmacArrays) (ss : Sha256T) (m : Memory) :
    (f.hmacSha256 ss m).1.contents f.out = rfc2104 Standard.digest (m.contents f.key) (m.contents f.data) := by
  have hdigest : Standard.digest = Sha.digest ss := by
    funext message
    rw [← sha256_eq, Sha.digest_eq]
  rw [hdigest, HmacArrays.hmacSha256_contents, rfc2104_digest, hmacSha256_eq]

end DeviceSample.Sha
