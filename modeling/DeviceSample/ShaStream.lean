import DeviceSample.BaseBlocks
import DeviceSample.BaseMemory
import DeviceSample.ShaTransform

/-!
The streaming hash: a context takes bytes in any number of chunks, and the last call pads them in
place. The buffer of a context is a window of one block, so every loop below keeps it `Absorbed`.
-/

namespace DeviceSample.Sha

open Base

/-- `sha256_t`. -/
structure Sha256T where
  state : Registers
  count : BitVec 64
  buffer : List Byte
  buffer_length : buffer.length = 64

/-- The big-endian words of a block, as `sha256_write_byte_block` loads them. -/
def data32 (block : List Byte) : List Word :=
  (List.range 16).map fun i =>
    ((block.getD (i * 4) 0).setWidth 32 <<< 24) +
    ((block.getD (i * 4 + 1) 0).setWidth 32 <<< 16) +
    ((block.getD (i * 4 + 2) 0).setWidth 32 <<< 8) +
    (block.getD (i * 4 + 3) 0).setWidth 32

/-- The effect of one block on the chaining state. -/
def writeBlock (state : Registers) (block : List Byte) : Registers :=
  sha256Transform state (data32 block)

def initialState : Registers where
  a := 0x6a09e667#32
  b := 0xbb67ae85#32
  c := 0x3c6ef372#32
  d := 0xa54ff53a#32
  e := 0x510e527f#32
  f := 0x9b05688c#32
  g := 0x1f83d9ab#32
  h := 0x5be0cd19#32

/-- The bytes of the words, each with its highest byte first. -/
def digestBytes (state : Registers) : List Byte :=
  [state.a, state.b, state.c, state.d, state.e, state.f, state.g, state.h].flatMap fun word =>
    [24, 16, 8, 0].map fun shift => (word >>> shift).setWidth 8

namespace Sha256T

/-- `p->buffer[i] = x`. -/
def store (p : Sha256T) (i : Nat) (x : Byte) : Sha256T :=
  { p with
    buffer := p.buffer.set i x
    buffer_length := by rw [List.length_set, p.buffer_length] }

def setState (p : Sha256T) (state : Registers) : Sha256T := { p with state }

@[simp]
theorem setState_state (p : Sha256T) (state : Registers) : (p.setState state).state = state := rfl

@[simp]
theorem setState_count (p : Sha256T) (state : Registers) : (p.setState state).count = p.count := rfl

@[simp]
theorem setState_buffer (p : Sha256T) (state : Registers) :
    (p.setState state).buffer = p.buffer := rfl

/-- `sha256_write_byte_block`. -/
def sha256WriteByteBlock (p : Sha256T) : Sha256T := p.setState (writeBlock p.state p.buffer)

/-- `sha256_init`. -/
def sha256Init (p : Sha256T) : Sha256T :=
  { p with state := initialState, count := 0 }

/-- `(uint32_t)p->count & 0x3F`. -/
def curBufferPos (p : Sha256T) : Nat := (p.count.setWidth 32 &&& 0x3F#32).toNat

/-- `p->count++`. -/
def countUp (p : Sha256T) : Sha256T := { p with count := p.count + 1 }

/-- The loop of `sha256_update`. -/
def updateLoop (p : Sha256T) (pos : Nat) : List Byte → Sha256T
  | [] => p
  | x :: data =>
      let p := (p.store pos x).countUp
      if pos + 1 = 64 then updateLoop p.sha256WriteByteBlock 0 data else updateLoop p (pos + 1) data

def sha256Update (p : Sha256T) (data : List Byte) : Sha256T := p.updateLoop p.curBufferPos data

/-- The loop of `sha256_final` that stores zeros up to the place of the length. The position may be
one past the buffer, whose block is then written when the position wraps. -/
def zeroLoop (p : Sha256T) (pos : Nat) : Sha256T :=
  if pos = 64 - 8 then p
  else
    let p := if pos % 64 = 0 then p.sha256WriteByteBlock else p
    zeroLoop (p.store (pos % 64) 0) (pos % 64 + 1)
termination_by if pos = 56 then 0 else (119 - pos % 64) % 64 + 1
decreasing_by
  split <;> omega

/-- The eight bytes of the length, the highest first. -/
def lengthLoop (p : Sha256T) (pos : Nat) (lenInBits : BitVec 64) : Nat → Sha256T
  | 0 => p
  | n + 1 => lengthLoop (p.store pos ((lenInBits >>> 56).setWidth 8)) (pos + 1) (lenInBits <<< 8) n

/-- `sha256_final`: the context afterwards and the digest. -/
def sha256Final (p : Sha256T) : Sha256T × List Byte :=
  let lenInBits := p.count <<< 3
  let pos := p.curBufferPos
  let p := (p.store pos 0x80).zeroLoop (pos + 1)
  let p := (p.lengthLoop (64 - 8) lenInBits 8).sha256WriteByteBlock
  (p.sha256Init, digestBytes p.state)

end Sha256T

/-- The number of zeros in the padding of a message. -/
def zeroCount (length : Nat) : Nat := (119 - length % 64) % 64

theorem zeroCount_isLeast (length : Nat) :
    (length + 1 + zeroCount length) % 64 = 56 ∧
      ∀ zeros, (length + 1 + zeros) % 64 = 56 → zeroCount length ≤ zeros := by
  unfold zeroCount
  constructor
  · omega
  · intro zeros hzeros
    omega

/-- The bytes of a 64-bit length, the highest first. -/
def lengthBytes (lenInBits : BitVec 64) : List Byte :=
  (List.range 8).map fun i => (lenInBits >>> (56 - 8 * i)).setWidth 8

/-- The padding of FIPS 180-4. -/
def padded (message : List Byte) : List Byte :=
  message ++ [0x80] ++ List.replicate (zeroCount message.length) 0 ++
    lengthBytes (BitVec.ofNat 64 (8 * message.length))

/-- The digest of a message, block by block. -/
def sha256 (message : List Byte) : List Byte :=
  digestBytes ((blocks 64 (padded message)).foldl writeBlock initialState)

namespace Sha256T

/-- The context has consumed `done` and holds `rest` at the start of its buffer. -/
abbrev Holds (p : Sha256T) (done rest : List Byte) : Prop :=
  Absorbed 64 writeBlock initialState p.state p.buffer done rest

variable {p : Sha256T} {done rest message : List Byte}

theorem Holds.store (h : p.Holds done rest) (hrest : rest.length < 64) (x : Byte) :
    (p.store rest.length x).Holds done (rest ++ [x]) :=
  Absorbed.store h hrest x

theorem Holds.write (h : p.Holds done rest) (hrest : rest.length = 64) :
    p.sha256WriteByteBlock.Holds (done ++ rest) [] := by
  rw [Holds, sha256WriteByteBlock, setState_state, setState_buffer]
  exact h.flush (by decide) hrest

theorem Holds.countUp (h : p.Holds done rest) : p.countUp.Holds done rest := h

theorem updateLoop_holds (data : List Byte) {pos : Nat} (h : p.Holds done rest)
    (hpos : rest.length = pos) (hrest : pos < 64) :
    ∃ done' rest', (p.updateLoop pos data).Holds done' rest' ∧
      done' ++ rest' = done ++ rest ++ data ∧ rest'.length < 64 := by
  induction data generalizing p done rest pos with
  | nil =>
      refine ⟨done, rest, h, ?_, by omega⟩
      rw [List.append_nil]
  | cons x data ih =>
      subst hpos
      have hstored := (h.store hrest x).countUp
      have hlength : (rest ++ [x]).length = rest.length + 1 := by simp
      by_cases hfull : rest.length + 1 = 64
      · have hwritten := hstored.write (by omega)
        obtain ⟨done', rest', hholds, hdata, hshort⟩ := ih hwritten List.length_nil (by omega)
        refine ⟨done', rest', ?_, ?_, hshort⟩
        · rw [updateLoop, if_pos hfull]
          exact hholds
        · rw [hdata]
          simp
      · obtain ⟨done', rest', hholds, hdata, hshort⟩ := ih hstored hlength (by omega)
        refine ⟨done', rest', ?_, ?_, hshort⟩
        · rw [updateLoop, if_neg hfull]
          exact hholds
        · rw [hdata]
          simp

theorem updateLoop_count (data : List Byte) (pos : Nat) :
    (p.updateLoop pos data).count = p.count + BitVec.ofNat 64 data.length := by
  induction data generalizing p pos with
  | nil => simp [updateLoop]
  | cons x data ih =>
      have hcount : p.count + BitVec.ofNat 64 (data.length + 1) =
          p.count + 1 + BitVec.ofNat 64 data.length := by
        rw [Nat.add_comm, BitVec.ofNat_add, BitVec.add_assoc]
        rfl
      rw [updateLoop, List.length_cons, hcount]
      split
      · rw [ih]
        rfl
      · rw [ih]
        rfl

theorem zeroLoop_stop (p : Sha256T) : p.zeroLoop (64 - 8) = p := by
  rw [zeroLoop, if_pos rfl]

theorem zeroLoop_wrap (p : Sha256T) :
    p.zeroLoop 64 = (p.sha256WriteByteBlock.store 0 0).zeroLoop 1 := by
  rw [zeroLoop, if_neg (by decide), Nat.mod_self, if_pos rfl]

theorem zeroLoop_next (p : Sha256T) {pos : Nat} (hfirst : 1 ≤ pos) (hlast : pos < 64)
    (hgo : pos ≠ 64 - 8) : p.zeroLoop pos = (p.store pos 0).zeroLoop (pos + 1) := by
  rw [zeroLoop, if_neg hgo, Nat.mod_eq_of_lt hlast, if_neg (by omega)]

theorem zeroLoop_holds (pos : Nat) (h : p.Holds done rest) (hpos : rest.length = pos)
    (hfirst : 1 ≤ pos) (hlast : pos ≤ 64) :
    ∃ done' rest', (p.zeroLoop pos).Holds done' rest' ∧ rest'.length = 56 ∧
      done' ++ rest' = done ++ rest ++ List.replicate ((120 - pos) % 64) 0 := by
  generalize hzeros : (120 - pos) % 64 = zeros
  induction zeros generalizing p done rest pos with
  | zero =>
      have hstop : pos = 64 - 8 := by omega
      refine ⟨done, rest, ?_, by omega, ?_⟩
      · rw [hstop, zeroLoop_stop]
        exact h
      · rw [List.replicate_zero, List.append_nil]
  | succ zeros ih =>
      by_cases hfull : pos = 64
      · have hstored := (h.write (by omega)).store (by simp) 0
        obtain ⟨done', rest', hholds, hlength, hdata⟩ :=
          ih 1 hstored rfl (by omega) (by omega) (by omega)
        refine ⟨done', rest', ?_, hlength, ?_⟩
        · rw [hfull, zeroLoop_wrap]
          exact hholds
        · rw [hdata, List.replicate_succ]
          simp
      · subst hpos
        have hstored := h.store (by omega) 0
        have hlonger : (rest ++ [(0 : Byte)]).length = rest.length + 1 := by simp
        obtain ⟨done', rest', hholds, hlength, hdata⟩ :=
          ih _ hstored hlonger (by omega) (by omega) (by omega)
        refine ⟨done', rest', ?_, hlength, ?_⟩
        · rw [zeroLoop_next p hfirst (by omega) (by omega)]
          exact hholds
        · rw [hdata, List.replicate_succ]
          simp

theorem lengthLoop_holds {pos : Nat} (lenInBits : BitVec 64) (n : Nat) (h : p.Holds done rest)
    (hpos : rest.length = pos) (hroom : pos + n ≤ 64) :
    (p.lengthLoop pos lenInBits n).Holds done
      (rest ++ (List.range n).map fun i => ((lenInBits <<< (8 * i)) >>> 56).setWidth 8) := by
  induction n generalizing p rest pos lenInBits with
  | zero =>
      rw [lengthLoop, List.range_zero, List.map_nil, List.append_nil]
      exact h
  | succ n ih =>
      subst hpos
      have hstored := h.store (by omega) ((lenInBits >>> 56).setWidth 8)
      have hlonger : (rest ++ [(lenInBits >>> 56).setWidth 8]).length = rest.length + 1 := by simp
      have hlater := ih (lenInBits <<< 8) hstored hlonger (by omega)
      rw [lengthLoop, List.range_succ_eq_map, List.map_cons, List.map_map]
      have hshift : (fun i => ((lenInBits <<< (8 * i)) >>> 56).setWidth 8) ∘ Nat.succ =
          fun i => (((lenInBits <<< 8) <<< (8 * i)) >>> 56).setWidth 8 := by
        funext i
        rw [Function.comp_apply, ← BitVec.shiftLeft_add, Nat.mul_succ, Nat.add_comm]
      rw [hshift]
      simpa using hlater

/-- The context has taken exactly this message. -/
def Contains (p : Sha256T) (message : List Byte) : Prop :=
  p.count = BitVec.ofNat 64 message.length ∧
    ∃ done rest, p.Holds done rest ∧ done ++ rest = message ∧ rest.length < 64

theorem curBufferPos_eq : p.curBufferPos = p.count.toNat % 64 := by
  have hmask : (0x3F#32).toNat = 2 ^ 6 - 1 := rfl
  rw [curBufferPos, BitVec.toNat_and, hmask, Nat.and_two_pow_sub_one_eq_mod, BitVec.toNat_setWidth]
  omega

/-- Whatever the 64-bit counter has lost, its low bits are the place in the buffer. -/
theorem curBufferPos_of_holds (hcount : p.count = BitVec.ofNat 64 (done ++ rest).length)
    (h : p.Holds done rest) (hrest : rest.length < 64) : p.curBufferPos = rest.length := by
  obtain ⟨n, hn⟩ := h.aligned
  rw [curBufferPos_eq, hcount, BitVec.toNat_ofNat, List.length_append, hn]
  omega

theorem sha256Init_contains (p : Sha256T) : p.sha256Init.Contains [] :=
  ⟨rfl, [], [], Absorbed.nil p.buffer_length, rfl, by decide⟩

theorem Contains.update (h : p.Contains message) (data : List Byte) :
    (p.sha256Update data).Contains (message ++ data) := by
  obtain ⟨hcount, done, rest, hholds, rfl, hrest⟩ := h
  have hpos := curBufferPos_of_holds hcount hholds hrest
  obtain ⟨done', rest', hholds', hdata, hrest'⟩ := updateLoop_holds data hholds rfl hrest
  refine ⟨?_, done', rest', ?_, hdata, hrest'⟩
  · rw [sha256Update, updateLoop_count, hcount, ← BitVec.ofNat_add, ← List.length_append]
  · rw [sha256Update, hpos]
    exact hholds'

theorem Contains.updates (h : p.Contains message) (chunks : List (List Byte)) :
    (chunks.foldl sha256Update p).Contains (message ++ chunks.flatten) := by
  induction chunks generalizing p message with
  | nil =>
      rw [List.flatten_nil, List.append_nil]
      exact h
  | cons data chunks ih =>
      rw [List.foldl_cons, List.flatten_cons, ← List.append_assoc]
      exact ih (h.update data)

/-- Shifting a byte to the top and reading it there is reading it where it is. -/
theorem lengthByte_eq (lenInBits : BitVec 64) {i : Nat} (hi : i < 8) :
    ((lenInBits <<< (8 * i)) >>> 56).setWidth 8 = (lenInBits >>> (56 - 8 * i)).setWidth 8 := by
  apply BitVec.eq_of_getLsbD_eq
  intro j hj
  have hindex : 56 + j - 8 * i = 56 - 8 * i + j := by omega
  have hplace : ¬ 56 + j < 8 * i := by omega
  have htop : 56 + j < 64 := by omega
  rw [BitVec.getLsbD_setWidth, BitVec.getLsbD_setWidth, BitVec.getLsbD_ushiftRight,
    BitVec.getLsbD_ushiftRight, BitVec.getLsbD_shiftLeft, hindex]
  simp [hplace, hj, htop]

theorem lengthLoop_bytes (lenInBits : BitVec 64) :
    ((List.range 8).map fun i => ((lenInBits <<< (8 * i)) >>> 56).setWidth 8) =
      lengthBytes lenInBits := by
  apply List.map_congr_left
  intro i hi
  exact lengthByte_eq lenInBits (List.mem_range.mp hi)

theorem lenInBits_eq (hcount : p.count = BitVec.ofNat 64 message.length) :
    p.count <<< 3 = BitVec.ofNat 64 (8 * message.length) := by
  apply BitVec.eq_of_toNat_eq
  rw [hcount, BitVec.toNat_shiftLeft, BitVec.toNat_ofNat, BitVec.toNat_ofNat, Nat.shiftLeft_eq]
  omega

/-- The bytes that the last call stores are the padding, and its writes consume all of it. -/
theorem Contains.final (h : p.Contains message) : p.sha256Final.2 = sha256 message := by
  obtain ⟨hcount, done, rest, hholds, rfl, hrest⟩ := h
  have hpos := curBufferPos_of_holds hcount hholds hrest
  have hmarked := hholds.store hrest 0x80
  obtain ⟨done', rest', hzeros, hlength, hdata⟩ :=
    zeroLoop_holds (rest.length + 1) hmarked (by simp) (by omega) (by omega)
  have hbits := lengthLoop_holds (p.count <<< 3) 8 hzeros hlength (by omega)
  rw [lengthLoop_bytes, lenInBits_eq hcount] at hbits
  have hlast := hbits.write (by simp [lengthBytes, hlength])
  obtain ⟨n, hn⟩ := hholds.aligned
  have hcounts : (120 - (rest.length + 1)) % 64 = zeroCount (done ++ rest).length := by
    rw [zeroCount, List.length_append, hn]
    omega
  have hpadded : done' ++ (rest' ++ lengthBytes (BitVec.ofNat 64 (8 * (done ++ rest).length))) =
      padded (done ++ rest) := by
    rw [← List.append_assoc, hdata, hcounts, padded]
    simp
  rw [sha256, ← hpadded, ← hlast.state_eq, sha256Final, hpos, lenInBits_eq hcount]

end Sha256T

/-- Any chunks of a message after an initialisation give the digest of the message, and the context
that the last call leaves is an initialised one. -/
theorem digest_of_chunks (p : Sha256T) (chunks : List (List Byte)) :
    (((chunks.foldl Sha256T.sha256Update p.sha256Init).sha256Final).2 = sha256 chunks.flatten) ∧
      ((chunks.foldl Sha256T.sha256Update p.sha256Init).sha256Final).1.state = initialState ∧
      ((chunks.foldl Sha256T.sha256Update p.sha256Init).sha256Final).1.count = 0 := by
  have htaken := p.sha256Init_contains.updates chunks
  rw [List.nil_append] at htaken
  exact ⟨htaken.final, rfl, rfl⟩

end DeviceSample.Sha
