import DeviceSample.BaseWindow
import DeviceSample.ShaTransform
import Mathlib.Data.Nat.NthRoot.Defs
import Mathlib.Data.Nat.Prime.Basic

/-!
The compression function of SHA-256 as FIPS 180-4 states it, and that `sha256_transform` computes it.
The standard has a schedule of 64 words and moves its eight registers in every round.
-/

namespace DeviceSample.Sha

open Base

namespace Standard

def bigSigma0 (x : Word) : Word := x.rotateRight 2 ^^^ x.rotateRight 13 ^^^ x.rotateRight 22

def bigSigma1 (x : Word) : Word := x.rotateRight 6 ^^^ x.rotateRight 11 ^^^ x.rotateRight 25

def smallSigma0 (x : Word) : Word := x.rotateRight 7 ^^^ x.rotateRight 18 ^^^ x >>> 3

def smallSigma1 (x : Word) : Word := x.rotateRight 17 ^^^ x.rotateRight 19 ^^^ x >>> 10

def ch (x y z : Word) : Word := (x &&& y) ^^^ (~~~x &&& z)

def maj (x y z : Word) : Word := (x &&& y) ^^^ (x &&& z) ^^^ (y &&& z)

/-- The first sixty-four prime numbers. -/
def primes : List Nat := (List.range 312).filter fun n => Nat.Prime n

/-- The first thirty-two bits of the fractional parts of the cube roots of the primes. -/
def constants : List Word := primes.map fun p => BitVec.ofNat 32 (Nat.nthRoot 3 (p * 2 ^ 96))

/-- The word `t` of the schedule of the block `M`, from the words `W` before it. -/
def scheduleWord (M : List Word) (t : Nat) (W : List Word) : Word :=
  if t < 16 then word M t
  else
    smallSigma1 (word W (t - 2)) + word W (t - 7) + smallSigma0 (word W (t - 15)) + word W (t - 16)

/-- The message schedule. -/
def schedule (M : List Word) : List Word := build (scheduleWord M) 64

/-- One round: every register moves to the next, and the first and the fifth are computed. -/
def oneRound (s : Registers) (k w : Word) : Registers :=
  let t1 := s.h + bigSigma1 s.e + ch s.e s.f s.g + k + w
  let t2 := bigSigma0 s.a + maj s.a s.b s.c
  { a := t1 + t2
    b := s.a
    c := s.b
    d := s.c
    e := s.d + t1
    f := s.e
    g := s.f
    h := s.g }

/-- The registers after the first `t` rounds. -/
def rounds (state : Registers) (M : List Word) (t : Nat) : Registers :=
  (List.range t).foldl (fun s t => oneRound s (word constants t) (word (schedule M) t)) state

/-- The new chaining state. -/
def compress (state : Registers) (M : List Word) : Registers :=
  let s := rounds state M 64
  { a := s.a + state.a
    b := s.b + state.b
    c := s.c + state.c
    d := s.d + state.d
    e := s.e + state.e
    f := s.f + state.f
    g := s.g + state.g
    h := s.h + state.h }

/-- A number below `18 ^ 2` that is not prime has a proper divisor below 18. -/
theorem prime_iff {n : Nat} (hn : n < 312) : n.Prime ↔ 2 ≤ n ∧ ∀ m < 18, 2 ≤ m → m < n → ¬m ∣ n := by
  constructor
  · intro hprime
    refine ⟨hprime.two_le, fun m _ htwo hlt hdvd => ?_⟩
    rcases (Nat.dvd_prime hprime).mp hdvd with hone | hself <;> omega
  · rintro ⟨htwo, hdivisor⟩
    refine Nat.prime_def_le_sqrt.mpr ⟨htwo, fun m hm hsqrt => ?_⟩
    have hsq : m * m ≤ n := Nat.le_sqrt.mp hsqrt
    have hbound : m < 18 := Nat.mul_self_lt_mul_self_iff.mp (by omega)
    have hlt : m < n :=
      calc m < m * 2 := by omega
        _ ≤ m * m := Nat.mul_le_mul_left m hm
        _ ≤ n := hsq
    exact hdivisor m hbound hm hlt

theorem primes_eq : primes =
    [2, 3, 5, 7, 11, 13, 17, 19, 23, 29, 31, 37, 41, 43, 47, 53, 59, 61, 67, 71, 73, 79, 83, 89, 97, 101, 103,
    107, 109, 113, 127, 131, 137, 139, 149, 151, 157, 163, 167, 173, 179, 181, 191, 193, 197, 199, 211, 223,
    227, 229, 233, 239, 241, 251, 257, 263, 269, 271, 277, 281, 283, 293, 307, 311] := by
  have htest : primes =
      (List.range 312).filter fun n => 2 ≤ n ∧ ∀ m < 18, 2 ≤ m → m < n → ¬m ∣ n :=
    List.filter_congr fun n hn => decide_eq_decide.mpr (prime_iff (List.mem_range.mp hn))
  rw [htest]
  decide +kernel

theorem rounds_succ (state : Registers) (M : List Word) (t : Nat) :
    rounds state M (t + 1) =
      oneRound (rounds state M t) (word constants t) (word (schedule M) t) := by
  rw [rounds, foldl_range_succ, ← rounds]

end Standard

open Standard

section words

theorem word_of_getElem? {w : List Word} {i : Nat} {x : Word} (h : w[i]? = some x) : word w i = x := by
  rw [word, List.getD_eq_getElem?_getD, h]
  rfl

theorem rotr32_eq (x : Word) {n : Nat} (hn : n < 32) : rotr32 x n = x.rotateRight n := by
  rw [rotr32, BitVec.rotateRight_def, Nat.mod_eq_of_lt hn]

theorem S0_eq (x : Word) : S0 x = bigSigma0 x := by
  simp (disch := decide) only [S0, bigSigma0, rotr32_eq]

theorem S1_eq (x : Word) : S1 x = bigSigma1 x := by
  simp (disch := decide) only [S1, bigSigma1, rotr32_eq]

theorem s0_eq (x : Word) : s0 x = smallSigma0 x := by
  simp (disch := decide) only [s0, smallSigma0, rotr32_eq]

theorem s1_eq (x : Word) : s1 x = smallSigma1 x := by
  simp (disch := decide) only [s1, smallSigma1, rotr32_eq]

/-- Where a bit of `x` is set, both forms choose the bit of `y`, elsewhere that of `z`. -/
theorem Ch_eq (x y z : Word) : Ch x y z = ch x y z := by
  ext i hi
  simp only [Ch, ch, BitVec.getElem_xor, BitVec.getElem_and, BitVec.getElem_not]
  cases x[i] <;> cases y[i] <;> cases z[i] <;> rfl

theorem Maj_eq (x y z : Word) : Maj x y z = maj x y z := by
  ext i hi
  simp only [Maj, maj, BitVec.getElem_xor, BitVec.getElem_and, BitVec.getElem_or]
  cases x[i] <;> cases y[i] <;> cases z[i] <;> rfl

theorem K_eq : K = constants := by
  rw [constants, primes_eq]
  decide +kernel

end words

section schedule

variable {data : List Word} {t : Nat}

theorem word_build {u n : Nat} (hu : u < n) :
    word (build (scheduleWord data) n) u = scheduleWord data u (build (scheduleWord data) u) :=
  word_of_getElem? (getElem?_build _ hu)

/-- The words that a word of the schedule is computed from are words of the schedule. -/
theorem word_schedule_eq (ht : t < 64) :
    word (schedule data) t = scheduleWord data t (schedule data) := by
  have hearlier : ∀ u < t, word (build (scheduleWord data) t) u = word (schedule data) u := fun u hu => by
    rw [word_build hu, schedule, word_build (hu.trans ht)]
  rw [schedule, word_build ht, ← schedule]
  by_cases hfirst : t < 16
  · rw [scheduleWord, scheduleWord, if_pos hfirst, if_pos hfirst]
  · rw [scheduleWord, scheduleWord, if_neg hfirst, if_neg hfirst, hearlier (t - 2) (by omega),
      hearlier (t - 7) (by omega), hearlier (t - 15) (by omega), hearlier (t - 16) (by omega)]

/-- The window of the source before the word `t` is stored. -/
abbrev Rolling (data : List Word) (t : Nat) (w : List Word) : Prop :=
  Window 16 (word (schedule data)) t w

theorem Rolling.word_eq {w : List Word} (h : Rolling data t w) {u p : Nat} (hu : u < t)
    (hnear : t ≤ u + 16) (hplace : p % 16 = u % 16) : word w (p % 16) = word (schedule data) u :=
  word_of_getElem? (h.at_place hu hnear hplace)

/-- `blk0` and `blk2` store the word of the round. -/
theorem blk_eq {j i : Nat} {w : List Word} (h : Rolling data (j + i) w) (hj : 16 ∣ j) (hi : i < 16)
    (ht : j + i < 64) :
    blk data j i w = w.set ((j + i) % 16) (word (schedule data) (j + i)) := by
  have hplace : (j + i) % 16 = i := by omega
  rw [word_schedule_eq ht, scheduleWord, hplace, blk]
  by_cases hzero : j = 0
  · -- `blk0`
    rw [if_pos hzero, if_pos (by omega), hzero, Nat.zero_add]
  · have h16 : word w (i % 16) = word (schedule data) (j + i - 16) :=
      h.word_eq (by omega) (by omega) (by omega)
    have h15 : word w ((i + 1) % 16) = word (schedule data) (j + i - 15) :=
      h.word_eq (by omega) (by omega) (by omega)
    have h7 : word w ((i + 9) % 16) = word (schedule data) (j + i - 7) :=
      h.word_eq (by omega) (by omega) (by omega)
    have h2 : word w ((i + 14) % 16) = word (schedule data) (j + i - 2) :=
      h.word_eq (by omega) (by omega) (by omega)
    rw [if_neg hzero, if_neg (by omega), h16, h15, h7, h2, s1_eq, s0_eq, Nat.mod_eq_of_lt hi,
      BitVec.add_comm (word _ (j + i - 16))]

end schedule

section registers

variable {a b c d e f g h k x d' h' : Word}

/-- What `R` leaves in the registers it is given are the registers of the round, not yet moved. -/
theorem oneRound_of_R (hR : R a b c d e f g h k x = (d', h')) :
    oneRound ⟨a, b, c, d, e, f, g, h⟩ k x = ⟨h', a, b, c, d', e, f, g⟩ := by
  simp only [R, Prod.mk.injEq, S0_eq, S1_eq, Ch_eq, Maj_eq] at hR
  obtain ⟨rfl, rfl⟩ := hR
  simp only [oneRound, BitVec.add_assoc]

/-- One round of the source, with its registers moved. -/
def movedRound (data : List Word) (j i : Nat) (s : Registers × List Word) : Registers × List Word :=
  let w := blk data j i s.2
  (oneRound s.1 (word K (i + j)) (word w i), w)

theorem movedRound_of_R {data w w' : List Word} {j i : Nat} (hw : blk data j i w = w')
    (hR : R a b c d e f g h (word K (i + j)) (word w' i) = (d', h')) :
    movedRound data j i (⟨a, b, c, d, e, f, g, h⟩, w) = (⟨h', a, b, c, d', e, f, g⟩, w') := by
  simp only [movedRound, hw, oneRound_of_R hR]

/-- After eight rounds every register is back under its own name. -/
theorem rx8_eq (data : List Word) (j i : Nat) (s : Registers × List Word) :
    rx8 data j i s = (List.range 8).foldl (fun s r => movedRound data j (i + r) s) s := by
  obtain ⟨⟨a, b, c, d, e, f, g, h⟩, w⟩ := s
  -- the window and the two registers that each round assigns, under the names they have in the source
  generalize hw0 : blk data j i w = w0
  rcases hR0 : R a b c d e f g h (word K (i + j)) (word w0 i) with ⟨d0, h0⟩
  generalize hw1 : blk data j (i + 1) w0 = w1
  rcases hR1 : R h0 a b c d0 e f g (word K (i + 1 + j)) (word w1 (i + 1)) with ⟨c1, g1⟩
  generalize hw2 : blk data j (i + 2) w1 = w2
  rcases hR2 : R g1 h0 a b c1 d0 e f (word K (i + 2 + j)) (word w2 (i + 2)) with ⟨b2, f2⟩
  generalize hw3 : blk data j (i + 3) w2 = w3
  rcases hR3 : R f2 g1 h0 a b2 c1 d0 e (word K (i + 3 + j)) (word w3 (i + 3)) with ⟨a3, e3⟩
  generalize hw4 : blk data j (i + 4) w3 = w4
  rcases hR4 : R e3 f2 g1 h0 a3 b2 c1 d0 (word K (i + 4 + j)) (word w4 (i + 4)) with ⟨h4, d4⟩
  generalize hw5 : blk data j (i + 5) w4 = w5
  rcases hR5 : R d4 e3 f2 g1 h4 a3 b2 c1 (word K (i + 5 + j)) (word w5 (i + 5)) with ⟨g5, c5⟩
  generalize hw6 : blk data j (i + 6) w5 = w6
  rcases hR6 : R c5 d4 e3 f2 g5 h4 a3 b2 (word K (i + 6 + j)) (word w6 (i + 6)) with ⟨f6, b6⟩
  generalize hw7 : blk data j (i + 7) w6 = w7
  rcases hR7 : R b6 c5 d4 e3 f6 g5 h4 a3 (word K (i + 7 + j)) (word w7 (i + 7)) with ⟨e7, a7⟩
  have hsource : rx8 data j i (⟨a, b, c, d, e, f, g, h⟩, w) = (⟨a7, b6, c5, d4, e7, f6, g5, h4⟩, w7) := by
    simp only [rx8, hw0, hR0, hw1, hR1, hw2, hR2, hw3, hR3, hw4, hR4, hw5, hR5, hw6, hR6, hw7, hR7]
  have hmoved : (List.range 8).foldl (fun s r => movedRound data j (i + r) s)
      (⟨a, b, c, d, e, f, g, h⟩, w) = (⟨a7, b6, c5, d4, e7, f6, g5, h4⟩, w7) := by
    simp only [foldl_range_succ, List.range_zero, List.foldl_nil, Nat.add_zero, movedRound_of_R hw0 hR0,
      movedRound_of_R hw1 hR1, movedRound_of_R hw2 hR2, movedRound_of_R hw3 hR3, movedRound_of_R hw4 hR4,
      movedRound_of_R hw5 hR5, movedRound_of_R hw6 hR6, movedRound_of_R hw7 hR7]
  exact hsource.trans hmoved.symm

end registers

section run

variable {state : Registers} {data : List Word} {j i : Nat} {s : Registers × List Word}

/-- The source, its registers moved, and the standard before the round `t`. -/
structure Tied (state : Registers) (data : List Word) (t : Nat) (s : Registers × List Word) : Prop where
  registers_eq : s.1 = rounds state data t
  rolling : Rolling data t s.2

theorem Tied.start (state : Registers) (data : List Word) {w : List Word} (hw : w.length = 16) :
    Tied state data 0 (state, w) where
  registers_eq := rfl
  rolling := Window.nil hw

theorem Tied.movedRound (h : Tied state data (j + i) s) (hj : 16 ∣ j) (hi : i < 16) (ht : j + i < 64) :
    Tied state data (j + i + 1) (movedRound data j i s) := by
  have hnext : Rolling data (j + i + 1) (blk data j i s.2) := by
    rw [blk_eq h.rolling hj hi ht]
    exact h.rolling.store (by decide)
  have hword : word (blk data j i s.2) i = word (schedule data) (j + i) :=
    calc word (blk data j i s.2) i = word (blk data j i s.2) (i % 16) := by rw [Nat.mod_eq_of_lt hi]
      _ = word (schedule data) (j + i) := hnext.word_eq (Nat.lt_succ_self (j + i)) (by omega) (by omega)
  refine ⟨?_, hnext⟩
  rw [rounds_succ, ← h.registers_eq, ← K_eq, ← hword, Nat.add_comm j i]
  rfl

theorem Tied.rx8 (h : Tied state data (j + i) s) (hj : 16 ∣ j) (hi : i + 8 ≤ 16) (ht : j + 16 ≤ 64) :
    Tied state data (j + (i + 8)) (rx8 data j i s) := by
  rw [rx8_eq]
  refine foldl_range_invariant (fun r s => Tied state data (j + (i + r)) s) h fun r hr s hs => ?_
  exact hs.movedRound hj (by omega) (by omega)

/-- The loop of the source: two groups of eight rounds for each `j`, whatever the window held before. -/
theorem tied_rounds (state : Registers) (data : List Word) {w : List Word} (hw : w.length = 16) :
    Tied state data 64 ([0, 16, 32, 48].foldl (fun s j => rx8 data j 8 (rx8 data j 0 s)) (state, w)) := by
  have hlist : [0, 16, 32, 48] = (List.range 4).map (16 * ·) := rfl
  have hgroups : ∀ q < 4, ∀ s, Tied state data (16 * q) s →
      Tied state data (16 * (q + 1)) (rx8 data (16 * q) 8 (rx8 data (16 * q) 0 s)) := by
    intro q hq s hs
    have hdvd : 16 ∣ 16 * q := Nat.dvd_mul_right 16 q
    have hlast : 16 * q + 16 ≤ 64 := by omega
    have hfirst : Tied state data (16 * q + 8) (rx8 data (16 * q) 0 s) :=
      Tied.rx8 hs hdvd (by decide) hlast
    exact hfirst.rx8 hdvd (by decide) hlast
  rw [hlist, List.foldl_map]
  exact foldl_range_invariant (fun q s => Tied state data (16 * q) s) (Tied.start state data hw) hgroups

/-- The block function of the source is the compression function of the standard. -/
theorem sha256Transform_eq_compress (state : Registers) (data : List Word) :
    sha256Transform state data = compress state data := by
  have hregisters := (tied_rounds state data (List.length_replicate (a := 0))).registers_eq
  simp only [sha256Transform, compress, hregisters, BitVec.add_comm]

/-- The one block of the message `abc`. -/
example : sha256Transform
    ⟨0x6a09e667#32, 0xbb67ae85#32, 0x3c6ef372#32, 0xa54ff53a#32, 0x510e527f#32, 0x9b05688c#32,
      0x1f83d9ab#32, 0x5be0cd19#32⟩
    [0x61626380#32, 0, 0, 0, 0, 0, 0, 0, 0, 0, 0, 0, 0, 0, 0, 0x18#32] =
    ⟨0xba7816bf#32, 0x8f01cfea#32, 0x414140de#32, 0x5dae2223#32, 0xb00361a3#32, 0x96177a9c#32,
      0xb410ff61#32, 0xf20015ad#32⟩ := by
  decide +kernel

end run

end DeviceSample.Sha
