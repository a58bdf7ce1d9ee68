import Mathlib.Data.List.Basic

/-!
The block function of SHA-256. The message schedule is a window of sixteen words that is updated in
place, and the eight working registers are renamed from round to round instead of moved.
-/

namespace DeviceSample.Sha

/-- `uint32_t`, with the wrap-around arithmetic of the source. -/
abbrev Word := BitVec 32

/-- The eight words of a chaining state, and the registers that a block works on. -/
structure Registers where
  a : Word
  b : Word
  c : Word
  d : Word
  e : Word
  f : Word
  g : Word
  h : Word
  deriving DecidableEq, Repr

/-- `ROTR32`. -/
def rotr32 (x : Word) (n : Nat) : Word := x >>> n ||| x <<< (32 - n)

def S0 (x : Word) : Word := rotr32 x 2 ^^^ rotr32 x 13 ^^^ rotr32 x 22

def S1 (x : Word) : Word := rotr32 x 6 ^^^ rotr32 x 11 ^^^ rotr32 x 25

def s0 (x : Word) : Word := rotr32 x 7 ^^^ rotr32 x 18 ^^^ x >>> 3

def s1 (x : Word) : Word := rotr32 x 17 ^^^ rotr32 x 19 ^^^ x >>> 10

def Ch (x y z : Word) : Word := z ^^^ (x &&& (y ^^^ z))

def Maj (x y z : Word) : Word := (x &&& y) ||| (z &&& (x ||| y))

/-- The round constants. -/
def K : List Word := [
  0x428a2f98#32, 0x71374491#32, 0xb5c0fbcf#32, 0xe9b5dba5#32, 0x3956c25b#32, 0x59f111f1#32,
  0x923f82a4#32, 0xab1c5ed5#32, 0xd807aa98#32, 0x12835b01#32, 0x243185be#32, 0x550c7dc3#32,
  0x72be5d74#32, 0x80deb1fe#32, 0x9bdc06a7#32, 0xc19bf174#32, 0xe49b69c1#32, 0xefbe4786#32,
  0x0fc19dc6#32, 0x240ca1cc#32, 0x2de92c6f#32, 0x4a7484aa#32, 0x5cb0a9dc#32, 0x76f988da#32,
  0x983e5152#32, 0xa831c66d#32, 0xb00327c8#32, 0xbf597fc7#32, 0xc6e00bf3#32, 0xd5a79147#32,
  0x06ca6351#32, 0x14292967#32, 0x27b70a85#32, 0x2e1b2138#32, 0x4d2c6dfc#32, 0x53380d13#32,
  0x650a7354#32, 0x766a0abb#32, 0x81c2c92e#32, 0x92722c85#32, 0xa2bfe8a1#32, 0xa81a664b#32,
  0xc24b8b70#32, 0xc76c51a3#32, 0xd192e819#32, 0xd6990624#32, 0xf40e3585#32, 0x106aa070#32,
  0x19a4c116#32, 0x1e376c08#32, 0x2748774c#32, 0x34b0bcb5#32, 0x391c0cb3#32, 0x4ed8aa4a#32,
  0x5b9cca4f#32, 0x682e6ff3#32, 0x748f82ee#32, 0x78a5636f#32, 0x84c87814#32, 0x8cc70208#32,
  0x90befffa#32, 0xa4506ceb#32, 0xbef9a3f7#32, 0xc67178f2#32]

/-- `W[i]` or `data[i]`. -/
def word (w : List Word) (i : Nat) : Word := w.getD i 0

/-- `blk0` in the first sixteen rounds and `blk2` later: the schedule with the word of this round
stored at `i`. -/
def blk (data : List Word) (j i : Nat) (w : List Word) : List Word :=
  if j = 0 then w.set i (word data i)
  else
    w.set (i % 16) (word w (i % 16) +
      (s1 (word w ((i + 14) % 16)) + word w ((i + 9) % 16) + s0 (word w ((i + 1) % 16))))

/-- The registers that a round assigns, its fourth and its eighth. The word `x` of the schedule and
the constant `k` are those of the round. -/
def R (a b c d e f g h k x : Word) : Word × Word :=
  let h := h + (S1 e + Ch e f g + k + x)
  let d := d + h
  let h := h + (S0 a + Maj a b c)
  (d, h)

/-- `RX_8`: eight rounds, each under the next renaming of the registers. -/
def rx8 (data : List Word) (j i : Nat) (s : Registers × List Word) : Registers × List Word :=
  let ⟨⟨a, b, c, d, e, f, g, h⟩, w⟩ := s
  let w := blk data j i w
  let (d, h) := R a b c d e f g h (word K (i + j)) (word w i)
  let w := blk data j (i + 1) w
  let (c, g) := R h a b c d e f g (word K (i + 1 + j)) (word w (i + 1))
  let w := blk data j (i + 2) w
  let (b, f) := R g h a b c d e f (word K (i + 2 + j)) (word w (i + 2))
  let w := blk data j (i + 3) w
  let (a, e) := R f g h a b c d e (word K (i + 3 + j)) (word w (i + 3))
  let w := blk data j (i + 4) w
  let (h, d) := R e f g h a b c d (word K (i + 4 + j)) (word w (i + 4))
  let w := blk data j (i + 5) w
  let (g, c) := R d e f g h a b c (word K (i + 5 + j)) (word w (i + 5))
  let w := blk data j (i + 6) w
  let (f, b) := R c d e f g h a b (word K (i + 6 + j)) (word w (i + 6))
  let w := blk data j (i + 7) w
  let (e, a) := R b c d e f g h a (word K (i + 7 + j)) (word w (i + 7))
  (⟨a, b, c, d, e, f, g, h⟩, w)

/-- `sha256_transform`. The schedule has no first value: the sixteen rounds with `j = 0` store all
of it before they read it. -/
def sha256Transform (state : Registers) (data : List Word) : Registers :=
  let rounds := [0, 16, 32, 48].foldl (fun s j => rx8 data j 8 (rx8 data j 0 s))
    (state, List.replicate 16 0)
  { a := state.a + rounds.1.a
    b := state.b + rounds.1.b
    c := state.c + rounds.1.c
    d := state.d + rounds.1.d
    e := state.e + rounds.1.e
    f := state.f + rounds.1.f
    g := state.g + rounds.1.g
    h := state.h + rounds.1.h }

end DeviceSample.Sha
