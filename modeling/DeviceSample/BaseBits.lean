import DeviceSample.BaseBlocks
import Mathlib.Data.List.Induction
import Mathlib.Data.Nat.Bitwise
import Mathlib.Tactic.Ring

/-!
Words and the bits they stand for, the highest first. Blocks of bits that are whole words are the bits of
blocks of words.
-/

namespace DeviceSample.Base

variable {α β : Type*} {w n k : Nat}

/-- The bits of a word. -/
def bits (x : BitVec w) : List Bool := (List.range w).map x.getMsbD

/-- The number that a list of bits is. -/
def value (bs : List Bool) : Nat := bs.foldl (fun n b => 2 * n + b.toNat) 0

/-- The word of a list of bits. -/
def ofBits (w : Nat) (bs : List Bool) : BitVec w := BitVec.ofNat w (value bs)

@[simp] theorem bits_length (x : BitVec w) : (bits x).length = w := by
  rw [bits, List.length_map, List.length_range]

theorem value_concat (bs : List Bool) (b : Bool) : value (bs ++ [b]) = 2 * value bs + b.toNat := List.foldl_concat ..

theorem value_append (bs bs' : List Bool) : value (bs ++ bs') = value bs * 2 ^ bs'.length + value bs' := by
  induction bs' using List.reverseRecOn with
  | nil => simp [value]
  | append_singleton bs' b ih =>
      rw [← List.append_assoc, value_concat, value_concat, ih, List.length_append, List.length_singleton, Nat.pow_succ]
      ring

/-- The first bits of a word are what is left of it after a shift. -/
theorem value_take_bits (x : BitVec w) (hk : k ≤ w) :
    value ((List.range k).map x.getMsbD) = x.toNat / 2 ^ (w - k) := by
  induction k with
  | zero => rw [Nat.sub_zero, Nat.div_eq_of_lt x.isLt]; rfl
  | succ k ih =>
      have hplace : w - k = w - (k + 1) + 1 := by omega
      have hbit : x.getMsbD k = decide (x.toNat / 2 ^ (w - (k + 1)) % 2 = 1) := by
        rw [BitVec.getMsbD_eq_getLsbD, decide_eq_true (by omega), Bool.true_and, BitVec.getLsbD,
          Nat.testBit_eq_decide_div_mod_eq, show w - 1 - k = w - (k + 1) by omega]
      rw [List.range_succ, List.map_append, List.map_singleton, value_concat, ih (by omega), hbit, hplace,
        Nat.pow_succ, ← Nat.div_div_eq_div_mul]
      generalize x.toNat / 2 ^ (w - (k + 1)) = q
      rcases Nat.mod_two_eq_zero_or_one q with hq | hq <;> simp [hq] <;> omega

theorem value_bits (x : BitVec w) : value (bits x) = x.toNat := by
  rw [bits, value_take_bits x le_rfl, Nat.sub_self, Nat.pow_zero, Nat.div_one]

@[simp] theorem ofBits_bits (x : BitVec w) : ofBits w (bits x) = x := by
  rw [ofBits, value_bits, BitVec.ofNat_toNat, BitVec.setWidth_eq]

section blocks

variable {f : α → List β} (hf : ∀ a, (f a).length = w)

include hf

theorem length_flatMap_of_length (l : List α) : (l.flatMap f).length = w * l.length := by
  induction l with
  | nil => rfl
  | cons a l ih => rw [List.flatMap_cons, List.length_append, hf, ih, List.length_cons, Nat.mul_succ, Nat.add_comm]

theorem drop_flatMap (l : List α) (k : Nat) : (l.flatMap f).drop (w * k) = (l.drop k).flatMap f := by
  induction k generalizing l with
  | zero => rfl
  | succ k ih =>
      cases l with
      | nil => simp
      | cons a l =>
          rw [List.flatMap_cons, Nat.mul_succ, Nat.add_comm, ← List.drop_drop, List.drop_left' (hf a), ih]
          rfl

theorem take_flatMap (l : List α) (k : Nat) : (l.flatMap f).take (w * k) = (l.take k).flatMap f := by
  induction k generalizing l with
  | zero => rfl
  | succ k ih =>
      cases l with
      | nil => simp
      | cons a l =>
          rw [List.flatMap_cons, Nat.mul_succ, Nat.add_comm, List.take_add, List.take_left' (hf a),
            List.drop_left' (hf a), ih]
          rfl

theorem blocks_flatMap (hw : 0 < w) (l : List α) :
    blocks (w * n) (l.flatMap f) = (blocks n l).map (List.flatMap f) := by
  rw [blocks, blocks, length_flatMap_of_length hf, Nat.mul_div_mul_left _ _ hw, List.map_map]
  refine List.map_congr_left fun i _ => ?_
  rw [Nat.mul_assoc, drop_flatMap hf, take_flatMap hf]
  rfl

end blocks

theorem blocks_one (l : List α) : blocks 1 l = l.map fun a => [a] := by
  rw [blocks, Nat.div_one]
  refine List.ext_getElem (by simp) fun i hi _ => ?_
  rw [List.length_map, List.length_range] at hi
  simp [List.take_one, List.head?_drop, hi]

/-- The words are read back from their bits. -/
theorem ofBits_blocks (hw : 0 < w) (l : List (BitVec w)) : (blocks w (l.flatMap bits)).map (ofBits w) = l := by
  have hblocks := blocks_flatMap (n := 1) (f := bits (w := w)) bits_length hw l
  rw [Nat.mul_one, blocks_one, List.map_map] at hblocks
  rw [hblocks, List.map_map]
  refine (List.map_congr_left fun x _ => ?_).trans (List.map_id l)
  change ofBits w ([x].flatMap bits) = x
  rw [List.flatMap_singleton, ofBits_bits]

theorem length_of_mem_blocks {block l : List α} (h : block ∈ blocks n l) : block.length = n := by
  obtain ⟨i, hi, rfl⟩ := List.mem_map.mp h
  have hcount := List.mem_range.mp hi
  have hend : n * i + n ≤ l.length := by
    rw [← Nat.mul_succ]
    exact (Nat.mul_le_mul_left n hcount).trans (Nat.mul_div_le _ _)
  rw [List.length_take, List.length_drop]
  omega

end DeviceSample.Base
