import Mathlib.Data.List.Basic

/-!
Data that is consumed in blocks of a fixed size through a window of one block. The data put in so
far is split in two: the part that has been consumed, a whole number of blocks, and the rest, which
stands at the start of the window.
-/

namespace DeviceSample.Base

variable {α σ : Type*} {n : Nat}

/-- The complete blocks of a list, first to last. -/
def blocks (n : Nat) (data : List α) : List (List α) :=
  (List.range (data.length / n)).map fun i => (data.drop (n * i)).take n

@[simp]
theorem blocks_nil : blocks n ([] : List α) = [] := by
  simp [blocks]

theorem blocks_of_length_eq {block : List α} (hn : 0 < n) (h : block.length = n) :
    blocks n block = [block] := by
  rw [blocks, h, Nat.div_self hn]
  simp [← h]

theorem blocks_append {done rest : List α} (hn : 0 < n) (hdone : n ∣ done.length) :
    blocks n (done ++ rest) = blocks n done ++ blocks n rest := by
  obtain ⟨count, hcount⟩ := hdone
  have hblocks : (done ++ rest).length / n = count + rest.length / n := by
    rw [List.length_append, hcount, Nat.mul_add_div hn]
  have hfirst : done.length / n = count := by
    rw [hcount, Nat.mul_div_cancel_left _ hn]
  rw [blocks, blocks, blocks, hblocks, hfirst, List.range_add, List.map_append, List.map_map]
  congr 1
  · apply List.map_congr_left
    intro i hi
    have hend : n * i + n ≤ done.length := by
      rw [hcount, ← Nat.mul_succ]
      exact Nat.mul_le_mul_left n (List.mem_range.mp hi)
    rw [List.drop_append_of_le_length (by omega), List.take_append_of_le_length]
    rw [List.length_drop]
    omega
  · apply List.map_congr_left
    intro i _
    have hstart : n * (count + i) = done.length + n * i := by
      rw [Nat.mul_add, hcount]
    rw [Function.comp_apply, hstart, List.drop_length_add_append]

/-- The state of a consumer of blocks and its window, after `done` was consumed and `rest` was put
in the window. -/
structure Absorbed (n : Nat) (consume : σ → List α → σ) (start state : σ) (window done rest : List α) :
    Prop where
  state_eq : state = (blocks n done).foldl consume start
  aligned : n ∣ done.length
  window_take : window.take rest.length = rest
  window_length : window.length = n

namespace Absorbed

variable {consume : σ → List α → σ} {start state : σ} {window done rest : List α}

theorem nil (hwindow : window.length = n) : Absorbed n consume start start window [] [] where
  state_eq := by simp
  aligned := ⟨0, rfl⟩
  window_take := rfl
  window_length := hwindow

/-- Storing the next element at the first free place of the window. -/
theorem store (h : Absorbed n consume start state window done rest) (hrest : rest.length < n)
    (x : α) : Absorbed n consume start state (window.set rest.length x) done (rest ++ [x]) where
  state_eq := h.state_eq
  aligned := h.aligned
  window_take := by
    have hplace : rest.length < window.length := by
      rw [h.window_length]
      exact hrest
    rw [List.length_append, List.length_singleton, List.take_add_one, List.take_set_of_le (Nat.le_refl _),
      h.window_take, List.getElem?_set_self hplace]
    rfl
  window_length := by
    rw [List.length_set, h.window_length]

/-- Consuming a full window. -/
theorem flush (h : Absorbed n consume start state window done rest) (hn : 0 < n)
    (hrest : rest.length = n) :
    Absorbed n consume start (consume state window) window (done ++ rest) [] where
  state_eq := by
    have hwindow : window = rest := by
      rw [← h.window_take, hrest, ← h.window_length, List.take_length]
    rw [blocks_append hn h.aligned, blocks_of_length_eq hn hrest, List.foldl_append, h.state_eq,
      hwindow]
    rfl
  aligned := by
    rw [List.length_append, hrest]
    exact Nat.dvd_add h.aligned (Nat.dvd_refl n)
  window_take := rfl
  window_length := h.window_length

end Absorbed

end DeviceSample.Base
