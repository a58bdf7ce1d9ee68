import DeviceSample.BaseMemory

/-!
Arrays of bytes in memory. An array is a place and a size; what it holds changes only by stores at its
own places, so arrays that lie apart are independent of each other.
-/

namespace DeviceSample.Base

/-- A number of consecutive places. -/
structure Extent where
  place : Int
  size : Nat
  deriving DecidableEq, Repr

/-- The two have no place in common. -/
def Extent.Apart (e f : Extent) : Prop := e.place + e.size ≤ f.place ∨ f.place + f.size ≤ e.place

instance (e f : Extent) : Decidable (e.Apart f) := by
  unfold Extent.Apart
  infer_instance

/-- The place is one of the extent. -/
def Extent.Has (e : Extent) (place : Int) : Prop := e.place ≤ place ∧ place < e.place + e.size

namespace Memory

/-- The bytes from a place on. -/
def bytes (m : Memory) (place : Int) : Nat → List Byte
  | 0 => []
  | n + 1 => m place :: bytes m (place + 1) n

/-- The bytes of an extent. -/
def contents (m : Memory) (e : Extent) : List Byte := m.bytes e.place e.size

variable {m m' : Memory} {place : Int} {n : Nat} {xs : List Byte} {e f : Extent}

@[simp] theorem bytes_length (m : Memory) (place : Int) (n : Nat) : (m.bytes place n).length = n := by
  induction n generalizing place with
  | zero => rfl
  | succ n ih => rw [bytes, List.length_cons, ih]

@[simp] theorem contents_length (m : Memory) (e : Extent) : (m.contents e).length = e.size :=
  bytes_length m e.place e.size

theorem bytes_congr (h : ∀ at', place ≤ at' → at' < place + n → m' at' = m at') :
    m'.bytes place n = m.bytes place n := by
  induction n generalizing place with
  | zero => rfl
  | succ n ih =>
      rw [bytes, bytes, h place (by omega) (by omega),
        ih fun at' hfirst hlast => h at' (by omega) (by omega)]

theorem IsString.bytes {s : List Byte} (h : m.IsString place s) : m.bytes place s.length = s := by
  induction s generalizing place with
  | nil => rfl
  | cons c s ih =>
      obtain ⟨-, hplace, hrest⟩ := h
      rw [List.length_cons, Memory.bytes, hplace, ih hrest]

theorem bytes_run_storesAt_take (m : Memory) (place : Int) (hn : n ≤ xs.length) :
    (m.run (storesAt place xs)).bytes place n = xs.take n := by
  induction n generalizing m place xs with
  | zero => rfl
  | succ n ih =>
      cases xs with
      | nil => exact absurd hn (Nat.not_succ_le_zero n)
      | cons x xs =>
          rw [bytes, run_storesAt_cons, List.take_succ_cons]
          exact congrArg (x :: ·) (ih (m.store ⟨place, x⟩) (place + 1) (Nat.le_of_succ_le_succ hn))

theorem bytes_run_storesAt (m : Memory) (place : Int) (xs : List Byte) :
    (m.run (storesAt place xs)).bytes place xs.length = xs := by
  rw [bytes_run_storesAt_take m place (Nat.le_refl _), List.take_length]

/-- What was stored in an extent is what it contains. -/
theorem contents_stored (m : Memory) (hxs : xs.length = e.size) :
    (m.run (storesAt e.place xs)).contents e = xs := by
  rw [contents, ← hxs, bytes_run_storesAt]

theorem contents_apart (m : Memory) (h : e.Apart f) (hxs : xs.length ≤ f.size) :
    (m.run (storesAt f.place xs)).contents e = m.contents e := by
  apply bytes_congr
  intro at' hfirst hlast
  apply run_storesAt_outside
  rw [Extent.Apart] at h
  omega

/-- Stores in an extent change nothing outside. -/
theorem run_storesAt_not_has (m : Memory) (hxs : xs.length ≤ e.size) (h : ¬e.Has place) :
    m.run (storesAt e.place xs) place = m place := by
  apply run_storesAt_outside
  rw [Extent.Has] at h
  omega

section scans

/-- The places that `readString` looks at: up to the terminator, and with it. -/
def readPlaces (m : Memory) (place : Int) : Nat → List Int
  | 0 => []
  | n + 1 => place :: if m place = 0 then [] else readPlaces m (place + 1) n

theorem le_of_mem_readPlaces {at' : Int} (h : at' ∈ m.readPlaces place n) : place ≤ at' := by
  induction n generalizing place with
  | zero => exact absurd h List.not_mem_nil
  | succ n ih =>
      rcases List.mem_cons.mp h with rfl | h
      · exact Int.le_refl _
      · split at h
        · exact absurd h List.not_mem_nil
        · have hlater := ih h
          omega

/-- A scan stays in an array exactly if it has no more characters to go than the array, or meets a
terminator there. -/
theorem readPlaces_within_iff {k : Nat} :
    (∀ at' ∈ m.readPlaces place n, at' < place + k) ↔ n ≤ k ∨ 0 ∈ m.bytes place k := by
  induction n generalizing place k with
  | zero => exact iff_of_true (fun _ h => absurd h List.not_mem_nil) (Or.inl (Nat.zero_le k))
  | succ n ih =>
      cases k with
      | zero =>
          refine iff_of_false (fun h => ?_) ?_
          · have hfirst := h place List.mem_cons_self
            omega
          · rintro (hnone | hmem)
            · exact absurd hnone (Nat.not_succ_le_zero n)
            · exact absurd hmem List.not_mem_nil
      | succ k =>
          rw [readPlaces, bytes, List.forall_mem_cons, List.mem_cons]
          by_cases hnul : m place = 0
          · rw [if_pos hnul]
            exact iff_of_true ⟨by omega, fun _ h => absurd h List.not_mem_nil⟩ (Or.inr (Or.inl hnul.symm))
          · have hnext : place + ((k + 1 : Nat) : Int) = place + 1 + k := by omega
            rw [if_neg hnul, hnext, ih, Nat.succ_le_succ_iff, or_iff_right (Ne.symm hnul)]
            exact and_iff_right (by omega)

/-- A scan that stays in an array gives the beginning of what the array contains. -/
theorem readString_prefix {k : Nat} (h : n ≤ k ∨ 0 ∈ m.bytes place k) :
    m.readString place n <+: m.bytes place k := by
  induction n generalizing place k with
  | zero => exact List.nil_prefix
  | succ n ih =>
      rw [readString]
      by_cases hnul : m place = 0
      · rw [if_pos hnul]
        exact List.nil_prefix
      · cases k with
        | zero =>
            rcases h with hnone | hmem
            · exact absurd hnone (Nat.not_succ_le_zero n)
            · exact absurd hmem List.not_mem_nil
        | succ k =>
            rw [bytes, List.mem_cons, or_iff_right (Ne.symm hnul), Nat.succ_le_succ_iff] at h
            rw [if_neg hnul, bytes]
            exact (List.prefix_cons_inj _).mpr (ih h)

theorem readString_of_no_nul (h : 0 ∉ m.bytes place n) : m.readString place n = m.bytes place n := by
  induction n generalizing place with
  | zero => rfl
  | succ n ih =>
      rw [bytes, List.mem_cons, not_or] at h
      rw [readString, bytes, if_neg (Ne.symm h.1), ih h.2]

theorem readString_no_nul (m : Memory) (place : Int) (n : Nat) : 0 ∉ m.readString place n := by
  induction n generalizing place with
  | zero => exact List.not_mem_nil
  | succ n ih =>
      rw [readString]
      split
      · exact List.not_mem_nil
      · rename_i hne
        rw [List.mem_cons, not_or]
        exact ⟨Ne.symm hne, ih (place + 1)⟩

end scans

end Memory

end DeviceSample.Base
