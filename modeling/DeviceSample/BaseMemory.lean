import Mathlib.Algebra.Ring.Int.Defs
import Mathlib.Algebra.Ring.Nat
import Mathlib.Data.List.Basic

/-!
C strings in memory. Places are integers, counted from the start of an object, so that a store in
front of the object or past its end can be written down. A function of the C library is the list of
its stores and its result.
-/

namespace DeviceSample.Base

/-- `char`. -/
abbrev Byte := BitVec 8

/-- The code of an ASCII character. -/
def ascii (c : Char) : Byte := BitVec.ofNat 8 c.toNat

/-- The characters of an ASCII literal. -/
def text (s : String) : List Byte := s.toList.map ascii

/-- The decimal digits that `%u` and `%lu` print. -/
def decimal (n : Nat) : List Byte := (Nat.toDigits 10 n).map ascii

theorem decimal_length_le {n k : Nat} (hk : 0 < k) (hn : n < 10 ^ k) : (decimal n).length ≤ k := by
  rw [decimal, List.length_map]
  exact (Nat.length_toDigits_le_iff (by decide) hk).mpr hn

theorem decimal_no_nul (n : Nat) : 0 ∉ decimal n := by
  intro hmem
  obtain ⟨c, hc, hnul⟩ := List.mem_map.mp hmem
  have hdigit : c.isDigit = true := Nat.isDigit_of_mem_toDigits (by decide) (by decide) hc
  have hrange : 48 ≤ c.toNat ∧ c.toNat ≤ 57 := by
    simp only [Char.isDigit, Bool.and_eq_true, decide_eq_true_eq, UInt32.le_iff_toNat_le] at hdigit
    exact hdigit
  have hvalue := congrArg BitVec.toNat hnul
  rw [ascii, BitVec.toNat_ofNat, Nat.mod_eq_of_lt (by omega)] at hvalue
  have hzero : (0 : Byte).toNat = 0 := rfl
  omega

/-- The characters of a C string. -/
structure CString where
  bytes : List Byte
  no_nul : 0 ∉ bytes

/-- The length of a C string. -/
def CString.length (s : CString) : Nat := s.bytes.length

/-- What every place holds. -/
abbrev Memory := Int → Byte

/-- One byte stored at one place. -/
structure Store where
  place : Int
  byte : Byte
  deriving DecidableEq, Repr

/-- Consecutive stores from a place on. -/
def storesAt (place : Int) : List Byte → List Store
  | [] => []
  | x :: xs => ⟨place, x⟩ :: storesAt (place + 1) xs

theorem storesAt_append (place : Int) (xs ys : List Byte) :
    storesAt place (xs ++ ys) = storesAt place xs ++ storesAt (place + xs.length) ys := by
  induction xs generalizing place with
  | nil =>
      have hplace : place + (([] : List Byte).length : Int) = place := by simp
      rw [hplace]
      rfl
  | cons x xs ih =>
      have hplace : place + ((x :: xs).length : Int) = place + 1 + xs.length := by
        rw [List.length_cons]
        omega
      rw [List.cons_append, storesAt, storesAt, ih, hplace, List.cons_append]

theorem storesAt_length (place : Int) (xs : List Byte) : (storesAt place xs).length = xs.length := by
  induction xs generalizing place with
  | nil => rfl
  | cons x xs ih => rw [storesAt, List.length_cons, ih, List.length_cons]

/-- All stores of a run are at places of an array. -/
def InBounds (size : Nat) (stores : List Store) : Prop :=
  ∀ s ∈ stores, 0 ≤ s.place ∧ s.place < size

instance (size : Nat) (stores : List Store) : Decidable (InBounds size stores) := by
  unfold InBounds
  infer_instance

theorem inBounds_append {size : Nat} {first second : List Store} :
    InBounds size (first ++ second) ↔ InBounds size first ∧ InBounds size second := by
  unfold InBounds
  constructor
  · intro h
    exact ⟨fun s hs => h s (List.mem_append_left _ hs), fun s hs => h s (List.mem_append_right _ hs)⟩
  · rintro ⟨hfirst, hsecond⟩ s hs
    rcases List.mem_append.mp hs with hs | hs
    · exact hfirst s hs
    · exact hsecond s hs

/-- A block of stores is in bounds exactly if it is empty or its two ends are. -/
theorem inBounds_storesAt {size : Nat} {place : Int} {xs : List Byte} :
    InBounds size (storesAt place xs) ↔ xs = [] ∨ 0 ≤ place ∧ place + xs.length ≤ size := by
  induction xs generalizing place with
  | nil => simp [InBounds, storesAt]
  | cons x xs ih =>
      have hcons : InBounds size (storesAt place (x :: xs)) ↔
          (0 ≤ place ∧ place < size) ∧ InBounds size (storesAt (place + 1) xs) := by
        simp [InBounds, storesAt]
      rw [hcons, ih]
      cases xs with
      | nil =>
          simp only [List.length_cons, List.length_nil, true_or, and_true, reduceCtorEq, false_or]
          omega
      | cons y ys =>
          simp only [List.length_cons, reduceCtorEq, false_or]
          omega

namespace Memory

/-- The memory after one store. -/
def store (m : Memory) (s : Store) : Memory := fun place => if place = s.place then s.byte else m place

/-- The memory after a list of stores. -/
def run (m : Memory) (stores : List Store) : Memory := stores.foldl store m

theorem run_append (m : Memory) (first second : List Store) :
    m.run (first ++ second) = (m.run first).run second := by
  rw [run, run, run, List.foldl_append]

/-- A place outside a block keeps its byte. -/
theorem run_storesAt_outside (m : Memory) (place at' : Int) (xs : List Byte)
    (houtside : at' < place ∨ place + xs.length ≤ at') : m.run (storesAt place xs) at' = m at' := by
  induction xs generalizing m place with
  | nil => rfl
  | cons x xs ih =>
      rw [List.length_cons] at houtside
      have hne : at' ≠ place := by omega
      have hlater := ih (m.store ⟨place, x⟩) (place + 1) (by omega)
      rw [storesAt, run, List.foldl_cons]
      rw [run] at hlater
      rw [hlater, store, if_neg hne]

theorem run_storesAt_cons (m : Memory) (place : Int) (x : Byte) (xs : List Byte) :
    m.run (storesAt place (x :: xs)) place = x := by
  have hkept := run_storesAt_outside (m.store ⟨place, x⟩) (place + 1) place xs (Or.inl (by omega))
  rw [run] at hkept
  rw [storesAt, run, List.foldl_cons, hkept, store, if_pos rfl]

theorem run_storesAt_concat (m : Memory) (place : Int) (xs : List Byte) (x : Byte) :
    m.run (storesAt place (xs ++ [x])) = (m.run (storesAt place xs)).store ⟨place + xs.length, x⟩ := by
  rw [storesAt_append, run_append]
  rfl

/-- The string `s` stands at a place, with its terminator. -/
def IsString (m : Memory) (place : Int) : List Byte → Prop
  | [] => m place = 0
  | x :: s => x ≠ 0 ∧ m place = x ∧ IsString m (place + 1) s

variable {m m' : Memory} {place : Int} {s t : List Byte}

theorem IsString.no_nul (h : m.IsString place s) : 0 ∉ s := by
  induction s generalizing place with
  | nil => exact List.not_mem_nil
  | cons x s ih =>
      obtain ⟨hx, _, hrest⟩ := h
      rw [List.mem_cons, not_or]
      exact ⟨hx.symm, ih hrest⟩

/-- A place starts at most one string. -/
theorem IsString.unique (hs : m.IsString place s) (ht : m.IsString place t) : s = t := by
  induction s generalizing place t with
  | nil =>
      cases t with
      | nil => rfl
      | cons y t => exact absurd (ht.2.1.symm.trans hs) ht.1
  | cons x s ih =>
      cases t with
      | nil => exact absurd (hs.2.1.symm.trans ht) hs.1
      | cons y t =>
          have hhead : x = y := hs.2.1.symm.trans ht.2.1
          have htail : s = t := ih hs.2.2 ht.2.2
          rw [hhead, htail]

/-- A string depends on its own places only. -/
theorem IsString.congr (h : m.IsString place s)
    (hsame : ∀ at', place ≤ at' → at' ≤ place + s.length → m' at' = m at') :
    m'.IsString place s := by
  induction s generalizing place with
  | nil =>
      rw [IsString, hsame place (by omega) (by simp)]
      exact h
  | cons x s ih =>
      obtain ⟨hx, hplace, hrest⟩ := h
      rw [List.length_cons] at hsame
      refine ⟨hx, ?_, ih hrest fun at' hfirst hlast => hsame at' (by omega) (by omega)⟩
      rw [hsame place (by omega) (by omega), hplace]

theorem IsString.frame {at' : Int} {xs : List Byte} (h : m.IsString place s)
    (houtside : place + s.length < at' ∨ at' + xs.length ≤ place) :
    (m.run (storesAt at' xs)).IsString place s :=
  h.congr fun _ _ _ => run_storesAt_outside m _ _ _ (by omega)

theorem IsString.ofStores (m : Memory) (place : Int) (hs : 0 ∉ s) :
    (m.run (storesAt place (s ++ [0]))).IsString place s := by
  induction s generalizing m place with
  | nil => exact run_storesAt_cons m place 0 []
  | cons x s ih =>
      rw [List.mem_cons, not_or] at hs
      rw [List.cons_append]
      refine ⟨fun hx => hs.1 hx.symm, run_storesAt_cons m place x (s ++ [0]), ?_⟩
      exact ih (m.store ⟨place, x⟩) (place + 1) hs.2

/-- Stores from the terminator on continue the string. -/
theorem IsString.append (h : m.IsString place s) (ht : 0 ∉ t) :
    (m.run (storesAt (place + s.length) (t ++ [0]))).IsString place (s ++ t) := by
  induction s generalizing place with
  | nil =>
      have hplace : place + (([] : List Byte).length : Int) = place := by simp
      rw [hplace]
      exact IsString.ofStores m place ht
  | cons x s ih =>
      obtain ⟨hx, hplace, hrest⟩ := h
      have hnext : place + ((x :: s).length : Int) = place + 1 + s.length := by
        rw [List.length_cons]
        omega
      rw [hnext]
      refine ⟨hx, ?_, ih hrest⟩
      rw [run_storesAt_outside m _ _ _ (Or.inl (by omega)), hplace]

end Memory

/-- The characters from a place up to a terminator, and at most `n` of them. -/
def Memory.readString (m : Memory) (place : Int) : Nat → List Byte
  | 0 => []
  | n + 1 => if m place = 0 then [] else m place :: readString m (place + 1) n

theorem Memory.IsString.readString {m : Memory} {place : Int} {s : List Byte}
    (h : m.IsString place s) (n : Nat) : m.readString place n = s.take n := by
  induction n generalizing place s with
  | zero => rfl
  | succ n ih =>
      cases s with
      | nil =>
          have hnul : m place = 0 := h
          rw [Memory.readString, if_pos hnul, List.take_nil]
      | cons x s =>
          obtain ⟨hx, hplace, hrest⟩ := h
          rw [Memory.readString, hplace, if_neg hx, ih hrest, List.take_succ_cons]

/-- The rest of a string is a string. -/
theorem Memory.IsString.drop {m : Memory} {place : Int} {s : List Byte} (h : m.IsString place s)
    {k : Nat} (hk : k ≤ s.length) : m.IsString (place + k) (s.drop k) := by
  induction k generalizing place s with
  | zero =>
      have hplace : place + ((0 : Nat) : Int) = place := by omega
      rw [hplace]
      exact h
  | succ k ih =>
      cases s with
      | nil => exact absurd hk (by simp)
      | cons x s =>
          have hplace : place + ((k + 1 : Nat) : Int) = place + 1 + k := by omega
          rw [hplace, List.drop_succ_cons]
          exact ih h.2.2 (by rw [List.length_cons] at hk; omega)

/-- `strstr`: the rest of the text from the first occurrence on. -/
def strstr (s pattern : List Byte) : Option (List Byte) :=
  if pattern.isPrefixOf s then some s
  else
    match s with
    | [] => none
    | _ :: rest => strstr rest pattern

def isSpace (c : Byte) : Bool := c = 0x20 || (9 ≤ c.toNat && c.toNat ≤ 13)

/-- The value of the decimal digits at the start of a text. -/
def digitsValue (s : List Byte) : Nat :=
  (s.takeWhile fun c => 48 ≤ c.toNat && c.toNat ≤ 57).foldl (fun n c => 10 * n + (c.toNat - 48)) 0

/-- `atoi`. -/
def atoi (s : List Byte) : Int :=
  match s.dropWhile isSpace with
  | [] => 0
  | c :: rest =>
      if c = ascii '-' then -(digitsValue rest : Int)
      else if c = ascii '+' then digitsValue rest
      else digitsValue (c :: rest)

/-- A difference of pointers as a 32-bit `size_t`. -/
def sizeT (n : Int) : Nat := (n % 2 ^ 32).toNat

theorem sizeT_eq {n : Int} (hfirst : 0 ≤ n) (hlast : n < 2 ^ 32) : sizeT n = n.toNat := by
  rw [sizeT, Int.emod_eq_of_lt hfirst hlast]

/-- What a print function returns: the length of its text, or an error if that is no `int`. -/
def printedLength (t : List Byte) : Int := if t.length < 2 ^ 31 then t.length else -1

/-- `snprintf` of a formatted text. -/
def snprintf (place : Int) (size : Nat) (t : List Byte) : List Store × Int :=
  (if size = 0 then [] else storesAt place (t.take (size - 1) ++ [0]), printedLength t)

theorem snprintf_inBounds {place : Int} {size bound : Nat} (t : List Byte) (hfirst : 0 ≤ place)
    (hlast : place + size ≤ bound) : InBounds bound (snprintf place size t).1 := by
  unfold snprintf
  by_cases hsize : size = 0
  · rw [if_pos hsize]
    exact inBounds_storesAt.mpr (Or.inl rfl : ([] : List Byte) = [] ∨ 0 ≤ place ∧ _)
  · rw [if_neg hsize, inBounds_storesAt]
    refine Or.inr ⟨hfirst, ?_⟩
    rw [List.length_append, List.length_singleton, List.length_take]
    omega

/-- A text that fits is stored whole. -/
theorem snprintf_of_fits {place : Int} {size : Nat} {t : List Byte} (hfits : t.length < size) :
    (snprintf place size t).1 = storesAt place (t ++ [0]) := by
  have hsize : size ≠ 0 := by omega
  rw [snprintf, if_neg hsize, List.take_of_length_le (by omega)]

/-- `strncpy`: at most `n` characters, then zeros up to `n`. -/
def strncpy (place : Int) (s : List Byte) (n : Nat) : List Store :=
  storesAt place (s.take n ++ List.replicate (n - s.length) 0)

theorem strncpy_eq (place : Int) {s : List Byte} {n : Nat} (hs : s.length < n) :
    strncpy place s n = storesAt place (s ++ [0]) ++
      storesAt (place + (s ++ [(0 : Byte)]).length) (List.replicate (n - s.length - 1) 0) := by
  have hzeros : List.replicate (n - s.length) (0 : Byte) =
      [0] ++ List.replicate (n - s.length - 1) 0 := by
    rw [List.singleton_append, ← List.replicate_succ, Nat.sub_add_cancel (by omega)]
  rw [strncpy, List.take_of_length_le (by omega), hzeros, ← List.append_assoc, storesAt_append]

/-- A string that fits is copied with a terminator. -/
theorem strncpy_isString (m : Memory) (place : Int) {s : List Byte} {n : Nat} (hs : s.length < n)
    (hnul : 0 ∉ s) : (m.run (strncpy place s n)).IsString place s := by
  rw [strncpy_eq place hs, Memory.run_append]
  apply (Memory.IsString.ofStores m place hnul).frame
  rw [List.length_append, List.length_singleton]
  omega

theorem strncpy_outside (m : Memory) (place at' : Int) (s : List Byte) (n : Nat)
    (houtside : at' < place ∨ place + n ≤ at') : m.run (strncpy place s n) at' = m at' := by
  apply Memory.run_storesAt_outside
  rw [List.length_append, List.length_take, List.length_replicate]
  omega

end DeviceSample.Base
