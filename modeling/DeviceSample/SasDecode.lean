import DeviceSample.BaseBytes
import DeviceSample.SasBase64
import Mathlib.Data.List.DropRight

/-!
The codec of the keys in memory: the places that are read and the bytes that are stored. The decoder
goes forward in groups, and the length of its result is computed apart from it, by a loop that goes back
over the padding and stops at the first other character, wherever that is. On an encoded text, with or
without its padding, the two give the bytes that were encoded.
-/

namespace DeviceSample.Sas

open Base

/-- `base64_encode` of the bytes `src`, with its output from `out` on. -/
def base64EncodeAt (src : List Byte) (out : Int) : List Store := storesAt out (base64Encode src ++ [0])

/-- The reads of a call in memory, and its stores. -/
structure Decoding where
  reads : List Int
  stores : List Store

/-- `base64_decode` behind its loop, when at most four characters are left. -/
def decodeTail (m : Memory) (len : Nat) (p o : Int) : Decoding where
  reads := (if 1 < len then [p, p + 1] else []) ++ (if 2 < len then [p + 1, p + 2] else []) ++
    (if 3 < len then [p + 2, p + 3] else [])
  stores := storesAt o
    ((if 1 < len then [decodeTable (m p) <<< 2 ||| decodeTable (m (p + 1)) >>> 4] else []) ++
      (if 2 < len then [decodeTable (m (p + 1)) <<< 4 ||| decodeTable (m (p + 2)) >>> 2] else []) ++
      (if 3 < len then [decodeTable (m (p + 2)) <<< 6 ||| decodeTable (m (p + 3))] else []) ++ [0])

/-- `base64_decode` of `len` characters from `p` on, with its output from `o` on. -/
def base64DecodeAt (m : Memory) : Nat → Int → Int → Decoding
  | n + 5, p, o =>
      let rest := base64DecodeAt m (n + 1) (p + 4) (o + 3)
      { reads := [p, p + 1, p + 1, p + 2, p + 2, p + 3] ++ rest.reads
        stores := storesAt o (decodeGroup (m p) (m (p + 1)) (m (p + 2)) (m (p + 3))) ++ rest.stores }
  | len, p, o => decodeTail m len p o

/-- The loop of `base64_decode_length` from `p` on, for as many rounds as are given: the places that it
has read, and `outlen` if it has stopped. -/
def padLoop (m : Memory) : Nat → Int → Int → List Int × Option Int
  | 0, _, _ => ([], none)
  | rounds + 1, p, outlen =>
      if m p = ascii '=' then
        (p :: (padLoop m rounds (p - 1) (outlen - 1)).1, (padLoop m rounds (p - 1) (outlen - 1)).2)
      else ([p], some outlen)

/-- `base64_decode_length`. -/
def base64DecodeLengthAt (m : Memory) (rounds : Nat) (str : Int) (len : Nat) : List Int × Option Int :=
  padLoop m rounds (str + len - 1) (len * 6 / 8 : Nat)

section decoding

variable (m : Memory)

theorem bytes_group (p : Int) (n : Nat) : m.bytes p (n + 5) =
    m p :: m (p + 1) :: m (p + 2) :: m (p + 3) :: m.bytes (p + 4) (n + 1) := by
  have h2 : p + 1 + 1 = p + 2 := by omega
  have h3 : p + 2 + 1 = p + 3 := by omega
  have h4 : p + 3 + 1 = p + 4 := by omega
  rw [Memory.bytes, Memory.bytes, h2, Memory.bytes, h3, Memory.bytes, h4]

theorem decodeTail_stores (o : Int) {len : Nat} (hlen : len ≤ 4) (p : Int) :
    (decodeTail m len p o).stores = storesAt o (base64Decode (m.bytes p len)) := by
  have h2 : p + 1 + 1 = p + 2 := by omega
  have h3 : p + 2 + 1 = p + 3 := by omega
  have hcases : len = 0 ∨ len = 1 ∨ len = 2 ∨ len = 3 ∨ len = 4 := by omega
  rcases hcases with rfl | rfl | rfl | rfl | rfl
  · rfl
  · rfl
  · rfl
  · rw [Memory.bytes, Memory.bytes, h2]
    rfl
  · rw [Memory.bytes, Memory.bytes, h2, Memory.bytes, h3]
    rfl

/-- The decoder stores the bytes of its string, one behind the other. -/
theorem base64DecodeAt_stores (len : Nat) (p o : Int) :
    (base64DecodeAt m len p o).stores = storesAt o (base64Decode (m.bytes p len)) := by
  fun_induction base64DecodeAt m len p o with
  | case1 n p o rest ih =>
      have hlength : (decodeGroup (m p) (m (p + 1)) (m (p + 2)) (m (p + 3))).length = 3 := rfl
      have hne : m.bytes (p + 4) (n + 1) ≠ [] := List.cons_ne_nil _ _
      rw [bytes_group, base64Decode_group _ _ _ _ hne, storesAt_append, hlength]
      exact congrArg (storesAt o _ ++ ·) ih
  | case2 len p o hlen =>
      refine decodeTail_stores m o ?_ p
      by_contra hlong
      exact hlen (len - 5) (by omega)

/-- It reads its string only. -/
theorem base64DecodeAt_reads (len : Nat) (p o : Int) :
    ∀ place ∈ (base64DecodeAt m len p o).reads, p ≤ place ∧ place < p + len := by
  fun_induction base64DecodeAt m len p o with
  | case1 n p o rest ih =>
      intro place hplace
      rcases List.mem_append.mp hplace with hgroup | hrest
      · simp only [List.mem_cons, List.not_mem_nil, or_false] at hgroup
        omega
      · have hlater := ih place hrest
        omega
  | case2 len p o hlen =>
      intro place hplace
      simp only [decodeTail, List.mem_append, List.mem_ite_nil_right, List.mem_cons, List.not_mem_nil,
        or_false] at hplace
      omega

/-- The number of bytes that are stored. -/
theorem base64Decode_length : ∀ {str : List Byte}, str ≠ [] →
    (base64Decode str).length = str.length - (str.length - 1) / 4
  | [], h => absurd rfl h
  | [_], _ => by simp [base64Decode]
  | [_, _], _ => by simp [base64Decode, decodeGroup]
  | [_, _, _], _ => by simp [base64Decode, decodeGroup]
  | [_, _, _, _], _ => by simp [base64Decode, decodeGroup]
  | p0 :: p1 :: p2 :: p3 :: p4 :: p, _ => by
      have hgroup : (decodeGroup p0 p1 p2 p3).length = 3 := rfl
      rw [base64Decode, List.length_append, hgroup, base64Decode_length (List.cons_ne_nil _ _)]
      simp only [List.length_cons]
      omega

end decoding

section padding

variable {m : Memory}

/-- The places from `p` on backwards hold the characters. -/
def ReadsBack (m : Memory) : Int → List Byte → Prop
  | _, [] => True
  | p, c :: t => m p = c ∧ ReadsBack m (p - 1) t

theorem ReadsBack.append {p : Int} {first second : List Byte} (hfirst : ReadsBack m p first)
    (hsecond : ReadsBack m (p - first.length) second) : ReadsBack m p (first ++ second) := by
  induction first generalizing p with
  | nil =>
      have hplace : p - (([] : List Byte).length : Int) = p := by simp
      rwa [hplace] at hsecond
  | cons c first ih =>
      refine ⟨hfirst.1, ih hfirst.2 ?_⟩
      have hplace : p - ((c :: first).length : Int) = p - 1 - first.length := by
        rw [List.length_cons]
        omega
      rwa [hplace] at hsecond

/-- A string is read backwards from its last character on. -/
theorem readsBack_of_isString {str : Int} {s : List Byte} (h : m.IsString str s) :
    ReadsBack m (str + s.length - 1) s.reverse := by
  induction s generalizing str with
  | nil => trivial
  | cons c s ih =>
      obtain ⟨-, hplace, hrest⟩ := h
      have hlast : str + ((c :: s).length : Int) - 1 = str + 1 + s.length - 1 := by
        rw [List.length_cons]
        omega
      rw [List.reverse_cons, hlast]
      refine (ih hrest).append ⟨?_, trivial⟩
      have hfirst : str + 1 + s.length - 1 - (s.reverse.length : Int) = str := by
        rw [List.length_reverse]
        omega
      rw [hfirst, hplace]

/-- The number of padding characters in front of the first other one. -/
def padCount (t : List Byte) : Nat := (t.takeWhile (· = ascii '=')).length

theorem padCount_cons_pad (t : List Byte) : padCount (ascii '=' :: t) = padCount t + 1 := by
  simp [padCount]

theorem padCount_cons_of_ne {c : Byte} (t : List Byte) (hc : c ≠ ascii '=') : padCount (c :: t) = 0 := by
  rw [padCount, List.takeWhile_cons_of_neg (by simpa using hc), List.length_nil]

/-- The loop stops at the first other character, after it has counted the padding. -/
theorem padLoop_of_stop {p : Int} {t : List Byte} (hback : ReadsBack m p t)
    (hstop : ∃ c ∈ t, c ≠ ascii '=') (rounds : Nat) (outlen : Int) :
    (∀ place ∈ (padLoop m rounds p outlen).1, p - padCount t ≤ place ∧ place ≤ p) ∧
      (padLoop m rounds p outlen).2 =
        if padCount t < rounds then some (outlen - padCount t) else none := by
  induction t generalizing p rounds outlen with
  | nil =>
      obtain ⟨c, hmem, -⟩ := hstop
      exact absurd hmem List.not_mem_nil
  | cons c t ih =>
      obtain ⟨hplace, hrest⟩ := hback
      cases rounds with
      | zero => exact ⟨fun _ hmem => absurd hmem List.not_mem_nil, rfl⟩
      | succ rounds =>
          by_cases hc : c = ascii '='
          · subst hc
            have hlater : ∃ c ∈ t, c ≠ ascii '=' := by
              obtain ⟨d, hmem, hd⟩ := hstop
              exact ⟨d, (List.mem_cons.mp hmem).resolve_left hd, hd⟩
            obtain ⟨hreads, hresult⟩ := ih hrest hlater rounds (outlen - 1)
            rw [padLoop, if_pos hplace, padCount_cons_pad]
            constructor
            · intro place hmem
              rcases List.mem_cons.mp hmem with rfl | hmem
              · omega
              · have hbounds := hreads place hmem
                omega
            · rw [hresult]
              by_cases hmore : padCount t < rounds
              · rw [if_pos hmore, if_pos (Nat.succ_lt_succ hmore), Option.some.injEq]
                omega
              · rw [if_neg hmore, if_neg fun h => hmore (Nat.lt_of_succ_lt_succ h)]
          · rw [padLoop, if_neg (hplace ▸ hc), padCount_cons_of_ne t hc, if_pos (Nat.succ_pos _)]
            constructor
            · intro place hmem
              rw [List.mem_singleton] at hmem
              omega
            · rw [Option.some.injEq]
              omega

/-- A text of padding only is left at its front. -/
theorem padLoop_of_pads {p : Int} {t : List Byte} (hback : ReadsBack m p t)
    (hpads : ∀ c ∈ t, c = ascii '=') (outlen : Int) :
    p - t.length ∈ (padLoop m (t.length + 1) p outlen).1 := by
  induction t generalizing p outlen with
  | nil =>
      have hplace : p - (([] : List Byte).length : Int) = p := by simp
      rw [padLoop, hplace]
      split
      · exact List.mem_cons_self
      · exact List.mem_cons_self
  | cons c t ih =>
      obtain ⟨hplace, hrest⟩ := hback
      have hlater := ih hrest (fun d hd => hpads d (List.mem_cons_of_mem _ hd)) (outlen - 1)
      have hfront : p - ((c :: t).length : Int) = p - 1 - t.length := by
        rw [List.length_cons]
        omega
      have hrounds : (c :: t).length + 1 = t.length + 1 + 1 := rfl
      rw [hrounds, padLoop, if_pos (hplace.trans (hpads c List.mem_cons_self)), hfront]
      exact List.mem_cons_of_mem _ hlater

theorem pads_eq (s : List Byte) : pads s = padCount s.reverse := rfl

/-- On a string that is not all padding, the length is the one of its bytes. -/
theorem base64DecodeLengthAt_eq {str : Int} {s : List Byte} (hs : m.IsString str s)
    (hstop : ∃ c ∈ s, c ≠ ascii '=') (rounds : Nat) :
    (∀ place ∈ (base64DecodeLengthAt m rounds str s.length).1, str ≤ place ∧ place < str + s.length) ∧
      (base64DecodeLengthAt m rounds str s.length).2 =
        if pads s < rounds then some (base64DecodeLength s) else none := by
  have hstop' : ∃ c ∈ s.reverse, c ≠ ascii '=' := by
    obtain ⟨c, hmem, hc⟩ := hstop
    exact ⟨c, List.mem_reverse.mpr hmem, hc⟩
  have hfewer := pads_lt hstop
  rw [pads_eq] at hfewer
  obtain ⟨hreads, hresult⟩ := padLoop_of_stop (readsBack_of_isString hs) hstop' rounds
    (s.length * 6 / 8 : Nat)
  constructor
  · intro place hmem
    have hbounds := hreads place hmem
    omega
  · rw [base64DecodeLength, pads_eq]
    exact hresult

end padding

section roundTrip

/-- A text without the padding at its end. -/
def unpadded (s : List Byte) : List Byte := s.rdropWhile (· = ascii '=')

theorem unpadded_append_pads (s : List Byte) :
    unpadded s ++ List.replicate (pads s) (ascii '=') = s := by
  have hpads : s.rtakeWhile (· = ascii '=') = List.replicate (pads s) (ascii '=') := by
    apply List.eq_replicate_iff.mpr
    refine ⟨List.length_reverse, fun c hc => ?_⟩
    simpa using List.mem_rtakeWhile_imp hc
  rw [← hpads]
  exact List.rdropWhile_append_rtakeWhile

theorem unpadded_length (s : List Byte) : (unpadded s).length + pads s = s.length := by
  have hlength := congrArg List.length (unpadded_append_pads s)
  rwa [List.length_append, List.length_replicate] at hlength

theorem pads_unpadded (s : List Byte) : pads (unpadded s) = 0 := by
  have hagain : unpadded (unpadded s) = unpadded s := List.rdropWhile_idempotent _ s
  have hlength := unpadded_length (unpadded s)
  rw [hagain] at hlength
  omega

/-- Characters behind a text do not change the bytes that its own bits fill. -/
theorem base64Decode_append_take (s t : List Byte) :
    (base64Decode (s ++ t)).take (s.length * 6 / 8) = (base64Decode s).take (s.length * 6 / 8) := by
  induction s using base64Decode.induct with
  | case1 p0 p1 p2 p3 p4 p ih =>
      have hlength : (p0 :: p1 :: p2 :: p3 :: p4 :: p).length * 6 / 8 =
          (decodeGroup p0 p1 p2 p3).length + (p4 :: p).length * 6 / 8 := by
        have hgroup : (decodeGroup p0 p1 p2 p3).length = 3 := rfl
        rw [hgroup]
        simp only [List.length_cons]
        omega
      rw [List.cons_append] at ih
      simp only [List.cons_append, base64Decode, hlength, List.take_length_add_append, ih]
  | case2 p0 p1 p2 p3 =>
      have hcount : [p0, p1, p2, p3].length * 6 / 8 = 3 := by simp
      rw [hcount]
      cases t with
      | nil => rfl
      | cons c t =>
          simp only [List.cons_append, List.nil_append, base64Decode]
          rfl
  | case3 p0 p1 p2 =>
      have hcount : [p0, p1, p2].length * 6 / 8 = 2 := by simp
      rw [hcount]
      rcases t with _ | ⟨c, _ | ⟨d, t⟩⟩
      · rfl
      · rfl
      · simp only [List.cons_append, List.nil_append, base64Decode]
        rfl
  | case4 p0 p1 =>
      have hcount : [p0, p1].length * 6 / 8 = 1 := by simp
      rw [hcount]
      rcases t with _ | ⟨c, _ | ⟨d, _ | ⟨e, t⟩⟩⟩
      · rfl
      · rfl
      · rfl
      · simp only [List.cons_append, List.nil_append, base64Decode]
        rfl
  | case5 s hfive hfour hthree htwo =>
      have hcount : s.length * 6 / 8 = 0 := by
        rcases s with _ | ⟨p0, _ | ⟨p1, _ | ⟨p2, _ | ⟨p3, _ | ⟨p4, p⟩⟩⟩⟩⟩
        · simp
        · simp
        · exact (htwo p0 p1 rfl).elim
        · exact (hthree p0 p1 p2 rfl).elim
        · exact (hfour p0 p1 p2 p3 rfl).elim
        · exact (hfive p0 p1 p2 p3 p4 p rfl).elim
      rw [hcount, List.take_zero, List.take_zero]

/-- The encoding of a key, with and without its padding, fills the bytes of the key. -/
theorem encoded_bits {k str : List Byte} (hstr : str ∈ [base64 k, unpadded (base64 k)]) :
    base64DecodeLength str = k.length ∧ k.length ≤ str.length * 6 / 8 := by
  have hpads := pads_base64Encode k
  have hlength := unpadded_length (base64 k)
  rw [base64Encode_eq] at hpads
  rw [base64_length] at hlength
  simp only [List.mem_cons, List.not_mem_nil, or_false] at hstr
  rcases hstr with rfl | rfl
  · rw [base64DecodeLength, hpads, base64_length]
    omega
  · rw [base64DecodeLength, pads_unpadded]
    omega

theorem encoded_has_char {k str : List Byte} (hk : k ≠ [])
    (hstr : str ∈ [base64 k, unpadded (base64 k)]) : ∃ c ∈ str, c ≠ ascii '=' := by
  have hchar := base64Encode_has_char hk
  rw [base64Encode_eq] at hchar
  simp only [List.mem_cons, List.not_mem_nil, or_false] at hstr
  rcases hstr with rfl | rfl
  · exact hchar
  · obtain ⟨c, hmem, hc⟩ := hchar
    rw [← unpadded_append_pads (base64 k), List.mem_append, List.mem_replicate] at hmem
    exact ⟨c, hmem.resolve_right fun hpad => hc hpad.2, hc⟩

theorem encoded_decode {k str : List Byte} (hk : k ≠ [])
    (hstr : str ∈ [base64 k, unpadded (base64 k)]) : (base64Decode str).take k.length = k := by
  have hwhole : (base64Decode (base64 k)).take k.length = k := by
    rw [← base64Encode_eq, base64Decode_base64Encode hk]
  have hbits := (encoded_bits hstr).2
  simp only [List.mem_cons, List.not_mem_nil, or_false] at hstr
  rcases hstr with rfl | rfl
  · exact hwhole
  · have hsame := base64Decode_append_take (unpadded (base64 k))
      (List.replicate (pads (base64 k)) (ascii '='))
    rw [unpadded_append_pads] at hsame
    have htake (t : List Byte) :
        (t.take ((unpadded (base64 k)).length * 6 / 8)).take k.length = t.take k.length := by
      rw [List.take_take, Nat.min_eq_left hbits]
    calc (base64Decode (unpadded (base64 k))).take k.length
        = ((base64Decode (unpadded (base64 k))).take ((unpadded (base64 k)).length * 6 / 8)).take k.length :=
          (htake _).symm
      _ = ((base64Decode (base64 k)).take ((unpadded (base64 k)).length * 6 / 8)).take k.length := by
          rw [hsame]
      _ = (base64Decode (base64 k)).take k.length := htake _
      _ = k := hwhole

/-- Of a string in memory, the decoder stores the bytes `k` first, and the computed length is theirs. -/
def Decodes (m : Memory) (src : Int) (len : Nat) (dst : Int) (k : List Byte) : Prop :=
  (∃ rest, (base64DecodeAt m len src dst).stores = storesAt dst (k ++ rest)) ∧
    ∀ rounds, len ≤ rounds → (base64DecodeLengthAt m rounds src len).2 = some (k.length : Int)

/-- The decoder inverts the encoder, on the padded text and on the one without padding. -/
theorem base64_decode_encode (m : Memory) (out : Int) {k : List Byte} (hk : k ≠ []) :
    (m.run (base64EncodeAt k out)).IsString out (base64 k) ∧
      (base64 k).length = 4 * ((k.length + 2) / 3) ∧
      ∀ str ∈ [base64 k, unpadded (base64 k)], ∀ (m : Memory) (src dst : Int),
        m.IsString src str → Decodes m src str.length dst k := by
  refine ⟨?_, base64_length k, ?_⟩
  · rw [base64EncodeAt, base64Encode_eq]
    exact Memory.IsString.ofStores m out (base64_no_nul k)
  · intro str hstr m src dst hsrc
    constructor
    · refine ⟨(base64Decode str).drop k.length, ?_⟩
      have hsplit := List.take_append_drop k.length (base64Decode str)
      rw [encoded_decode hk hstr] at hsplit
      rw [base64DecodeAt_stores, hsrc.bytes, hsplit]
    · intro rounds hrounds
      obtain ⟨-, hresult⟩ := base64DecodeLengthAt_eq hsrc (encoded_has_char hk hstr) rounds
      have hpads := pads_lt (encoded_has_char hk hstr)
      rw [hresult, if_pos (by omega), (encoded_bits hstr).1]

/-- Two bytes, and the text of their encoding without its padding. -/
theorem base64_decode_encode_two :
    ([0x4d, 0x61] : List Byte) ≠ [] ∧
      (Memory.run (fun _ => 0) (base64EncodeAt [0x4d, 0x61] 0)).IsString 0 (text "TWE=") ∧
      ∀ (m : Memory) (src dst : Int), m.IsString src (text "TWE") →
        Decodes m src 3 dst [0x4d, 0x61] := by
  have hk : ([0x4d, 0x61] : List Byte) ≠ [] := List.cons_ne_nil _ _
  have hpadded : base64 [0x4d, 0x61] = text "TWE=" := by decide +kernel
  have hunpadded : unpadded (text "TWE=") = text "TWE" := by decide +kernel
  obtain ⟨hencoded, -, hdecoded⟩ := base64_decode_encode (fun _ => 0) 0 hk
  rw [hpadded] at hencoded hdecoded
  rw [hunpadded] at hdecoded
  exact ⟨hk, hencoded, hdecoded (text "TWE") (List.mem_cons_of_mem _ (List.mem_singleton.mpr rfl))⟩

end roundTrip

end DeviceSample.Sas
