import DeviceSample.BasePrint

/-!
Searches in a text that is put together from two. A pattern occurs in one of them or straddles the seam;
where it cannot straddle, a search in the whole is a search in the parts, one after the other.
-/

namespace DeviceSample.Base

section seams

variable {α : Type*}

/-- The pattern is split by the seam: the first text ends with its beginning, and the second one begins
with its end. -/
def Straddles (pattern first second : List α) : Prop :=
  ∃ k, 0 < k ∧ k < pattern.length ∧ pattern.take k <:+ first ∧ pattern.drop k <+: second

variable {pattern first second : List α}

theorem infix_append_iff_of_not_straddles (h : ¬Straddles pattern first second) :
    pattern <:+: first ++ second ↔ pattern <:+: first ∨ pattern <:+: second := by
  rw [List.infix_append_iff_ne_nil]
  refine or_congr_right (or_iff_left ?_)
  rintro ⟨u, v, hu, hv, rfl, hsuffix, hbegins⟩
  refine h ⟨u.length, List.length_pos_iff.mpr hu, ?_, ?_, ?_⟩
  · rw [List.length_append]
    exact Nat.lt_add_of_pos_right (List.length_pos_iff.mpr hv)
  · rwa [List.take_left]
  · rwa [List.drop_left]

/-- A first text none of whose ends is a beginning of the pattern. -/
theorem not_straddles_of_ends (second : List α)
    (h : ∀ k < pattern.length, 0 < k → ¬pattern.take k <:+ first) : ¬Straddles pattern first second := by
  rintro ⟨k, hpos, hk, hsuffix, -⟩
  exact h k hk hpos hsuffix

/-- The same for the last part of the first text, when the pattern is not longer. -/
theorem not_straddles_of_last {last : List α} (front second : List α)
    (hlength : pattern.length ≤ last.length + 1)
    (h : ∀ k < pattern.length, 0 < k → ¬pattern.take k <:+ last) :
    ¬Straddles pattern (front ++ last) second := by
  refine not_straddles_of_ends second fun k hk hpos hsuffix => h k hk hpos ?_
  refine List.suffix_of_suffix_length_le hsuffix (List.suffix_append _ _) ?_
  rw [List.length_take]
  omega

/-- A character that the pattern does not have keeps it from straddling. -/
theorem not_straddles_of_separator {c : α} (first second : List α) (hc : c ∉ pattern) :
    ¬Straddles pattern first (c :: second) := by
  rintro ⟨k, hpos, hk, -, hbegins⟩
  cases hrest : pattern.drop k with
  | nil =>
      rw [List.drop_eq_nil_iff] at hrest
      omega
  | cons x rest =>
      rw [hrest] at hbegins
      have hx : x = c := (List.cons_prefix_cons.mp hbegins).1
      refine hc (List.mem_of_mem_drop (i := k) ?_)
      rw [hrest, hx]
      exact List.mem_cons_self

theorem not_straddles_singleton (x : α) (first second : List α) : ¬Straddles [x] first second := by
  rintro ⟨k, hpos, hk, -⟩
  rw [List.length_singleton] at hk
  omega

end seams

section strstr

variable {s rest found pattern first second : List Byte}

theorem strstr_of_isPrefix (h : pattern <+: s) : strstr s pattern = some s := by
  unfold strstr
  exact if_pos (List.isPrefixOf_iff_prefix.mpr h)

theorem strstr_cons_of_not_isPrefix {x : Byte} (h : ¬pattern <+: x :: s) :
    strstr (x :: s) pattern = strstr s pattern := by
  rw [strstr, if_neg fun hbool => h (List.isPrefixOf_iff_prefix.mp hbool)]

theorem strstr_eq_none_iff : strstr s pattern = none ↔ ¬pattern <:+: s := by
  induction s with
  | nil =>
      by_cases h : pattern <+: []
      · rw [strstr_of_isPrefix h]
        exact iff_of_false (Option.some_ne_none _) (not_not_intro h.isInfix)
      · unfold strstr
        rw [if_neg fun hbool => h (List.isPrefixOf_iff_prefix.mp hbool), List.infix_nil]
        exact iff_of_true rfl fun hnil => h (List.prefix_nil.mpr hnil)
  | cons x s ih =>
      by_cases h : pattern <+: x :: s
      · rw [strstr_of_isPrefix h]
        exact iff_of_false (Option.some_ne_none _) (not_not_intro h.isInfix)
      · rw [strstr_cons_of_not_isPrefix h, ih, List.infix_cons_iff, or_iff_right h]

/-- What is found is the end of the text that begins with the pattern. -/
theorem strstr_spec (h : strstr s pattern = some found) : pattern <+: found ∧ found <:+ s := by
  induction s with
  | nil =>
      unfold strstr at h
      split at h
      · rename_i hbool
        cases h
        exact ⟨List.isPrefixOf_iff_prefix.mp hbool, List.suffix_rfl⟩
      · cases h
  | cons x s ih =>
      by_cases hbegins : pattern <+: x :: s
      · rw [strstr_of_isPrefix hbegins, Option.some.injEq] at h
        rw [← h]
        exact ⟨hbegins, List.suffix_rfl⟩
      · rw [strstr_cons_of_not_isPrefix hbegins] at h
        exact ⟨(ih h).1, (ih h).2.trans (List.suffix_cons x s)⟩

/-- A text in which a pattern is found is at least as long. -/
theorem length_le_of_strstr (h : strstr s pattern ≠ none) : pattern.length ≤ s.length := by
  obtain ⟨found, hfound⟩ := Option.ne_none_iff_exists'.mp h
  obtain ⟨hbegins, hends⟩ := strstr_spec hfound
  exact Nat.le_trans hbegins.length_le hends.length_le

theorem Straddles.cons {x : Byte} (h : Straddles pattern first second) :
    Straddles pattern (x :: first) second := by
  obtain ⟨k, hpos, hk, hsuffix, hbegins⟩ := h
  exact ⟨k, hpos, hk, hsuffix.trans (List.suffix_cons x first), hbegins⟩

/-- A search behind a text in which the pattern does not begin. -/
theorem strstr_append_of_none (h : ¬Straddles pattern first second) (hnone : strstr first pattern = none) :
    strstr (first ++ second) pattern = strstr second pattern := by
  induction first with
  | nil => rfl
  | cons x first ih =>
      have habsent : ¬pattern <:+: x :: first := strstr_eq_none_iff.mp hnone
      have hbegins : ¬pattern <+: x :: (first ++ second) := by
        intro hbegins
        rw [← List.cons_append] at hbegins
        rcases List.prefix_or_prefix_of_prefix hbegins (List.prefix_append (x :: first) second) with hin | hover
        · exact habsent hin.isInfix
        · obtain ⟨v, rfl⟩ := hover
          rw [List.prefix_append_right_inj] at hbegins
          refine h ⟨(x :: first).length, Nat.succ_pos _, ?_, ?_, ?_⟩
          · rw [List.length_append]
            refine Nat.lt_add_of_pos_right (List.length_pos_iff.mpr fun hv => habsent ?_)
            simp [hv]
          · simp
          · rwa [List.drop_left]
      rw [List.cons_append, strstr_cons_of_not_isPrefix hbegins]
      refine ih (fun hstraddles => h hstraddles.cons) (strstr_eq_none_iff.mpr fun hin => habsent ?_)
      exact List.infix_cons hin

theorem strstr_append_of_some (hsome : strstr first pattern = some found) (second : List Byte) :
    strstr (first ++ second) pattern = some (found ++ second) := by
  induction first with
  | nil =>
      obtain ⟨hbegins, hends⟩ := strstr_spec hsome
      have hnil : found = [] := List.suffix_nil.mp hends
      rw [hnil, List.prefix_nil] at hbegins
      rw [hnil, hbegins]
      exact strstr_of_isPrefix List.nil_prefix
  | cons x first ih =>
      by_cases hbegins : pattern <+: x :: first
      · rw [strstr_of_isPrefix hbegins, Option.some.injEq] at hsome
        rw [← hsome]
        exact strstr_of_isPrefix (List.prefix_append_of_prefix hbegins)
      · rw [strstr_cons_of_not_isPrefix hbegins] at hsome
        have hlater := ih hsome
        by_cases hwhole : pattern <+: x :: (first ++ second)
        · -- the pattern begins one place earlier only if it is longer than the rest, where it occurs
          exfalso
          have hlength := Nat.le_trans (strstr_spec hsome).1.length_le (strstr_spec hsome).2.length_le
          have hpart : pattern <+: x :: first :=
            List.prefix_of_prefix_length_le hwhole (List.prefix_append (x :: first) second)
              (Nat.le_succ_of_le hlength)
          exact hbegins hpart
        · rw [List.cons_append, strstr_cons_of_not_isPrefix hwhole, hlater]

/-- A search in two texts is a search in each. -/
theorem strstr_append_eq_none_iff (h : ¬Straddles pattern first second) :
    strstr (first ++ second) pattern = none ↔
      strstr first pattern = none ∧ strstr second pattern = none := by
  rw [strstr_eq_none_iff, strstr_eq_none_iff, strstr_eq_none_iff, infix_append_iff_of_not_straddles h, not_or]

/-- A search in texts with a separator between them that the pattern does not have. -/
theorem strstr_separated_eq_none_iff {c : Byte} (hc : c ∉ pattern) (hpattern : pattern ≠ []) :
    strstr (first ++ c :: second) pattern = none ↔ strstr first pattern = none ∧ strstr second pattern = none := by
  have hbegins : ¬pattern <+: c :: second := by
    intro hbegins
    cases pattern with
    | nil => exact hpattern rfl
    | cons x pattern => exact hc (List.mem_cons.mpr (Or.inl (List.cons_prefix_cons.mp hbegins).1.symm))
  rw [strstr_append_eq_none_iff (not_straddles_of_separator first second hc), strstr_cons_of_not_isPrefix hbegins]

end strstr

end DeviceSample.Base
