import DeviceSample.EsWifiIo

/-!
The answer that carries data. It begins with a line break and ends with the string of a command that is done;
stuffing may stand on both sides of it.
-/

namespace DeviceSample.EsWifi

open Base

/-- Stuffing. -/
def stuffed (n : Nat) : List Byte := List.replicate n stuffing

@[simp]
theorem stuffed_length (n : Nat) : (stuffed n).length = n := List.length_replicate

/-- An answer with data. -/
def Framed (bytes data : List Byte) : Prop := ∃ i k, bytes = stuffed i ++ crlf ++ data ++ atOkString ++ stuffed k

/-- An answer that has no line break for the data, but more stuffing behind it than one word. -/
def Bare (bytes : List Byte) : Prop := ∃ i k, 2 ≤ k ∧ bytes = stuffed i ++ atOkString ++ stuffed k

section stuffing

variable {bytes rest front tail : List Byte} {x y : Byte}

theorem skipStuffing_eq (i : Nat) (hx : x ≠ stuffing) : skipStuffing (stuffed i ++ x :: y :: rest) = i := by
  have htake : (stuffed i ++ x :: y :: rest).take ((stuffed i ++ x :: y :: rest).length - 2) =
      stuffed i ++ (x :: y :: rest).take rest.length := by
    rw [List.length_append, List.length_cons, List.length_cons, Nat.add_sub_assoc (by omega), List.take_length_add_append]
    rfl
  have hstop : ((x :: y :: rest).take rest.length).takeWhile (· = stuffing) = [] := by
    cases hlength : rest.length with
    | zero => rfl
    | succ n => rw [List.take_succ_cons, List.takeWhile_cons_of_neg (by simpa using hx)]
  have hall : ∀ b ∈ stuffed i, decide (b = stuffing) = true := fun b hb =>
    decide_eq_true (List.eq_of_mem_replicate hb)
  rw [skipStuffing, htake, List.takeWhile_append_of_pos hall, hstop, List.append_nil]
  exact List.length_replicate

/-- The test behind the stuffing finds the line break of an answer. -/
theorem skipStuffing_iff (hlength : 2 ≤ bytes.length) :
    crlf.isPrefixOf (bytes.drop (skipStuffing bytes)) = true ↔ ∃ i rest, bytes = stuffed i ++ crlf ++ rest := by
  constructor
  · intro h
    obtain ⟨rest, hrest⟩ := List.isPrefixOf_iff_prefix.mp h
    refine ⟨skipStuffing bytes, rest, ?_⟩
    have hfront : bytes.take (skipStuffing bytes) = stuffed (skipStuffing bytes) := by
      have hprefix := (List.takeWhile_prefix (· = stuffing)).trans (List.take_prefix (bytes.length - 2) bytes)
      rw [skipStuffing, ← List.prefix_iff_eq_take.mp hprefix, stuffed, List.eq_replicate_iff]
      exact ⟨rfl, fun b hb => by simpa using List.mem_takeWhile_imp hb⟩
    rw [List.append_assoc, hrest, ← hfront, List.take_append_drop]
  · rintro ⟨i, rest, rfl⟩
    rw [List.append_assoc, show crlf ++ rest = ascii '\r' :: ascii '\n' :: rest from rfl, skipStuffing_eq i (by decide),
      List.drop_left' (stuffed_length i)]
    exact List.isPrefixOf_iff_prefix.mpr (List.prefix_append crlf rest)

theorem rdropWhile_stuffed (k : Nat) (hx : x ≠ stuffing) :
    (front ++ [x] ++ stuffed k).rdropWhile (· = stuffing) = front ++ [x] := by
  induction k with
  | zero => rw [stuffed, List.replicate_zero, List.append_nil, List.rdropWhile_concat_neg _ _ _ (by simpa using hx)]
  | succ k ih =>
      rw [stuffed, List.replicate_succ', ← List.append_assoc, List.rdropWhile_concat_pos _ _ _ (by simp)]
      exact ih

/-- An end of stuffing is cut off. -/
theorem exists_stuffed (bytes : List Byte) : ∃ k, bytes = bytes.rdropWhile (· = stuffing) ++ stuffed k := by
  refine ⟨(bytes.rtakeWhile (· = stuffing)).length, ?_⟩
  have hall : bytes.rtakeWhile (· = stuffing) = stuffed (bytes.rtakeWhile (· = stuffing)).length := by
    rw [stuffed, List.eq_replicate_iff]
    refine ⟨rfl, fun b hb => ?_⟩
    rw [List.rtakeWhile, List.mem_reverse] at hb
    exact by simpa using List.mem_takeWhile_imp hb
  rw [← hall, List.rdropWhile_append_rtakeWhile]

end stuffing

section window

variable {front body : List Byte}

/-- The comparison is with the last bytes of what was received. -/
theorem window_iff (s : List Byte) :
    (strstr (cString (s.rtake atOkString.length)) atOkString).isSome = true ↔ atOkString <:+ s := by
  have hlength : (s.rtake atOkString.length).length ≤ atOkString.length := by
    rw [List.rtake, List.length_drop]
    omega
  have hsuffix : s.rtake atOkString.length <:+ s := List.drop_suffix _ _
  rw [strstr_isSome_iff]
  constructor
  · intro h
    have hprefix : cString (s.rtake atOkString.length) <+: s.rtake atOkString.length := List.takeWhile_prefix _
    have heq := (h.trans hprefix.isInfix).eq_of_length_le hlength
    rwa [← heq] at hsuffix
  · rintro ⟨t, rfl⟩
    rw [List.rtake, List.length_append, Nat.add_sub_cancel, List.drop_left]
    exact List.infix_rfl

/-- The parts of the string that can lie in front of a line break. -/
theorem front_of_ok : ∀ front ∈ atOkString.inits, crlf <:+ front ∨ front <:+ crlf →
    front = [] ∨ front = crlf ∨ front = crlf ++ text "OK" ++ crlf := by decide

/-- Where the string lies behind a line break that comes after stuffing: behind the line break, or at it. -/
theorem ok_suffix_iff {before : List Byte} (hbefore : ¬crlf ++ text "OK" <:+ before) (i : Nat) :
    atOkString <:+ before ++ stuffed i ++ crlf ++ body ↔ atOkString <:+ body ∨ crlf ++ body = atOkString := by
  constructor
  · rintro ⟨t, ht⟩
    rcases List.append_eq_append_iff.mp ht with ⟨front, hfront, hok⟩ | ⟨cs, -, hbody⟩
    · have hsuffix : front <:+ before ++ stuffed i ++ crlf := ⟨t, hfront.symm⟩
      have hcrlf := List.suffix_or_suffix_of_suffix (List.suffix_append (before ++ stuffed i) crlf) hsuffix
      rcases front_of_ok front ((List.mem_inits _ _).mpr ⟨body, hok.symm⟩) hcrlf with rfl | rfl | rfl
      · exact Or.inl (hok ▸ List.suffix_rfl)
      · exact Or.inr hok.symm
      · rw [List.suffix_append_self_iff] at hsuffix
        cases i with
        | zero => exact absurd (by rwa [stuffed, List.replicate_zero, List.append_nil] at hsuffix) hbefore
        | succ i =>
            rw [stuffed, List.replicate_succ', ← List.append_assoc, List.suffix_concat_iff] at hsuffix
            rcases hsuffix with hnil | ⟨t, hlast, -⟩
            · exact absurd hnil (by decide)
            · have hk := congrArg List.getLast? hlast
              rw [List.getLast?_append_cons] at hk
              exact absurd hk (by decide)
    · exact Or.inl ⟨cs, hbody.symm⟩
  · rintro (h | h)
    · exact h.trans (List.suffix_append _ _)
    · rw [← h, List.append_assoc]
      exact List.suffix_append _ _

end window

section answer

variable {bytes rest data : List Byte} {i : Nat}

/-- An answer shows in one way only how much stuffing is in front of it. -/
theorem stuffed_injective {i' : Nat} {rest' : List Byte} (h : stuffed i ++ crlf ++ rest = stuffed i' ++ crlf ++ rest') :
    i = i' ∧ rest = rest' := by
  rw [List.append_assoc, List.append_assoc] at h
  have hskip := congrArg skipStuffing h
  rw [show crlf ++ rest = ascii '\r' :: ascii '\n' :: rest from rfl, skipStuffing_eq i (by decide),
    show crlf ++ rest' = ascii '\r' :: ascii '\n' :: rest' from rfl, skipStuffing_eq i' (by decide)] at hskip
  subst hskip
  exact ⟨rfl, List.append_cancel_left (List.append_cancel_left h)⟩

theorem framed_iff : Framed (stuffed i ++ crlf ++ rest) data ↔ rest.rdropWhile (· = stuffing) = data ++ atOkString := by
  have hok : atOkString = text "\r\nOK\r\n>" ++ [ascii ' '] := rfl
  constructor
  · rintro ⟨i', k, h⟩
    rw [List.append_assoc (_ ++ _) data, List.append_assoc (_ ++ _)] at h
    rw [(stuffed_injective h).2, hok, ← List.append_assoc, rdropWhile_stuffed k (by decide)]
  · intro h
    obtain ⟨k, hk⟩ := exists_stuffed rest
    rw [h] at hk
    exact ⟨i, k, by rw [hk]; simp only [List.append_assoc]⟩

theorem bare_iff : Bare (stuffed i ++ crlf ++ rest) ↔
    atOkString.length ≤ rest.length ∧ crlf ++ rest.rdropWhile (· = stuffing) = atOkString := by
  have hok : atOkString = crlf ++ (text "OK\r\n>" ++ [ascii ' ']) := rfl
  constructor
  · rintro ⟨i', k, hk, h⟩
    rw [hok, ← List.append_assoc (stuffed i'), List.append_assoc (stuffed i' ++ crlf)] at h
    obtain ⟨-, rfl⟩ := stuffed_injective h
    rw [rdropWhile_stuffed k (by decide)]
    refine ⟨?_, rfl⟩
    rw [List.length_append, stuffed_length]
    change 8 ≤ 6 + k
    omega
  · rintro ⟨hlength, h⟩
    obtain ⟨k, hk⟩ := exists_stuffed rest
    have hbody : (rest.rdropWhile (· = stuffing)).length = 6 := by
      have := congrArg List.length h
      rw [List.length_append] at this
      change 2 + _ = 8 at this
      omega
    have hrest := congrArg List.length hk
    rw [List.length_append, hbody, stuffed_length] at hrest
    change 8 ≤ rest.length at hlength
    refine ⟨i, k, by omega, ?_⟩
    rw [hk, ← List.append_assoc, List.append_assoc (stuffed i), h]

/-- What is in `CmdData` when the NUL was stored behind the part that is not stuffing. -/
theorem exists_stored {buffer body tail : List Byte} (hbytes : bytes = body ++ tail)
    (hlength : bytes.length < (overlay bytes buffer).length) :
    ∃ memory, (overlay bytes buffer).set body.length 0 = body ++ 0 :: memory := by
  have hbody : body.length ≤ bytes.length := by
    rw [hbytes, List.length_append]
    omega
  refine ⟨(overlay bytes buffer).drop (body.length + 1), ?_⟩
  rw [List.set_eq_take_append_cons_drop, if_pos (hbody.trans_lt hlength)]
  rw [overlay, List.take_append_of_le_length hbody, hbytes, List.take_left]

/-- What is made of an answer. -/
structure Answered (bytes : List Byte) (reqlen : Nat) (r : Status × List Byte × Channel) : Prop where
  ok_iff : r.1 = .ok ↔ (∃ data, Framed bytes data) ∨ Bare bytes
  framed : ∀ data, Framed bytes data → r.2.1 = data.take reqlen
  bare : Bare bytes → ∃ memory, r.2.1 = (text "OK\r\n> " ++ 0 :: memory).take reqlen

variable {c : Channel} {buffer cmd : List Byte} {reqlen : Nat}

theorem Answered.refused {r : Status × List Byte × Channel} (hstatus : r.1 ≠ .ok)
    (hanswer : ¬((∃ data, Framed bytes data) ∨ Bare bytes)) : Answered bytes reqlen r where
  ok_iff := iff_of_false hstatus hanswer
  framed data hdata := absurd (Or.inl ⟨data, hdata⟩) hanswer
  bare hbare := absurd (Or.inr hbare) hanswer

/-- The part behind the line break. -/
theorem receivedData_spec (hc : c.Sized) (hbytes : bytes.length < esWifiDataSize)
    (hdata : c.cmdData = overlay bytes buffer) (hanswer : bytes = stuffed i ++ crlf ++ rest)
    (hbefore : ¬crlf ++ text "OK" <:+ c.before) (hreqlen : reqlen < 2 ^ 15) :
    Answered bytes reqlen (c.receivedData (i + 2) rest reqlen) := by
  obtain ⟨k, hk⟩ := exists_stuffed rest
  set body := rest.rdropWhile (· = stuffing) with hbody
  have hstart : (stuffed i ++ crlf ++ body).length = i + 2 + body.length := by
    rw [List.length_append, List.length_append, stuffed_length]
    rfl
  have hfront : bytes = stuffed i ++ crlf ++ body ++ stuffed k := by
    rw [hanswer, List.append_assoc _ body, ← hk]
  have hsize : bytes.length < (overlay bytes buffer).length := by
    rw [← hdata, hc]
    exact hbytes
  obtain ⟨memory, hmemory⟩ := exists_stored hfront hsize
  rw [hstart] at hmemory
  have hwindow : c.before ++ ((overlay bytes buffer).set (i + 2 + body.length) 0).take (i + 2 + body.length) =
      c.before ++ stuffed i ++ crlf ++ body := by
    rw [hmemory, List.take_left' hstart]
    simp only [List.append_assoc]
  have hdrop : ((overlay bytes buffer).set (i + 2 + body.length) 0).drop (i + 2) = body ++ 0 :: memory := by
    rw [hmemory, List.append_assoc, List.drop_left' (by rw [List.length_append, stuffed_length]; rfl)]
  have hlast : body.length < esWifiDataSize := by
    rw [hfront, List.length_append, List.length_append] at hbytes
    omega
  rw [esWifiDataSize] at hlast
  have hboth : (∃ data, Framed bytes data) ∨ Bare bytes ↔ atOkString.length ≤ rest.length ∧
      (atOkString <:+ body ∨ crlf ++ body = atOkString) := by
    simp only [hanswer, framed_iff, bare_iff, ← hbody]
    constructor
    · rintro (⟨data, h⟩ | ⟨hlength, h⟩)
      · refine ⟨?_, Or.inl ⟨data, h.symm⟩⟩
        rw [hk, h, List.length_append, List.length_append]
        omega
      · exact ⟨hlength, Or.inr h⟩
    · rintro ⟨hlength, ⟨data, h⟩ | h⟩
      · exact Or.inl ⟨data, h.symm⟩
      · exact Or.inr ⟨hlength, h⟩
  rw [← ok_suffix_iff hbefore i] at hboth
  rw [Channel.receivedData]
  by_cases hlength : atOkString.length ≤ rest.length
  · simp only [if_pos hlength, hdata, ← hbody, hwindow, window_iff, hdrop]
    by_cases hok : atOkString <:+ c.before ++ stuffed i ++ crlf ++ body
    · rw [if_pos hok]
      refine ⟨iff_of_true rfl (hboth.mpr ⟨hlength, hok⟩), fun data hframed => ?_, fun hbare => ?_⟩
      · rw [hanswer, framed_iff, ← hbody] at hframed
        have hsum : body.length = data.length + atOkString.length := by rw [hframed, List.length_append]
        have hread : (body.length + 2 ^ 16 - atOkString.length) % 2 ^ 16 = data.length := by omega
        simp only [hread]
        rw [hframed, List.append_assoc, List.append_assoc]
        split
        · exact List.take_append_of_le_length (le_of_lt ‹_›)
        · rw [List.take_left, List.take_of_length_le (not_lt.mp ‹_›)]
      · rw [hanswer, bare_iff, ← hbody] at hbare
        have hrest : body = text "OK\r\n> " := List.append_cancel_left (hbare.2.trans rfl)
        have hread : (body.length + 2 ^ 16 - atOkString.length) % 2 ^ 16 = 65534 := by rw [hrest]; rfl
        simp only [hread]
        rw [if_pos (by omega), hrest, List.append_assoc, List.cons_append]
        exact ⟨memory ++ c.behind, rfl⟩
    · rw [if_neg hok]
      exact .refused (by simp) fun h => hok (hboth.mp h).2
  · rw [if_neg hlength]
    exact .refused (by simp) fun h => hlength (hboth.mp h).1

/-- Both kinds of answers have a line break behind the first stuffing. -/
theorem exists_crlf (h : (∃ data, Framed bytes data) ∨ Bare bytes) : ∃ i rest, bytes = stuffed i ++ crlf ++ rest := by
  rcases h with ⟨data, i, k, rfl⟩ | ⟨i, k, -, rfl⟩
  · exact ⟨i, data ++ atOkString ++ stuffed k, by simp only [List.append_assoc]⟩
  · exact ⟨i, text "OK\r\n> " ++ stuffed k, by rw [List.append_assoc, List.append_assoc]; rfl⟩

theorem Channel.Advanced.receivedData {next : Channel} {frames : List (List (Byte × Byte))}
    (h : c.Advanced next frames) (start : Nat) (rest : List Byte) (reqlen : Nat) :
    c.Advanced (next.receivedData start rest reqlen).2.2 frames := by
  rw [Channel.receivedData]
  split
  · simp only
    split <;> exact h.set _ _
  · exact h

/-- A request for data leaves the channel as a command does. Where the memory in front of `CmdData` is no part of an
answer, its framing decides. -/
structure Channel.Requested (c : Channel) (cmd : List Byte) (reqlen : Nat) (r : Status × List Byte × Channel) : Prop where
  advanced : c.Advanced r.2.2 (if c.exchange.taken then [spiWifiSendData cmd] else [])
  answered : ¬crlf ++ text "OK" <:+ c.before → reqlen < 2 ^ 15 →
    ∀ bytes, c.exchange.taken = true → c.exchange.reply.Gives bytes → Answered bytes reqlen r
  gives : r.1 = .ok → c.exchange.taken = true ∧ ∃ bytes, c.exchange.reply.Gives bytes

theorem Channel.Requested.of_answered {r : Status × List Byte × Channel} (htaken : c.exchange.taken = true)
    (hgives : c.exchange.reply.Gives bytes) (hadvanced : c.Advanced r.2.2 [spiWifiSendData cmd])
    (hr : ¬crlf ++ text "OK" <:+ c.before → reqlen < 2 ^ 15 → Answered bytes reqlen r) : c.Requested cmd reqlen r where
  advanced := by rwa [if_pos htaken]
  answered hbefore hreqlen bytes' _ h := hgives.unique h ▸ hr hbefore hreqlen
  gives _ := ⟨htaken, bytes, hgives⟩

theorem Channel.Sized.atRequestReceiveData (hc : c.Sized) (hcmd : cmd.length < esWifiDataSize) (reqlen : Nat) :
    c.Requested cmd reqlen (c.atRequestReceiveData cmd reqlen) := by
  have hprint := hc.print hcmd
  rw [Channel.atRequestReceiveData]
  simp only
  rw [show (c.print cmd).exchange = c.exchange from rfl]
  by_cases htaken : c.exchange.taken = true
  · rw [if_pos htaken]
    rcases hreceive : spiWifiReceiveData 0 c.exchange.reply with ⟨bytes, error⟩
    obtain ⟨next, hrun, hnext, hdata⟩ := hprint.receive [cmd] hreceive
    rw [hrun]
    cases error with
    | none =>
        have hgives := (spiWifiReceiveData_iff (Or.inl rfl)).mp hreceive
        have hbytes : bytes.length < esWifiDataSize := hgives.2.choose_spec.2.2
        have hshort : (∃ data, Framed bytes data) ∨ Bare bytes → 2 ≤ bytes.length := fun h => by
          obtain ⟨i, rest, rfl⟩ := exists_crlf h
          rw [List.length_append, List.length_append]
          exact Nat.le_add_right_of_le (Nat.le_add_left 2 _)
        simp only
        split
        · rename_i hlength
          have hanswer : Answered bytes reqlen (Status.ioError, [], next) :=
            .refused (by simp) fun h => absurd (hshort h) (not_le.mpr hlength)
          exact .of_answered htaken hgives hnext.of_print fun _ _ => hanswer
        · rename_i hlength
          split
          · rename_i hbegins
            obtain ⟨i, rest, hanswer⟩ := (skipStuffing_iff (not_lt.mp hlength)).mp hbegins
            have hskip : skipStuffing bytes = i := by
              rw [hanswer, List.append_assoc]
              exact skipStuffing_eq i (by decide)
            have hrest : bytes.drop (i + 2) = rest := by
              rw [hanswer]
              exact List.drop_left' (by rw [List.length_append, stuffed_length]; rfl)
            rw [hskip, hrest]
            exact .of_answered htaken hgives (hnext.of_print.receivedData (i + 2) rest reqlen) fun hbefore hreqlen =>
              receivedData_spec hnext.sized hbytes hdata hanswer (hnext.before.symm ▸ hbefore) hreqlen
          · rename_i hbegins
            have hanswer : Answered bytes reqlen (Status.ioError, [], next) :=
              .refused (by simp) fun h => hbegins ((skipStuffing_iff (hshort h)).mpr (exists_crlf h))
            exact .of_answered htaken hgives hnext.of_print fun _ _ => hanswer
    | some error =>
        have hrefused : ∀ bytes', ¬c.exchange.reply.Gives bytes' := fun bytes' h => by
          have heq := ((spiWifiReceiveData_iff (Or.inl rfl)).mpr h).symm.trans hreceive
          cases (Prod.mk.inj heq).2
        cases error <;> refine ⟨?_, fun _ _ bytes' _ h => absurd h (hrefused bytes'), fun h => absurd h (by simp)⟩ <;>
          · rw [if_pos htaken]
            exact hnext.of_print
  · rw [if_neg htaken]
    refine ⟨?_, fun _ _ _ h => absurd h htaken, fun h => absurd h (by simp)⟩
    rw [if_neg htaken]
    exact (hprint.giveUp []).of_print

end answer

end DeviceSample.EsWifi
