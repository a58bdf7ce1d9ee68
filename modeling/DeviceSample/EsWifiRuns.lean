import DeviceSample.EsWifiCalls

/-!
Runs of calls to the WiFi module. What the module is told by a call is a beginning of what the call has to say, and
all of it if the call succeeds; the module can tell the messages of all calls apart.
-/

namespace DeviceSample.EsWifi

open Base

/-- The exchange that is to come after some others. -/
def Channel.exchangeAt (c : Channel) (j : Nat) : Exchange := (c.exchanges.drop j).headD ⟨false, false, ⟨false, []⟩⟩

/-- In how many of the first exchanges the module takes what it is told. -/
def Channel.takenIn (c : Channel) (used : Nat) : Nat := (c.exchanges.take used).countP Exchange.taken

/-- A command that was taken is followed by its data. -/
def Channel.Whole (c : Channel) : Prop := ∀ x ∈ c.exchanges, x.taken = true → x.dataTaken = true

/-- What messages that took some exchanges leave of a channel. There is one for each exchange that was taken. -/
structure Channel.Told (c next : Channel) (messages : List Message) (used : Nat) : Prop where
  sized : next.Sized
  before : next.before = c.before
  taken : c.takenIn used = messages.length
  exchanges : next.exchanges = c.exchanges.drop used
  sent : next.sent = c.sent ++ messages.flatMap Message.frames

section told

variable {c next last : Channel} {messages messages' : List Message} {used used' : Nat} {cmd : List Byte}
  {cmds : List (List Byte)}

theorem Channel.Told.exchangeAt (h : c.Told next messages used) (j : Nat) :
    next.exchangeAt j = c.exchangeAt (used + j) := by
  rw [Channel.exchangeAt, Channel.exchangeAt, h.exchanges, List.drop_drop]

theorem Channel.Told.refl (hc : c.Sized) : c.Told c [] 0 :=
  ⟨hc, rfl, rfl, rfl, by rw [List.flatMap_nil, List.append_nil]⟩

theorem Channel.Told.takenIn (h : c.Told next messages used) (k : Nat) :
    c.takenIn (used + k) = messages.length + next.takenIn k := by
  rw [Channel.takenIn, List.take_add, List.countP_append, ← h.exchanges, ← h.taken]
  rfl

theorem Channel.Told.trans (h : c.Told next messages used) (h' : next.Told last messages' used') :
    c.Told last (messages ++ messages') (used + used') where
  sized := h'.sized
  before := h'.before.trans h.before
  taken := by rw [h.takenIn, h'.taken, List.length_append]
  exchanges := by rw [h'.exchanges, h.exchanges, List.drop_drop]
  sent := by rw [h'.sent, h.sent, List.flatMap_append, List.append_assoc]

theorem Channel.Told.whole (h : c.Told next messages used) (hc : c.Whole) : next.Whole := fun x hx =>
  hc x (List.mem_of_mem_drop (h.exchanges ▸ hx))

theorem Channel.Whole.dataTaken (hc : c.Whole) (htaken : c.exchange.taken = true) : c.exchange.dataTaken = true := by
  cases hexchanges : c.exchanges with
  | nil =>
      rw [Channel.exchange, hexchanges] at htaken
      exact absurd htaken (by simp)
  | cons x rest =>
      rw [Channel.exchange, hexchanges] at htaken ⊢
      exact hc x (hexchanges ▸ List.mem_cons_self) htaken

theorem Channel.Advanced.told {x : Message} (h : c.Advanced next (if c.exchange.taken then x.frames else [])) :
    c.Told next (if c.exchange.taken then [x] else []) 1 where
  sized := h.sized
  before := h.before
  taken := by
    rw [Channel.takenIn, Channel.exchange]
    rcases c.exchanges with _ | ⟨e, rest⟩
    · rfl
    · cases htaken : e.taken <;> simp [htaken]
  exchanges := h.exchanges.trans List.drop_one.symm
  sent := by
    rw [h.sent]
    split
    · rw [List.flatMap_cons, List.flatMap_nil, List.append_nil]
    · rfl

/-- How a call ends that has these messages for the module: it has told a beginning of them, and all if it succeeds. -/
def Channel.Ends (c : Channel) (all : List Message) (status : Status) (next : Channel) : Prop :=
  ∃ messages used, c.Told next messages used ∧ messages <+: all ∧ (status = .ok → messages = all ∧ used = all.length)

theorem Channel.Ends.after {first all : List Message} {status : Status} (h : c.Told next first first.length)
    (hnext : next.Ends all status last) : c.Ends (first ++ all) status last := by
  obtain ⟨messages, used, htold, hfront, hall⟩ := hnext
  refine ⟨first ++ messages, first.length + used, h.trans htold, (List.prefix_append_right_inj first).mpr hfront,
    fun hok => ?_⟩
  obtain ⟨rfl, rfl⟩ := hall hok
  exact ⟨rfl, List.length_append.symm⟩

theorem Channel.Ends.stop {x : Message} {status : Status} (all : List Message)
    (h : c.Told next (if c.exchange.taken then [x] else []) used) (hstatus : status ≠ .ok) :
    c.Ends (x :: all) status next := by
  refine ⟨_, used, h, ?_, fun hok => absurd hok hstatus⟩
  split
  · exact (List.prefix_cons_inj x).mpr List.nil_prefix
  · exact List.nil_prefix

/-- Commands end as their list says, and with success if all of them were accepted. -/
theorem Channel.Sized.commands (hc : c.Sized) (hcmds : ∀ cmd ∈ cmds, (line cmd).length < esWifiDataSize) :
    c.Ends (cmds.map .command) (c.commands cmds).1 (c.commands cmds).2 ∧
      ((c.commands cmds).1 = .ok ↔ ∀ j < cmds.length, (c.exchangeAt j).Accepted) := by
  induction cmds generalizing c with
  | nil =>
      refine ⟨⟨[], 0, .refl hc, List.prefix_rfl, fun _ => ⟨rfl, rfl⟩⟩, fun _ _ h => absurd h (Nat.not_lt_zero _), fun _ => rfl⟩
  | cons cmd cmds ih =>
      obtain ⟨hadvanced, hstatus⟩ := hc.atExecuteCommand (hcmds cmd List.mem_cons_self)
      have htold := Channel.Advanced.told (x := .command cmd) hadvanced
      rw [Channel.commands]
      by_cases hok : (c.atExecuteCommand (line cmd)).1 = .ok
      · simp only [if_pos hok]
        have haccepted := hstatus.mp hok
        obtain ⟨hrest, hrestStatus⟩ := ih htold.sized fun cmd hcmd => hcmds cmd (List.mem_cons_of_mem _ hcmd)
        have hexchangeAt := htold.exchangeAt
        rw [if_pos haccepted.1] at htold
        refine ⟨.after htold hrest, ?_⟩
        rw [hrestStatus, List.length_cons]
        constructor
        · intro h j hj
          cases j with
          | zero => exact haccepted
          | succ j =>
              rw [Nat.add_comm, ← hexchangeAt]
              exact h j (Nat.lt_of_succ_lt_succ hj)
        · intro h j hj
          rw [hexchangeAt, Nat.add_comm]
          exact h (j + 1) (Nat.succ_lt_succ hj)
      · simp only [if_neg hok]
        refine ⟨.stop _ htold hok, iff_of_false hok fun h => hok (hstatus.mpr ?_)⟩
        exact h 0 (Nat.succ_pos _)

theorem Channel.Ends.append {all : List Message} {status : Status} (h : c.Ends all status next) (more : List Message)
    (hstatus : status ≠ .ok) : c.Ends (all ++ more) status next := by
  obtain ⟨messages, used, htold, hfront, -⟩ := h
  exact ⟨messages, used, htold, hfront.trans (List.prefix_append _ _), fun hok => absurd hok hstatus⟩

/-- Commands that were accepted were told as a whole. -/
theorem Channel.Ends.told {all : List Message} (h : c.Ends all .ok next) : c.Told next all all.length := by
  obtain ⟨messages, used, htold, -, hall⟩ := h
  obtain ⟨rfl, rfl⟩ := hall rfl
  exact htold

end told

section plain

theorem toNat_small {w : Nat} (x : BitVec w) (hw : w ≤ 32) : x.toNat < 10 ^ 10 :=
  lt_of_lt_of_le (lt_of_lt_of_le x.isLt (Nat.pow_le_pow_right (by decide) hw)) (by decide)

theorem plain_remoteIp (ip : Byte × Byte × Byte × Byte) : Plain (remoteIpSetting ip) := by
  obtain ⟨a, b, c, d⟩ := ip
  have hplain : Plain (setting "P3" a.toNat) := plain_setting rfl (by decide) (by decide) (toNat_small a (by decide))
  have hlength : ∀ x : Byte, (decimal x.toNat).length ≤ 10 := fun x => decimal_length_le (toNat_small x (by decide))
  refine ⟨?_, ?_, ?_⟩
  · have hb := hlength b
    have hc := hlength c
    have hd := hlength d
    have ha := hlength a
    simp only [line, remoteIpSetting, setting, List.length_append]
    change 2 + 1 + _ + 1 + _ + 1 + _ + 1 + _ + 1 < 2000
    omega
  · simp only [remoteIpSetting, List.mem_append, not_or]
    exact ⟨⟨⟨⟨⟨⟨hplain.oneLine, by decide⟩, cr_not_mem_decimal _⟩, by decide⟩, cr_not_mem_decimal _⟩, by decide⟩,
      cr_not_mem_decimal _⟩
  · intro h
    simp only [remoteIpSetting, setting, List.append_assoc] at h
    exact absurd (List.cons_prefix_cons.mp h).1 (by decide)

theorem plain_startCommands (conn : Conn) : ∀ cmd ∈ startCommands conn, Plain cmd := by
  intro cmd hcmd
  simp only [startCommands, List.mem_append, List.mem_cons, List.not_mem_nil, or_false] at hcmd
  rcases hcmd with ((rfl | rfl | rfl | rfl | rfl) | hssl) | rfl
  · exact plain_setting rfl (by decide) (by decide) (toNat_small _ (by decide))
  · exact plain_setting rfl (by decide) (by decide) (by cases conn.type <;> decide)
  · exact plain_setting rfl (by decide) (by decide) (toNat_small _ (by decide))
  · exact plain_setting rfl (by decide) (by decide) (toNat_small _ (by decide))
  · exact plain_remoteIp conn.remoteIp
  · split at hssl
    · rw [List.mem_singleton.mp hssl]
      exact plain_setting rfl (by decide) (by decide) (by decide)
    · exact absurd hssl List.not_mem_nil
  · exact plain_setting rfl (by decide) (by decide) (by decide)

theorem plain_stopCommands (number : Byte) : ∀ cmd ∈ stopCommands number, Plain cmd := by
  intro cmd hcmd
  simp only [stopCommands, List.mem_cons, List.not_mem_nil, or_false] at hcmd
  rcases hcmd with rfl | rfl
  · exact plain_setting rfl (by decide) (by decide) (toNat_small _ (by decide))
  · exact plain_setting rfl (by decide) (by decide) (by decide)

theorem plain_sendCommands (socket : Byte) (timeout : BitVec 32) : ∀ cmd ∈ sendCommands socket timeout, Plain cmd := by
  intro cmd hcmd
  simp only [sendCommands, List.mem_cons, List.not_mem_nil, or_false] at hcmd
  rcases hcmd with rfl | rfl
  · exact plain_setting rfl (by decide) (by decide) (toNat_small _ (by decide))
  · exact plain_setting rfl (by decide) (by decide) (toNat_small _ (by decide))

theorem plain_receiveCommands (socket : Byte) (reqlen : BitVec 16) (timeout : BitVec 32) :
    ∀ cmd ∈ receiveCommands socket reqlen timeout, Plain cmd := by
  intro cmd hcmd
  simp only [receiveCommands, List.mem_cons, List.not_mem_nil, or_false] at hcmd
  rcases hcmd with rfl | rfl | rfl
  · exact plain_setting rfl (by decide) (by decide) (toNat_small _ (by decide))
  · exact plain_setting rfl (by decide) (by decide) (toNat_small _ (by decide))
  · exact plain_setting rfl (by decide) (by decide) (toNat_small _ (by decide))

theorem plain_request : Plain (text "R0") := ⟨by decide, by decide, by decide⟩

end plain

section receive

variable {c : Channel} {socket : Byte} {reqlen : BitVec 16} {timeout : BitVec 32} {bytes data : List Byte}

/-- What `ES_WIFI_ReceiveData` tells the module. -/
def receiveMessages (socket : Byte) (reqlen : BitVec 16) (timeout : BitVec 32) : List Message :=
  (receiveCommands socket reqlen timeout).map .command ++ [.command (text "R0")]

theorem Channel.Sized.receiveCommands (hc : c.Sized) (socket : Byte) (reqlen : BitVec 16) (timeout : BitVec 32) :
    c.Ends ((EsWifi.receiveCommands socket reqlen timeout).map .command)
        (c.commands (EsWifi.receiveCommands socket reqlen timeout)).1
        (c.commands (EsWifi.receiveCommands socket reqlen timeout)).2 ∧
      ((c.commands (EsWifi.receiveCommands socket reqlen timeout)).1 = .ok ↔ ∀ j < 3, (c.exchangeAt j).Accepted) :=
  hc.commands fun cmd hcmd => (plain_receiveCommands socket reqlen timeout cmd hcmd).fits

/-- The module is asked for data when the commands in front were accepted. -/
def Channel.Asks (c : Channel) (reqlen : BitVec 16) : Prop :=
  reqlen.toNat ≤ Wifi.esWifiPayloadSize ∧ ∀ j < 3, (c.exchangeAt j).Accepted

theorem Channel.Asks.receive (hasks : c.Asks reqlen) (hc : c.Sized) (socket : Byte) (timeout : BitVec 32) : ∃ next : Channel,
    c.Told next ((EsWifi.receiveCommands socket reqlen timeout).map .command) 3 ∧
      c.esWifiReceiveData socket reqlen timeout = next.atRequestReceiveData (line (text "R0")) reqlen.toNat := by
  obtain ⟨hends, hstatus⟩ := hc.receiveCommands socket reqlen timeout
  have hok := hstatus.mpr hasks.2
  rw [hok] at hends
  refine ⟨_, hends.told, ?_⟩
  rw [Channel.esWifiReceiveData, if_pos hasks.1]
  exact if_pos hok

theorem Channel.Sized.receive_refused (hc : c.Sized) (hasks : ¬c.Asks reqlen) :
    (c.esWifiReceiveData socket reqlen timeout).1 ≠ .ok ∧ (c.esWifiReceiveData socket reqlen timeout).2.1 = [] ∧
      c.Ends (receiveMessages socket reqlen timeout) (c.esWifiReceiveData socket reqlen timeout).1
        (c.esWifiReceiveData socket reqlen timeout).2.2 := by
  obtain ⟨hends, hstatus⟩ := hc.receiveCommands socket reqlen timeout
  rw [Channel.esWifiReceiveData]
  split
  · rename_i hsize
    have hfail : (c.commands (EsWifi.receiveCommands socket reqlen timeout)).1 ≠ .ok := fun hok =>
      hasks ⟨hsize, hstatus.mp hok⟩
    simp only [if_neg hfail]
    exact ⟨hfail, trivial, hends.append _ hfail⟩
  · exact ⟨by simp, rfl, [], 0, .refl hc, List.nil_prefix, fun h => absurd h (by simp)⟩

/-- What a call to receive tells the module. -/
theorem Channel.Sized.receive_ends (hc : c.Sized) (socket : Byte) (reqlen : BitVec 16) (timeout : BitVec 32) :
    c.Ends (receiveMessages socket reqlen timeout) (c.esWifiReceiveData socket reqlen timeout).1
      (c.esWifiReceiveData socket reqlen timeout).2.2 := by
  by_cases hasks : c.Asks reqlen
  · obtain ⟨next, htold, hrun⟩ := hasks.receive hc socket timeout
    rw [hrun]
    have hrequested := htold.sized.atRequestReceiveData plain_request.fits reqlen.toNat
    have hlast := Channel.Advanced.told (x := .command (text "R0")) hrequested.advanced
    refine .after htold ⟨_, 1, hlast, ?_, fun hok => ?_⟩
    · split
      · exact List.prefix_rfl
      · exact List.nil_prefix
    · rw [if_pos (hrequested.gives hok).1]
      exact ⟨rfl, rfl⟩
  · exact (hc.receive_refused hasks).2.2

/-- An answer of the module to the request for data. -/
def Channel.Gets (c : Channel) (reqlen : BitVec 16) (bytes : List Byte) : Prop :=
  c.Asks reqlen ∧ (c.exchangeAt 3).taken = true ∧ (c.exchangeAt 3).reply.Gives bytes

theorem Channel.Sized.receive_gets (hc : c.Sized) (socket : Byte) (timeout : BitVec 32)
    (hbefore : ¬crlf ++ text "OK" <:+ c.before) (hgets : c.Gets reqlen bytes) :
    Answered bytes reqlen.toNat (c.esWifiReceiveData socket reqlen timeout) := by
  obtain ⟨hasks, htaken, hgives⟩ := hgets
  obtain ⟨next, htold, hrun⟩ := hasks.receive hc socket timeout
  have hexchange : next.exchange = c.exchangeAt 3 := htold.exchangeAt 0
  have hrequested := htold.sized.atRequestReceiveData plain_request.fits reqlen.toNat
  rw [hrun]
  refine hrequested.answered (htold.before.symm ▸ hbefore) ?_ bytes (hexchange ▸ htaken) (hexchange ▸ hgives)
  exact lt_of_le_of_lt hasks.1 (by decide)

/-- Whatever data of the module come in an answer with its framing, the call returns them, up to the length that was
asked for, and has told the module all that belongs to it and nothing else. -/
theorem receive_framed (hc : c.Sized) (hbefore : ¬crlf ++ text "OK" <:+ c.before) (hgets : c.Gets reqlen bytes)
    (hframed : Framed bytes data) : ∃ next, c.esWifiReceiveData socket reqlen timeout = (.ok, data.take reqlen.toNat, next) ∧
      c.Told next (receiveMessages socket reqlen timeout) 4 := by
  have hanswered := hc.receive_gets socket timeout hbefore hgets
  have hok := hanswered.ok_iff.mpr (Or.inl ⟨data, hframed⟩)
  have hends := hc.receive_ends socket reqlen timeout
  rw [hok] at hends
  exact ⟨_, Prod.ext hok (Prod.ext (hanswered.framed data hframed) rfl), hends.told⟩

/-- A call that succeeds has an answer with its framing, or the other kind. -/
theorem Channel.Sized.receive_answer (hc : c.Sized) (hbefore : ¬crlf ++ text "OK" <:+ c.before)
    (hok : (c.esWifiReceiveData socket reqlen timeout).1 = .ok) :
    ∃ bytes, c.Gets reqlen bytes ∧ ((∃ data, Framed bytes data) ∨ Bare bytes) := by
  by_cases hasks : c.Asks reqlen
  · obtain ⟨next, htold, hrun⟩ := hasks.receive hc socket timeout
    have hexchange : next.exchange = c.exchangeAt 3 := htold.exchangeAt 0
    have hrequested := htold.sized.atRequestReceiveData plain_request.fits reqlen.toNat
    obtain ⟨htaken, bytes, hgives⟩ := hrequested.gives (hrun ▸ hok)
    have hgets : c.Gets reqlen bytes := ⟨hasks, hexchange ▸ htaken, hexchange ▸ hgives⟩
    exact ⟨bytes, hgets, (hc.receive_gets socket timeout hbefore hgets).ok_iff.mp hok⟩
  · exact absurd hok (hc.receive_refused hasks).1

/-- What is made of an answer has the length that was asked for at most. -/
theorem Answered.length_le {len : Nat} {r : Status × List Byte × Channel} (h : Answered bytes len r) (hok : r.1 = .ok) :
    r.2.1.length ≤ len := by
  rcases h.ok_iff.mp hok with ⟨data, hframed⟩ | hbare
  · rw [h.framed data hframed]
    exact List.length_take_le ..
  · obtain ⟨memory, hdata⟩ := h.bare hbare
    rw [hdata]
    exact List.length_take_le ..

/-- A module that gives these answers one after the other, each in whole words. -/
def answering (answers : List (List Byte)) : Channel :=
  { before := [], cmdData := List.replicate esWifiDataSize 0, behind := [], sent := []
    exchanges := answers.map fun answer => ⟨true, true, ⟨true, (spiWifiSendData answer).map some⟩⟩ }

theorem answering_sized (answers : List (List Byte)) : (answering answers).Sized := List.length_replicate

theorem answering_gets {answer : List Byte} (heven : bytesOfWords (spiWifiSendData answer) = answer)
    (hsmall : answer.length < esWifiDataSize) :
    (answering (List.replicate 3 atOkString ++ [answer])).Gets 1200 answer := by
  refine ⟨⟨by decide, fun j hj => ?_⟩, rfl, rfl, spiWifiSendData answer, rfl, heven.symm, hsmall⟩
  have haccepted : Exchange.Accepted ⟨true, true, ⟨true, (spiWifiSendData atOkString).map some⟩⟩ :=
    ⟨rfl, atOkString, ⟨rfl, spiWifiSendData atOkString, rfl, rfl, by decide⟩, List.infix_rfl⟩
  match j, hj with
  | 0, _ | 1, _ | 2, _ => exact haccepted

theorem receive_framed_hi : ∃ next,
    (answering (List.replicate 3 atOkString ++ [crlf ++ text "hi" ++ atOkString])).esWifiReceiveData 0 1200 100 =
        (.ok, (text "hi").take (1200 : BitVec 16).toNat, next) ∧
      (answering (List.replicate 3 atOkString ++ [crlf ++ text "hi" ++ atOkString])).Told next
        (receiveMessages 0 1200 100) 4 :=
  receive_framed (answering_sized _) (by decide) (answering_gets (by decide) (by decide)) ⟨0, 0, by decide⟩

end receive

section send

variable {c : Channel} {socket : Byte} {reqlen : BitVec 16} {timeout : BitVec 32} {pdata : List Byte}

/-- What `ES_WIFI_SendData` tells the module. -/
def sendMessages (socket : Byte) (pdata : List Byte) (reqlen : BitVec 16) (timeout : BitVec 32) : List Message :=
  (sendCommands socket timeout).map .command ++ [.data (pdata.take (sentLength reqlen))]

theorem sentLength_le (reqlen : BitVec 16) : sentLength reqlen ≤ 1200 ∧ sentLength reqlen ≤ reqlen.toNat := by
  rw [sentLength, Wifi.esWifiPayloadSize]
  split <;> omega

theorem sendHeader_fits (reqlen : BitVec 16) : (line (sendHeader (sentLength reqlen))).length = 8 :=
  sendHeader_length (lt_of_le_of_lt (sentLength_le reqlen).1 (by decide))

theorem sendStatus_ok_iff (r : Status × Channel) :
    Channel.sendStatus r = .ok ↔ r.1 = .ok ∧ ¬text "-1\r\n" <:+: cString r.2.cmdData := by
  rw [Channel.sendStatus, ← strstr_isSome_iff]
  by_cases hok : r.1 = .ok
  · by_cases hrefused : (strstr (cString r.2.cmdData) (text "-1\r\n")).isSome = true
    · rw [if_pos ⟨hok, hrefused⟩]
      exact iff_of_false (by simp) fun h => h.2 hrefused
    · rw [if_neg fun h => hrefused h.2]
      exact iff_of_true hok ⟨hok, hrefused⟩
  · rw [if_neg fun h => hok h.1]
    exact iff_of_false hok fun h => hok h.1

/-- The module takes and confirms data in the exchanges after some others. -/
def Channel.Sends (c : Channel) (k : Nat) : Prop :=
  (∀ j < 2, (c.exchangeAt (k + j)).Accepted) ∧
    ∃ answer, (c.exchangeAt (k + 2)).DataSent answer ∧ ¬text "-1\r\n" <:+: answer

theorem Channel.Told.sends {next : Channel} {messages : List Message} {used : Nat} (h : c.Told next messages used)
    (k : Nat) :
    next.Sends k ↔ c.Sends (used + k) := by
  simp only [Channel.Sends, h.exchangeAt, Nat.add_assoc]

/-- A call to send succeeds exactly if the module takes and confirms the data; it tells the module a beginning of its
messages, and all of them if it succeeds. -/
theorem Channel.Sized.send_spec (hc : c.Sized) (socket : Byte) (timeout : BitVec 32) (hwhole : c.Whole)
    (hpdata : reqlen.toNat ≤ pdata.length) :
    c.Ends (sendMessages socket pdata reqlen timeout) (c.esWifiSendData socket pdata reqlen timeout).1
        (c.esWifiSendData socket pdata reqlen timeout).2.2 ∧
      ((c.esWifiSendData socket pdata reqlen timeout).1 = .ok ↔ c.Sends 0) := by
  rw [Channel.Sends]
  simp only [Nat.zero_add]
  obtain ⟨hends, hstatus⟩ := hc.commands fun cmd hcmd => (plain_sendCommands socket timeout cmd hcmd).fits
  rw [Channel.esWifiSendData]
  simp only
  by_cases hok : (c.commands (sendCommands socket timeout)).1 = .ok
  · rw [hok] at hends
    have htold := hends.told
    simp only [if_pos hok]
    set next := (c.commands (sendCommands socket timeout)).2
    have hexchange : next.exchange = c.exchangeAt 2 := htold.exchangeAt 0
    have hlength : (pdata.take (sentLength reqlen)).length = sentLength reqlen :=
      List.length_take_of_le ((sentLength_le reqlen).2.trans hpdata)
    have hfits : (line (sendHeader (sentLength reqlen))).length < esWifiDataSize := by
      rw [sendHeader_fits]
      decide
    obtain ⟨hadvanced, hdone, hsent⟩ := htold.sized.atRequestSendData hfits (by rw [sendHeader_fits])
      (pdata.take (sentLength reqlen))
    have hframes : next.Advanced (next.atRequestSendData (line (sendHeader (sentLength reqlen)))
        (pdata.take (sentLength reqlen))).2
        (if next.exchange.taken then (Message.data (pdata.take (sentLength reqlen))).frames else []) := by
      by_cases htaken : next.exchange.taken = true
      · rw [if_pos htaken, if_pos ((htold.whole hwhole).dataTaken htaken)] at hadvanced
        rwa [if_pos htaken, Message.frames, hlength]
      · rw [if_neg htaken] at hadvanced ⊢
        exact hadvanced
    rw [sendStatus_ok_iff]
    refine ⟨.after htold ⟨_, 1, hframes.told, ?_, fun hdoneOk => ?_⟩, fun h => ?_, fun h => ?_⟩
    · split
      · exact List.prefix_rfl
      · exact List.nil_prefix
    · rw [if_pos (hdone ((sendStatus_ok_iff _).mp hdoneOk).1).taken]
      exact ⟨rfl, rfl⟩
    · exact ⟨hstatus.mp hok, _, hexchange ▸ hdone h.1, h.2⟩
    · obtain ⟨-, answer, hanswer, hconfirmed⟩ := h
      obtain ⟨hthis, hdata⟩ := hsent answer (hexchange.symm ▸ hanswer)
      exact ⟨hthis, hdata.symm ▸ hconfirmed⟩
  · have hfail : Channel.sendStatus (c.commands (sendCommands socket timeout)) ≠ .ok := fun h =>
      hok ((sendStatus_ok_iff _).mp h).1
    simp only [if_neg hok]
    refine ⟨?_, iff_of_false hfail fun h => hok (hstatus.mpr h.1)⟩
    rw [Channel.sendStatus, if_neg fun h => hok h.1]
    exact hends.append _ hok

end send

/-- A call, with its arguments. -/
inductive Call
  | start (conn : Conn)
  | stop (number : Byte)
  | send (socket : Byte) (pdata : List Byte) (reqlen : BitVec 16) (timeout : BitVec 32)
  | receive (socket : Byte) (reqlen : BitVec 16) (timeout : BitVec 32)

namespace Call

/-- What a call has to tell the module. -/
def messages : Call → List Message
  | .start conn => (startCommands conn).map .command
  | .stop number => (stopCommands number).map .command
  | .send socket pdata reqlen timeout => sendMessages socket pdata reqlen timeout
  | .receive socket reqlen timeout => receiveMessages socket reqlen timeout

/-- A buffer has the bytes that are to be sent of it. -/
def Valid : Call → Prop
  | .send _ pdata reqlen _ => reqlen.toNat ≤ pdata.length
  | _ => True

/-- The status of a call, and the channel behind it. -/
def run (c : Channel) : Call → Status × Channel
  | .start conn => c.esWifiStartClientConnection conn
  | .stop number => c.esWifiStopClientConnection number
  | .send socket pdata reqlen timeout =>
      ((c.esWifiSendData socket pdata reqlen timeout).1, (c.esWifiSendData socket pdata reqlen timeout).2.2)
  | .receive socket reqlen timeout =>
      ((c.esWifiReceiveData socket reqlen timeout).1, (c.esWifiReceiveData socket reqlen timeout).2.2)

theorem readable_messages (call : Call) : ∀ m ∈ call.messages, m.Readable := by
  have hplain : ∀ {cmds : List (List Byte)}, (∀ cmd ∈ cmds, Plain cmd) → ∀ m ∈ cmds.map Message.command, m.Readable :=
    fun hcmds m hm => by
      obtain ⟨cmd, hcmd, rfl⟩ := List.mem_map.mp hm
      exact hcmds cmd hcmd
  intro m hm
  cases call with
  | start conn => exact hplain (plain_startCommands conn) m hm
  | stop number => exact hplain (plain_stopCommands number) m hm
  | send socket pdata reqlen timeout =>
      rcases List.mem_append.mp hm with hm | hm
      · exact hplain (plain_sendCommands socket timeout) m hm
      · rw [List.mem_singleton.mp hm]
        trivial
  | receive socket reqlen timeout =>
      rcases List.mem_append.mp hm with hm | hm
      · exact hplain (plain_receiveCommands socket reqlen timeout) m hm
      · rw [List.mem_singleton.mp hm]
        exact plain_request

/-- One call. -/
theorem run_ends {c : Channel} (call : Call) (hc : c.Sized) (hwhole : c.Whole) (hcall : call.Valid) :
    c.Ends call.messages (call.run c).1 (call.run c).2 := by
  cases call with
  | start conn =>
      rw [run, Channel.esWifiStartClientConnection]
      split
      · exact ⟨[], 0, .refl hc, List.nil_prefix, fun h => absurd h (by simp)⟩
      · exact (hc.commands fun cmd hcmd => (plain_startCommands conn cmd hcmd).fits).1
  | stop number => exact (hc.commands fun cmd hcmd => (plain_stopCommands number cmd hcmd).fits).1
  | send socket pdata reqlen timeout => exact (hc.send_spec socket timeout hwhole hcall).1
  | receive socket reqlen timeout => exact hc.receive_ends socket reqlen timeout

end Call

/-- Calls one after the other, with the status of each. -/
def Channel.runCalls (c : Channel) : List Call → List (Call × Status) × Channel
  | [] => ([], c)
  | call :: calls =>
      let r := call.run c
      let rest := r.2.runCalls calls
      ((call, r.1) :: rest.1, rest.2)

section runs

variable {c : Channel} {calls : List Call}

/-- What the module was told by one call: a beginning of its messages, and all of them if it succeeded. -/
def ToldBy (messages : List Message) (done : Call × Status) : Prop :=
  messages <+: done.1.messages ∧ (done.2 = .ok → messages = done.1.messages)

theorem Channel.Sized.runCalls (hc : c.Sized) (hwhole : c.Whole) (hcalls : ∀ call ∈ calls, call.Valid) :
    ∃ parts used, List.Forall₂ ToldBy parts (c.runCalls calls).1 ∧ c.Told (c.runCalls calls).2 parts.flatten used ∧
      ∀ m ∈ parts.flatten, m.Readable := by
  induction calls generalizing c with
  | nil => exact ⟨[], 0, .nil, .refl hc, fun _ hm => absurd hm List.not_mem_nil⟩
  | cons call calls ih =>
      obtain ⟨messages, used, htold, hfront, hall⟩ := call.run_ends hc hwhole (hcalls call List.mem_cons_self)
      obtain ⟨parts, used', hparts, hrest, hreadable⟩ :=
        ih htold.sized (htold.whole hwhole) fun call hcall => hcalls call (List.mem_cons_of_mem _ hcall)
      refine ⟨messages :: parts, used + used', .cons ⟨hfront, fun hok => (hall hok).1⟩ hparts, htold.trans hrest, ?_⟩
      intro m hm
      rcases List.mem_append.mp hm with hm | hm
      · exact call.readable_messages m (hfront.subset hm)
      · exact hreadable m hm

/-- Whatever calls are made and however the module answers, its reader recovers from the frames that it got what each
call told it, in order: the commands without their padding, and the data of each call to send byte for byte. -/
theorem calls_read_back (hc : c.Sized) (hwhole : c.Whole) (hcalls : ∀ call ∈ calls, call.Valid) (hstart : c.sent = []) :
    ∃ parts, List.Forall₂ ToldBy parts (c.runCalls calls).1 ∧ readFrames (c.runCalls calls).2.sent = parts.flatten := by
  obtain ⟨parts, used, hparts, htold, hreadable⟩ := hc.runCalls hwhole hcalls
  refine ⟨parts, hparts, ?_⟩
  rw [htold.sent, hstart, List.nil_append, readFrames_frames hreadable]

/-- A connection that is opened, used and closed. -/
def sampleCalls : List Call :=
  [.start ⟨.tcp, 0, 443, 0, (10, 0, 0, 1)⟩, .send 0 (text "GET") 3 100, .receive 0 1200 100, .stop 0]

theorem calls_read_back_sample : ∃ parts,
    List.Forall₂ ToldBy parts ((answering (List.replicate 15 atOkString)).runCalls sampleCalls).1 ∧
      readFrames ((answering (List.replicate 15 atOkString)).runCalls sampleCalls).2.sent = parts.flatten := by
  refine calls_read_back (answering_sized _) (fun x hx _ => ?_) (fun call hcall => ?_) rfl
  · obtain ⟨answer, -, rfl⟩ := List.mem_map.mp hx
    rfl
  · simp only [sampleCalls, List.mem_cons, List.not_mem_nil, or_false] at hcall
    rcases hcall with rfl | rfl | rfl | rfl
    · trivial
    · change 3 ≤ 3
      exact le_rfl
    · trivial
    · trivial

end runs

end DeviceSample.EsWifi
