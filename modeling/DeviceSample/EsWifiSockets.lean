import DeviceSample.EsWifiStreams
import DeviceSample.WifiRuns

/-!
The sockets over the module itself. What the table of sockets takes as given, the results of its calls to the module,
comes here from the exchanges with it. Every run is one of the sockets, and what they received was in the answers.
-/

namespace DeviceSample.EsWifi

open Base NetX Wifi

/-- `WIFI_WRITE_TIMEOUT` and `WIFI_READ_TIMEOUT`, and `ES_WIFI_TIMEOUT`, which is `ES_WIFI_TRANSPORT_TIMEOUT` too. -/
def wifiWriteTimeout : BitVec 32 := 100

def wifiReadTimeout : BitVec 32 := 100

def esWifiTimeout : Nat := 30000

/-- An entry as the number of a connection. -/
def entryNumber (i : Entry) : Byte := BitVec.ofNat 8 i.val

/-- The loop of the send functions. -/
def sendLoopOver (pool : PacketPool) (i : Entry) : Nat → Option Address → Channel → Bool × Channel
  | _, none, c => (true, c)
  | 0, some _, c => (false, c)
  | fuel + 1, some a, c =>
      let packetSize := (pool.packet a).size
      let r := c.esWifiSendData (entryNumber i) (pool.packet a).bytes (BitVec.ofNat 16 packetSize) wifiWriteTimeout
      if r.1 = .ok ∧ r.2.1 = packetSize then sendLoopOver pool i fuel (pool.packet a).next r.2.2 else (false, r.2.2)

/-- The end of both send functions. -/
def sendPacketOver (s : Sockets) (i : Entry) (a : Address) (c : Channel) : NetX.Status × Sockets × Channel :=
  let r := sendLoopOver s.pool i s.pool.total (some a) c
  if r.1 then (.success, { s with pool := (nxPacketRelease s.pool a).2 }, r.2) else (.notSuccessful, s, r.2)

/-- `nx_wifi_tcp_socket_send`. -/
def tcpSendOver (s : Sockets) (socketPtr : Nat) (a : Address) (c : Channel) : NetX.Status × Sockets × Channel :=
  match nxWifiSocketEntryFind s.socket socketPtr true with
  | none => (.notSuccessful, s, c)
  | some i => if (s.socket i).connected then sendPacketOver s i a c else (.notSuccessful, s, c)

/-- `nx_wifi_udp_socket_send`. -/
def udpSendOver (s : Sockets) (socketPtr : Nat) (a : Address) (conn : Conn) (c : Channel) :
    NetX.Status × Sockets × Channel :=
  match nxWifiSocketEntryFind s.socket socketPtr true with
  | none => (.notSuccessful, s, c)
  | some i =>
      if (s.socket i).connected then sendPacketOver s i a c
      else
        let r := c.esWifiStartClientConnection { conn with type := .udp, number := entryNumber i }
        if r.1 = .ok then sendPacketOver (s.setConnected i) i a r.2 else (.notSuccessful, s.reset i, r.2)

/-- `WIFI_ReceiveData`: the data, or none when it fails. -/
def readOver (i : Entry) (timeout : BitVec 32) (c : Channel) : List Byte × Channel :=
  let r := c.esWifiReceiveData (entryNumber i) (BitVec.ofNat 16 esWifiPayloadSize) timeout
  (if r.1 = .ok then r.2.1 else [], r.2.2)

/-- The loop of `nx_wifi_socket_receive`, with the ticks since the call began behind each read. -/
def receiveLoopOver (i : Entry) : Nat → List Nat → Channel → Option (List Byte) × Channel
  | 0, _, c => (some [], c)
  | _ + 1, [], c => (none, c)
  | total + 1, elapsed :: later, c =>
      let r := readOver i (BitVec.ofNat 32 (min (total + 1) esWifiTimeout)) c
      if r.1.isEmpty then receiveLoopOver i (total + 1 - nxWifiTickConvertMs elapsed) later r.2 else (some r.1, r.2)

/-- `nx_wifi_socket_receive`. -/
def receiveOver (s : Sockets) (socketPtr waitOption : Nat) (elapsed : List Nat) (c : Channel) :
    Option (Except NetX.Status Address × List (List Byte) × Sockets) × Channel :=
  match nxWifiSocketEntryFind s.socket socketPtr true with
  | none => (some (.error .notSuccessful, [], s), c)
  | some i =>
      if (s.socket i).connected then
        match (s.socket i).receivedPacketHead with
        | some a => (some (.ok a, [], s.dequeue i a), c)
        | none =>
            let r := receiveLoopOver i (nxWifiTickConvertMs waitOption) elapsed c
            (r.1.map (receiveRead s), r.2)
      else (some (.error .notSuccessful, [], s), c)

/-- The reads of one entry in `nx_wifi_thread_entry`. A read that gives something takes an exchange, so that more
`fuel` than there are exchanges is enough. -/
def pollEntryOver (i : Entry) : Nat → Sockets → Channel → Sockets × List (List Byte) × Channel
  | 0, s, c => (s, [], c)
  | fuel + 1, s, c =>
      if poolShort s.pool then (s, [], c)
      else
        let r := readOver i wifiReadTimeout c
        if r.1.isEmpty then (s, [], r.2)
        else
          match storeData s.pool r.1 with
          | (.error _, pool) => ({ s with pool := pool }, [r.1], r.2)
          | (.ok a, pool) =>
              let rest := pollEntryOver i fuel ({ s with pool := pool }.enqueue i a) r.2
              (rest.1, r.1 :: rest.2.1, rest.2.2)

/-- The loop of `nx_wifi_thread_entry` over the entries. -/
def pollLoopOver : List Entry → Nat → Sockets → Channel → Sockets × (Entry → List (List Byte)) × Channel
  | [], _, s, c => (s, fun _ => [], c)
  | i :: entries, socketCounter, s, c =>
      if (socketCounter : Int) < s.socketCounter then
        if (s.socket i).valid && (s.socket i).connected then
          let r := pollEntryOver i (c.exchanges.length + 1) s c
          let rest := pollLoopOver entries (socketCounter + 1) r.1 r.2.2
          (rest.1, Function.update rest.2.1 i r.2.1, rest.2.2)
        else pollLoopOver entries socketCounter s c
      else (s, fun _ => [], c)

/-- One round of `nx_wifi_thread_entry`. -/
def threadRoundOver (s : Sockets) (c : Channel) : Sockets × (Entry → List (List Byte)) × Channel :=
  if s.socketCounter = 0 then (s, fun _ => [], c) else pollLoopOver (List.finRange 8) 0 s c

/-- `nx_wifi_tcp_client_socket_connect`. -/
def connectOver (s : Sockets) (socketPtr : Nat) (conn : Conn) (c : Channel) : NetX.Status × Sockets × Channel :=
  match nxWifiSocketEntryFind s.socket socketPtr false with
  | none => (.notSuccessful, s, c)
  | some i =>
      let r := c.esWifiStartClientConnection { conn with type := .tcp, number := entryNumber i }
      let s := s.fill i socketPtr .tcp
      if r.1 = .ok then (.success, s.setConnected i, r.2) else (.notSuccessful, s.reset i, r.2)

/-- `nx_wifi_tcp_socket_disconnect` and `nx_wifi_udp_socket_unbind`. The status of the close is not looked at. -/
def closeOver (s : Sockets) (socketPtr : Nat) (c : Channel) : NetX.Status × Sockets × Channel :=
  match nxWifiSocketEntryFind s.socket socketPtr true with
  | none => (.notSuccessful, s, c)
  | some i =>
      if (s.socket i).connected then (.success, s.reset i, (c.esWifiStopClientConnection (entryNumber i)).2)
      else (.notSuccessful, s, c)

/-- A channel whose `CmdData` has its size, whose commands are followed by their data, and in front of which there is
no part of an answer. -/
structure Channel.Good (c : Channel) : Prop where
  sized : c.Sized
  whole : c.Whole
  before : ¬crlf ++ text "OK" <:+ c.before

/-- Messages that can be read back, and whose data go to these connections, lead from one channel to the other. -/
def Channel.Leads (c next : Channel) (out : List (Nat × List Byte)) : Prop :=
  ∃ messages used, c.Told next messages used ∧ (∀ m ∈ messages, m.Readable) ∧ Routes messages out

section leads

variable {c next last : Channel} {out out' : List (Nat × List Byte)}

theorem Channel.Good.leads (hc : c.Good) (h : c.Leads next out) : next.Good := by
  obtain ⟨messages, used, htold, -⟩ := h
  exact ⟨htold.sized, htold.whole hc.whole, htold.before.symm ▸ hc.before⟩

theorem Channel.Good.refl (hc : c.Good) : c.Leads c [] :=
  ⟨[], 0, .refl hc.sized, fun _ hm => absurd hm List.not_mem_nil, fun _ => rfl⟩

theorem Channel.Leads.trans (h : c.Leads next out) (h' : next.Leads last out') : c.Leads last (out ++ out') := by
  obtain ⟨messages, used, htold, hreadable, hroutes⟩ := h
  obtain ⟨messages', used', htold', hreadable', hroutes'⟩ := h'
  exact ⟨messages ++ messages', used + used', htold.trans htold', fun m hm =>
    (List.mem_append.mp hm).elim (hreadable m) (hreadable' m), hroutes.append hroutes'⟩

/-- A call that sends no data leads on. -/
theorem Channel.Good.call (hc : c.Good) (call : Call) (hcall : call.Valid) (hnone : payloads call.messages = []) :
    c.Leads (call.run c).2 [] := by
  obtain ⟨messages, used, htold, hfront, -⟩ := call.run_ends hc.sized hc.whole hcall
  refine ⟨messages, used, htold, fun m hm => call.readable_messages m (hfront.subset hm), .of_no_data ?_⟩
  exact List.prefix_nil.mp (hnone ▸ payloads_prefix hfront)

theorem Channel.Good.start (hc : c.Good) (conn : Conn) : c.Leads (c.esWifiStartClientConnection conn).2 [] :=
  hc.call (.start conn) trivial (payloads_commands _)

theorem Channel.Good.stop (hc : c.Good) (number : Byte) : c.Leads (c.esWifiStopClientConnection number).2 [] :=
  hc.call (.stop number) trivial (payloads_commands _)

theorem Channel.Good.receive (hc : c.Good) (socket : Byte) (reqlen : BitVec 16) (timeout : BitVec 32) :
    c.Leads (c.esWifiReceiveData socket reqlen timeout).2.2 [] := by
  refine hc.call (.receive socket reqlen timeout) trivial ?_
  change payloads (receiveMessages socket reqlen timeout) = []
  rw [receiveMessages, payloads_append, payloads_commands]
  rfl

/-- A module that answers each exchange in whole words. -/
theorem answering_good (answers : List (List Byte)) : (answering answers).Good := by
  have hbefore : ¬crlf ++ text "OK" <:+ [] := by decide
  refine ⟨answering_sized answers, fun x hx _ => ?_, hbefore⟩
  obtain ⟨answer, -, rfl⟩ := List.mem_map.mp hx
  rfl

end leads

section send

variable {c : Channel} {pool : PacketPool} {start : Option Address} {nodes : List Address} {pdata : List Byte}
  {size : Nat} {r : Status × Nat × Channel}

theorem entryNumber_toNat (i : Entry) : (entryNumber i).toNat = i.val := by
  rw [entryNumber, BitVec.toNat_ofNat]
  exact Nat.mod_eq_of_lt (lt_trans i.isLt (by decide))

theorem sentLength_ofNat (hsize : sentLength (BitVec.ofNat 16 size) = size) : size ≤ esWifiPayloadSize :=
  hsize ▸ (sentLength_le _).1

theorem sentLength_small (hsize : size ≤ esWifiPayloadSize) : sentLength (BitVec.ofNat 16 size) = size := by
  rw [esWifiPayloadSize] at hsize
  rw [sentLength, BitVec.toNat_ofNat, Nat.mod_eq_of_lt (by omega), esWifiPayloadSize]
  split <;> omega

/-- The module got a piece, according to the result of the call that sent it. -/
def Taken (pdata : List Byte) (r : Status × Nat × Channel) : Prop := r.1 = .ok ∧ r.2.1 = pdata.length

/-- One piece: the module has a beginning of it, and all of it exactly if it is short enough and the module takes and
confirms it. -/
theorem Channel.Good.send_piece (hc : c.Good) (i : Entry) (hsize : size = pdata.length)
    (hr : c.esWifiSendData (entryNumber i) pdata (BitVec.ofNat 16 size) wifiWriteTimeout = r) :
    (∃ messages used, c.Told r.2.2 messages used ∧ (∀ m ∈ messages, m.Readable) ∧
      Routes messages ((payloads messages).map (Prod.mk i.val)) ∧ (payloads messages).flatten <+: pdata ∧
      (Taken pdata r → payloads messages = [pdata] ∧ used = 3)) ∧
    (Taken pdata r ↔ pdata.length ≤ esWifiPayloadSize ∧ c.Sends 0) := by
  subst hsize
  have hvalid : (BitVec.ofNat 16 pdata.length).toNat ≤ pdata.length := by
    rw [BitVec.toNat_ofNat]
    exact Nat.mod_le _ _
  obtain ⟨hends, hstatus⟩ := hc.sized.send_spec (entryNumber i) wifiWriteTimeout hc.whole hvalid
  rw [hr] at hends hstatus
  have hlength : r.1 = .ok → r.2.1 = sentLength (BitVec.ofNat 16 pdata.length) := fun hok => by
    rw [← hr, Channel.esWifiSendData] at hok ⊢
    simp only at hok ⊢
    rw [if_neg (by rw [hok]; simp)]
  have htaken : Taken pdata r ↔ pdata.length ≤ esWifiPayloadSize ∧ c.Sends 0 := by
    rw [Taken, hstatus]
    constructor
    · rintro ⟨hsends, hall⟩
      exact ⟨sentLength_ofNat ((hlength (hstatus.mpr hsends)).symm.trans hall), hsends⟩
    · rintro ⟨hsmall, hsends⟩
      exact ⟨hsends, (hlength (hstatus.mpr hsends)).trans (sentLength_small hsmall)⟩
  refine ⟨?_, htaken⟩
  obtain ⟨messages, used, htold, hfront, hall⟩ := hends
  have hpayloads : payloads (sendMessages (entryNumber i) pdata (BitVec.ofNat 16 pdata.length) wifiWriteTimeout) =
      [pdata.take (sentLength (BitVec.ofNat 16 pdata.length))] := by
    rw [sendMessages, payloads_append, payloads_commands]
    rfl
  have hroutes := Routes.of_send hfront
  rw [entryNumber_toNat] at hroutes
  refine ⟨messages, used, htold, fun m hm => ?_, hroutes, ?_, fun h => ?_⟩
  · exact (Call.send _ pdata _ _).readable_messages m (hfront.subset hm)
  · obtain ⟨rest, hrest⟩ := hfront
    have hboth := congrArg (fun ms => (payloads ms).flatten) hrest
    rw [payloads_append, List.flatten_append, hpayloads, List.flatten_singleton] at hboth
    exact (hboth ▸ List.prefix_append _ _).trans (List.take_prefix _ _)
  · obtain ⟨rfl, rfl⟩ := hall h.1
    rw [hpayloads, sentLength_small (htaken.mp h).1, List.take_length]
    exact ⟨rfl, rfl⟩

/-- The packets of a chain: the module has a beginning of their bytes, and all exactly if each is short enough and the
module takes and confirms it. The loop of the sockets has this result for the results that these calls have. -/
theorem Channel.Good.send_loop (hc : c.Good) (i : Entry) {fuel payloadSize : Nat}
    (hlinked : Linked (fun a => (pool.packet a).next) start nodes)
    (hbounded : ∀ a ∈ nodes, (pool.packet a).Bounded payloadSize) (hfuel : nodes.length ≤ fuel) :
    (∃ messages used, c.Told (sendLoopOver pool i fuel start c).2 messages used ∧ (∀ m ∈ messages, m.Readable) ∧
      Routes messages ((payloads messages).map (Prod.mk i.val)) ∧
      (payloads messages).flatten <+: (nodes.map fun a => (pool.packet a).bytes).flatten ∧
      ((sendLoopOver pool i fuel start c).1 = true → payloads messages = nodes.map fun a => (pool.packet a).bytes)) ∧
    ((sendLoopOver pool i fuel start c).1 = true ↔ ∀ k, ∀ hk : k < nodes.length,
      (pool.packet nodes[k]).bytes.length ≤ esWifiPayloadSize ∧ c.Sends (3 * k)) := by
  induction nodes generalizing start c fuel with
  | nil =>
      rw [linked_nil.mp hlinked]
      have hnothing : sendLoopOver pool i fuel none c = (true, c) := by cases fuel <;> rfl
      rw [hnothing]
      refine ⟨⟨[], 0, .refl hc.sized, fun _ hm => absurd hm List.not_mem_nil, fun _ => rfl, List.prefix_rfl,
        fun _ => rfl⟩, ?_⟩
      exact iff_of_true rfl fun k hk => absurd hk (Nat.not_lt_zero k)
  | cons a nodes ih =>
      obtain ⟨rfl, hrest⟩ := linked_cons.mp hlinked
      obtain ⟨fuel, rfl⟩ := Nat.exists_eq_succ_of_ne_zero (Nat.ne_of_gt (Nat.zero_lt_of_lt hfuel))
      have hsize := (hbounded a List.mem_cons_self).bytes_length.symm
      rw [sendLoopOver]
      generalize hr : c.esWifiSendData (entryNumber i) (pool.packet a).bytes (BitVec.ofNat 16 (pool.packet a).size)
        wifiWriteTimeout = r
      obtain ⟨⟨messages, used, htold, hreadable, hroutes, hfront, hall⟩, htaken⟩ := hc.send_piece i hsize hr
      rw [Taken, ← hsize] at hall
      rw [Taken] at htaken
      by_cases hthis : r.1 = .ok ∧ r.2.1 = (pool.packet a).size
      · rw [if_pos hthis]
        obtain ⟨hpiece, rfl⟩ := hall hthis
        have hnext : r.2.2.Good := hc.leads ⟨messages, 3, htold, hreadable, hroutes⟩
        obtain ⟨⟨messages', used', htold', hreadable', hroutes', hfront', hall'⟩, hloop⟩ := ih hnext hrest
          (fun b hb => hbounded b (List.mem_cons_of_mem a hb)) (Nat.le_of_succ_le_succ hfuel)
        refine ⟨⟨messages ++ messages', 3 + used', htold.trans htold', fun m hm =>
          (List.mem_append.mp hm).elim (hreadable m) (hreadable' m), ?_, ?_, fun h => ?_⟩, ?_⟩
        · rw [payloads_append, List.map_append]
          exact hroutes.append hroutes'
        · rw [payloads_append, hpiece, List.singleton_append, List.map_cons, List.flatten_cons, List.flatten_cons]
          exact (List.prefix_append_right_inj _).mpr hfront'
        · rw [payloads_append, hpiece, hall' h]
          rfl
        · rw [hloop]
          constructor
          · intro h k hk
            cases k with
            | zero =>
                rw [hsize] at hthis
                exact htaken.mp hthis
            | succ k =>
                obtain ⟨hsmall, hsends⟩ := h k (Nat.lt_of_succ_lt_succ hk)
                rw [htold.sends, Nat.add_comm] at hsends
                exact ⟨hsmall, hsends⟩
          · intro h k hk
            obtain ⟨hsmall, hsends⟩ := h (k + 1) (Nat.succ_lt_succ hk)
            rw [htold.sends, Nat.add_comm]
            exact ⟨hsmall, hsends⟩
      · rw [if_neg hthis]
        refine ⟨⟨messages, used, htold, hreadable, hroutes, ?_, fun h => absurd h Bool.false_ne_true⟩, ?_⟩
        · rw [List.map_cons, List.flatten_cons]
          exact hfront.trans (List.prefix_append _ _)
        · refine iff_of_false Bool.false_ne_true fun h => hthis ?_
          rw [hsize]
          exact htaken.mpr (h 0 (Nat.succ_pos _))

/-- What a send over the module does with the data of a packet. It succeeds exactly if the connection is open, each
packet of the chain is short enough, and the module takes and confirms each in its exchanges. -/
structure SentOver (s : WifiRun) (a : Address) (data : List Byte) (opened : Prop) (c : Channel)
    (r : NetX.Status × Sockets × Channel) : Prop where
  told : ∃ messages used, c.Told r.2.2 messages used ∧ readFrames (messages.flatMap Message.frames) = messages ∧
    (payloads messages).flatten <+: data ∧ (r.1 = .success → (payloads messages).flatten = data)
  success_iff : r.1 = .success ↔ opened ∧ ∀ k, ∀ hk : k < (chainPackets s.wifi.pool a).length,
    (s.wifi.pool.packet (chainPackets s.wifi.pool a)[k]).bytes.length ≤ esWifiPayloadSize ∧ c.Sends (3 * k)

theorem SentOver.refused {s : WifiRun} {a : Address} {data : List Byte} {opened : Prop}
    {r : NetX.Status × Sockets × Channel} (hc : c.Good)
    (hclosed : ¬opened) (hr : r = (.notSuccessful, s.wifi, c)) : SentOver s a data opened c r := by
  subst hr
  refine ⟨⟨[], 0, .refl hc.sized, rfl, List.nil_prefix, fun h => by cases h⟩, iff_of_false ?_ fun h => hclosed h.1⟩
  simp

end send

/-- The module gave a piece for the connection of an entry. In what it was told on the way to `last` there is the choice
of the connection with a request for data behind it, and the exchange of this request has the piece for its answer. -/
def Channel.Offered (c last : Channel) (i : Entry) (piece : List Byte) : Prop :=
  ∃ before after timeout all k bytes,
    c.Told last (before ++ receiveMessages (entryNumber i) (BitVec.ofNat 16 esWifiPayloadSize) timeout ++ after) all ∧
    c.takenIn k = before.length + 3 ∧ (c.exchangeAt k).taken = true ∧ (c.exchangeAt k).reply.Gives bytes ∧
    ((∃ data, Framed bytes data ∧ piece = data.take esWifiPayloadSize) ∨
      Bare bytes ∧ ∃ memory, piece = (text "OK\r\n> " ++ 0 :: memory).take esWifiPayloadSize)

section receive

variable {c next last : Channel} {out : List (Nat × List Byte)} {piece : List Byte} {s : Sockets} {i : Entry}

theorem Channel.Leads.offered (h : c.Leads next out) (hpiece : next.Offered last i piece) : c.Offered last i piece := by
  obtain ⟨first, used, htold, -⟩ := h
  obtain ⟨before, after, timeout, all, k, bytes, hall, hcount, hrequest⟩ := hpiece
  have hwhole := htold.trans hall
  rw [← List.append_assoc, ← List.append_assoc] at hwhole
  rw [htold.exchangeAt] at hrequest
  refine ⟨first ++ before, after, timeout, _, used + k, bytes, hwhole, ?_, hrequest⟩
  rw [htold.takenIn, hcount, List.length_append, Nat.add_assoc]

theorem Channel.Offered.later (h : c.Offered next i piece) (hleads : next.Leads last out) : c.Offered last i piece := by
  obtain ⟨before, after, timeout, all, k, bytes, hall, hrequest⟩ := h
  obtain ⟨rest, used, htold, -⟩ := hleads
  have hwhole := hall.trans htold
  rw [List.append_assoc] at hwhole
  exact ⟨before, after ++ rest, timeout, _, k, bytes, hwhole, hrequest⟩

theorem Channel.exchangeAt_mem {k : Nat} (htaken : (c.exchangeAt k).taken = true) : c.exchangeAt k ∈ c.exchanges := by
  rw [Channel.exchangeAt] at htaken ⊢
  cases hdrop : c.exchanges.drop k with
  | nil =>
      rw [hdrop] at htaken
      exact absurd htaken (by simp)
  | cons x rest => exact List.mem_of_mem_drop (hdrop ▸ List.mem_cons_self)

/-- One read: what it gives was in the answer to its request. -/
theorem Channel.Good.read (hc : c.Good) (i : Entry) (timeout : BitVec 32) :
    c.Leads (readOver i timeout c).2 [] ∧ (readOver i timeout c).1.length ≤ esWifiPayloadSize ∧
      ((readOver i timeout c).1 ≠ [] → c.Offered (readOver i timeout c).2 i (readOver i timeout c).1) := by
  refine ⟨hc.receive (entryNumber i) (BitVec.ofNat 16 esWifiPayloadSize) timeout, ?_⟩
  rw [readOver]
  simp only
  by_cases hok : (c.esWifiReceiveData (entryNumber i) (BitVec.ofNat 16 esWifiPayloadSize) timeout).1 = .ok
  · rw [if_pos hok]
    obtain ⟨bytes, hgets, hanswer⟩ := hc.sized.receive_answer hc.before hok
    have hanswered := hc.sized.receive_gets (entryNumber i) timeout hc.before hgets
    have hends := hc.sized.receive_ends (entryNumber i) (BitVec.ofNat 16 esWifiPayloadSize) timeout
    rw [hok] at hends
    have htold := hends.told
    rw [← List.append_nil (receiveMessages _ _ _)] at htold
    obtain ⟨_, hcommands, -⟩ := hgets.1.receive hc.sized (entryNumber i) timeout
    refine ⟨hanswered.length_le hok, fun _ => ⟨[], [], timeout, _, 3, bytes, htold, hcommands.taken, hgets.2.1,
      hgets.2.2, ?_⟩⟩
    rcases hanswer with ⟨data, hframed⟩ | hbare
    · exact Or.inl ⟨data, hframed, hanswered.framed data hframed⟩
    · exact Or.inr ⟨hbare, hanswered.bare hbare⟩
  · rw [if_neg hok]
    exact ⟨Nat.zero_le _, fun h => absurd rfl h⟩

/-- A read that gives something takes exchanges. -/
theorem Channel.Good.read_takes (hc : c.Good) {i : Entry} {timeout : BitVec 32}
    (hdata : (readOver i timeout c).1 ≠ []) :
    (readOver i timeout c).2.exchanges.length < c.exchanges.length := by
  simp only [readOver] at hdata ⊢
  by_cases hok : (c.esWifiReceiveData (entryNumber i) (BitVec.ofNat 16 esWifiPayloadSize) timeout).1 = .ok
  · obtain ⟨messages, used, htold, -, hall⟩ :=
      hc.sized.receive_ends (entryNumber i) (BitVec.ofNat 16 esWifiPayloadSize) timeout
    have hused : 0 < used := (hall hok).2 ▸ Nat.succ_pos _
    obtain ⟨bytes, hgets, -⟩ := hc.sized.receive_answer hc.before hok
    have hsome := List.length_pos_of_mem (Channel.exchangeAt_mem hgets.2.1)
    rw [htold.exchanges, List.length_drop]
    omega
  · rw [if_neg hok] at hdata
    exact absurd rfl hdata

/-- The loop of a receive is that of the sockets, for some attempts. -/
theorem Channel.Good.receive_loop (hc : c.Good) (i : Entry) (total : Nat) (elapsed : List Nat) :
    ∃ attempts, Wifi.receiveLoop total attempts = (receiveLoopOver i total elapsed c).1 ∧
      c.Leads (receiveLoopOver i total elapsed c).2 [] ∧
      ∀ data, (receiveLoopOver i total elapsed c).1 = some data → data ≠ [] →
        c.Offered (receiveLoopOver i total elapsed c).2 i data := by
  induction elapsed generalizing total c with
  | nil =>
      cases total with
      | zero => exact ⟨[], rfl, hc.refl, fun data hdata hne => absurd (Option.some.inj hdata).symm hne⟩
      | succ total => exact ⟨[], rfl, hc.refl, fun data hdata => by cases hdata⟩
  | cons ticks elapsed ih =>
      cases total with
      | zero => exact ⟨[], rfl, hc.refl, fun data hdata hne => absurd (Option.some.inj hdata).symm hne⟩
      | succ total =>
          obtain ⟨hleads, -, hoffered⟩ := hc.read i (BitVec.ofNat 32 (min (total + 1) esWifiTimeout))
          rw [receiveLoopOver]
          generalize readOver i (BitVec.ofNat 32 (min (total + 1) esWifiTimeout)) c = r at hleads hoffered ⊢
          by_cases hempty : r.1.isEmpty = true
          · rw [if_pos hempty]
            obtain ⟨attempts, hloop, hrest, hdata⟩ := ih (hc.leads hleads) (total + 1 - nxWifiTickConvertMs ticks)
            refine ⟨⟨r.1, ticks⟩ :: attempts, ?_, hleads.trans hrest, fun data h hne => ?_⟩
            · rw [Wifi.receiveLoop, if_pos hempty, hloop]
            · exact hleads.offered (hdata data h hne)
          · rw [if_neg hempty]
            refine ⟨[⟨r.1, ticks⟩], ?_, hleads, fun data h hne => ?_⟩
            · rw [Wifi.receiveLoop, if_neg hempty]
            · rw [← Option.some.inj h] at hne ⊢
              exact hoffered hne

/-- A receive is that of the sockets, for some attempts. -/
theorem Channel.Good.receive_socket (hc : c.Good) (s : Sockets) {socketPtr : Nat} (waitOption : Nat)
    (elapsed : List Nat) (hfind : nxWifiSocketEntryFind s.socket socketPtr true = some i) :
    ∃ attempts, nxWifiSocketReceive s socketPtr waitOption attempts = (receiveOver s socketPtr waitOption elapsed c).1 ∧
      c.Leads (receiveOver s socketPtr waitOption elapsed c).2 [] ∧
      ∀ out, (receiveOver s socketPtr waitOption elapsed c).1 = some out → ∀ piece ∈ out.2.1,
        c.Offered (receiveOver s socketPtr waitOption elapsed c).2 i piece := by
  rw [receiveOver, hfind]
  by_cases hi : (s.socket i).connected = true
  · simp only [hi, if_true]
    cases hhead : (s.socket i).receivedPacketHead with
    | some a =>
        refine ⟨[], ?_, hc.refl, fun out hout piece hpiece => ?_⟩
        · simp only [nxWifiSocketReceive, hfind, hi, if_true, hhead]
        · rw [← Option.some.inj hout] at hpiece
          exact absurd hpiece List.not_mem_nil
    | none =>
        obtain ⟨attempts, hloop, hleads, hoffered⟩ := hc.receive_loop i (nxWifiTickConvertMs waitOption) elapsed
        refine ⟨attempts, ?_, hleads, fun out hout piece hpiece => ?_⟩
        · simp only [nxWifiSocketReceive, hfind, hi, if_true, hhead, hloop]
        · obtain ⟨data, hdata, rfl⟩ := Option.map_eq_some_iff.mp hout
          have hread : piece = data ∧ data ≠ [] := by
            rw [receiveRead] at hpiece
            split at hpiece
            · exact absurd hpiece List.not_mem_nil
            · rename_i hempty
              refine ⟨?_, fun hnil => hempty (List.isEmpty_iff.mpr hnil)⟩
              split at hpiece <;> exact List.mem_singleton.mp hpiece
          exact hread.1 ▸ hoffered data hdata hread.2
  · simp only [hi]
    refine ⟨[], by simp [nxWifiSocketReceive, hfind, hi], hc.refl, fun out hout piece hpiece => ?_⟩
    rw [← Option.some.inj hout] at hpiece
    exact absurd hpiece List.not_mem_nil

/-- The reads of one entry are those of the sockets, for what the module has. -/
theorem Channel.Good.poll_entry (hc : c.Good) (i : Entry) (fuel : Nat) (s : Sockets) :
    ∃ reads, pollEntry i s reads = ((pollEntryOver i fuel s c).1, (pollEntryOver i fuel s c).2.1) ∧
      (∀ data ∈ reads, data.length ≤ esWifiPayloadSize) ∧ c.Leads (pollEntryOver i fuel s c).2.2 [] ∧
      ∀ piece ∈ (pollEntryOver i fuel s c).2.1, c.Offered (pollEntryOver i fuel s c).2.2 i piece := by
  have hnone : ∀ {P : List Byte → Prop}, ∀ data ∈ ([] : List (List Byte)), P data :=
    fun _ h => absurd h List.not_mem_nil
  induction fuel generalizing s c with
  | zero => exact ⟨[], rfl, hnone, hc.refl, hnone⟩
  | succ fuel ih =>
      rw [pollEntryOver]
      by_cases hshort : poolShort s.pool = true
      · rw [if_pos hshort]
        exact ⟨[], rfl, hnone, hc.refl, hnone⟩
      rw [if_neg hshort]
      obtain ⟨hleads, hlength, hoffered⟩ := hc.read i wifiReadTimeout
      generalize readOver i wifiReadTimeout c = r at hleads hlength hoffered ⊢
      by_cases hempty : r.1.isEmpty = true
      · simp only [if_pos hempty]
        exact ⟨[], rfl, hnone, hleads, hnone⟩
      simp only [if_neg hempty]
      have hthis := hoffered fun hnil => hempty (List.isEmpty_iff.mpr hnil)
      rcases hstore : storeData s.pool r.1 with ⟨_ | a, pool⟩
      · refine ⟨[r.1], ?_, List.forall_mem_singleton.mpr hlength, hleads, List.forall_mem_singleton.mpr hthis⟩
        rw [pollEntry, if_neg hshort, if_neg hempty, hstore]
      · obtain ⟨reads, hpoll, hreads, hrest, hpieces⟩ :=
          ih (hc.leads hleads) (Sockets.enqueue { s with pool := pool } i a)
        refine ⟨r.1 :: reads, ?_, List.forall_mem_cons.mpr ⟨hlength, hreads⟩, hleads.trans hrest,
          List.forall_mem_cons.mpr ⟨hthis.later hrest, fun piece hpiece => hleads.offered (hpieces piece hpiece)⟩⟩
        rw [pollEntry, if_neg hshort, if_neg hempty, hstore]
        simp only [hpoll]

/-- With more fuel than there are exchanges, the reads of one entry end before it does. -/
theorem Channel.Good.poll_entry_fuel (hc : c.Good) (i : Entry) {fuel fuel' : Nat} (s : Sockets)
    (hfuel : c.exchanges.length < fuel) (hfuel' : c.exchanges.length < fuel') :
    pollEntryOver i fuel s c = pollEntryOver i fuel' s c := by
  induction fuel generalizing fuel' s c with
  | zero => exact absurd hfuel (Nat.not_lt_zero _)
  | succ fuel ih =>
      obtain ⟨fuel', rfl⟩ := Nat.exists_eq_succ_of_ne_zero (Nat.ne_zero_of_lt hfuel')
      simp only [pollEntryOver]
      by_cases hempty : (readOver i wifiReadTimeout c).1.isEmpty = true
      · simp only [if_pos hempty]
      · have htakes := hc.read_takes fun hnil => hempty (List.isEmpty_iff.mpr hnil)
        have hrest := fun s => ih (hc.leads (hc.read i wifiReadTimeout).1) s
          (lt_of_lt_of_le htakes (Nat.lt_succ_iff.mp hfuel)) (lt_of_lt_of_le htakes (Nat.lt_succ_iff.mp hfuel'))
        simp only [hrest]

theorem pollLoop_congr {reads reads' : Entry → List (List Byte)} {entries : List Entry} (socketCounter : Nat)
    (h : ∀ i ∈ entries, reads i = reads' i) (s : Sockets) :
    pollLoop reads entries socketCounter s = pollLoop reads' entries socketCounter s := by
  induction entries generalizing socketCounter s with
  | nil => rfl
  | cons i entries ih =>
      obtain ⟨hi, hrest⟩ := List.forall_mem_cons.mp h
      simp only [pollLoop, hi, ih _ hrest]

/-- The reads of the entries are those of the sockets, for what the module has. -/
theorem Channel.Good.poll_loop (hc : c.Good) {entries : List Entry} (hnodup : entries.Nodup) (socketCounter : Nat)
    (s : Sockets) :
    ∃ reads, pollLoop reads entries socketCounter s =
        ((pollLoopOver entries socketCounter s c).1, (pollLoopOver entries socketCounter s c).2.1) ∧
      (∀ i, ∀ data ∈ reads i, data.length ≤ esWifiPayloadSize) ∧
      c.Leads (pollLoopOver entries socketCounter s c).2.2 [] ∧
      ∀ i, ∀ piece ∈ (pollLoopOver entries socketCounter s c).2.1 i,
        c.Offered (pollLoopOver entries socketCounter s c).2.2 i piece := by
  have hnone : ∀ {P : Entry → List Byte → Prop} (i : Entry), ∀ data ∈ ([] : List (List Byte)), P i data :=
    fun _ _ h => absurd h List.not_mem_nil
  induction entries generalizing socketCounter s c with
  | nil => exact ⟨fun _ => [], rfl, hnone, hc.refl, hnone⟩
  | cons i entries ih =>
      obtain ⟨hi, hnodup⟩ := List.nodup_cons.mp hnodup
      rw [pollLoopOver]
      by_cases hcounter : (socketCounter : Int) < s.socketCounter
      · rw [if_pos hcounter]
        by_cases huse : ((s.socket i).valid && (s.socket i).connected) = true
        · simp only [if_pos huse]
          obtain ⟨mine, hpoll, hmine, hleads, hpieces⟩ := hc.poll_entry i (c.exchanges.length + 1) s
          generalize pollEntryOver i (c.exchanges.length + 1) s c = r at hpoll hleads hpieces ⊢
          obtain ⟨others, hloop, hothers, hrest, hotherPieces⟩ := ih (hc.leads hleads) hnodup (socketCounter + 1) r.1
          -- No entry comes twice, so that its reads stand beside those of the others.
          refine ⟨Function.update others i mine, ?_, fun j => ?_, hleads.trans hrest, fun j => ?_⟩
          · have hsame : pollLoop (Function.update others i mine) entries (socketCounter + 1) r.1 =
                pollLoop others entries (socketCounter + 1) r.1 :=
              pollLoop_congr _ (fun j hj => Function.update_of_ne (fun heq : j = i => hi (heq ▸ hj)) ..) r.1
            simp only [pollLoop, if_pos hcounter, if_pos huse, Function.update_self, hpoll, hsame, hloop]
          · by_cases hj : j = i
            · subst hj
              rwa [Function.update_self]
            · rw [Function.update_of_ne hj]
              exact hothers j
          · by_cases hj : j = i
            · subst hj
              rw [Function.update_self]
              exact fun piece hpiece => (hpieces piece hpiece).later hrest
            · rw [Function.update_of_ne hj]
              exact fun piece hpiece => hleads.offered (hotherPieces j piece hpiece)
        · simp only [if_neg huse]
          obtain ⟨reads, hloop, hrest⟩ := ih hc hnodup socketCounter s
          refine ⟨reads, ?_, hrest⟩
          simp only [pollLoop, if_pos hcounter, if_neg huse, hloop]
      · rw [if_neg hcounter]
        refine ⟨fun _ => [], ?_, hnone, hc.refl, hnone⟩
        rw [pollLoop, if_neg hcounter]

end receive

section sockets

variable {p : PoolMemory} {s : WifiRun} {a : Address} {data : List Byte} {c : Channel}

/-- In every state of the sockets, a send over the module puts a beginning of the packet's bytes into frames, from which
the module reads them back; on success these are all of its bytes. -/
theorem tcp_send_over {pool : PacketPool} (hcreate : nxePacketPoolCreate p = .ok pool)
    (hs : (wifiMachine pool).Reachable s) (ha : (a, data) ∈ s.held) (hc : c.Good) (socketPtr : Nat) :
    SentOver s a data
      (∃ i, nxWifiSocketEntryFind s.wifi.socket socketPtr true = some i ∧ (s.wifi.socket i).connected = true) c
      (tcpSendOver s.wifi socketPtr a c) := by
  obtain ⟨free, chains, queues, h⟩ := wifi_faithful hcreate hs
  obtain ⟨d, others, rfl, hbytes, hd, -⟩ := h.sockets.packets.exists_chain ha
  rw [tcpSendOver]
  cases hfind : nxWifiSocketEntryFind s.wifi.socket socketPtr true with
  | none => exact .refused hc (by simp) rfl
  | some i =>
      by_cases hi : (s.wifi.socket i).connected = true
      · simp only [hi, if_true]
        have hholds : Holds s.wifi.pool free (d :: (others ++ queued queues)) := hd.holds
        have hchained := hholds.chained d List.mem_cons_self
        have hchain : chainPackets s.wifi.pool d.head = d.packets := chainPackets_eq hholds List.mem_cons_self
        obtain ⟨⟨messages, used, htold, hreadable, -, hfront, hall⟩, hloop⟩ :=
          hc.send_loop i hchained.linked_packets hchained.bounded hholds.packets_length_le
        have hflatten : (d.packets.map fun b => (s.wifi.pool.packet b).bytes).flatten = data := by
          rw [← hbytes, PacketPool.bytesOf, List.flatMap_def]
        rw [hflatten] at hfront
        have hstatus : (sendPacketOver s.wifi i d.head c).1 = .success ↔
            (sendLoopOver s.wifi.pool i s.wifi.pool.total (some d.head) c).1 = true := by
          rw [sendPacketOver]
          split <;> simp [*]
        have hchannel : (sendPacketOver s.wifi i d.head c).2.2 =
            (sendLoopOver s.wifi.pool i s.wifi.pool.total (some d.head) c).2 := by
          rw [sendPacketOver]
          split <;> rfl
        refine ⟨⟨messages, used, hchannel ▸ htold, readFrames_frames hreadable, hfront, fun hsuccess => ?_⟩, ?_⟩
        · rw [hall (hstatus.mp hsuccess), hflatten]
        · rw [hstatus, hloop, hchain]
          exact (and_iff_right ⟨i, rfl, hi⟩).symm
      · simp only [hi]
        exact .refused hc (by simpa using hi) rfl

theorem tcp_send_over_small : ∃ s, (wifiMachine (nxPacketPoolCreate wifiMemory)).Reachable s ∧
    SentOver s 32 [1, 2]
      (∃ i, nxWifiSocketEntryFind s.wifi.socket 7 true = some i ∧ (s.wifi.socket i).connected = true)
      (answering (List.replicate 3 atOkString))
      (tcpSendOver s.wifi 7 32 (answering (List.replicate 3 atOkString))) := by
  obtain ⟨s, hs, -, ha⟩ := wifiCalls_log
  exact ⟨s, hs, tcp_send_over wifiMemory_created hs ha (answering_good _) 7⟩

end sockets

end DeviceSample.EsWifi
