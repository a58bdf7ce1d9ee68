import DeviceSample.EsWifiSockets

/-!
Runs of the sockets over the module. Each of their steps is a step of the sockets, for results that the exchanges with
the module have, so that what holds in every run of the sockets holds here.
-/

namespace DeviceSample.EsWifi

open Base NetX Wifi

/-- What an entry was given to send, and the status of the send. -/
structure Sent where
  entry : Entry
  data : List Byte
  status : NetX.Status
  deriving DecidableEq

/-- The module has a beginning of what was to be sent, in pieces for the entry's connection; all of it if the send
succeeded. -/
def Delivered (out : List (Nat × List Byte)) (sent : Sent) : Prop :=
  ∃ pieces : List (List Byte), out = pieces.map (Prod.mk sent.entry.val) ∧ pieces.flatten <+: sent.data ∧
    (sent.status = .success → pieces.flatten = sent.data)

/-- The sockets, the channel to the module, and the sends of the entries. -/
structure ModuleRun where
  run : WifiRun
  channel : Channel
  sends : List Sent

/-- A call, a round of the thread, or an operation on packets that are held. A receive has the ticks behind each of its
reads. -/
inductive ModuleCall
  | connect (socketPtr : Nat) (conn : Conn)
  | disconnect (socketPtr : Nat)
  | bind (socketPtr : Nat)
  | unbind (socketPtr : Nat)
  | tcpSend (socketPtr : Nat) (a : Address)
  | udpSend (socketPtr : Nat) (a : Address) (conn : Conn)
  | receive (socketPtr waitOption : Nat) (elapsed : List Nat)
  | threadRound
  | packet (call : PacketCall)

namespace ModuleRun

/-- The sockets after a call that opens or closes. -/
def renewed (s : ModuleRun) (r : NetX.Status × Sockets × Channel) : ModuleRun :=
  ⟨WifiRun.renew r.2.1 s.run.held s.run.log, r.2.2, s.sends⟩

/-- The sockets after a send. -/
def sent (s : ModuleRun) (socketPtr : Nat) (a : Address) (data : List Byte) (r : NetX.Status × Sockets × Channel) :
    ModuleRun :=
  ⟨s.run.sent a data (r.1, [], r.2.1), r.2.2,
    s.sends ++ (nxWifiSocketEntryFind s.run.wifi.socket socketPtr true).toList.map fun i => ⟨i, data, r.1⟩⟩

/-- A step. -/
def step (s : ModuleRun) : ModuleCall → Option ModuleRun
  | .connect socketPtr conn => some (s.renewed (connectOver s.run.wifi socketPtr conn s.channel))
  | .disconnect socketPtr => some (s.renewed (closeOver s.run.wifi socketPtr s.channel))
  | .bind socketPtr =>
      let r := nxWifiUdpSocketBind s.run.wifi socketPtr
      some (s.renewed (r.1, r.2, s.channel))
  | .unbind socketPtr => some (s.renewed (closeOver s.run.wifi socketPtr s.channel))
  | .tcpSend socketPtr a =>
      (s.run.held.lookup a).map fun data => s.sent socketPtr a data (tcpSendOver s.run.wifi socketPtr a s.channel)
  | .udpSend socketPtr a conn =>
      (s.run.held.lookup a).map fun data =>
        s.sent socketPtr a data (udpSendOver s.run.wifi socketPtr a conn s.channel)
  | .receive socketPtr waitOption elapsed =>
      match nxWifiSocketEntryFind s.run.wifi.socket socketPtr true with
      | none => some s
      | some i =>
          let r := receiveOver s.run.wifi socketPtr waitOption elapsed s.channel
          r.1.map fun out => ⟨s.run.received i out, r.2, s.sends⟩
  | .threadRound =>
      let r := threadRoundOver s.run.wifi s.channel
      some ⟨s.run.polled (r.1, r.2.1), r.2.2, s.sends⟩
  | .packet call => (s.run.step (.packet call)).map fun run => ⟨run, s.channel, s.sends⟩

end ModuleRun

/-- The runs from the initialization, with a pool that was created with success and a channel. -/
def moduleMachine (pool : PacketPool) (c : Channel) : Machine ModuleRun ModuleCall where
  start := ⟨(wifiMachine pool).start, c, []⟩
  step := ModuleRun.step

section steps

variable {c : Channel} {s : Sockets} {a : Address} {nodes free : List Address} {chains : List Chain} {d : Chain}

theorem Channel.Good.connect (hc : c.Good) (s : Sockets) (socketPtr : Nat) (conn : Conn) :
    ∃ opened, nxWifiTcpClientSocketConnect s socketPtr opened =
        ((connectOver s socketPtr conn c).1, (connectOver s socketPtr conn c).2.1) ∧
      c.Leads (connectOver s socketPtr conn c).2.2 [] := by
  rw [connectOver]
  cases hfind : nxWifiSocketEntryFind s.socket socketPtr false with
  | none => exact ⟨false, by rw [nxWifiTcpClientSocketConnect, hfind], hc.refl⟩
  | some i =>
      have hleads := hc.start { conn with type := .tcp, number := entryNumber i }
      by_cases hok : (c.esWifiStartClientConnection { conn with type := .tcp, number := entryNumber i }).1 = .ok
      · simp only [if_pos hok]
        exact ⟨true, by simp only [nxWifiTcpClientSocketConnect, hfind, if_true], hleads⟩
      · simp only [if_neg hok]
        exact ⟨false, by simp [nxWifiTcpClientSocketConnect, hfind], hleads⟩

theorem Channel.Good.close (hc : c.Good) (s : Sockets) (socketPtr : Nat) :
    closeEntry s socketPtr = ((closeOver s socketPtr c).1, (closeOver s socketPtr c).2.1) ∧
      c.Leads (closeOver s socketPtr c).2.2 [] := by
  rw [closeOver, closeEntry]
  cases nxWifiSocketEntryFind s.socket socketPtr true with
  | none => exact ⟨rfl, hc.refl⟩
  | some i =>
      by_cases hi : (s.socket i).connected = true
      · simp only [if_pos hi]
        exact ⟨trivial, hc.stop (entryNumber i)⟩
      · simp only [if_neg hi]
        exact ⟨trivial, hc.refl⟩

theorem sendPacket_eq (s : Sockets) (a : Address) (results : List (Bool × Nat)) :
    sendPacket s a results = if (sendLoop s.pool s.pool.total (some a) results).1 then
        (.success, (sendLoop s.pool s.pool.total (some a) results).2, { s with pool := (nxPacketRelease s.pool a).2 })
      else (.notSuccessful, (sendLoop s.pool s.pool.total (some a) results).2, s) := by
  rw [sendPacket]
  rcases sendLoop s.pool s.pool.total (some a) results with ⟨_ | _, pieces⟩ <;> rfl

theorem Delivered.none {sent : Sent} (hstatus : sent.status ≠ .success) : Delivered [] sent :=
  ⟨[], rfl, List.nil_prefix, fun h => absurd h hstatus⟩

theorem Channel.Leads.single {next : Channel} {out : List (Nat × List Byte)} (h : c.Leads next out) :
    c.Leads next [out].flatten := by rwa [List.flatten_singleton]

/-- The end of a send is that of the sockets, for some results. -/
theorem Channel.Good.send_packet (hc : c.Good) (i : Entry)
    (hlinked : Linked (fun b => (s.pool.packet b).next) (some a) nodes)
    (hbounded : ∀ b ∈ nodes, (s.pool.packet b).Bounded s.pool.payloadSize) (hfuel : nodes.length ≤ s.pool.total) :
    ∃ results pieces out, sendPacket s a results = ((sendPacketOver s i a c).1, pieces, (sendPacketOver s i a c).2.1) ∧
      c.Leads (sendPacketOver s i a c).2.2 out ∧
      Delivered out ⟨i, s.pool.bytesOf nodes, (sendPacketOver s i a c).1⟩ := by
  obtain ⟨⟨messages, used, htold, hreadable, hroutes, hfront, hall⟩, -⟩ := hc.send_loop i hlinked hbounded hfuel
  have hleads : c.Leads (sendLoopOver s.pool i s.pool.total (some a) c).2 ((payloads messages).map (Prod.mk i.val)) :=
    ⟨messages, used, htold, hreadable, hroutes⟩
  rw [← List.flatMap_def] at hfront
  rw [sendPacketOver]
  by_cases hsent : (sendLoopOver s.pool i s.pool.total (some a) c).1 = true
  · have hwhole :=
      (sendLoop_spec (nodes.map fun b => (true, (s.pool.packet b).size)) hlinked hfuel).2.2.mpr List.prefix_rfl
    have hrun := (sendPacket_eq s a (nodes.map fun b => (true, (s.pool.packet b).size))).trans (if_pos hwhole)
    rw [if_pos hsent]
    refine ⟨_, _, _, hrun, hleads, payloads messages, rfl, hfront, fun _ => ?_⟩
    rw [hall hsent, ← List.flatMap_def]
    rfl
  -- A send that fails leaves the sockets as they are, so that a module that takes nothing gives the same end.
  · have hstop : (sendLoop s.pool s.pool.total (some a) []).1 ≠ true := fun h => by
      have hnil := List.map_eq_nil_iff.mp (List.prefix_nil.mp ((sendLoop_spec [] hlinked hfuel).2.2.mp h))
      rw [hnil] at hlinked
      cases linked_nil.mp hlinked
    have hrun := (sendPacket_eq s a []).trans (if_neg hstop)
    rw [if_neg hsent]
    exact ⟨_, _, _, hrun, hleads, payloads messages, rfl, hfront, fun h => by cases h⟩

theorem Channel.Good.tcp_send (hc : c.Good) (h : Holds s.pool free (d :: chains)) (socketPtr : Nat) :
    ∃ results pieces parts, nxWifiTcpSocketSend s socketPtr d.head results =
        ((tcpSendOver s socketPtr d.head c).1, pieces, (tcpSendOver s socketPtr d.head c).2.1) ∧
      c.Leads (tcpSendOver s socketPtr d.head c).2.2 parts.flatten ∧
      List.Forall₂ Delivered parts ((nxWifiSocketEntryFind s.socket socketPtr true).toList.map fun i =>
        ⟨i, s.pool.bytesOf d.packets, (tcpSendOver s socketPtr d.head c).1⟩) := by
  have hchained := h.chained d List.mem_cons_self
  rw [tcpSendOver]
  simp only [nxWifiTcpSocketSend]
  cases nxWifiSocketEntryFind s.socket socketPtr true with
  | none => exact ⟨[], _, [], rfl, hc.refl, .nil⟩
  | some i =>
      by_cases hi : (s.socket i).connected = true
      · simp only [if_pos hi]
        obtain ⟨results, pieces, out, hrun, hleads, hdelivered⟩ :=
          hc.send_packet i hchained.linked_packets hchained.bounded h.packets_length_le
        exact ⟨results, pieces, [out], hrun, hleads.single, .cons hdelivered .nil⟩
      · simp only [if_neg hi]
        exact ⟨[], _, [[]], rfl, hc.refl, .cons (.none (by simp)) .nil⟩

theorem Channel.Good.udp_send (hc : c.Good) (h : Holds s.pool free (d :: chains)) (socketPtr : Nat) (conn : Conn) :
    ∃ opened results pieces parts, nxWifiUdpSocketSend s socketPtr d.head opened results =
        ((udpSendOver s socketPtr d.head conn c).1, pieces, (udpSendOver s socketPtr d.head conn c).2.1) ∧
      c.Leads (udpSendOver s socketPtr d.head conn c).2.2 parts.flatten ∧
      List.Forall₂ Delivered parts ((nxWifiSocketEntryFind s.socket socketPtr true).toList.map fun i =>
        ⟨i, s.pool.bytesOf d.packets, (udpSendOver s socketPtr d.head conn c).1⟩) := by
  have hchained := h.chained d List.mem_cons_self
  rw [udpSendOver]
  simp only [nxWifiUdpSocketSend]
  cases nxWifiSocketEntryFind s.socket socketPtr true with
  | none => exact ⟨false, [], _, [], rfl, hc.refl, .nil⟩
  | some i =>
      by_cases hi : (s.socket i).connected = true
      · simp only [if_pos hi]
        obtain ⟨results, pieces, out, hrun, hleads, hdelivered⟩ :=
          hc.send_packet i hchained.linked_packets hchained.bounded h.packets_length_le
        exact ⟨false, results, pieces, [out], hrun, hleads.single, .cons hdelivered .nil⟩
      · simp only [if_neg hi]
        have hleads := hc.start { conn with type := .udp, number := entryNumber i }
        by_cases hok : (c.esWifiStartClientConnection { conn with type := .udp, number := entryNumber i }).1 = .ok
        · obtain ⟨results, pieces, out, hrun, hrest, hdelivered⟩ :=
            (hc.leads hleads).send_packet (s := s.setConnected i) i hchained.linked_packets hchained.bounded
              h.packets_length_le
          simp only [if_pos hok]
          exact ⟨true, results, pieces, [out], hrun, (hleads.trans hrest).single, .cons hdelivered .nil⟩
        · simp only [if_neg hok]
          exact ⟨false, [], _, [[]], rfl, hleads, .cons (.none (by simp)) .nil⟩

theorem Channel.Good.thread_round (hc : c.Good) (s : Sockets) :
    ∃ reads, nxWifiThreadRound s reads = ((threadRoundOver s c).1, (threadRoundOver s c).2.1) ∧
      (∀ i, ∀ data ∈ reads i, data.length ≤ esWifiPayloadSize) ∧ c.Leads (threadRoundOver s c).2.2 [] ∧
      ∀ i, ∀ piece ∈ (threadRoundOver s c).2.1 i, c.Offered (threadRoundOver s c).2.2 i piece := by
  simp only [nxWifiThreadRound]
  rw [threadRoundOver]
  by_cases hzero : s.socketCounter = 0
  · simp only [if_pos hzero]
    exact ⟨fun _ => [], trivial, fun _ _ h => absurd h List.not_mem_nil, hc.refl,
      fun _ _ h => absurd h List.not_mem_nil⟩
  · simp only [if_neg hzero]
    exact hc.poll_loop (List.nodup_finRange 8) 0 s

end steps

section runs

variable {p : PoolMemory} {pool : PacketPool} {s next : ModuleRun} {call : ModuleCall} {a : Address} {data : List Byte}
  {c : Channel}

/-- A step of the sockets over the module: it is one of the sockets, the module has what the step was to send, and what
is received was in an answer. -/
structure Simulates (s next : ModuleRun) : Prop where
  step : ∃ wifiCall, s.run.step wifiCall = some next.run
  leads : ∃ parts sends, s.channel.Leads next.channel parts.flatten ∧ next.sends = s.sends ++ sends ∧
    List.Forall₂ Delivered parts sends
  received : ∀ i, ∀ piece ∈ (next.run.log i).received,
    piece ∈ (s.run.log i).received ∨ s.channel.Offered next.channel i piece

/-- Nothing is sent. -/
theorem Channel.Leads.quiet {next : Channel} (h : c.Leads next []) (sends : List Sent) :
    ∃ parts more, c.Leads next parts.flatten ∧ sends = sends ++ more ∧ List.Forall₂ Delivered parts more :=
  ⟨[], [], h, (List.append_nil sends).symm, .nil⟩

theorem received_renew {wifi : Sockets} {held : List (Address × List Byte)} {log : Entry → Log} {i : Entry}
    {piece : List Byte} (h : piece ∈ ((WifiRun.renew wifi held log).log i).received) :
    piece ∈ (log i).received := by
  change piece ∈ (if (wifi.socket i).valid then log i else Log.empty).received at h
  split at h
  · exact h
  · exact absurd h List.not_mem_nil

theorem received_polled {s : WifiRun} {r : Sockets × (Entry → List (List Byte))} {i : Entry} {piece : List Byte}
    (h : piece ∈ ((s.polled r).log i).received) : piece ∈ (s.log i).received ∨ piece ∈ r.2 i :=
  List.mem_append.mp (received_renew h)

theorem received_received {s : WifiRun} {out : Except NetX.Status Address × List (List Byte) × Sockets} {i j : Entry}
    {piece : List Byte} (h : piece ∈ ((s.received i out).log j).received) :
    piece ∈ (s.log j).received ∨ j = i ∧ piece ∈ out.2.1 := by
  obtain ⟨status | b, read, wifi⟩ := out
  all_goals
    have hlog := received_renew h
    by_cases hj : j = i
    · subst hj
      rw [Function.update_self] at hlog
      exact (List.mem_append.mp hlog).imp_right fun hread => ⟨rfl, hread⟩
    · rw [Function.update_of_ne hj] at hlog
      exact Or.inl hlog

/-- A step that sends and receives nothing. -/
theorem Simulates.renewed {wifi : Sockets} {held : List (Address × List Byte)} {c : Channel} (wifiCall : WifiCall)
    (hstep : s.run.step wifiCall = some (WifiRun.renew wifi held s.run.log)) (hleads : s.channel.Leads c []) :
    Simulates s ⟨WifiRun.renew wifi held s.run.log, c, s.sends⟩ :=
  ⟨⟨wifiCall, hstep⟩, hleads.quiet s.sends, fun _ _ hpiece => Or.inl (received_renew hpiece)⟩

theorem sent_eq (s : WifiRun) (a : Address) (data : List Byte) (status : NetX.Status) (pieces : List (List Byte))
    (wifi : Sockets) : ∃ held, s.sent a data (status, pieces, wifi) = WifiRun.renew wifi held s.log ∧
      s.sent a data (status, [], wifi) = WifiRun.renew wifi held s.log := by
  cases status <;> exact ⟨_, rfl, rfl⟩

/-- The log has no part in what a send gives. -/
theorem Simulates.sent {r : NetX.Status × Sockets × Channel} {pieces : List (List Byte)}
    {parts : List (List (Nat × List Byte))} {socketPtr : Nat} (wifiCall : WifiCall)
    (hstep : s.run.step wifiCall = some (s.run.sent a data (r.1, pieces, r.2.1)))
    (hleads : s.channel.Leads r.2.2 parts.flatten) (hparts : List.Forall₂ Delivered parts
      ((nxWifiSocketEntryFind s.run.wifi.socket socketPtr true).toList.map fun i => ⟨i, data, r.1⟩)) :
    Simulates s (s.sent socketPtr a data r) := by
  obtain ⟨held, hpieces, hnone⟩ := sent_eq s.run a data r.1 pieces r.2.1
  rw [ModuleRun.sent, hnone]
  exact ⟨⟨wifiCall, hstep.trans (congrArg some hpieces)⟩, ⟨parts, _, hleads, rfl, hparts⟩,
    fun _ _ hpiece => Or.inl (received_renew hpiece)⟩

/-- A step that closes. -/
theorem Simulates.closed (hc : s.channel.Good) (socketPtr : Nat) (wifiCall : WifiCall)
    (hstep : s.run.step wifiCall = some (WifiRun.renew (closeEntry s.run.wifi socketPtr).2 s.run.held s.run.log)) :
    Simulates s (s.renewed (closeOver s.run.wifi socketPtr s.channel)) := by
  obtain ⟨hrun, hleads⟩ := hc.close s.run.wifi socketPtr
  rw [hrun] at hstep
  exact .renewed wifiCall hstep hleads

/-- What is held is a chain with its bytes. -/
theorem exists_held {run : WifiRun} (hcreate : nxePacketPoolCreate p = .ok pool) (hs : (wifiMachine pool).Reachable run)
    (hdata : run.held.lookup a = some data) : ∃ free d chains, d.head = a ∧ run.wifi.pool.bytesOf d.packets = data ∧
      Holds run.wifi.pool free (d :: chains) := by
  obtain ⟨free, chains, queues, h⟩ := wifi_faithful hcreate hs
  obtain ⟨d, others, hhead, hbytes, hd, -⟩ := h.sockets.packets.exists_chain (PacketRun.mem_held_of_lookup hdata)
  exact ⟨free, d, others ++ queued queues, hhead, hbytes, hd.holds⟩

/-- Every step is one of the sockets, for results that the exchanges with the module have. -/
theorem Simulates.of_step (hcreate : nxePacketPoolCreate p = .ok pool) (hs : (wifiMachine pool).Reachable s.run)
    (hc : s.channel.Good) (hstep : s.step call = some next) : Simulates s next := by
  cases call with
  | connect socketPtr conn =>
      cases hstep
      obtain ⟨opened, hrun, hleads⟩ := hc.connect s.run.wifi socketPtr conn
      exact .renewed (.connect socketPtr opened)
        (congrArg (fun r : NetX.Status × Sockets => some (WifiRun.renew r.2 s.run.held s.run.log)) hrun) hleads
  | disconnect socketPtr =>
      cases hstep
      exact .closed hc socketPtr (.disconnect socketPtr) rfl
  | bind socketPtr =>
      cases hstep
      exact .renewed (.bind socketPtr) rfl hc.refl
  | unbind socketPtr =>
      cases hstep
      exact .closed hc socketPtr (.unbind socketPtr) rfl
  | tcpSend socketPtr a =>
      obtain ⟨data, hdata, rfl⟩ := Option.map_eq_some_iff.mp hstep
      obtain ⟨free, d, chains, rfl, rfl, hd⟩ := exists_held hcreate hs hdata
      obtain ⟨results, pieces, parts, hrun, hleads, hparts⟩ := hc.tcp_send hd socketPtr
      have hsent : s.run.step (.tcpSend socketPtr d.head results) =
          some (s.run.sent d.head (s.run.wifi.pool.bytesOf d.packets)
            ((tcpSendOver s.run.wifi socketPtr d.head s.channel).1, pieces,
              (tcpSendOver s.run.wifi socketPtr d.head s.channel).2.1)) := by
        rw [WifiRun.step, hdata, ← hrun]
        rfl
      exact .sent (.tcpSend socketPtr d.head results) hsent hleads hparts
  | udpSend socketPtr a conn =>
      obtain ⟨data, hdata, rfl⟩ := Option.map_eq_some_iff.mp hstep
      obtain ⟨free, d, chains, rfl, rfl, hd⟩ := exists_held hcreate hs hdata
      obtain ⟨opened, results, pieces, parts, hrun, hleads, hparts⟩ := hc.udp_send hd socketPtr conn
      have hsent : s.run.step (.udpSend socketPtr d.head opened results) =
          some (s.run.sent d.head (s.run.wifi.pool.bytesOf d.packets)
            ((udpSendOver s.run.wifi socketPtr d.head conn s.channel).1, pieces,
              (udpSendOver s.run.wifi socketPtr d.head conn s.channel).2.1)) := by
        rw [WifiRun.step, hdata, ← hrun]
        rfl
      exact .sent (.udpSend socketPtr d.head opened results) hsent hleads hparts
  | receive socketPtr waitOption elapsed =>
      rw [ModuleRun.step] at hstep
      split at hstep
      next hfind =>
        cases hstep
        refine ⟨⟨.receive socketPtr waitOption [], ?_⟩, hc.refl.quiet _, fun _ _ hpiece => Or.inl hpiece⟩
        rw [WifiRun.step, hfind]
      next i hfind =>
        obtain ⟨out, hout, rfl⟩ := Option.map_eq_some_iff.mp hstep
        obtain ⟨attempts, hrun, hleads, hoffered⟩ := hc.receive_socket s.run.wifi waitOption elapsed hfind
        refine ⟨⟨.receive socketPtr waitOption attempts, ?_⟩, hleads.quiet _, fun j piece hpiece => ?_⟩
        · rw [WifiRun.step, hfind, hrun, hout]
          rfl
        · refine (received_received hpiece).imp_right fun hread => ?_
          obtain ⟨rfl, hout'⟩ := hread
          exact hoffered out hout piece hout'
  | threadRound =>
      cases hstep
      obtain ⟨reads, hrun, hreads, hleads, hoffered⟩ := hc.thread_round s.run.wifi
      refine ⟨⟨.threadRound reads, ?_⟩, hleads.quiet _, fun i piece hpiece => ?_⟩
      · rw [WifiRun.step, if_pos hreads, hrun]
      · set r := threadRoundOver s.run.wifi s.channel
        change piece ∈ ((s.run.polled (r.1, r.2.1)).log i).received at hpiece
        exact (received_polled hpiece).imp_right (hoffered i piece)
  | packet call =>
      obtain ⟨run, hrun, rfl⟩ := Option.map_eq_some_iff.mp hstep
      refine ⟨⟨.packet call, hrun⟩, hc.refl.quiet _, fun i piece hpiece => Or.inl ?_⟩
      obtain ⟨after, -, rfl⟩ := Option.map_eq_some_iff.mp hrun
      exact received_renew hpiece

/-- What the steps from the start leave: the run is one of the sockets, the module has what was to be sent, and what
came was in the answers to the requests for it. -/
structure ModuleRun.Sound (pool : PacketPool) (c : Channel) (s : ModuleRun) : Prop where
  run : (wifiMachine pool).Reachable s.run
  leads : ∃ parts, c.Leads s.channel parts.flatten ∧ List.Forall₂ Delivered parts s.sends
  received : ∀ i, ∀ piece ∈ (s.run.log i).received, c.Offered s.channel i piece

theorem ModuleRun.Sound.step (hcreate : nxePacketPoolCreate p = .ok pool) (hc : c.Good) (h : s.Sound pool c)
    (hstep : s.step call = some next) : next.Sound pool c := by
  obtain ⟨parts, hleads, hdelivered⟩ := h.leads
  have hnext := Simulates.of_step hcreate h.run (hc.leads hleads) hstep
  obtain ⟨wifiCall, hwifi⟩ := hnext.step
  obtain ⟨more, sends, hmore, hsends, hparts⟩ := hnext.leads
  refine ⟨.step wifiCall h.run trivial hwifi, ⟨parts ++ more, ?_, ?_⟩, fun i piece hpiece => ?_⟩
  · rw [List.flatten_append]
    exact hleads.trans hmore
  · rw [hsends]
    exact List.rel_append hdelivered hparts
  · exact (hnext.received i piece hpiece).elim (fun hold => (h.received i piece hold).later hmore) hleads.offered

theorem module_sound (hcreate : nxePacketPoolCreate p = .ok pool) (hc : c.Good)
    (hs : (moduleMachine pool c).Reachable s) : s.Sound pool c := by
  refine hs.invariant (moduleMachine pool c) (ModuleRun.Sound pool c) ?_ ?_
  · exact ⟨.start, ⟨[], hc.refl, .nil⟩, fun _ _ h => absurd h List.not_mem_nil⟩
  · intro s call next _ h _ hstep
    exact h.step hcreate hc hstep

/-- Whatever the callers and the thread do over the module, and however it answers: the run is one of the sockets, so
that what is proved of those holds; the module reads back all that it was told; and what an entry received was in the
answers to the requests for its connection. -/
theorem module_runs (hcreate : nxePacketPoolCreate p = .ok pool) (hc : c.Good) (hstart : c.sent = [])
    (hs : (moduleMachine pool c).Reachable s) :
    (wifiMachine pool).Reachable s.run ∧
      (∃ messages, s.channel.sent = messages.flatMap Message.frames ∧ readFrames s.channel.sent = messages) ∧
      ∀ i, ∀ piece ∈ (s.run.log i).received, c.Offered s.channel i piece := by
  have hsound := module_sound hcreate hc hs
  obtain ⟨parts, ⟨messages, used, htold, hreadable, -⟩, -⟩ := hsound.leads
  have hsent : s.channel.sent = messages.flatMap Message.frames := by rw [htold.sent, hstart, List.nil_append]
  refine ⟨hsound.run, ⟨messages, hsent, ?_⟩, hsound.received⟩
  rw [hsent, readFrames_frames hreadable]

/-- A module that opens a connection, has two bytes for it, and takes what is sent. -/
def greeting : Channel :=
  answering (List.replicate 9 atOkString ++ [crlf ++ text "hi" ++ atOkString] ++ List.replicate 7 atOkString)

theorem greeting_runs : ∃ s, (moduleMachine (nxPacketPoolCreate wifiMemory) greeting).Reachable s ∧
    s.run.held = [(32, text "hi")] ∧ (wifiMachine (nxPacketPoolCreate wifiMemory)).Reachable s.run ∧
      (∃ messages, s.channel.sent = messages.flatMap Message.frames ∧ readFrames s.channel.sent = messages) ∧
      ∀ i, ∀ piece ∈ (s.run.log i).received, greeting.Offered s.channel i piece := by
  obtain ⟨s, hs, htest⟩ := (moduleMachine (nxPacketPoolCreate wifiMemory) greeting).exists_reachable
    [.connect 7 ⟨.tcp, 0, 443, 0, (10, 0, 0, 1)⟩, .threadRound, .receive 7 0 []]
    (fun s => decide (s.run.held = [(32, text "hi")])) (by decide +kernel)
  exact ⟨s, hs, of_decide_eq_true htest, module_runs wifiMemory_created (answering_good _) rfl hs⟩

/-- In every run the data that the module reads are those of the sends, in their order, each for the connection of the
entry that sent it: a beginning of what was to be sent, and all of it if the send succeeded. No connection gets data of
another one, whatever fails in between. -/
theorem sends_arrive (hcreate : nxePacketPoolCreate p = .ok pool) (hc : c.Good) (hstart : c.sent = [])
    (hs : (moduleMachine pool c).Reachable s) : ∃ parts, List.Forall₂ Delivered parts s.sends ∧
      ∀ number, routed number (readFrames s.channel.sent) = parts.flatten := by
  obtain ⟨parts, ⟨messages, used, htold, hreadable, hroutes⟩, hdelivered⟩ := (module_sound hcreate hc hs).leads
  refine ⟨parts, hdelivered, ?_⟩
  rw [htold.sent, hstart, List.nil_append, readFrames_frames hreadable]
  exact hroutes

/-- What was received is sent back. -/
theorem greeting_arrives : ∃ s, (moduleMachine (nxPacketPoolCreate wifiMemory) greeting).Reachable s ∧
    s.sends = [⟨0, text "hi", .success⟩] ∧ ∃ parts, List.Forall₂ Delivered parts s.sends ∧
      ∀ number, routed number (readFrames s.channel.sent) = parts.flatten := by
  obtain ⟨s, hs, htest⟩ := (moduleMachine (nxPacketPoolCreate wifiMemory) greeting).exists_reachable
    [.connect 7 ⟨.tcp, 0, 443, 0, (10, 0, 0, 1)⟩, .threadRound, .receive 7 0 [], .tcpSend 7 32]
    (fun s => decide (s.sends = [⟨0, text "hi", .success⟩])) (by decide +kernel)
  exact ⟨s, hs, of_decide_eq_true htest, sends_arrive wifiMemory_created (answering_good _) rfl hs⟩

end runs

end DeviceSample.EsWifi
