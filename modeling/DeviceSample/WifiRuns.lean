import DeviceSample.WifiThread

/-!
Runs of the sockets. Callers connect, send, receive and close in any order, the thread reads the module between
two of their calls, and all of them take their packets from one pool. Beside the entries stands what the module
gave for each connection and what was handed to the socket.
-/

namespace DeviceSample.Wifi

open Base NetX

section send

variable {pool : PacketPool} {start : Option Address} {nodes : List Address}

/-- The loop gives the packets to the module one behind the other, up to the first that it does not take whole. -/
theorem sendLoop_spec (results : List (Bool × Nat)) {fuel : Nat} (hlinked : Linked (fun a => (pool.packet a).next) start nodes)
    (hfuel : nodes.length ≤ fuel) :
    (sendLoop pool fuel start results).2 <+: nodes.map (fun a => (pool.packet a).bytes) ∧
      ((sendLoop pool fuel start results).1 = true →
        (sendLoop pool fuel start results).2 = nodes.map fun a => (pool.packet a).bytes) ∧
      ((sendLoop pool fuel start results).1 = true ↔
        nodes.map (fun a => (true, (pool.packet a).size)) <+: results) := by
  induction nodes generalizing start results fuel with
  | nil =>
      rw [linked_nil.mp hlinked]
      cases fuel <;> exact ⟨List.prefix_rfl, fun _ => rfl, fun _ => List.nil_prefix, fun _ => rfl⟩
  | cons a nodes ih =>
      obtain ⟨rfl, hrest⟩ := linked_cons.mp hlinked
      obtain ⟨fuel, rfl⟩ := Nat.exists_eq_succ_of_ne_zero (Nat.ne_of_gt (Nat.zero_lt_of_lt hfuel))
      have hstop : [(pool.packet a).bytes] <+: (a :: nodes).map fun a => (pool.packet a).bytes :=
        (List.prefix_cons_inj _).mpr List.nil_prefix
      rcases results with _ | ⟨⟨status, sendDataLength⟩, results⟩
      · refine ⟨hstop, fun hsent => absurd hsent Bool.false_ne_true, fun hsent => absurd hsent Bool.false_ne_true,
          fun hfront => ?_⟩
        exact absurd (List.prefix_nil.mp hfront) (List.cons_ne_nil _ _)
      · rw [List.map_cons, List.map_cons, List.cons_prefix_cons]
        by_cases htaken : status = true ∧ sendDataLength = (pool.packet a).size
        · obtain ⟨rfl, rfl⟩ := htaken
          obtain ⟨hfront, hwhole, hsent⟩ := ih results hrest (Nat.le_of_succ_le_succ hfuel)
          simp only [sendLoop, if_true]
          refine ⟨(List.prefix_cons_inj _).mpr hfront, fun h => congrArg _ (hwhole h), ?_⟩
          rw [hsent, true_and]
        · have hfail : sendLoop pool (fuel + 1) (some a) ((status, sendDataLength) :: results) =
              (false, [(pool.packet a).bytes]) := by
            cases status with
            | false => rfl
            | true =>
                simp only [sendLoop]
                rw [if_neg fun heq => htaken ⟨rfl, heq⟩]
          rw [hfail]
          refine ⟨hstop, fun hsent => absurd hsent Bool.false_ne_true, fun hsent => absurd hsent Bool.false_ne_true, ?_⟩
          rintro ⟨heq, -⟩
          cases heq
          exact absurd ⟨rfl, rfl⟩ htaken

end send

/-- What the module gave for a connection, what the socket got of it, and how many reads were given up. -/
structure Log where
  received : List (List Byte)
  delivered : List (List Byte)
  dropped : Nat
  deriving DecidableEq, Repr

def Log.empty : Log := ⟨[], [], 0⟩

/-- What waits follows what was delivered, in the order in which it came. -/
def Log.Ordered (l : Log) (waiting : List (List Byte)) : Prop :=
  (l.delivered ++ waiting).Sublist l.received ∧ l.received.length = (l.delivered ++ waiting).length + l.dropped

/-- The entries, the packets that callers hold, and the log of each entry. -/
structure WifiRun where
  wifi : Sockets
  held : List (Address × List Byte)
  log : Entry → Log

/-- A call, a round of the thread, or an operation on packets that are held. -/
inductive WifiCall
  | connect (socketPtr : Nat) (opened : Bool)
  | disconnect (socketPtr : Nat)
  | bind (socketPtr : Nat)
  | unbind (socketPtr : Nat)
  | tcpSend (socketPtr : Nat) (a : Address) (results : List (Bool × Nat))
  | udpSend (socketPtr : Nat) (a : Address) (opened : Bool) (results : List (Bool × Nat))
  | receive (socketPtr waitOption : Nat) (attempts : List Attempt)
  | threadRound (reads : Entry → List (List Byte))
  | packet (call : PacketCall)

namespace WifiRun

/-- An entry that is not in use has no log. -/
def renew (wifi : Sockets) (held : List (Address × List Byte)) (log : Entry → Log) : WifiRun :=
  ⟨wifi, held, fun i => if (wifi.socket i).valid then log i else .empty⟩

/-- A packet that was sent is no longer held. -/
def sent (s : WifiRun) (a : Address) (data : List Byte) : NetX.Status × List (List Byte) × Sockets → WifiRun
  | (.success, _, wifi) => renew wifi (s.held.erase (a, data)) s.log
  | (_, _, wifi) => renew wifi s.held s.log

/-- A packet that was received is held, and its data is delivered. What was read for a call that fails is
given up. -/
def received (s : WifiRun) (i : Entry) : Except NetX.Status Address × List (List Byte) × Sockets → WifiRun
  | (.ok a, read, wifi) =>
      let data := (nxPacketDataRetrieve wifi.pool a).2.2
      renew wifi ((a, data) :: s.held) (Function.update s.log i
        { s.log i with received := (s.log i).received ++ read, delivered := (s.log i).delivered ++ [data] })
  | (.error _, read, wifi) =>
      renew wifi s.held (Function.update s.log i
        { s.log i with received := (s.log i).received ++ read, dropped := (s.log i).dropped + read.length })

def polled (s : WifiRun) : Sockets × (Entry → List (List Byte)) → WifiRun
  | (wifi, read) => renew wifi s.held fun i => { s.log i with received := (s.log i).received ++ read i }

/-- A step. The module gives a read no more than the buffer holds. -/
def step (s : WifiRun) : WifiCall → Option WifiRun
  | .connect socketPtr opened => some (renew (nxWifiTcpClientSocketConnect s.wifi socketPtr opened).2 s.held s.log)
  | .disconnect socketPtr => some (renew (nxWifiTcpSocketDisconnect s.wifi socketPtr).2 s.held s.log)
  | .bind socketPtr => some (renew (nxWifiUdpSocketBind s.wifi socketPtr).2 s.held s.log)
  | .unbind socketPtr => some (renew (nxWifiUdpSocketUnbind s.wifi socketPtr).2 s.held s.log)
  | .tcpSend socketPtr a results =>
      (s.held.lookup a).map fun data => s.sent a data (nxWifiTcpSocketSend s.wifi socketPtr a results)
  | .udpSend socketPtr a opened results =>
      (s.held.lookup a).map fun data => s.sent a data (nxWifiUdpSocketSend s.wifi socketPtr a opened results)
  | .receive socketPtr waitOption attempts =>
      match nxWifiSocketEntryFind s.wifi.socket socketPtr true with
      | none => some s
      | some i => (nxWifiSocketReceive s.wifi socketPtr waitOption attempts).map (s.received i)
  | .threadRound reads =>
      if ∀ i, ∀ data ∈ reads i, data.length ≤ esWifiPayloadSize then some (s.polled (nxWifiThreadRound s.wifi reads))
      else none
  | .packet call =>
      (PacketRun.step ⟨s.wifi.pool, s.held⟩ call).map fun next =>
        renew { s.wifi with pool := next.pool } next.held s.log

end WifiRun

/-- The runs from the initialization with a pool that was created with success. -/
def wifiMachine (pool : PacketPool) : Machine WifiRun WifiCall where
  start := ⟨nxWifiInitialize pool, [], fun _ => .empty⟩
  step := WifiRun.step

/-- The entries are as the table and the queues say, and each log is in order. -/
structure WifiRun.Faithful (places : List Address) (s : WifiRun) (free : List Address) (chains : List Chain)
    (queues : Entry → List Chain) : Prop where
  sockets : s.wifi.Faithful places s.held free chains queues
  ordered : ∀ i, (s.log i).Ordered (waiting s.wifi.pool (queues i))

namespace Log.Ordered

variable {l : Log} {w : List (List Byte)} {data : List Byte}

theorem empty : Log.empty.Ordered [] := ⟨List.Sublist.refl [], rfl⟩

theorem queue (h : l.Ordered w) (read : List (List Byte)) :
    Log.Ordered { l with received := l.received ++ read } (w ++ read) := by
  refine ⟨?_, ?_⟩
  · rw [← List.append_assoc]
    exact h.1.append (List.Sublist.refl read)
  · have hlength := h.2
    simp only [List.length_append] at hlength ⊢
    omega

theorem dequeue (h : l.Ordered (data :: w)) :
    Log.Ordered { l with received := l.received ++ [], delivered := l.delivered ++ [data] } w := by
  refine ⟨?_, ?_⟩
  · rw [List.append_nil, List.append_assoc]
    exact h.1
  · rw [List.append_nil, List.append_assoc]
    exact h.2

theorem direct (h : l.Ordered []) :
    Log.Ordered { l with received := l.received ++ [data], delivered := l.delivered ++ [data] } [] := by
  have hqueued := h.queue [data]
  rw [List.nil_append] at hqueued
  refine ⟨?_, ?_⟩
  · rw [List.append_nil]
    exact hqueued.1
  · rw [List.append_nil]
    exact hqueued.2

theorem drop (h : l.Ordered w) (read : List (List Byte)) :
    Log.Ordered { l with received := l.received ++ read, dropped := l.dropped + read.length } w := by
  refine ⟨h.1.trans (List.sublist_append_left _ _), ?_⟩
  have hlength := h.2
  rw [List.length_append]
  change l.received.length + read.length = (l.delivered ++ w).length + (l.dropped + read.length)
  omega

end Log.Ordered

variable {places free free' : List Address} {s next : WifiRun} {wifi : Sockets} {held : List (Address × List Byte)}
  {chains chains' others : List Chain} {queues queues' : Entry → List Chain} {i j : Entry} {c : Chain} {a : Address}
  {data : List Byte} {pool : PacketPool} {log : Entry → Log}

namespace WifiRun

theorem faithful_renew (hsockets : wifi.Faithful places held free chains queues)
    (hordered : ∀ i, (wifi.socket i).valid = true → (log i).Ordered (waiting wifi.pool (queues i))) :
    (renew wifi held log).Faithful places free chains queues where
  sockets := hsockets
  ordered i := by
    change (if (wifi.socket i).valid then log i else Log.empty).Ordered _
    split
    · rename_i hi
      exact hordered i hi
    · rename_i hi
      rw [show waiting (renew wifi held log).wifi.pool (queues i) = [] from
        congrArg (List.map _) (hsockets.idle i (Bool.eq_false_of_not_eq_true hi))]
      exact .empty

/-- What waits for the entries in use has not changed. -/
def Waits (wifi wifi' : Sockets) (queues queues' : Entry → List Chain) : Prop :=
  ∀ i, (wifi'.socket i).valid = true → waiting wifi'.pool (queues' i) = waiting wifi.pool (queues i)

theorem Faithful.renew (h : s.Faithful places free chains queues)
    (hsockets : wifi.Faithful places held free' chains' queues') (hwaits : Waits s.wifi wifi queues queues') :
    (renew wifi held s.log).Faithful places free' chains' queues' :=
  faithful_renew hsockets fun i hi => hwaits i hi ▸ h.ordered i

end WifiRun

/-- How a send ends: the packet was sent and is released, or the caller still holds it. -/
def SendEnds (places : List Address) (s : Sockets) (held : List (Address × List Byte)) (c : Chain) (data : List Byte)
    (others : List Chain) (queues : Entry → List Chain) (r : NetX.Status × List (List Byte) × Sockets) : Prop :=
  ∃ pieces wifi free' queues', WifiRun.Waits s wifi queues queues' ∧
    (r = (.success, pieces, wifi) ∧ wifi.Faithful places (held.erase (c.head, data)) free' others queues' ∨
      r = (.notSuccessful, pieces, wifi) ∧ wifi.Faithful places held free' (c :: others) queues')

section sends

variable {s : Sockets} (h : s.Faithful places held free (c :: others) queues)
  (herase : (held.erase (c.head, data)).Perm (others.map (Chain.view s.pool))) (results : List (Bool × Nat))

include h herase

theorem sendPacket_ends : SendEnds places s held c data others queues (sendPacket s c.head results) := by
  obtain ⟨pool', free', hrun, he⟩ := Exchange.release h.packets.holds
  obtain ⟨hpackets, hkept⟩ := PacketRun.Faithful.exchange [c] h.packets he herase
  obtain ⟨hnext, hwaiting⟩ := h.trade hpackets hkept
  rw [sendPacket]
  split
  · refine ⟨_, _, free', queues, fun i _ => ?_, Or.inl ⟨rfl, ?_⟩⟩
    · rw [hrun]
      exact hwaiting i
    · rw [hrun]
      exact hnext
  · exact ⟨_, s, free, queues, fun _ _ => rfl, Or.inr ⟨rfl, h⟩⟩

theorem tcpSend_ends (socketPtr : Nat) :
    SendEnds places s held c data others queues (nxWifiTcpSocketSend s socketPtr c.head results) := by
  rw [nxWifiTcpSocketSend]
  split
  · exact ⟨[], s, free, queues, fun _ _ => rfl, Or.inr ⟨rfl, h⟩⟩
  · split
    · exact sendPacket_ends h herase results
    · exact ⟨[], s, free, queues, fun _ _ => rfl, Or.inr ⟨rfl, h⟩⟩

theorem udpSend_ends (socketPtr : Nat) (opened : Bool) :
    SendEnds places s held c data others queues (nxWifiUdpSocketSend s socketPtr c.head opened results) := by
  rw [nxWifiUdpSocketSend]
  split
  · exact ⟨[], s, free, queues, fun _ _ => rfl, Or.inr ⟨rfl, h⟩⟩
  · rename_i i hfind
    split
    · exact sendPacket_ends h herase results
    · split
      · exact sendPacket_ends (s := s.setConnected i) h.setConnected herase results
      · obtain ⟨free', queues', hreset, hclosed, hwaiting⟩ := h.reset i
        refine ⟨[], _, free', queues', fun j hj => (hwaiting j fun heq => ?_).2, Or.inr ⟨rfl, hreset⟩⟩
        rw [heq] at hj
        exact Bool.false_ne_true (hclosed.symm.trans hj)

end sends

section receive

variable {s : Sockets} (h : s.Faithful places held free chains queues)

include h

/-- A socket gets the oldest packet that waits for it. -/
theorem receive_queued {socketPtr waitOption : Nat} {attempts : List Attempt} {q : List Chain}
    (hfind : nxWifiSocketEntryFind s.socket socketPtr true = some i) (hconnected : (s.socket i).connected = true)
    (hq : queues i = c :: q) :
    nxWifiSocketReceive s socketPtr waitOption attempts = some (.ok c.head, [], s.dequeue i c.head) := by
  have hstart := (h.queue i).linked.start_eq
  rw [hq] at hstart
  have hhead : (s.socket i).receivedPacketHead = some c.head := hstart
  simp only [nxWifiSocketReceive, hfind, hconnected, if_true, hhead]

/-- Where nothing waits, the module is read. -/
theorem receive_direct {socketPtr waitOption : Nat} {attempts : List Attempt}
    (hfind : nxWifiSocketEntryFind s.socket socketPtr true = some i) (hconnected : (s.socket i).connected = true)
    (hq : queues i = []) :
    nxWifiSocketReceive s socketPtr waitOption attempts =
      (receiveLoop (nxWifiTickConvertMs waitOption) attempts).map (receiveRead s) := by
  have hhead := (h.queue i).head_eq_none_iff.mpr hq
  simp only [nxWifiSocketReceive, hfind, hconnected, if_true, hhead]

/-- What a read leaves when its data is stored, or cannot be. -/
theorem storeData_faithful (hdata : data ≠ []) :
    (s.pool.available * s.pool.payloadSize < data.length ∧ ∃ status pool' free',
      storeData s.pool data = (.error status, pool') ∧
        Sockets.Faithful places { s with pool := pool' } held free' chains queues ∧
        ∀ j, waiting pool' (queues j) = waiting s.pool (queues j)) ∨
    (data.length ≤ s.pool.available * s.pool.payloadSize ∧ ∃ c pool' free',
      storeData s.pool data = (.ok c.head, pool') ∧ (nxPacketDataRetrieve pool' c.head).2.2 = data ∧
        Sockets.Faithful places { s with pool := pool' } ((c.head, data) :: held) free' (c :: chains) queues ∧
        ∀ j, waiting pool' (queues j) = waiting s.pool (queues j)) := by
  have hholds : Holds s.pool free (chains ++ queued queues) := h.packets.holds
  rw [hholds.listed.counted]
  rcases exchange_storeData hholds hdata with ⟨hfew, status, pool', free', hrun, he⟩ |
    ⟨hfits, c, pool', free', hrun, he, hbytes⟩
  · obtain ⟨hpackets, hkept⟩ := PacketRun.Faithful.exchange [] h.packets he h.packets.views
    obtain ⟨hnext, hwaiting⟩ := h.trade hpackets hkept
    exact Or.inl ⟨hfew, status, pool', free', hrun, hnext, hwaiting⟩
  · have hviews : ((c.head, data) :: held).Perm ([c].map (Chain.view pool') ++ chains.map (Chain.view s.pool)) := by
      rw [List.map_singleton, Chain.view, hbytes]
      exact h.packets.views.cons _
    obtain ⟨hpackets, hkept⟩ := PacketRun.Faithful.exchange [] h.packets he hviews
    obtain ⟨hnext, hwaiting⟩ := h.trade hpackets hkept
    refine Or.inr ⟨hfits, c, pool', free', hrun, ?_, hnext, hwaiting⟩
    have hheld : Holds pool' free' (c :: (chains ++ queued queues)) := hpackets.holds
    rw [hheld.retrieve]
    exact hbytes

end receive

namespace WifiRun.Faithful

theorem receive (h : s.Faithful places free chains queues) {socketPtr waitOption : Nat} {attempts : List Attempt}
    {r : Except NetX.Status Address × List (List Byte) × Sockets}
    (hfind : nxWifiSocketEntryFind s.wifi.socket socketPtr true = some i)
    (hr : nxWifiSocketReceive s.wifi socketPtr waitOption attempts = some r) :
    ∃ free' chains' queues', (s.received i r).Faithful places free' chains' queues' := by
  have hnothing : ∀ status, (s.received i (.error status, [], s.wifi)).Faithful places free chains queues :=
    fun status => faithful_renew h.sockets fun j _ => by
      by_cases hj : j = i
      · subst hj
        rw [Function.update_self]
        exact (h.ordered j).drop []
      · rw [Function.update_of_ne hj]
        exact h.ordered j
  by_cases hconnected : (s.wifi.socket i).connected = true
  · cases hq : queues i with
    | cons c q =>
        rw [receive_queued h.sockets hfind hconnected hq] at hr
        cases hr
        have hhead : (s.wifi.socket i).receivedPacketHead = some c.head := by
          rw [(h.sockets.queue i).linked.start_eq, hq]
          rfl
        obtain ⟨c', q', hc', hq', hnext⟩ := h.sockets.dequeue hhead
        rw [hq] at hq'
        cases hq'
        have hwaiting : waiting s.wifi.pool (queues i) = s.wifi.pool.bytesOf c.packets :: waiting s.wifi.pool q := by
          rw [hq]
          rfl
        have hdata : (nxPacketDataRetrieve (s.wifi.dequeue i c.head).pool c.head).2.2 = s.wifi.pool.bytesOf c.packets := by
          have hheld : Holds s.wifi.pool free (c :: (chains ++ queued (Function.update queues i q))) := hnext.packets.holds
          exact congrArg (fun r => r.2.2) hheld.retrieve
        refine ⟨free, c :: chains, Function.update queues i q, ?_⟩
        rw [received, hdata]
        refine faithful_renew hnext fun j _ => ?_
        change Log.Ordered (Function.update s.log i _ j) (waiting s.wifi.pool _)
        by_cases hj : j = i
        · subst hj
          rw [Function.update_self, Function.update_self]
          exact Log.Ordered.dequeue (hwaiting ▸ h.ordered j)
        · rw [Function.update_of_ne hj, Function.update_of_ne hj]
          exact h.ordered j
    | nil =>
        rw [receive_direct h.sockets hfind hconnected hq] at hr
        obtain ⟨data, -, rfl⟩ := Option.map_eq_some_iff.mp hr
        rw [receiveRead]
        split
        · exact ⟨free, chains, queues, hnothing .noPacket⟩
        rename_i hdata
        rcases storeData_faithful h.sockets (fun hnil => hdata (List.isEmpty_iff.mpr hnil)) with
          ⟨-, status, pool', free', hstore, hnext, hwaiting⟩ | ⟨-, c, pool', free', hstore, hretrieve, hnext, hwaiting⟩
        · rw [hstore]
          refine ⟨free', chains, queues, faithful_renew hnext fun j _ => ?_⟩
          change Log.Ordered (Function.update s.log i _ j) (waiting pool' (queues j))
          rw [hwaiting j]
          by_cases hj : j = i
          · subst hj
            rw [Function.update_self]
            exact (h.ordered j).drop [data]
          · rw [Function.update_of_ne hj]
            exact h.ordered j
        · rw [hstore]
          refine ⟨free', c :: chains, queues, ?_⟩
          simp only [received, hretrieve]
          refine faithful_renew hnext fun j _ => ?_
          change Log.Ordered (Function.update s.log i _ j) (waiting pool' (queues j))
          have hordered := h.ordered j
          rw [hwaiting j]
          by_cases hj : j = i
          · subst hj
            rw [Function.update_self]
            rw [hq] at hordered ⊢
            exact Log.Ordered.direct hordered
          · rw [Function.update_of_ne hj]
            exact hordered
  · rw [nxWifiSocketReceive, hfind] at hr
    simp only [hconnected] at hr
    cases hr
    exact ⟨free, chains, queues, hnothing .notSuccessful⟩

theorem sent (h : s.Faithful places free (c :: others) queues)
    {r : NetX.Status × List (List Byte) × Sockets} (hr : SendEnds places s.wifi s.held c data others queues r) :
    ∃ free' chains' queues', (s.sent c.head data r).Faithful places free' chains' queues' := by
  obtain ⟨pieces, wifi, free', queues', hwaits, ⟨rfl, hnext⟩ | ⟨rfl, hnext⟩⟩ := hr
  · exact ⟨free', others, queues', h.renew hnext hwaits⟩
  · exact ⟨free', c :: others, queues', h.renew hnext hwaits⟩

/-- Each step keeps the entries, the packets and the logs as they should be. -/
theorem step {call : WifiCall} (h : s.Faithful places free chains queues) (hstep : s.step call = some next) :
    ∃ free' chains' queues', next.Faithful places free' chains' queues' := by
  cases call with
  | connect socketPtr opened =>
      cases hstep
      obtain ⟨free', queues', hnext, hwaits⟩ := h.sockets.connect socketPtr opened
      exact ⟨free', chains, queues', h.renew hnext hwaits⟩
  | disconnect socketPtr =>
      cases hstep
      obtain ⟨free', queues', hnext, hwaits⟩ := h.sockets.close socketPtr
      exact ⟨free', chains, queues', h.renew hnext hwaits⟩
  | bind socketPtr =>
      cases hstep
      obtain ⟨hnext, hpool⟩ := h.sockets.bind socketPtr
      exact ⟨free, chains, queues, h.renew hnext fun _ _ => by rw [hpool]⟩
  | unbind socketPtr =>
      cases hstep
      obtain ⟨free', queues', hnext, hwaits⟩ := h.sockets.close socketPtr
      exact ⟨free', chains, queues', h.renew hnext hwaits⟩
  | tcpSend socketPtr a results =>
      obtain ⟨data, hdata, rfl⟩ := Option.map_eq_some_iff.mp hstep
      obtain ⟨c, others, rfl, -, hc, herase⟩ := h.sockets.packets.exists_chain (PacketRun.mem_held_of_lookup hdata)
      have hsockets : s.wifi.Faithful places s.held free (c :: others) queues := { h.sockets with packets := hc }
      exact sent ⟨hsockets, h.ordered⟩ (tcpSend_ends hsockets herase results socketPtr)
  | udpSend socketPtr a opened results =>
      obtain ⟨data, hdata, rfl⟩ := Option.map_eq_some_iff.mp hstep
      obtain ⟨c, others, rfl, -, hc, herase⟩ := h.sockets.packets.exists_chain (PacketRun.mem_held_of_lookup hdata)
      have hsockets : s.wifi.Faithful places s.held free (c :: others) queues := { h.sockets with packets := hc }
      exact sent ⟨hsockets, h.ordered⟩ (udpSend_ends hsockets herase results socketPtr opened)
  | receive socketPtr waitOption attempts =>
      rw [WifiRun.step] at hstep
      split at hstep
      · cases hstep
        exact ⟨free, chains, queues, h⟩
      · rename_i i hfind
        obtain ⟨r, hr, rfl⟩ := Option.map_eq_some_iff.mp hstep
        exact h.receive hfind hr
  | threadRound reads =>
      obtain ⟨hreads, hnext⟩ := Option.ite_none_right_eq_some.mp hstep
      obtain rfl := Option.some.inj hnext
      obtain ⟨free', queues', hnext, hpolled, -⟩ := threadRound_spec h.sockets hreads
      have hordered : ∀ j, Log.Ordered
          { s.log j with received := (s.log j).received ++ (nxWifiThreadRound s.wifi reads).2 j }
          (waiting (nxWifiThreadRound s.wifi reads).1.pool (queues' j)) := fun j => by
        rw [hpolled.waiting j]
        exact (h.ordered j).queue _
      exact ⟨free', chains, queues', faithful_renew hnext fun j _ => hordered j⟩
  | packet call =>
      obtain ⟨after, hafter, rfl⟩ := Option.map_eq_some_iff.mp hstep
      obtain ⟨free', chains', hpackets, hkept⟩ := h.sockets.packets.step hafter
      obtain ⟨hnext, hwaiting⟩ := h.sockets.trade hpackets hkept
      exact ⟨free', chains', queues, h.renew hnext fun j _ => hwaiting j⟩

end WifiRun.Faithful

theorem queued_nil : queued (fun _ => []) = [] := rfl

variable {p : PoolMemory}

theorem wifi_faithful (hcreate : nxePacketPoolCreate p = .ok pool) (hs : (wifiMachine pool).Reachable s) :
    ∃ free chains queues, s.Faithful p.places free chains queues := by
  refine hs.invariant (wifiMachine pool) (fun s => ∃ free chains queues, s.Faithful p.places free chains queues) ?_ ?_
  · refine ⟨p.places, [], fun _ => [], ⟨⟨.create hcreate, .refl _, ?_⟩, fun _ => .of_nil rfl rfl, fun _ _ => rfl,
      fun i j hi => absurd hi Bool.false_ne_true, rfl⟩, fun _ => .empty⟩
    rw [queued_nil, List.append_nil, List.flatMap_nil, List.append_nil]
  · rintro s call next - ⟨free, chains, queues, h⟩ - hstep
    exact h.step hstep

/-- The packets of a queue, by their links. -/
def queuePackets (s : Sockets) (i : Entry) : List Address :=
  nodesFrom (fun a => (s.pool.packet a).queueNext) s.pool.total (s.socket i).receivedPacketHead

/-- What the packets of a queue read back as. -/
def queuedData (s : Sockets) (i : Entry) : List (List Byte) :=
  (queuePackets s i).map fun a => (nxPacketDataRetrieve s.pool a).2.2

theorem queuePackets_eq {s : Sockets} (h : s.Faithful places held free chains queues) (i : Entry) :
    queuePackets s i = (queues i).map Chain.head := by
  refine nodesFrom_eq (h.queue i).linked ?_
  rw [List.length_map]
  have hmine := h.packets.holds.perm (((queued_perm queues i).append_left chains).trans (List.perm_append_comm_assoc ..))
  exact hmine.length_le

theorem queuedData_eq {s : Sockets} (h : s.Faithful places held free chains queues) (i : Entry) :
    queuedData s i = waiting s.pool (queues i) := by
  rw [queuedData, queuePackets_eq h, List.map_map]
  refine List.map_congr_left fun c hc => ?_
  have hmem : c ∈ chains ++ queued queues :=
    List.mem_append_right _ (List.mem_flatMap.mpr ⟨i, List.mem_finRange i, hc⟩)
  have hheld : Holds s.pool free (c :: (chains ++ queued queues).erase c) :=
    h.packets.holds.perm (List.perm_cons_erase hmem)
  exact congrArg (fun r => r.2.2) hheld.retrieve

/-- Whatever the callers and the thread do, and in whatever order: what a socket got and what waits for it is what
the module gave for its connection, in that order, each read once. Only reads of a call that failed are missing. -/
theorem received_in_order (hcreate : nxePacketPoolCreate p = .ok pool) (hs : (wifiMachine pool).Reachable s)
    (i : Entry) :
    ((s.log i).delivered ++ queuedData s.wifi i).Sublist (s.log i).received ∧
      (s.log i).received.length = ((s.log i).delivered ++ queuedData s.wifi i).length + (s.log i).dropped ∧
      ((s.log i).dropped = 0 → (s.log i).delivered ++ queuedData s.wifi i = (s.log i).received) := by
  obtain ⟨free, chains, queues, h⟩ := wifi_faithful hcreate hs
  rw [queuedData_eq h.sockets]
  obtain ⟨hsublist, hlength⟩ := h.ordered i
  refine ⟨hsublist, hlength, fun hzero => hsublist.eq_of_length ?_⟩
  rw [hlength, hzero, Nat.add_zero]

/-- A memory for four packets of six hundred bytes. -/
def wifiMemory : PoolMemory :=
  { poolStart := 5, poolSize := 2600, payloadSize := 600, sizeofPacket := 20, memory := fun _ => 0
    packet := fun _ => ⟨none, none, none, 0, false, 0, 0, []⟩ }

theorem wifiMemory_created : nxePacketPoolCreate wifiMemory = .ok (nxPacketPoolCreate wifiMemory) := rfl

/-- A socket connects, the thread reads twice for it, and it receives once. -/
def wifiCalls : List WifiCall :=
  [.connect 7 true, .threadRound fun i => if i = 0 then [[1, 2], [3]] else [], .receive 7 0 []]

theorem wifiCalls_log : ∃ s, (wifiMachine (nxPacketPoolCreate wifiMemory)).Reachable s ∧
    s.log 0 = ⟨[[1, 2], [3]], [[1, 2]], 0⟩ ∧ (32, [1, 2]) ∈ s.held := by
  obtain ⟨s, hs, htest⟩ := (wifiMachine (nxPacketPoolCreate wifiMemory)).exists_reachable wifiCalls
    (fun s => decide (s.log 0 = ⟨[[1, 2], [3]], [[1, 2]], 0⟩ ∧ (32, [1, 2]) ∈ s.held)) (by decide +kernel)
  exact ⟨s, hs, of_decide_eq_true htest⟩

theorem received_in_order_small : ∃ s, (wifiMachine (nxPacketPoolCreate wifiMemory)).Reachable s ∧
    (s.log 0).delivered = [[1, 2]] ∧ [[1, 2]] ++ queuedData s.wifi 0 = [[1, 2], [3]] := by
  obtain ⟨s, hs, hlog, -⟩ := wifiCalls_log
  obtain ⟨-, -, horder⟩ := received_in_order wifiMemory_created hs 0
  rw [hlog] at horder
  exact ⟨s, hs, by rw [hlog], horder rfl⟩

/-- In every run each packet is in exactly one place: available, in the queue of an entry, or with a caller. No
two entries in use have one socket, and the counter is their number. -/
theorem entries_share_pool (hcreate : nxePacketPoolCreate p = .ok pool) (hs : (wifiMachine pool).Reachable s) :
    (availablePackets s.wifi.pool ++ ((s.held.map Prod.fst ++ (List.finRange 8).flatMap (queuePackets s.wifi)).flatMap
        (chainPackets s.wifi.pool))).Perm p.places ∧ p.places.Nodup ∧
      (∀ i j, (s.wifi.socket i).valid = true → (s.wifi.socket j).valid = true →
        (s.wifi.socket i).socketPtr = (s.wifi.socket j).socketPtr → i = j) ∧
      (∀ i, (s.wifi.socket i).valid = false → queuePackets s.wifi i = []) ∧
      s.wifi.socketCounter = ((List.finRange 8).filter fun i => (s.wifi.socket i).valid).length := by
  obtain ⟨free, chains, queues, h⟩ := wifi_faithful hcreate hs
  have hholds : Holds s.wifi.pool free (chains ++ queued queues) := h.sockets.packets.holds
  have hplaces : (free ++ (chains ++ queued queues).flatMap Chain.packets).Perm p.places := h.sockets.packets.places
  have hqueues : (List.finRange 8).flatMap (queuePackets s.wifi) = (queued queues).map Chain.head := by
    rw [queued, List.map_flatMap]
    exact List.flatMap_congr fun i _ => queuePackets_eq h.sockets i
  have hheads : (s.held.map Prod.fst ++ (queued queues).map Chain.head).Perm ((chains ++ queued queues).map Chain.head) := by
    have hviews := h.sockets.packets.views.map Prod.fst
    rw [List.map_map] at hviews
    rw [List.map_append]
    exact hviews.append_right _
  have hchains : ((s.held.map Prod.fst ++ (queued queues).map Chain.head).flatMap (chainPackets s.wifi.pool)).Perm
      ((chains ++ queued queues).flatMap Chain.packets) := by
    refine (hheads.flatMap_right _).trans (List.Perm.of_eq ?_)
    rw [List.flatMap_map]
    exact List.flatMap_congr fun c hc => chainPackets_eq hholds hc
  refine ⟨?_, hplaces.nodup_iff.mp hholds.nodup, h.sockets.distinct, fun i hi => ?_, ?_⟩
  · rw [availablePackets_eq hholds, hqueues]
    exact (hchains.append_left free).trans hplaces
  · rw [queuePackets_eq h.sockets, h.sockets.idle i hi]
    rfl
  · rw [h.sockets.counted, validCount, List.countP_eq_length_filter]

theorem entries_share_pool_small : ∃ s, (wifiMachine (nxPacketPoolCreate wifiMemory)).Reachable s ∧
    (32, [1, 2]) ∈ s.held ∧
    (availablePackets s.wifi.pool ++ ((s.held.map Prod.fst ++ (List.finRange 8).flatMap (queuePackets s.wifi)).flatMap
        (chainPackets s.wifi.pool))).Perm [32, 672, 1312, 1952] := by
  obtain ⟨s, hs, -, ha⟩ := wifiCalls_log
  exact ⟨s, hs, ha, (entries_share_pool wifiMemory_created hs).1⟩

/-- A round reads every connected entry until the module has nothing more for it, or until the pool has no space
for one more read. What it reads is queued behind what waits, and nothing of it is given up. -/
theorem round_drains (hcreate : nxePacketPoolCreate p = .ok pool) (hs : (wifiMachine pool).Reachable s)
    {reads : Entry → List (List Byte)} (hreads : ∀ i, ∀ data ∈ reads i, data.length ≤ esWifiPayloadSize) (i : Entry) :
    queuedData (nxWifiThreadRound s.wifi reads).1 i = queuedData s.wifi i ++ (nxWifiThreadRound s.wifi reads).2 i ∧
      if (s.wifi.socket i).valid && (s.wifi.socket i).connected then
        Drained (nxWifiThreadRound s.wifi reads).1.pool (reads i) ((nxWifiThreadRound s.wifi reads).2 i)
      else (nxWifiThreadRound s.wifi reads).2 i = [] := by
  obtain ⟨free, chains, queues, h⟩ := wifi_faithful hcreate hs
  obtain ⟨free', queues', hnext, hpolled, hdrained⟩ := threadRound_spec h.sockets hreads
  rw [queuedData_eq hnext, queuedData_eq h.sockets]
  exact ⟨hpolled.waiting i, hdrained i⟩

theorem round_drains_small : ∃ s, (wifiMachine (nxPacketPoolCreate wifiMemory)).Reachable s ∧
    (32, [1, 2]) ∈ s.held ∧ ∀ i, queuedData (nxWifiThreadRound s.wifi fun _ => [[4]]).1 i =
      queuedData s.wifi i ++ (nxWifiThreadRound s.wifi fun _ => [[4]]).2 i := by
  obtain ⟨s, hs, -, ha⟩ := wifiCalls_log
  refine ⟨s, hs, ha, fun i => (round_drains wifiMemory_created hs (fun _ data hdata => ?_) i).1⟩
  rw [List.mem_singleton.mp hdata]
  decide

/-- A socket that is connected gets the oldest packet that waits for it. If none waits, the data that the module
gives is handed over exactly if the pool has the space for it, and is given up otherwise. -/
theorem receive_gives_oldest (hcreate : nxePacketPoolCreate p = .ok pool) (hs : (wifiMachine pool).Reachable s)
    {socketPtr : Nat} (hfind : nxWifiSocketEntryFind s.wifi.socket socketPtr true = some i)
    (hconnected : (s.wifi.socket i).connected = true) (waitOption : Nat) (attempts : List Attempt) :
    (∃ data rest a wifi, queuedData s.wifi i = data :: rest ∧
      nxWifiSocketReceive s.wifi socketPtr waitOption attempts = some (.ok a, [], wifi) ∧
      nxPacketDataRetrieve wifi.pool a = (.success, data.length, data) ∧ queuedData wifi i = rest) ∨
    (queuedData s.wifi i = [] ∧ nxWifiSocketReceive s.wifi socketPtr waitOption attempts =
      (receiveLoop (nxWifiTickConvertMs waitOption) attempts).map (receiveRead s.wifi) ∧
      ∀ data, data ≠ [] →
        (data.length ≤ s.wifi.pool.available * s.wifi.pool.payloadSize ∧ ∃ a wifi,
          receiveRead s.wifi data = (.ok a, [data], wifi) ∧
          nxPacketDataRetrieve wifi.pool a = (.success, data.length, data)) ∨
        (s.wifi.pool.available * s.wifi.pool.payloadSize < data.length ∧ ∃ wifi,
          receiveRead s.wifi data = (.error .notSuccessful, [data], wifi))) := by
  obtain ⟨free, chains, queues, h⟩ := wifi_faithful hcreate hs
  rw [queuedData_eq h.sockets]
  cases hq : queues i with
  | cons c q =>
      have hhead : (s.wifi.socket i).receivedPacketHead = some c.head := by
        rw [(h.sockets.queue i).linked.start_eq, hq]
        rfl
      obtain ⟨c', q', hc', hq', hnext⟩ := h.sockets.dequeue hhead
      rw [hq] at hq'
      cases hq'
      have hheld : Holds s.wifi.pool free (c :: (chains ++ queued (Function.update queues i q))) := hnext.packets.holds
      refine Or.inl ⟨_, _, c.head, _, rfl, receive_queued h.sockets hfind hconnected hq, hheld.retrieve, ?_⟩
      rw [queuedData_eq hnext, Function.update_self]
      rfl
  | nil =>
      refine Or.inr ⟨rfl, receive_direct h.sockets hfind hconnected hq, fun data hdata => ?_⟩
      have hempty : ¬data.isEmpty = true := by rwa [List.isEmpty_iff]
      rw [receiveRead, if_neg hempty]
      rcases storeData_faithful h.sockets hdata with ⟨hfew, status, pool', free', hstore, -⟩ |
        ⟨hfits, c, pool', free', hstore, -, hnext, -⟩
      · exact Or.inr ⟨hfew, { s.wifi with pool := pool' }, by rw [hstore]⟩
      · obtain ⟨d, others, hd, hbytes, hheld, -⟩ := hnext.packets.exists_chain List.mem_cons_self
        have hretrieve := hheld.holds.retrieve
        refine Or.inl ⟨hfits, c.head, { s.wifi with pool := pool' }, by rw [hstore], ?_⟩
        rwa [hd, hbytes] at hretrieve

theorem receive_gives_oldest_small : ∃ s, (wifiMachine (nxPacketPoolCreate wifiMemory)).Reachable s ∧
    ((∃ data rest a wifi, queuedData s.wifi 0 = data :: rest ∧
      nxWifiSocketReceive s.wifi 7 1 [] = some (.ok a, [], wifi) ∧ queuedData wifi 0 = rest) ∨
    (queuedData s.wifi 0 = [] ∧ nxWifiSocketReceive s.wifi 7 1 [] = none)) := by
  obtain ⟨s, hs, htest⟩ := (wifiMachine (nxPacketPoolCreate wifiMemory)).exists_reachable wifiCalls
    (fun s => decide (nxWifiSocketEntryFind s.wifi.socket 7 true = some 0 ∧ (s.wifi.socket 0).connected = true))
    (by decide +kernel)
  obtain ⟨hfind, hconnected⟩ := of_decide_eq_true htest
  refine ⟨s, hs, ?_⟩
  rcases receive_gives_oldest wifiMemory_created hs hfind hconnected 1 [] with
    ⟨data, rest, a, wifi, hq, hr, -, hrest⟩ | ⟨hq, hr, -⟩
  · exact Or.inl ⟨data, rest, a, wifi, hq, hr, hrest⟩
  · exact Or.inr ⟨hq, hr⟩

/-- What a send does with the data of a packet. It succeeds exactly if the connection is open and the module takes
each packet of the chain whole. -/
structure SendsWhole (s : WifiRun) (a : Address) (data : List Byte) (results : List (Bool × Nat)) (opened : Prop)
    (r : NetX.Status × List (List Byte) × Sockets) : Prop where
  taken : r.2.1.flatten <+: data
  success_iff : r.1 = .success ↔
    opened ∧ (chainPackets s.wifi.pool a).map (fun b => (true, (s.wifi.pool.packet b).size)) <+: results
  whole : r.1 = .success → r.2.1.flatten = data
  kept : r.1 ≠ .success → nxPacketDataRetrieve r.2.2.pool a = (.success, data.length, data)

section sendsWhole

variable {opened : Prop} {results : List (Bool × Nat)} {r : NetX.Status × List (List Byte) × Sockets}

theorem SendEnds.kept (h : SendEnds places wifi held c data others queues r) (ha : (c.head, data) ∈ held)
    (hfail : r.1 ≠ .success) : nxPacketDataRetrieve r.2.2.pool c.head = (.success, data.length, data) := by
  obtain ⟨pieces, wifi', free', queues', -, ⟨rfl, -⟩ | ⟨rfl, hnext⟩⟩ := h
  · exact absurd rfl hfail
  · obtain ⟨d, others', hd, hbytes, hheld, -⟩ := hnext.packets.exists_chain ha
    have hretrieve := hheld.holds.retrieve
    rwa [hd, hbytes] at hretrieve

/-- A send that does not come to its loop. -/
theorem sendsWhole_closed (hclosed : ¬opened) (hstatus : r.1 = .notSuccessful) (hpieces : r.2.1 = [])
    (hkept : r.1 ≠ .success → nxPacketDataRetrieve r.2.2.pool a = (.success, data.length, data)) :
    SendsWhole s a data results opened r := by
  have hfail : r.1 ≠ .success := fun heq => by rw [hstatus] at heq; cases heq
  refine ⟨?_, ⟨fun heq => absurd heq hfail, fun hboth => absurd hboth.1 hclosed⟩, fun heq => absurd heq hfail, hkept⟩
  rw [hpieces]
  exact List.nil_prefix

/-- A send that comes to its loop, in a table that may have been changed before. -/
theorem sendsWhole_open (h : wifi.Faithful places held free (c :: others) queues) (hpool : wifi.pool = s.wifi.pool)
    (hopen : opened) (hbytes : wifi.pool.bytesOf c.packets = data)
    (hkept : (sendPacket wifi c.head results).1 ≠ .success →
      nxPacketDataRetrieve (sendPacket wifi c.head results).2.2.pool c.head = (.success, data.length, data)) :
    SendsWhole s c.head data results opened (sendPacket wifi c.head results) := by
  have hholds : Holds wifi.pool free (c :: (others ++ queued queues)) := h.packets.holds
  have hc := hholds.chained c List.mem_cons_self
  obtain ⟨⟨rest, hfront⟩, hwhole, hsent⟩ :=
    sendLoop_spec results hc.linked_packets hholds.packets_length_le
  have hflatten : (c.packets.map fun b => (wifi.pool.packet b).bytes).flatten = data := by
    rw [← hbytes, PacketPool.bytesOf, List.flatMap_def]
  have hchain : chainPackets s.wifi.pool c.head = c.packets := hpool ▸ chainPackets_eq hholds List.mem_cons_self
  have hstatus : (sendPacket wifi c.head results).1 = .success ↔
      (sendLoop wifi.pool wifi.pool.total (some c.head) results).1 = true := by
    rw [sendPacket]
    rcases sendLoop wifi.pool wifi.pool.total (some c.head) results with ⟨_ | _, pieces⟩ <;> simp
  have hpieces : (sendPacket wifi c.head results).2.1 =
      (sendLoop wifi.pool wifi.pool.total (some c.head) results).2 := by
    rw [sendPacket]
    rcases sendLoop wifi.pool wifi.pool.total (some c.head) results with ⟨_ | _, pieces⟩ <;> rfl
  refine ⟨⟨rest.flatten, ?_⟩, ?_, fun hsuccess => ?_, hkept⟩
  · rw [hpieces, ← List.flatten_append, hfront, hflatten]
  · rw [hstatus, hsent, hchain, hpool, and_iff_right hopen]
  · rw [hpieces, hwhole (hstatus.mp hsuccess), hflatten]

end sendsWhole

section sends

variable (hcreate : nxePacketPoolCreate p = .ok pool) (hs : (wifiMachine pool).Reachable s) (ha : (a, data) ∈ s.held)
  (socketPtr : Nat) (results : List (Bool × Nat))

include hcreate hs ha

theorem tcp_sendsWhole :
    SendsWhole s a data results
      (∃ i, nxWifiSocketEntryFind s.wifi.socket socketPtr true = some i ∧ (s.wifi.socket i).connected = true)
      (nxWifiTcpSocketSend s.wifi socketPtr a results) := by
  obtain ⟨free, chains, queues, h⟩ := wifi_faithful hcreate hs
  obtain ⟨c, others, rfl, hbytes, hc, herase⟩ := h.sockets.packets.exists_chain ha
  have hsockets : s.wifi.Faithful p.places s.held free (c :: others) queues := { h.sockets with packets := hc }
  have hkept := (tcpSend_ends hsockets herase results socketPtr).kept ha
  rw [nxWifiTcpSocketSend] at hkept ⊢
  cases hfind : nxWifiSocketEntryFind s.wifi.socket socketPtr true with
  | none =>
      rw [hfind] at hkept
      exact sendsWhole_closed (by simp) rfl rfl hkept
  | some i =>
      rw [hfind] at hkept
      by_cases hi : (s.wifi.socket i).connected = true
      · simp only [hi, if_true] at hkept ⊢
        exact sendsWhole_open hsockets rfl ⟨i, rfl, hi⟩ hbytes hkept
      · simp only [hi] at hkept ⊢
        exact sendsWhole_closed (by simpa using hi) rfl rfl hkept

theorem udp_sendsWhole (opened : Bool) :
    SendsWhole s a data results
      (∃ i, nxWifiSocketEntryFind s.wifi.socket socketPtr true = some i ∧
        ((s.wifi.socket i).connected = true ∨ opened = true))
      (nxWifiUdpSocketSend s.wifi socketPtr a opened results) := by
  obtain ⟨free, chains, queues, h⟩ := wifi_faithful hcreate hs
  obtain ⟨c, others, rfl, hbytes, hc, herase⟩ := h.sockets.packets.exists_chain ha
  have hsockets : s.wifi.Faithful p.places s.held free (c :: others) queues := { h.sockets with packets := hc }
  have hkept := (udpSend_ends hsockets herase results socketPtr opened).kept ha
  rw [nxWifiUdpSocketSend] at hkept ⊢
  cases hfind : nxWifiSocketEntryFind s.wifi.socket socketPtr true with
  | none =>
      rw [hfind] at hkept
      exact sendsWhole_closed (by simp) rfl rfl hkept
  | some i =>
      rw [hfind] at hkept
      by_cases hi : (s.wifi.socket i).connected = true
      · simp only [hi, if_true] at hkept ⊢
        exact sendsWhole_open hsockets rfl ⟨i, rfl, Or.inl hi⟩ hbytes hkept
      · simp only [hi] at hkept ⊢
        cases opened with
        | true => exact sendsWhole_open hsockets.setConnected rfl ⟨i, rfl, Or.inr rfl⟩ hbytes hkept
        | false => exact sendsWhole_closed (by simpa using hi) rfl rfl hkept

end sends

/-- In every run, a send of a packet that is held gives the module the bytes of the packet in order. It succeeds
exactly if all of them were taken, and a packet that was not sent whole is still there for its caller. -/
theorem send_whole_or_kept (hcreate : nxePacketPoolCreate p = .ok pool) (hs : (wifiMachine pool).Reachable s)
    (ha : (a, data) ∈ s.held) (socketPtr : Nat) (opened : Bool) (results : List (Bool × Nat)) :
    SendsWhole s a data results
        (∃ i, nxWifiSocketEntryFind s.wifi.socket socketPtr true = some i ∧ (s.wifi.socket i).connected = true)
        (nxWifiTcpSocketSend s.wifi socketPtr a results) ∧
      SendsWhole s a data results
        (∃ i, nxWifiSocketEntryFind s.wifi.socket socketPtr true = some i ∧
          ((s.wifi.socket i).connected = true ∨ opened = true))
        (nxWifiUdpSocketSend s.wifi socketPtr a opened results) :=
  ⟨tcp_sendsWhole hcreate hs ha socketPtr results, udp_sendsWhole hcreate hs ha socketPtr results opened⟩

theorem send_whole_or_kept_small : ∃ s, (wifiMachine (nxPacketPoolCreate wifiMemory)).Reachable s ∧
    SendsWhole s 32 [1, 2] [(true, 1)]
      (∃ i, nxWifiSocketEntryFind s.wifi.socket 7 true = some i ∧ (s.wifi.socket i).connected = true)
      (nxWifiTcpSocketSend s.wifi 7 32 [(true, 1)]) := by
  obtain ⟨s, hs, -, ha⟩ := wifiCalls_log
  exact ⟨s, hs, (send_whole_or_kept wifiMemory_created hs ha 7 true [(true, 1)]).1⟩

end DeviceSample.Wifi
