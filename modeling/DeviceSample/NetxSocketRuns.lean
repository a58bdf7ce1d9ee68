import DeviceSample.BaseRun
import DeviceSample.NetxPorts

/-!
Runs of calls on the sockets of UDP and of TCP. Whatever callers ask for, in whatever order, the answers are those
that the map of ports gives.
-/

namespace DeviceSample.NetX

open Base

namespace PortMap

/-- The answers of the calls that create and delete sockets and give up a port. `valid` is whether the options
are. -/
def create (m : PortMap) (a : Address) (valid : Bool) : SocketStatus × PortMap :=
  if h : a ∈ m.sockets then (.ptrError, m)
  else if valid then (.success, m.add a h)
  else (.optionError, m)

def delete (m : PortMap) (a : Address) : SocketStatus × PortMap :=
  if a ∈ m.sockets then
    if h : m.port a = none then (.success, m.remove a h) else (.stillBound, m)
  else (.ptrError, m)

def checkedBind (m : PortMap) (a : Address) (port rand : Nat) : SocketStatus × PortMap :=
  if h : a ∈ m.sockets then
    if nxMaxPort < port then (.invalidPort, m) else m.bind a port rand h
  else (.ptrError, m)

def unbind (m : PortMap) (a : Address) : SocketStatus × PortMap :=
  if a ∈ m.sockets then
    if m.port a = none then (.notBound, m) else (.success, m.release a)
  else (.ptrError, m)

theorem bind_sockets (m : PortMap) {a : Address} (ha : a ∈ m.sockets) (port rand : Nat) :
    (m.bind a port rand ha).2.sockets = m.sockets := by
  rw [bind]
  split
  · rfl
  · cases m.choose port rand with
    | none => rfl
    | some p =>
        simp only
        split <;> rfl

end PortMap

/-- A table answers a call as a map does, and goes on standing for it. -/
def Refines (result : Option (SocketStatus × SocketTable)) (answer : SocketStatus × PortMap) : Prop :=
  ∃ t, result = some (answer.1, t) ∧ Represents t answer.2

/-- A call on a UDP socket. -/
inductive UdpCall
  | create (a : Address) (options : SocketOptions)
  | delete (a : Address)
  | bind (a : Address) (port rand : Nat) (wifi : SocketStatus)
  | unbind (a : Address)

/-- A table without sockets. What the blocks hold that are not sockets yet, does not matter, as long as it is not
the identity of one. -/
structure SocketTable.Fresh (t : SocketTable) : Prop where
  id : ∀ a, t.id a = false
  createdSocketsPtr : t.createdSocketsPtr = none
  createdSocketsCount : t.createdSocketsCount = 0
  portTable : ∀ i, t.portTable i = none

def udpStep (t : SocketTable) : UdpCall → Option (SocketStatus × SocketTable)
  | .create a options => nxeUdpSocketCreate t a options
  | .delete a => nxeUdpSocketDelete t a
  | .bind a port rand wifi => nxeUdpSocketBind t a port rand wifi
  | .unbind a => nxeUdpSocketUnbind t a

/-- What the call is for. When the module has no entry left for a socket, it has its port all the same. -/
def PortMap.udpStep (m : PortMap) : UdpCall → SocketStatus × PortMap
  | .create a options => m.create a options.udpValid
  | .delete a => m.delete a
  | .bind a port rand wifi =>
      let (status, m) := m.checkedBind a port rand
      (if status = .success then wifi else status, m)
  | .unbind a => m.unbind a

/-- The table of TCP, and what is known of the connections of its sockets. -/
structure TcpPorts where
  ports : PortMap
  established : Address → Bool

/-- A call on a TCP socket of a client. `wifi` is whether the WiFi module opens or closes the connection. -/
inductive TcpCall
  | create (a : Address) (options : SocketOptions)
  | delete (a : Address)
  | bind (a : Address) (port rand : Nat)
  | unbind (a : Address)
  | connect (a : Address) (wifi : Bool)
  | disconnect (a : Address) (wifi : Bool)

def tcpStep (t : TcpTable) : TcpCall → Option (SocketStatus × TcpTable)
  | .create a options => nxeTcpSocketCreate t a options
  | .delete a => nxeTcpSocketDelete t a
  | .bind a port rand => nxeTcpClientSocketBind t a port rand
  | .unbind a => nxeTcpClientSocketUnbind t a
  | .connect a wifi => some (nxeTcpClientSocketConnect t a wifi)
  | .disconnect a wifi => some (nxeTcpSocketDisconnect t a wifi)

/-- A socket is deleted only when it has neither a port nor a connection, and gives up both when it is unbound. -/
def TcpPorts.step (m : TcpPorts) : TcpCall → SocketStatus × TcpPorts
  | .create a options =>
      let (status, ports) := m.ports.create a options.tcpValid
      (status, ⟨ports, if status = .success then Function.update m.established a false else m.established⟩)
  | .delete a =>
      if a ∈ m.ports.sockets ∧ m.established a then (.stillBound, m)
      else
        let (status, ports) := m.ports.delete a
        (status, { m with ports := ports })
  | .bind a port rand =>
      let (status, ports) := m.ports.checkedBind a port rand
      (status, { m with ports := ports })
  | .unbind a =>
      let (status, ports) := m.ports.unbind a
      (status, ⟨ports, if a ∈ m.ports.sockets then Function.update m.established a false else m.established⟩)
  | .connect a wifi =>
      if a ∈ m.ports.sockets then
        if wifi then (.success, { m with established := Function.update m.established a true }) else (.notSuccessful, m)
      else (.ptrError, m)
  | .disconnect a wifi =>
      if a ∈ m.ports.sockets then
        if wifi then (.success, { m with established := Function.update m.established a false })
        else (.notSuccessful, m)
      else (.ptrError, m)

/-- All created sockets are those of clients, and are either closed or established. -/
structure TcpRepresents (t : TcpTable) (m : TcpPorts) : Prop where
  sockets : Represents t.sockets m.ports
  client : ∀ a ∈ m.ports.sockets, t.clientType a = true
  state : ∀ a ∈ m.ports.sockets, t.state a = if m.established a then .established else .closed

section calls

variable {t : SocketTable} {m : PortMap} {a : Address}

theorem SocketTable.Fresh.represents (h : t.Fresh) : Represents t .empty where
  created := h.createdSocketsPtr ▸ ringAt_nil
  count := h.createdSocketsCount
  id a := by
    rw [h.id a]
    exact iff_of_false Bool.false_ne_true List.not_mem_nil
  idle _ ha := absurd ha List.not_mem_nil
  port _ _ ha := by cases ha
  unbound _ ha := absurd ha List.not_mem_nil
  buckets i := by
    refine ⟨[], h.portTable i ▸ ringAt_nil, fun a => iff_of_false List.not_mem_nil ?_⟩
    rintro ⟨p, hp, -⟩
    cases hp

namespace Represents

theorem id_eq (h : Represents t m) (a : Address) : t.id a = decide (a ∈ m.sockets) := by
  rw [Bool.eq_iff_iff, h.id a, decide_eq_true_iff]

theorem udpCreate (h : Represents t m) (a : Address) (options : SocketOptions) :
    Refines (nxeUdpSocketCreate t a options) (m.create a options.udpValid) := by
  rw [nxeUdpSocketCreate, PortMap.create, h.alreadyCreated a]
  by_cases ha : a ∈ m.sockets
  · simpa [ha] using ⟨t, rfl, h⟩
  · obtain ⟨t', hcreate, ht'⟩ := h.create ha
    cases hvalid : options.udpValid with
    | true => simpa [ha, hcreate] using ⟨t', rfl, ht'⟩
    | false => simpa [ha] using ⟨t, rfl, h⟩

theorem udpDelete (h : Represents t m) (a : Address) : Refines (nxeUdpSocketDelete t a) (m.delete a) := by
  rw [nxeUdpSocketDelete, PortMap.delete, h.id_eq]
  by_cases ha : a ∈ m.sockets
  · rw [h.next_isSome ha]
    by_cases hport : m.port a = none
    · obtain ⟨t', hdelete, ht'⟩ := h.delete ha hport
      simpa [ha, hport, hdelete] using ⟨t', rfl, ht'⟩
    · obtain ⟨p, hp⟩ := Option.ne_none_iff_exists'.mp hport
      simpa [ha, hp] using ⟨t, rfl, h⟩
  · simpa [ha] using ⟨t, rfl, h⟩

theorem udpBind (h : Represents t m) (a : Address) (port rand : Nat) (wifi : SocketStatus) :
    Refines (nxeUdpSocketBind t a port rand wifi) (m.udpStep (.bind a port rand wifi)) := by
  rw [nxeUdpSocketBind, PortMap.udpStep, PortMap.checkedBind, h.id_eq]
  by_cases ha : a ∈ m.sockets
  · by_cases hport : nxMaxPort < port
    · simpa [ha, hport] using ⟨t, rfl, h⟩
    · obtain ⟨t', hbind, ht'⟩ := h.bind ha port rand
      simpa [ha, hport, nxUdpSocketBind, hbind] using ⟨t', rfl, ht'⟩
  · simpa [ha] using ⟨t, rfl, h⟩

theorem udpUnbind (h : Represents t m) (a : Address) : Refines (nxeUdpSocketUnbind t a) (m.unbind a) := by
  rw [nxeUdpSocketUnbind, PortMap.unbind, h.id_eq]
  by_cases ha : a ∈ m.sockets
  · rw [h.next_isSome ha]
    cases hport : m.port a with
    | none => simpa [ha] using ⟨t, rfl, h⟩
    | some p =>
        obtain ⟨t', hunbind, ht'⟩ := h.unlinkBound hport
        simpa [ha, hunbind] using ⟨t', rfl, ht'⟩
  · simpa [ha] using ⟨t, rfl, h⟩

theorem udpStep (h : Represents t m) (call : UdpCall) : Refines (NetX.udpStep t call) (m.udpStep call) := by
  cases call with
  | create a options => exact h.udpCreate a options
  | delete a => exact h.udpDelete a
  | bind a port rand wifi => exact h.udpBind a port rand wifi
  | unbind a => exact h.udpUnbind a

end Represents

end calls

/-- Whatever is asked of the UDP sockets, no call follows a null pointer or goes around a list for ever, and each
answers what the map of ports gives. -/
theorem udp_calls_refine {t : SocketTable} (ht : t.Fresh) (calls : List UdpCall) :
    ∃ last, serve udpStep t calls = some ((answers PortMap.udpStep .empty calls).1, last) ∧
      Represents last (answers PortMap.udpStep .empty calls).2 :=
  serve_of_simulates Represents (fun _ _ call h => h.udpStep call) ht.represents calls

/-- A table in memory that is all zero. -/
def zeroTable : SocketTable where
  id _ := false
  port _ := 0
  bindInProgress _ := false
  created := ⟨fun _ => none, fun _ => none⟩
  bound := ⟨fun _ => none, fun _ => none⟩
  createdSocketsPtr := none
  createdSocketsCount := 0
  portTable _ := none

theorem zeroTable_fresh : zeroTable.Fresh := ⟨fun _ => rfl, rfl, rfl, fun _ => rfl⟩

/-- Three sockets of which two ask for the port 53; the port 85 is on the same list. -/
def udpCalls : List UdpCall :=
  [.create 1 ⟨0, 0, 0x80, 0⟩, .create 2 ⟨0, 0, 0x80, 0⟩, .create 2 ⟨0, 0, 0x80, 0⟩, .bind 1 53 0 .success,
    .bind 2 53 0 .success, .bind 2 85 0 .notSuccessful, .create 3 ⟨0, 0x4000, 0x80, 0⟩, .delete 1, .unbind 3]

theorem udp_calls_refine_small : ∃ last, serve udpStep zeroTable udpCalls = some
    ([.success, .success, .ptrError, .success, .portUnavailable, .notSuccessful, .success, .stillBound, .notBound],
      last) := by
  obtain ⟨last, hlast, -⟩ := udp_calls_refine zeroTable_fresh udpCalls
  refine ⟨last, hlast.trans ?_⟩
  rw [show (answers PortMap.udpStep .empty udpCalls).1 = [.success, .success, .ptrError, .success, .portUnavailable,
    .notSuccessful, .success, .stillBound, .notBound] by decide +kernel]

section tcp

variable {t : TcpTable} {m : TcpPorts} {a : Address}

def TcpRefines (result : Option (SocketStatus × TcpTable)) (answer : SocketStatus × TcpPorts) : Prop :=
  ∃ t, result = some (answer.1, t) ∧ TcpRepresents t answer.2

/-- A state that is stored beside what is known of it. -/
theorem state_update {state : Address → TcpState} {established : Address → Bool} {a b : Address} (value : Bool)
    (h : b ≠ a → state b = if established b then .established else .closed) :
    Function.update state a (if value then .established else .closed) b =
      if Function.update established a value b then .established else .closed := by
  by_cases hba : b = a
  · rw [hba, Function.update_self, Function.update_self]
  · rw [Function.update_of_ne hba, Function.update_of_ne hba]
    exact h hba

namespace TcpRepresents

theorem create (h : TcpRepresents t m) (a : Address) (options : SocketOptions) :
    TcpRefines (tcpStep t (.create a options)) (m.step (.create a options)) := by
  rw [tcpStep, nxeTcpSocketCreate, TcpPorts.step, PortMap.create, h.sockets.alreadyCreated a]
  by_cases ha : a ∈ m.ports.sockets
  · simpa [ha] using ⟨t, rfl, h⟩
  · obtain ⟨t', hcreate, ht'⟩ := h.sockets.create ha
    cases hvalid : options.tcpValid with
    | false => simpa [ha] using ⟨t, rfl, h⟩
    | true =>
        have hstate : TcpRepresents ⟨t', Function.update t.state a .closed, Function.update t.clientType a true⟩
            ⟨m.ports.add a ha, Function.update m.established a false⟩ := by
          refine ⟨ht', fun b hb => ?_, fun b hb => ?_⟩
          · rcases List.mem_append.mp hb with hb | hb
            · exact (Function.update_of_ne (ne_of_mem_of_not_mem hb ha) _ _).trans (h.client b hb)
            · rw [List.mem_singleton.mp hb]
              exact Function.update_self ..
          · refine state_update false fun hba => h.state b ?_
            exact (List.mem_append.mp hb).resolve_right fun heq => hba (List.mem_singleton.mp heq)
        simpa [ha, hcreate] using ⟨_, rfl, hstate⟩

/-- The state of a socket is stored to. -/
theorem setState (h : TcpRepresents t m) {sockets : SocketTable} {ports : PortMap} (hsockets : Represents sockets ports)
    (hsub : ports.sockets ⊆ m.ports.sockets) (a : Address) (established : Bool) :
    TcpRepresents { t with
        sockets := sockets
        state := Function.update t.state a (if established then .established else .closed) }
      ⟨ports, Function.update m.established a established⟩ where
  sockets := hsockets
  client b hb := h.client b (hsub hb)
  state b hb := state_update established fun _ => h.state b (hsub hb)

theorem setSockets (h : TcpRepresents t m) {sockets : SocketTable} {ports : PortMap}
    (hsockets : Represents sockets ports) (hsub : ports.sockets ⊆ m.ports.sockets) :
    TcpRepresents { t with sockets := sockets } { m with ports := ports } :=
  ⟨hsockets, fun b hb => h.client b (hsub hb), fun b hb => h.state b (hsub hb)⟩

theorem delete (h : TcpRepresents t m) (a : Address) : TcpRefines (tcpStep t (.delete a)) (m.step (.delete a)) := by
  rw [tcpStep, nxeTcpSocketDelete, nxTcpSocketDelete, TcpPorts.step, PortMap.delete, h.sockets.id_eq]
  by_cases ha : a ∈ m.ports.sockets
  · rw [h.sockets.next_isSome ha, h.sockets.idle a ha, h.state a ha]
    cases hestablished : m.established a with
    | true => simpa [ha] using ⟨t, rfl, h⟩
    | false =>
        by_cases hport : m.ports.port a = none
        · obtain ⟨t', hdelete, ht'⟩ := h.sockets.delete ha hport
          have hrest := h.setSockets ht' fun b hb => List.mem_of_mem_erase hb
          simpa [ha, hport, hdelete] using ⟨_, rfl, hrest⟩
        · obtain ⟨p, hp⟩ := Option.ne_none_iff_exists'.mp hport
          simpa [ha, hp] using ⟨t, rfl, h⟩
  · simpa [ha] using ⟨t, rfl, h⟩

theorem bind (h : TcpRepresents t m) (a : Address) (port rand : Nat) :
    TcpRefines (tcpStep t (.bind a port rand)) (m.step (.bind a port rand)) := by
  rw [tcpStep, nxeTcpClientSocketBind, TcpPorts.step, PortMap.checkedBind, h.sockets.id_eq]
  by_cases ha : a ∈ m.ports.sockets
  · by_cases hport : nxMaxPort < port
    · simpa [ha, hport] using ⟨t, rfl, h⟩
    · obtain ⟨t', hbind, ht'⟩ := h.sockets.bind ha port rand
      have hrest := h.setSockets ht' (m.ports.bind_sockets ha port rand ▸ List.Subset.refl _)
      simpa [ha, hport, hbind] using ⟨_, rfl, hrest⟩
  · simpa [ha] using ⟨t, rfl, h⟩

theorem unbind (h : TcpRepresents t m) (a : Address) : TcpRefines (tcpStep t (.unbind a)) (m.step (.unbind a)) := by
  rw [tcpStep, nxeTcpClientSocketUnbind, TcpPorts.step, PortMap.unbind, h.sockets.id_eq]
  by_cases ha : a ∈ m.ports.sockets
  · have hclosed := h.setState h.sockets (List.Subset.refl _) a false
    simp only [nxTcpSocketBlockCleanup, h.client a ha, if_true, Function.update_self, h.sockets.next_isSome ha,
      h.sockets.idle a ha]
    cases hport : m.ports.port a with
    | none => simpa [ha] using ⟨_, rfl, hclosed⟩
    | some p =>
        obtain ⟨t', hunbind, ht'⟩ := h.sockets.unlinkBound hport
        have hrest := h.setState ht' (List.Subset.refl _) a false
        simpa [ha, hunbind] using ⟨_, rfl, hrest⟩
  · simpa [ha] using ⟨t, rfl, h⟩

theorem step (h : TcpRepresents t m) (call : TcpCall) : TcpRefines (tcpStep t call) (m.step call) := by
  cases call with
  | create a options => exact h.create a options
  | delete a => exact h.delete a
  | bind a port rand => exact h.bind a port rand
  | unbind a => exact h.unbind a
  | connect a wifi =>
      rw [tcpStep, nxeTcpClientSocketConnect, TcpPorts.step, h.sockets.id_eq]
      by_cases ha : a ∈ m.ports.sockets
      · have hstate := h.setState h.sockets (List.Subset.refl _) a true
        cases wifi with
        | true => simpa [ha] using ⟨_, rfl, hstate⟩
        | false => simpa [ha] using ⟨t, rfl, h⟩
      · simpa [ha] using ⟨t, rfl, h⟩
  | disconnect a wifi =>
      rw [tcpStep, nxeTcpSocketDisconnect, TcpPorts.step, h.sockets.id_eq]
      by_cases ha : a ∈ m.ports.sockets
      · have hstate := h.setState h.sockets (List.Subset.refl _) a false
        cases wifi with
        | true => simpa [ha] using ⟨_, rfl, hstate⟩
        | false => simpa [ha] using ⟨t, rfl, h⟩
      · simpa [ha] using ⟨t, rfl, h⟩

end TcpRepresents

end tcp

/-- The same for TCP, where a socket that is unbound is closed as well, and one that is established is not
deleted. -/
theorem tcp_calls_refine {t : TcpTable} (ht : t.sockets.Fresh) (calls : List TcpCall) :
    ∃ last, serve tcpStep t calls =
        some ((answers TcpPorts.step ⟨.empty, fun _ => false⟩ calls).1, last) ∧
      TcpRepresents last (answers TcpPorts.step ⟨.empty, fun _ => false⟩ calls).2 :=
  serve_of_simulates TcpRepresents (fun _ _ call h => h.step call)
    ⟨ht.represents, fun _ ha => absurd ha List.not_mem_nil, fun _ ha => absurd ha List.not_mem_nil⟩ calls

theorem tcp_calls_refine_small : ∃ last, serve tcpStep ⟨zeroTable, fun _ => .closed, fun _ => false⟩
    [.create 1 ⟨0, 0, 0x80, 512⟩, .bind 1 8883 0, .connect 1 true, .delete 1, .unbind 1, .delete 1] =
      some ([.success, .success, .success, .stillBound, .success, .success], last) := by
  obtain ⟨last, hlast, -⟩ := tcp_calls_refine (t := ⟨zeroTable, fun _ => .closed, fun _ => false⟩) zeroTable_fresh
    [.create 1 ⟨0, 0, 0x80, 512⟩, .bind 1 8883 0, .connect 1 true, .delete 1, .unbind 1, .delete 1]
  refine ⟨last, hlast.trans ?_⟩
  congr 2

/-- A created socket is bound to the port. -/
def SocketTable.Taken (t : SocketTable) (p : Nat) : Prop :=
  ∃ a, t.id a = true ∧ (t.bound.next a).isSome = true ∧ t.port a = p

/-- A table of UDP or of TCP behind some calls. -/
inductive SocketTable.Reached : SocketTable → Prop
  | udp {start last : SocketTable} {replies : List SocketStatus} (calls : List UdpCall) (hstart : start.Fresh)
      (hcalls : serve udpStep start calls = some (replies, last)) : Reached last
  | tcp {start last : TcpTable} {replies : List SocketStatus} (calls : List TcpCall) (hstart : start.sockets.Fresh)
      (hcalls : serve tcpStep start calls = some (replies, last)) : Reached last.sockets

section reached

variable {t : SocketTable} {m : PortMap} {a b : Address} {p : Nat}

theorem SocketTable.Reached.represents (h : t.Reached) : ∃ m, Represents t m := by
  cases h with
  | udp calls hstart hcalls =>
      obtain ⟨last, hlast, hrepresents⟩ := udp_calls_refine hstart calls
      obtain ⟨-, rfl⟩ := Prod.mk.inj (Option.some.inj (hcalls.symm.trans hlast))
      exact ⟨_, hrepresents⟩
  | tcp calls hstart hcalls =>
      obtain ⟨last, hlast, hrepresents⟩ := tcp_calls_refine hstart calls
      obtain ⟨-, rfl⟩ := Prod.mk.inj (Option.some.inj (hcalls.symm.trans hlast))
      exact ⟨_, hrepresents.sockets⟩

namespace Represents

theorem port_iff (h : Represents t m) :
    m.port a = some p ↔ t.id a = true ∧ (t.bound.next a).isSome = true ∧ t.port a = p := by
  constructor
  · intro hp
    have ha := m.created a p hp
    exact ⟨(h.id a).mpr ha, by rw [h.next_isSome ha, hp]; rfl, h.port a p hp⟩
  · rintro ⟨hid, hnext, hp⟩
    rw [h.next_isSome ((h.id a).mp hid)] at hnext
    obtain ⟨q, hq⟩ := Option.isSome_iff_exists.mp hnext
    rw [hq, ← hp, h.port a q hq]

theorem taken_iff (h : Represents t m) : t.Taken p ↔ m.taken p = true := by
  rw [PortMap.taken_iff]
  exact exists_congr fun a => h.port_iff.symm

end Represents

/-- No port is that of two sockets, every walk along the list of a port finds out whether it is taken, and the
counter is the number of created sockets. -/
theorem ports_unique (h : t.Reached) :
    (∀ a b, t.id a = true → t.id b = true → (t.bound.next a).isSome = true → (t.bound.next b).isSome = true →
        t.port a = t.port b → a = b) ∧
      (∀ p, ∃ search found, t.searchPort p = some (search, found) ∧ (found = true ↔ t.Taken p)) ∧
      ∃ sockets : List Address, sockets.Nodup ∧ (∀ a, a ∈ sockets ↔ t.id a = true) ∧
        t.createdSocketsCount = sockets.length := by
  obtain ⟨m, hm⟩ := h.represents
  refine ⟨fun a b ha hb hnext hnext' hport => ?_, fun p => ?_, m.sockets, m.nodup, fun a => (hm.id a).symm, hm.count⟩
  · exact m.injective a b (t.port b) (hm.port_iff.mpr ⟨ha, hnext, hport⟩) (hm.port_iff.mpr ⟨hb, hnext', rfl⟩)
  · obtain ⟨search, hsearch, -⟩ := hm.searchPort p
    exact ⟨search, m.taken p, hsearch, hm.taken_iff.symm⟩

theorem udpCalls_reached : ∃ t : SocketTable, t.Reached ∧ t.id 1 = true ∧ (t.bound.next 1).isSome = true ∧
    t.port 1 = 53 ∧ t.id 3 = true ∧ t.bound.next 3 = none ∧ ¬t.Taken 0xC007 := by
  have hcalls : (serve udpStep zeroTable udpCalls).any (fun r => decide (r.2.id 1 = true ∧
      (r.2.bound.next 1).isSome = true ∧ r.2.port 1 = 53 ∧ r.2.id 3 = true ∧ r.2.bound.next 3 = none ∧
      (r.2.searchPort 0xC007).map Prod.snd = some false)) = true := by
    decide +kernel
  rw [Option.any_eq_true] at hcalls
  obtain ⟨⟨replies, t⟩, hserve, htest⟩ := hcalls
  obtain ⟨hid, hnext, hport, hid', hnext', hfree⟩ := of_decide_eq_true htest
  have ht : t.Reached := .udp udpCalls zeroTable_fresh hserve
  obtain ⟨m, hm⟩ := ht.represents
  obtain ⟨search, hsearch, -⟩ := hm.searchPort 0xC007
  rw [hsearch, Option.map_some] at hfree
  refine ⟨t, ht, hid, hnext, hport, hid', hnext', ?_⟩
  have hnot : m.taken 0xC007 = false := Option.some.inj hfree
  rw [hm.taken_iff, hnot]
  exact Bool.false_ne_true

theorem ports_unique_small : ∃ t : SocketTable, t.Reached ∧ ∃ search, t.searchPort 53 = some (search, true) := by
  obtain ⟨t, ht, hid, hnext, hport, -⟩ := udpCalls_reached
  obtain ⟨search, found, hsearch, hfound⟩ := (ports_unique ht).2.1 53
  exact ⟨t, ht, search, hfound.mpr ⟨1, hid, hnext, hport⟩ ▸ hsearch⟩

/-- A socket that is bound to any port gets the first that is free, in the order of the search from the random one
on, and there is none exactly if all of them are taken. -/
theorem any_port_binds (h : t.Reached) (ha : t.id a = true) (hnext : t.bound.next a = none) (rand : Nat) :
    ((∀ p, nxSearchPortStart ≤ p → p ≤ nxMaxPort → t.Taken p) ∧
        t.bind a nxAnyPort rand = some (.noFreePorts, t)) ∨
      ∃ k after, let p := nxSearchPortStart + (rand + k) % (nxMaxPort + 1 - nxSearchPortStart)
        t.bind a nxAnyPort rand = some (.success, after) ∧ ¬t.Taken p ∧ after.port a = p ∧
          (∀ j < k, t.Taken (nxSearchPortStart + (rand + j) % (nxMaxPort + 1 - nxSearchPortStart))) ∧
          ∀ q, after.Taken q ↔ t.Taken q ∨ q = p := by
  obtain ⟨m, hm⟩ := h.represents
  have hmem : a ∈ m.sockets := (hm.id a).mp ha
  have hport : m.port a = none := by
    rw [← Option.isNone_iff_eq_none, ← Option.not_isSome, ← hm.next_isSome hmem, hnext]
    rfl
  have hidle : ((t.bound.next a).isSome || t.bindInProgress a) = false := by
    rw [hnext, hm.idle a hmem]
    rfl
  rw [SocketTable.bind, hidle, hm.choosePort, PortMap.choose, if_pos rfl]
  cases hfree : m.firstFree rand with
  | none =>
      refine Or.inl ⟨fun p hlow hhigh => hm.taken_iff.mpr (PortMap.firstFree_eq_none.mp hfree p hlow hhigh), rfl⟩
  | some p =>
      obtain ⟨k, rfl, hfreep, hbefore⟩ := PortMap.firstFree_eq_some hfree
      obtain ⟨htaken, -⟩ | ⟨htaken, after, hbind, hafter⟩ := hm.bindPort hmem hport _
      · rw [hfreep] at htaken
        cases htaken
      · refine Or.inr ⟨k, after, hbind, ?_, ?_, fun j hj => hm.taken_iff.mpr (hbefore j hj), fun q => ?_⟩
        · rw [hm.taken_iff, htaken]
          exact Bool.false_ne_true
        · exact hafter.port a _ PortMap.assign_port_self
        · rw [hafter.taken_iff, hm.taken_iff, PortMap.assign_taken hport]

theorem any_port_binds_small : ∃ t after : SocketTable, t.Reached ∧
    t.bind 3 nxAnyPort 7 = some (.success, after) ∧ after.port 3 = 0xC007 := by
  obtain ⟨t, ht, -, -, -, hid, hnext, hfree⟩ := udpCalls_reached
  obtain ⟨hall, -⟩ | ⟨k, after, hbind, -, hport, hbefore, -⟩ := any_port_binds ht hid hnext 7
  · exact absurd (hall 0xC007 (by decide) (by decide)) hfree
  · cases k with
    | zero => exact ⟨t, after, ht, hbind, hport⟩
    | succ k => exact absurd (hbefore 0 k.succ_pos) hfree

end reached

end DeviceSample.NetX
