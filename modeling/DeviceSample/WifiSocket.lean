import DeviceSample.NetxRuns
import Mathlib.Data.Fintype.Basic
import Mathlib.Data.List.FinRange

/-!
Sockets over the WiFi module. A table of eight entries connects sockets with the connections of the module; a
thread reads the module for all of them, and queues what it read at the entries until the sockets ask for it.
-/

namespace DeviceSample.Wifi

open Base NetX

/-- `NX_WIFI_TCP_SOCKET` and `NX_WIFI_UDP_SOCKET`. -/
inductive SocketType
  | tcp
  | udp
  deriving DecidableEq, Repr

/-- `NX_WIFI_SOCKET`. -/
structure WifiSocket where
  socketPtr : Nat
  valid : Bool
  type : SocketType
  connected : Bool
  receivedPacketHead : Option Address
  receivedPacketTail : Option Address
  deriving DecidableEq, Repr

/-- An entry after `memset`. -/
def WifiSocket.zero : WifiSocket := ⟨0, false, .tcp, false, none, none⟩

/-- The index of an entry, below `NX_WIFI_SOCKET_COUNTER`. -/
abbrev Entry := Fin 8

/-- `nx_wifi_socket`, `nx_wifi_socket_counter` and `nx_wifi_pool`. -/
structure Sockets where
  pool : PacketPool
  socket : Entry → WifiSocket
  socketCounter : Int

/-- `nx_wifi_initialize`. -/
def nxWifiInitialize (pool : PacketPool) : Sockets := ⟨pool, fun _ => .zero, 0⟩

/-- The loop of `nx_wifi_socket_entry_find`, with the empty index that it has found so far. -/
def entryFindLoop (socket : Entry → WifiSocket) (socketPtr : Nat) (entryFind : Bool) :
    List Entry → Option Entry → Option Entry
  | [], emptyIndex => emptyIndex
  | i :: entries, emptyIndex =>
      if (socket i).valid then
        if (socket i).socketPtr = socketPtr then (if entryFind then some i else none)
        else entryFindLoop socket socketPtr entryFind entries emptyIndex
      else
        entryFindLoop socket socketPtr entryFind entries
          (match emptyIndex with
          | some e => if i < e then some i else some e
          | none => some i)

/-- `nx_wifi_socket_entry_find`. -/
def nxWifiSocketEntryFind (socket : Entry → WifiSocket) (socketPtr : Nat) (entryFind : Bool) : Option Entry :=
  entryFindLoop socket socketPtr entryFind (List.finRange 8) none

/-- The loop of `nx_wifi_socket_reset` over the queue. The link is read before the packet is released. -/
def releaseQueue : Nat → PacketPool → Option Address → PacketPool
  | 0, pool, _ => pool
  | _ + 1, pool, none => pool
  | fuel + 1, pool, some a => releaseQueue fuel (nxPacketRelease pool a).2 (pool.packet a).queueNext

namespace Sockets

def setSocket (s : Sockets) (i : Entry) (socket : WifiSocket) : Sockets :=
  { s with socket := Function.update s.socket i socket }

/-- `nx_wifi_socket_reset`. -/
def reset (s : Sockets) (i : Entry) : Sockets :=
  if (s.socket i).valid then
    { pool := releaseQueue s.pool.total s.pool (s.socket i).receivedPacketHead
      socket := Function.update s.socket i .zero
      socketCounter := s.socketCounter - 1 }
  else s

/-- "Set the entry info": an entry is given to a socket. -/
def fill (s : Sockets) (i : Entry) (socketPtr : Nat) (type : SocketType) : Sockets :=
  { s.setSocket i { s.socket i with socketPtr := socketPtr, valid := true, type := type, connected := false } with
    socketCounter := s.socketCounter + 1 }

def setConnected (s : Sockets) (i : Entry) : Sockets := s.setSocket i { s.socket i with connected := true }

/-- A packet goes to the end of the queue of an entry. -/
def enqueue (s : Sockets) (i : Entry) (a : Address) : Sockets :=
  match (s.socket i).receivedPacketHead, (s.socket i).receivedPacketTail with
  | some _, some tail =>
      { s with pool := (s.pool.setQueueNext tail (some a)).setQueueNext a none }.setSocket i
        { s.socket i with receivedPacketTail := some a }
  | _, _ =>
      { s with pool := s.pool.setQueueNext a none }.setSocket i
        { s.socket i with receivedPacketHead := some a, receivedPacketTail := some a }

/-- The first packet of a queue is taken out. -/
def dequeue (s : Sockets) (i : Entry) (a : Address) : Sockets :=
  let head := (s.pool.packet a).queueNext
  s.setSocket i { s.socket i with
    receivedPacketHead := head
    receivedPacketTail := if head = none then none else (s.socket i).receivedPacketTail }

end Sockets

/-- `nx_wifi_tcp_client_socket_connect`; `opened` is whether `WIFI_OpenClientConnection` succeeds. -/
def nxWifiTcpClientSocketConnect (s : Sockets) (socketPtr : Nat) (opened : Bool) : NetX.Status × Sockets :=
  match nxWifiSocketEntryFind s.socket socketPtr false with
  | none => (.notSuccessful, s)
  | some i =>
      let s := s.fill i socketPtr .tcp
      if opened then (.success, s.setConnected i) else (.notSuccessful, s.reset i)

/-- What `nx_wifi_tcp_socket_disconnect` and `nx_wifi_udp_socket_unbind` do with the table. -/
def closeEntry (s : Sockets) (socketPtr : Nat) : NetX.Status × Sockets :=
  match nxWifiSocketEntryFind s.socket socketPtr true with
  | none => (.notSuccessful, s)
  | some i => if (s.socket i).connected then (.success, s.reset i) else (.notSuccessful, s)

def nxWifiTcpSocketDisconnect (s : Sockets) (socketPtr : Nat) : NetX.Status × Sockets := closeEntry s socketPtr

def nxWifiUdpSocketUnbind (s : Sockets) (socketPtr : Nat) : NetX.Status × Sockets := closeEntry s socketPtr

/-- `nx_wifi_udp_socket_bind`. -/
def nxWifiUdpSocketBind (s : Sockets) (socketPtr : Nat) : NetX.Status × Sockets :=
  match nxWifiSocketEntryFind s.socket socketPtr false with
  | none => (.notSuccessful, s)
  | some i => (.success, s.fill i socketPtr .udp)

/-- `NX_IP_PERIODIC_RATE` and `NX_WAIT_FOREVER`. -/
def nxIpPeriodicRate : Nat := 100

def nxWaitForever : Nat := 0xFFFFFFFF

/-- `nx_wifi_tick_convert_ms`. -/
def nxWifiTickConvertMs (tick : Nat) : Nat :=
  let factor := 1000 / nxIpPeriodicRate
  if tick = 0 then 0 else if nxWaitForever / factor ≤ tick then nxWaitForever else tick * factor

/-- `ES_WIFI_PAYLOAD_SIZE` and `NX_WIFI_PACKET_RESERVED`. -/
def esWifiPayloadSize : Nat := 1200

def nxWifiPacketReserved : Nat := 1

/-- The test that keeps the thread from reading what it could not store. -/
def poolShort (pool : PacketPool) : Bool :=
  pool.available * pool.payloadSize < esWifiPayloadSize + nxWifiPacketReserved * pool.payloadSize

/-- What `WIFI_ReceiveData` gives: data, or none when it fails or has nothing; and the ticks since the call
began. -/
structure Attempt where
  data : List Byte
  elapsed : Nat
  deriving DecidableEq, Repr

/-- The loop of `nx_wifi_socket_receive` that reads the module: its data, nothing once the time is over, or no
result as long as it goes on. -/
def receiveLoop : Nat → List Attempt → Option (List Byte)
  | 0, _ => some []
  | _ + 1, [] => none
  | total + 1, attempt :: attempts =>
      if attempt.data.isEmpty then receiveLoop (total + 1 - nxWifiTickConvertMs attempt.elapsed) attempts
      else some attempt.data

/-- The data that was read goes to a packet of its own. -/
def storeData (pool : PacketPool) (data : List Byte) : Except NetX.Status Address × PacketPool :=
  match nxPacketAllocate pool 0 with
  | (.error status, pool) => (.error status, pool)
  | (.ok a, pool) =>
      match nxePacketDataAppend pool a data with
      | (.success, pool) => (.ok a, pool)
      | (status, pool) => (.error status, (nxPacketRelease pool a).2)

/-- The end of `nx_wifi_socket_receive` when the module was read: the data goes to the caller in a packet. -/
def receiveRead (s : Sockets) (data : List Byte) : Except NetX.Status Address × List (List Byte) × Sockets :=
  if data.isEmpty then (.error .noPacket, [], s)
  else
    match storeData s.pool data with
    | (.ok a, pool) => (.ok a, [data], { s with pool := pool })
    | (.error _, pool) => (.error .notSuccessful, [data], { s with pool := pool })

/-- `nx_wifi_socket_receive`, with the attempts of its loop, and what it has read of the module. -/
def nxWifiSocketReceive (s : Sockets) (socketPtr waitOption : Nat) (attempts : List Attempt) :
    Option (Except NetX.Status Address × List (List Byte) × Sockets) :=
  match nxWifiSocketEntryFind s.socket socketPtr true with
  | none => some (.error .notSuccessful, [], s)
  | some i =>
      if (s.socket i).connected then
        match (s.socket i).receivedPacketHead with
        | some a => some (.ok a, [], s.dequeue i a)
        | none =>
            (receiveLoop (nxWifiTickConvertMs waitOption) attempts).map (receiveRead s)
      else some (.error .notSuccessful, [], s)

/-- The reads of one entry in `nx_wifi_thread_entry`. `reads` is what the module gives one after the other,
before it has nothing or fails; the result has what was read of it. -/
def pollEntry (i : Entry) : Sockets → List (List Byte) → Sockets × List (List Byte)
  | s, [] => (s, [])
  | s, data :: reads =>
      if poolShort s.pool then (s, [])
      else if data.isEmpty then (s, [])
      else
        match storeData s.pool data with
        | (.error _, pool) => ({ s with pool := pool }, [data])
        | (.ok a, pool) =>
            let (s, more) := pollEntry i ({ s with pool := pool }.enqueue i a) reads
            (s, data :: more)

/-- The loop of `nx_wifi_thread_entry` over the entries, which counts those it has read. -/
def pollLoop (reads : Entry → List (List Byte)) : List Entry → Nat → Sockets → Sockets × (Entry → List (List Byte))
  | [], _, s => (s, fun _ => [])
  | i :: entries, socketCounter, s =>
      if (socketCounter : Int) < s.socketCounter then
        if (s.socket i).valid && (s.socket i).connected then
          let (s, read) := pollEntry i s (reads i)
          let (s, others) := pollLoop reads entries (socketCounter + 1) s
          (s, Function.update others i read)
        else pollLoop reads entries socketCounter s
      else (s, fun _ => [])

/-- One round of `nx_wifi_thread_entry`, and what it read for each entry. -/
def nxWifiThreadRound (s : Sockets) (reads : Entry → List (List Byte)) : Sockets × (Entry → List (List Byte)) :=
  if s.socketCounter = 0 then (s, fun _ => []) else pollLoop reads (List.finRange 8) 0 s

/-- The loop of the send functions over the packets of a chain: whether all was sent, and the pieces that were
given to the module. Each call of `WIFI_SendData` has a status and a number of bytes it has sent. -/
def sendLoop (pool : PacketPool) : Nat → Option Address → List (Bool × Nat) → Bool × List (List Byte)
  | _, none, _ => (true, [])
  | 0, some _, _ => (false, [])
  | fuel + 1, some a, results =>
      let data := (pool.packet a).bytes
      match results with
      | (true, sendDataLength) :: results =>
          if sendDataLength = (pool.packet a).size then
            let (sent, pieces) := sendLoop pool fuel (pool.packet a).next results
            (sent, data :: pieces)
          else (false, [data])
      | _ => (false, [data])

/-- The end of both send functions. -/
def sendPacket (s : Sockets) (a : Address) (results : List (Bool × Nat)) : NetX.Status × List (List Byte) × Sockets :=
  match sendLoop s.pool s.pool.total (some a) results with
  | (true, pieces) => (.success, pieces, { s with pool := (nxPacketRelease s.pool a).2 })
  | (false, pieces) => (.notSuccessful, pieces, s)

/-- `nx_wifi_tcp_socket_send`. -/
def nxWifiTcpSocketSend (s : Sockets) (socketPtr : Nat) (a : Address) (results : List (Bool × Nat)) :
    NetX.Status × List (List Byte) × Sockets :=
  match nxWifiSocketEntryFind s.socket socketPtr true with
  | none => (.notSuccessful, [], s)
  | some i => if (s.socket i).connected then sendPacket s a results else (.notSuccessful, [], s)

/-- `nx_wifi_udp_socket_send`, which opens the connection of an entry that has none. -/
def nxWifiUdpSocketSend (s : Sockets) (socketPtr : Nat) (a : Address) (opened : Bool) (results : List (Bool × Nat)) :
    NetX.Status × List (List Byte) × Sockets :=
  match nxWifiSocketEntryFind s.socket socketPtr true with
  | none => (.notSuccessful, [], s)
  | some i =>
      if (s.socket i).connected then sendPacket s a results
      else if opened then sendPacket (s.setConnected i) a results
      else (.notSuccessful, [], s.reset i)

end DeviceSample.Wifi
