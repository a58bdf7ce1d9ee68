import DeviceSample.BaseRing
import DeviceSample.NetxPool

/-!
Sockets and their ports. The sockets of an IP instance are in the ring of the created ones, and those that are
bound in a second ring, one of thirty-two that are chosen by a hash of the port. UDP and TCP have the same code
with other fields, so that their functions are these with what differs.
-/

namespace DeviceSample.NetX

open Base

/-- The status values of the calls on sockets. -/
inductive SocketStatus
  | success
  | ptrError
  | optionError
  | invalidPort
  | alreadyBound
  | noFreePorts
  | portUnavailable
  | stillBound
  | notBound
  | notClosed
  | notCreated
  | notSuccessful
  deriving DecidableEq, Repr

/-- `NX_MAX_PORT`, `NX_SEARCH_PORT_START` and `NX_ANY_PORT`. -/
def nxMaxPort : Nat := 0xFFFF

def nxSearchPortStart : Nat := 0xC000

def nxAnyPort : Nat := 0

/-- The fields of the control blocks of one protocol, by address, and those of `NX_IP` that lead to them. `id` is
whether the identity field is the protocol's, `NX_UDP_ID` or `NX_TCP_ID`. -/
structure SocketTable where
  id : Address → Bool
  port : Address → Nat
  bindInProgress : Address → Bool
  created : Links Address
  bound : Links Address
  createdSocketsPtr : Option Address
  createdSocketsCount : Nat
  portTable : Fin 32 → Option Address

/-- `(port + (port >> 8)) & NX_UDP_PORT_TABLE_MASK`. -/
def portIndex (port : Nat) : Fin 32 := ⟨(port + (port >>> 8)) % 32, Nat.mod_lt _ (by decide)⟩

/-- What a socket is created with. TCP also has a window. -/
structure SocketOptions where
  typeOfService : Nat
  fragment : Nat
  timeToLive : Nat
  windowSize : Nat
  deriving DecidableEq, Repr

namespace SocketOptions

/-- The checks of `_nxe_udp_socket_create`: `NX_IP_TOS_MASK`, `NX_FRAGMENT_OKAY` and `NX_DONT_FRAGMENT`,
`NX_IP_TIME_TO_LIVE_MASK`. -/
def udpValid (options : SocketOptions) : Bool :=
  options.typeOfService &&& (0xFFFFFFFF - 0x00FF0000) == 0 &&
    (options.fragment == 0 || options.fragment == 0x4000) && options.timeToLive ≤ 0xFF000000

/-- Those of `_nxe_tcp_socket_create`, which has `NX_LOWER_16_MASK` for the window. -/
def tcpValid (options : SocketOptions) : Bool :=
  options.udpValid && options.windowSize != 0 && options.windowSize ≤ 0xFFFF

end SocketOptions

namespace SocketTable

/-- `memset` of a control block. -/
def clear (t : SocketTable) (a : Address) : SocketTable :=
  { t with
    id := Function.update t.id a false
    port := Function.update t.port a 0
    bindInProgress := Function.update t.bindInProgress a false
    created := (t.created.setNext a none).setPrevious a none
    bound := (t.bound.setNext a none).setPrevious a none }

/-- The loop of the checked create functions: `created_count` rounds along the created sockets. -/
def alreadyCreated (t : SocketTable) (a : Address) : Nat → Option Address → Option Bool
  | 0, _ => some false
  | createdCount + 1, createdSocket =>
      if createdSocket = some a then some true
      else do
        let socket ← createdSocket
        alreadyCreated t a createdCount (t.created.next socket)

/-- "Place the new control block on the list of created sockets". -/
def linkCreated (t : SocketTable) (a : Address) : Option (SocketTable) :=
  match t.createdSocketsPtr with
  | some first => do
      let tail ← t.created.previous first
      let created := (t.created.setPrevious first (some a)).setNext tail (some a)
      return { t with created := (created.setPrevious a (some tail)).setNext a (some first) }
  | none =>
      some { t with
        createdSocketsPtr := some a
        created := (t.created.setPrevious a (some a)).setNext a (some a) }

/-- `_nx_udp_socket_create` and `_nx_tcp_socket_create`. -/
def create (t : SocketTable) (a : Address) : Option (SocketTable) := do
  let cleared := t.clear a
  let linked ← linkCreated { cleared with id := Function.update cleared.id a true } a
  return { linked with createdSocketsCount := linked.createdSocketsCount + 1 }

/-- The socket is taken from the list of created sockets. -/
def unlinkCreated (t : SocketTable) (a : Address) : Option (SocketTable) :=
  if t.created.next a = some a then some { t with createdSocketsPtr := none }
  else do
    let created ← t.created.unlink a
    return { t with
      created := created
      createdSocketsPtr := if t.createdSocketsPtr = some a then created.next a else t.createdSocketsPtr }

/-- The end of `_nx_udp_socket_delete` and `_nx_tcp_socket_delete`. -/
def delete (t : SocketTable) (a : Address) : Option (SocketTable) := do
  let unlinked ← unlinkCreated { t with id := Function.update t.id a false } a
  return { unlinked with createdSocketsCount := unlinked.createdSocketsCount - 1 }

/-- The walk along the sockets of a port's list, of which there are no more than were created: the socket where it
ends, if the list has one, and whether that has the port. -/
def searchPort (t : SocketTable) (port : Nat) : Option (Option Address × Bool) :=
  match t.portTable (portIndex port) with
  | some first => do
      let (search, found) ← ringSearch t.bound.next (fun a => t.port a == port) first t.createdSocketsCount first
      return (some search, found)
  | none => some (none, false)

/-- The loop of `_nx_udp_free_port_find` and `_nx_tcp_free_port_find`, which ends where it began. -/
def freePortLoop (t : SocketTable) (startingPort : Nat) : Nat → Nat → Option (Except SocketStatus Nat)
  | 0, _ => none
  | fuel + 1, port => do
      let (_, bound) ← t.searchPort port
      if bound then
        let port := if nxMaxPort < port + 1 then nxSearchPortStart else port + 1
        if startingPort = port then return .error .noFreePorts else t.freePortLoop startingPort fuel port
      else return .ok port

/-- There are no more rounds than there are ports. -/
def freePortFind (t : SocketTable) (port : Nat) : Option (Except SocketStatus Nat) :=
  t.freePortLoop port (nxMaxPort + 1) port

/-- The socket is placed at the end of the list of its port. -/
def linkBound (t : SocketTable) (a : Address) (index : Fin 32) : Option (SocketTable) :=
  match t.portTable index with
  | some first => do
      let bound := t.bound.setNext a (some first)
      let bound := bound.setPrevious a (bound.previous first)
      let last ← bound.previous first
      return { t with bound := (bound.setNext last (some a)).setPrevious first (some a) }
  | none =>
      some { t with
        bound := (t.bound.setNext a (some a)).setPrevious a (some a)
        portTable := Function.update t.portTable index (some a) }

/-- "Determine if the port needs to be allocated". `rand` is what `NX_RAND` gives. -/
def choosePort (t : SocketTable) (port rand : Nat) : Option (Except SocketStatus Nat) :=
  if port = nxAnyPort then t.freePortFind (nxSearchPortStart + rand % (nxMaxPort + 1 - nxSearchPortStart))
  else some (.ok port)

/-- The port is stored, and the socket is placed on its list when no other one has it. -/
def bindPort (t : SocketTable) (a : Address) (port : Nat) : Option (SocketStatus × SocketTable) := do
  let t := { t with port := Function.update t.port a port }
  let (search, _) ← t.searchPort port
  if search.any fun s => t.port s == port then return (.portUnavailable, t)
  else
    let linked ← t.linkBound a (portIndex port)
    return (.success, linked)

/-- `_nx_tcp_client_socket_bind` and, up to its call of the WiFi module, `_nx_udp_socket_bind`. -/
def bind (t : SocketTable) (a : Address) (port rand : Nat) : Option (SocketStatus × SocketTable) :=
  if (t.bound.next a).isSome || t.bindInProgress a then some (.alreadyBound, t)
  else
    match t.choosePort port rand with
    | none => none
    | some (.error status) => some (status, t)
    | some (.ok port) => t.bindPort a port

/-- The end of `_nx_udp_socket_unbind` and `_nx_tcp_client_socket_unbind`. -/
def unlinkBound (t : SocketTable) (a : Address) : Option (SocketTable) :=
  let index := portIndex (t.port a)
  if t.bound.next a = some a then
    some { t with portTable := Function.update t.portTable index none, bound := t.bound.setNext a none }
  else do
    let bound ← t.bound.unlink a
    return { t with
      bound := bound.setNext a none
      portTable :=
        if t.portTable index = some a then Function.update t.portTable index (bound.next a) else t.portTable }

end SocketTable

/-- `_nxe_udp_socket_create`. -/
def nxeUdpSocketCreate (t : SocketTable) (a : Address) (options : SocketOptions) :
    Option (SocketStatus × SocketTable) := do
  let created ← t.alreadyCreated a t.createdSocketsCount t.createdSocketsPtr
  if created then return (.ptrError, t)
  else if options.udpValid then
    let t ← t.create a
    return (.success, t)
  else return (.optionError, t)

/-- `_nxe_udp_socket_delete`. -/
def nxeUdpSocketDelete (t : SocketTable) (a : Address) : Option (SocketStatus × SocketTable) :=
  if t.id a then
    if (t.bound.next a).isSome then some (.stillBound, t)
    else do
      let t ← t.delete a
      return (.success, t)
  else some (.ptrError, t)

/-- `_nx_udp_socket_bind`. `wifi` is what `nx_wifi_udp_socket_bind` returns. -/
def nxUdpSocketBind (t : SocketTable) (a : Address) (port rand : Nat) (wifi : SocketStatus) :
    Option (SocketStatus × SocketTable) :=
  (t.bind a port rand).map fun (status, t) => (if status = .success then wifi else status, t)

/-- `_nxe_udp_socket_bind`. -/
def nxeUdpSocketBind (t : SocketTable) (a : Address) (port rand : Nat) (wifi : SocketStatus) :
    Option (SocketStatus × SocketTable) :=
  if t.id a then
    if nxMaxPort < port then some (.invalidPort, t) else nxUdpSocketBind t a port rand wifi
  else some (.ptrError, t)

/-- `_nxe_udp_socket_unbind`. -/
def nxeUdpSocketUnbind (t : SocketTable) (a : Address) : Option (SocketStatus × SocketTable) :=
  if t.id a then
    if (t.bound.next a).isSome then do
      let t ← t.unlinkBound a
      return (.success, t)
    else some (.notBound, t)
  else some (.ptrError, t)

/-- `NX_TCP_CLOSED`, `NX_TCP_LISTEN_STATE` and `NX_TCP_ESTABLISHED`. -/
inductive TcpState
  | closed
  | listen
  | established
  deriving DecidableEq, Repr

/-- The table of TCP, whose control blocks also have a state and whether they are a client's. -/
structure TcpTable where
  sockets : SocketTable
  state : Address → TcpState
  clientType : Address → Bool

/-- `_nxe_tcp_socket_create`. -/
def nxeTcpSocketCreate (t : TcpTable) (a : Address) (options : SocketOptions) : Option (SocketStatus × TcpTable) := do
  let created ← t.sockets.alreadyCreated a t.sockets.createdSocketsCount t.sockets.createdSocketsPtr
  if created then return (.ptrError, t)
  else if options.tcpValid then
    let sockets ← t.sockets.create a
    return (.success, ⟨sockets, Function.update t.state a .closed, Function.update t.clientType a true⟩)
  else return (.optionError, t)

/-- `_nx_tcp_socket_delete`. -/
def nxTcpSocketDelete (t : TcpTable) (a : Address) : Option (SocketStatus × TcpTable) :=
  if !t.sockets.id a then some (.notCreated, t)
  else if (t.sockets.bound.next a).isSome || t.sockets.bindInProgress a || t.state a != .closed then
    some (.stillBound, t)
  else do
    let sockets ← t.sockets.delete a
    return (.success, { t with sockets := sockets })

/-- `_nxe_tcp_socket_delete`. -/
def nxeTcpSocketDelete (t : TcpTable) (a : Address) : Option (SocketStatus × TcpTable) :=
  if t.sockets.id a then nxTcpSocketDelete t a else some (.ptrError, t)

/-- `_nxe_tcp_client_socket_bind`. -/
def nxeTcpClientSocketBind (t : TcpTable) (a : Address) (port rand : Nat) : Option (SocketStatus × TcpTable) :=
  if t.sockets.id a then
    if nxMaxPort < port then some (.invalidPort, t)
    else (t.sockets.bind a port rand).map fun (status, sockets) => (status, { t with sockets := sockets })
  else some (.ptrError, t)

/-- `_nx_tcp_socket_block_cleanup`. -/
def nxTcpSocketBlockCleanup (t : TcpTable) (a : Address) : TcpTable :=
  { t with state := Function.update t.state a (if t.clientType a then .closed else .listen) }

/-- `_nxe_tcp_client_socket_unbind`. -/
def nxeTcpClientSocketUnbind (t : TcpTable) (a : Address) : Option (SocketStatus × TcpTable) :=
  if t.sockets.id a then
    let t := nxTcpSocketBlockCleanup t a
    if t.state a != .closed then some (.notClosed, t)
    else if (t.sockets.bound.next a).isSome then do
      let sockets ← t.sockets.unlinkBound a
      return (.success, { t with sockets := sockets })
    else if t.sockets.bindInProgress a then some (.success, t)
    else some (.notBound, t)
  else some (.ptrError, t)

/-- `_nxe_tcp_client_socket_connect` and `_nxe_tcp_socket_disconnect`, as far as the control block is concerned.
`wifi` is whether the function of the WiFi module succeeds. -/
def nxeTcpClientSocketConnect (t : TcpTable) (a : Address) (wifi : Bool) : SocketStatus × TcpTable :=
  if t.sockets.id a then
    if wifi then (.success, { t with state := Function.update t.state a .established }) else (.notSuccessful, t)
  else (.ptrError, t)

def nxeTcpSocketDisconnect (t : TcpTable) (a : Address) (wifi : Bool) : SocketStatus × TcpTable :=
  if t.sockets.id a then
    if wifi then (.success, { t with state := Function.update t.state a .closed }) else (.notSuccessful, t)
  else (.ptrError, t)

end DeviceSample.NetX
