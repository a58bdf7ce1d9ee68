import DeviceSample.BaseLinked
import DeviceSample.BaseBytes
import Mathlib.Logic.Function.Basic

/-!
Packets and their pool. A packet is a header with three links and the area behind it; the packets that are
not in use are linked at `nx_packet_queue_next`, and a chain of packets in use at `nx_packet_next`. All
packets are in one memory, so that an operation on one chain could reach any other.
-/

namespace DeviceSample.NetX

open Base

abbrev Address := Nat

/-- The status values that the operations return. -/
inductive Status
  | success
  | noPacket
  | invalidParameters
  | ptrError
  | sizeError
  | invalidPacket
  | packetOffsetError
  | notSuccessful
  deriving DecidableEq, Repr

/-- `NX_PACKET`. The pointers into the area are counted from `nx_packet_data_start`, and the area ends at
`nx_packet_data_end`. `allocated` is whether `nx_packet_tcp_queue_next` is `NX_PACKET_ALLOCATED`. -/
structure Packet where
  queueNext : Option Address
  next : Option Address
  last : Option Address
  packetLength : Nat
  allocated : Bool
  prependPtr : Nat
  appendPtr : Nat
  area : List Byte

namespace Packet

/-- `nx_packet_append_ptr - nx_packet_prepend_ptr`. -/
def size (p : Packet) : Nat := p.appendPtr - p.prependPtr

/-- `nx_packet_data_end - nx_packet_append_ptr`. -/
def room (p : Packet) : Nat := p.area.length - p.appendPtr

/-- The bytes between the two pointers. -/
def bytes (p : Packet) : List Byte := (p.area.drop p.prependPtr).take p.size

/-- Bytes that are copied to `nx_packet_append_ptr`, which is moved behind them. -/
def put (p : Packet) (data : List Byte) : Packet :=
  { p with
    area := p.area.take p.appendPtr ++ data ++ p.area.drop (p.appendPtr + data.length)
    appendPtr := p.appendPtr + data.length }

/-- A packet that is taken from the pool, with its pointers at an offset. -/
def fresh (p : Packet) (packetType : Nat) : Packet :=
  { p with
    queueNext := none
    next := none
    last := none
    packetLength := 0
    allocated := true
    prependPtr := packetType
    appendPtr := packetType }

/-- The pointers are in their order, inside of an area of a size. -/
structure Bounded (payloadSize : Nat) (p : Packet) : Prop where
  ordered : p.prependPtr ≤ p.appendPtr
  inside : p.appendPtr ≤ payloadSize
  area : p.area.length = payloadSize

variable {p : Packet} {payloadSize packetType : Nat} {data : List Byte}

theorem Bounded.bytes_length (h : p.Bounded payloadSize) : p.bytes.length = p.size := by
  have hordered := h.ordered
  have hinside := h.inside
  rw [bytes, List.length_take, List.length_drop, h.area, size]
  omega

/-- The area up to the end of the data is the space in front of it and the data. -/
theorem Bounded.take_appendPtr (h : p.Bounded payloadSize) :
    p.area.take p.appendPtr = p.area.take p.prependPtr ++ p.bytes := by
  rw [bytes, size, ← List.take_add, Nat.add_sub_of_le h.ordered]

theorem Bounded.put (h : p.Bounded payloadSize) (hroom : data.length ≤ p.room) : (p.put data).Bounded payloadSize where
  ordered := le_trans h.ordered (Nat.le_add_right _ _)
  inside := by
    have hinside := h.inside
    have hspace : data.length ≤ payloadSize - p.appendPtr := h.area ▸ hroom
    change p.appendPtr + data.length ≤ payloadSize
    omega
  area := by
    have hinside := h.inside
    have harea := h.area
    have hspace : data.length ≤ payloadSize - p.appendPtr := harea ▸ hroom
    simp only [Packet.put, List.length_append, List.length_take, List.length_drop]
    omega

theorem bytes_put (h : p.Bounded payloadSize) (hroom : data.length ≤ p.room) :
    (p.put data).bytes = p.bytes ++ data := by
  have hordered := h.ordered
  have hinside := h.inside
  have harea := h.area
  have hspace : data.length ≤ payloadSize - p.appendPtr := harea ▸ hroom
  have hsize : (p.put data).size = p.size + data.length := by
    simp only [size, Packet.put]
    omega
  have hfront : ((p.area.take p.appendPtr).drop p.prependPtr).length = p.size := by
    rw [List.length_drop, List.length_take, size]
    omega
  calc (p.put data).bytes
      = ((p.area.take p.appendPtr).drop p.prependPtr ++ data ++ p.area.drop (p.appendPtr + data.length)).take
          (p.size + data.length) := by
        rw [bytes, hsize]
        simp only [Packet.put, List.append_assoc]
        rw [List.drop_append_of_le_length (by rw [List.length_take]; omega)]
    _ = (p.area.take p.appendPtr).drop p.prependPtr ++ data :=
        List.take_left' (by rw [List.length_append, hfront])
    _ = p.bytes ++ data := by rw [List.drop_take, bytes, size]

theorem room_put (h : p.Bounded payloadSize) (hroom : data.length ≤ p.room) :
    (p.put data).room = p.room - data.length := by
  have hinside := h.inside
  have harea := h.area
  have hspace : data.length ≤ payloadSize - p.appendPtr := harea ▸ hroom
  simp only [room, put, List.length_append, List.length_take, List.length_drop]
  omega

theorem Bounded.relink {next last : Option Address} (h : p.Bounded payloadSize) :
    { p with next := next, last := last }.Bounded payloadSize := ⟨h.ordered, h.inside, h.area⟩

theorem bounded_fresh (harea : p.area.length = payloadSize) (htype : packetType ≤ payloadSize) :
    (p.fresh packetType).Bounded payloadSize := ⟨le_rfl, htype, harea⟩

theorem size_fresh : (p.fresh packetType).size = 0 := Nat.sub_self _

theorem bytes_fresh : (p.fresh packetType).bytes = [] := by rw [bytes, size_fresh, List.take_zero]

end Packet

/-- `NX_PACKET_POOL`, with the memory of its packets. -/
structure PacketPool where
  payloadSize : Nat
  total : Nat
  available : Nat
  availableList : Option Address
  packet : Address → Packet

namespace PacketPool

def modify (pool : PacketPool) (a : Address) (f : Packet → Packet) : PacketPool :=
  { pool with packet := Function.update pool.packet a (f (pool.packet a)) }

def setQueueNext (pool : PacketPool) (a : Address) (o : Option Address) : PacketPool :=
  pool.modify a fun p => { p with queueNext := o }

def setNext (pool : PacketPool) (a : Address) (o : Option Address) : PacketPool :=
  pool.modify a fun p => { p with next := o }

def setLast (pool : PacketPool) (a : Address) (o : Option Address) : PacketPool :=
  pool.modify a fun p => { p with last := o }

/-- One packet of `_nx_packet_release`: it is marked as free and becomes the head of the list. -/
def putBack (pool : PacketPool) (a : Address) : PacketPool :=
  { pool.modify a fun p => { p with allocated := false, queueNext := pool.availableList } with
    available := pool.available + 1
    availableList := some a }

/-- The bytes of some packets, one behind the other. -/
def bytesOf (pool : PacketPool) (addresses : List Address) : List Byte :=
  addresses.flatMap fun a => (pool.packet a).bytes

variable {pool : PacketPool} {a b : Address} {o : Option Address} {f : Packet → Packet}

theorem packet_modify :
    (pool.modify a f).packet b = if b = a then f (pool.packet b) else pool.packet b := by
  by_cases h : b = a
  · rw [h, if_pos rfl]
    exact Function.update_self ..
  · rw [if_neg h]
    exact Function.update_of_ne h _ _

@[simp] theorem packet_modify_self : (pool.modify a f).packet a = f (pool.packet a) := Function.update_self ..

theorem packet_modify_of_ne (h : b ≠ a) : (pool.modify a f).packet b = pool.packet b :=
  Function.update_of_ne h _ _

theorem modify_congr {g : Packet → Packet} (h : f (pool.packet a) = g (pool.packet a)) :
    pool.modify a f = pool.modify a g := by rw [modify, modify, h]

@[simp] theorem packet_setQueueNext : (pool.setQueueNext a o).packet b =
    { pool.packet b with queueNext := if b = a then o else (pool.packet b).queueNext } := by
  rw [setQueueNext, packet_modify]
  split <;> rfl

@[simp] theorem packet_setNext : (pool.setNext a o).packet b =
    { pool.packet b with next := if b = a then o else (pool.packet b).next } := by
  rw [setNext, packet_modify]
  split <;> rfl

@[simp] theorem packet_setLast : (pool.setLast a o).packet b =
    { pool.packet b with last := if b = a then o else (pool.packet b).last } := by
  rw [setLast, packet_modify]
  split <;> rfl

theorem packet_putBack_of_ne (h : b ≠ a) : (pool.putBack a).packet b = pool.packet b :=
  Function.update_of_ne h _ _

theorem bytesOf_congr {pool' : PacketPool} {addresses : List Address}
    (h : ∀ a ∈ addresses, (pool'.packet a).bytes = (pool.packet a).bytes) :
    pool'.bytesOf addresses = pool.bytesOf addresses := by
  rw [bytesOf, bytesOf, List.flatMap_congr h]

theorem bytesOf_cons (a : Address) (addresses : List Address) :
    pool.bytesOf (a :: addresses) = (pool.packet a).bytes ++ pool.bytesOf addresses := List.flatMap_cons

theorem bytesOf_append (first second : List Address) :
    pool.bytesOf (first ++ second) = pool.bytesOf first ++ pool.bytesOf second := List.flatMap_append

theorem bytesOf_fresh {p : Packet} {packetType : Nat} (h : pool.packet a = p.fresh packetType) :
    pool.bytesOf [a] = [] := by
  rw [bytesOf, List.flatMap_singleton, h, Packet.bytes_fresh]

end PacketPool

/-- `_nx_packet_allocate` without suspension. With packets left, the list is not empty. -/
def nxPacketAllocate (pool : PacketPool) (packetType : Nat) : Except Status Address × PacketPool :=
  if pool.payloadSize < packetType then (.error .invalidParameters, pool)
  else
    match pool.available, pool.availableList with
    | available + 1, some work =>
        (.ok work, { pool.modify work (Packet.fresh · packetType) with
          available := available
          availableList := (pool.packet work).queueNext })
    | _, _ => (.error .noPacket, pool)

/-- The loop of `_nx_packet_release`. Each round gives one packet of the pool back, so that there are no
more rounds than packets. -/
def releaseLoop : Nat → PacketPool → Option Address → Status × PacketPool
  | _, pool, none => (.success, pool)
  | 0, pool, some _ => (.ptrError, pool)
  | fuel + 1, pool, some a =>
      if (pool.packet a).allocated then releaseLoop fuel (pool.putBack a) (pool.packet a).next
      else (.ptrError, pool)

/-- `_nx_packet_release`. -/
def nxPacketRelease (pool : PacketPool) (a : Address) : Status × PacketPool :=
  releaseLoop pool.total pool (some a)

end DeviceSample.NetX
