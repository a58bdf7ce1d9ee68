import DeviceSample.BaseBytes
import Mathlib.Algebra.Order.BigOperators.Group.List
import Mathlib.Algebra.Order.Group.Nat
import Mathlib.Data.BitVec

/-!
Received packets. A packet that does not fit one buffer comes as a chain, whose first packet has the
length of all of them. The handler of direct methods takes the bytes of the first packet, and the print
takes the length field of each packet for the number of its own bytes.
-/

namespace DeviceSample.Nx

open Base

/-- `NX_PACKET`: the bytes between its two pointers, and `nx_packet_length`. -/
structure Packet where
  prependPtr : Int
  appendPtr : Int
  packetLength : BitVec 32
  ordered : prependPtr ≤ appendPtr

namespace Packet

/-- The number of bytes of this packet. -/
def size (p : Packet) : Nat := (p.appendPtr - p.prependPtr).toNat

/-- Its bytes. -/
def contents (m : Memory) (p : Packet) : List Byte := m.bytes p.prependPtr p.size

end Packet

/-- A packet and those behind it at `nx_packet_next`. The first has the length of all. -/
structure Chain where
  head : Packet
  next : List Packet
  total : head.packetLength.toNat = head.size + (next.map Packet.size).sum

namespace Chain

def packets (c : Chain) : List Packet := c.head :: c.next

/-- The bytes of all packets, one behind the other. -/
def contents (m : Memory) (c : Chain) : List Byte := c.packets.flatMap (Packet.contents m)

end Chain

/-- The number of characters that `%.*s` takes at most, for `(INT)` of a length. A negative precision is
none, and the print goes on to a terminator, wherever one is in the memory. -/
def printLimit (packetLength : BitVec 32) : Nat :=
  if packetLength.toInt < 0 then 2 ^ 32 else packetLength.toInt.toNat

/-- The characters of one print in `printf_packet`, and the places it looks at. -/
def Packet.printed (m : Memory) (p : Packet) : List Byte := m.readString p.prependPtr (printLimit p.packetLength)

def Packet.reads (m : Memory) (p : Packet) : List Int := m.readPlaces p.prependPtr (printLimit p.packetLength)

/-- `printf_packet`. -/
def printfPacket (m : Memory) (packets : List Packet) (prepend : List Byte) : List Byte :=
  prepend ++ packets.flatMap (Packet.printed m) ++ text "\r\n"

/-- What `nx_azure_iot_hub_client_direct_method_message_receive` gives: an error, or a method and its
payload. -/
inductive MethodReceived
  | failed
  | method (methodName context : List Byte) (packet : Chain)

/-- A call of `direct_method_cb`. -/
structure MethodInvocation where
  methodName : List Byte
  payload : List Byte
  context : List Byte
  deriving DecidableEq, Repr

/-- What `process_direct_method` does with a message: the payload that it prints, and its call. -/
structure MethodProcessed where
  printed : List Byte
  invoked : Option MethodInvocation
  deriving DecidableEq, Repr

/-- `process_direct_method`; `registered` is whether `direct_method_cb` is set. `payload_length` has 16
bits. -/
def processDirectMethod (registered : Bool) (m : Memory) : MethodReceived → MethodProcessed
  | .failed => ⟨[], none⟩
  | .method methodName context packet =>
      let payloadLength := (packet.head.appendPtr - packet.head.prependPtr).toNat % 2 ^ 16
      { printed := printfPacket m packet.packets (text "\tPayload: ")
        invoked :=
          if registered then some ⟨methodName, m.bytes packet.head.prependPtr payloadLength, context⟩ else none }

/-- The chain is handed on and printed whole, and no print leaves the bytes of its packet. -/
structure ConsumedWhole (registered : Bool) (m : Memory) (methodName context : List Byte) (packet : Chain) :
    Prop where
  passed : ∀ invocation, (processDirectMethod registered m (.method methodName context packet)).invoked =
    some invocation → invocation.payload = packet.contents m
  printed : ∀ prepend, printfPacket m packet.packets prepend = prepend ++ packet.contents m ++ text "\r\n"
  within : ∀ p ∈ packet.packets, ∀ place ∈ p.reads m, p.prependPtr ≤ place ∧ place < p.appendPtr

/-- All bytes are in the first packet, and those behind it have no length either. -/
def Chain.InFirst (c : Chain) : Prop := ∀ p ∈ c.next, p.size = 0 ∧ p.packetLength = 0

section limits

variable {m : Memory} {p : Packet} {packetLength : BitVec 32}

theorem printLimit_of_lt (h : packetLength.toNat < 2 ^ 31) : printLimit packetLength = packetLength.toNat := by
  have hint : packetLength.toInt = packetLength.toNat := BitVec.toInt_eq_toNat_of_lt (by omega)
  rw [printLimit, hint, if_neg (by omega), Int.toNat_natCast]

theorem printLimit_of_le (h : 2 ^ 31 ≤ packetLength.toNat) : printLimit packetLength = 2 ^ 32 := by
  have hint := BitVec.toInt_eq_toNat_cond packetLength
  rw [if_neg (by omega)] at hint
  have hlt := packetLength.isLt
  rw [printLimit, if_pos (by omega)]

theorem printLimit_eq_zero_iff : printLimit packetLength = 0 ↔ packetLength = 0 := by
  rcases Nat.lt_or_ge packetLength.toNat (2 ^ 31) with hlt | hle
  · rw [printLimit_of_lt hlt]
    exact ⟨fun h => BitVec.eq_of_toNat_eq h, fun h => by rw [h]; rfl⟩
  · rw [printLimit_of_le hle]
    refine iff_of_false (by omega) ?_
    rintro rfl
    exact absurd hle (by decide)

theorem Packet.place_add_size (p : Packet) : p.prependPtr + (p.size : Int) = p.appendPtr := by
  have hordered := p.ordered
  rw [Packet.size]
  omega

theorem Packet.contents_length (m : Memory) (p : Packet) : (p.contents m).length = p.size :=
  Memory.bytes_length m p.prependPtr p.size

/-- The print of a packet stays in it exactly if its limit is no more than the packet, or a terminator is
among its bytes. -/
theorem Packet.reads_within_iff : (∀ place ∈ p.reads m, p.prependPtr ≤ place ∧ place < p.appendPtr) ↔
    printLimit p.packetLength ≤ p.size ∨ 0 ∈ p.contents m := by
  rw [Packet.contents, ← Memory.readPlaces_within_iff, p.place_add_size]
  exact forall₂_congr fun place hplace => and_iff_right (Memory.le_of_mem_readPlaces hplace)

end limits

section chains

/-- Pieces that are put together to the same whole as their beginnings are complete. -/
theorem eq_of_prefix_of_flatMap {α β : Type} {f g : α → List β} {xs : List α} (hbegins : ∀ x ∈ xs, f x <+: g x)
    (hwhole : xs.flatMap f = xs.flatMap g) : ∀ x ∈ xs, f x = g x := by
  induction xs with
  | nil => exact fun x hx => absurd hx List.not_mem_nil
  | cons x xs ih =>
      have hfirst := (hbegins x List.mem_cons_self).length_le
      have hrest : (xs.flatMap f).length ≤ (xs.flatMap g).length := by
        rw [List.length_flatMap, List.length_flatMap]
        exact List.sum_le_sum fun y hy => (hbegins y (List.mem_cons_of_mem x hy)).length_le
      have hlength := congrArg List.length hwhole
      rw [List.flatMap_cons, List.flatMap_cons, List.length_append, List.length_append] at hlength
      rw [List.flatMap_cons, List.flatMap_cons] at hwhole
      obtain ⟨hhead, htail⟩ := List.append_inj hwhole (by omega)
      rw [List.forall_mem_cons]
      exact ⟨hhead, ih (fun y hy => hbegins y (List.mem_cons_of_mem x hy)) htail⟩

variable {m : Memory} (c : Chain)

theorem Chain.contents_of_inFirst (h : c.InFirst) : c.contents m = c.head.contents m := by
  have hnext : c.next.flatMap (Packet.contents m) = [] := by
    rw [List.flatMap_eq_nil_iff]
    intro p hp
    rw [← List.length_eq_zero_iff, Packet.contents_length]
    exact (h p hp).1
  rw [Chain.contents, Chain.packets, List.flatMap_cons, hnext, List.append_nil]

/-- The length of the chain is that of its first packet exactly if the others are empty. -/
theorem Chain.size_eq_iff : c.head.packetLength.toNat = c.head.size ↔ ∀ p ∈ c.next, p.size = 0 := by
  rw [c.total, Nat.add_eq_left, List.sum_eq_zero_iff_forall_eq_nat, List.forall_mem_map]

/-- The test of `process_device_twin_get` and `process_device_twin_desired_property` that keeps them from
such payloads: the JSON is larger than the packet. -/
def Chain.largerThanPacket (c : Chain) : Bool := c.head.size < c.head.packetLength.toNat

/-- What passes their test has all its bytes in the first packet. -/
theorem Chain.largerThanPacket_eq_false_iff : c.largerThanPacket = false ↔ ∀ p ∈ c.next, p.size = 0 := by
  have hsize : c.head.size ≤ c.head.packetLength.toNat := by
    rw [c.total]
    exact Nat.le_add_right _ _
  rw [Chain.largerThanPacket, decide_eq_false_iff_not, ← c.size_eq_iff]
  omega

/-- In a chain that is printed whole, the prints end where the packets do. -/
theorem Chain.printed_eq (hwithin : ∀ p ∈ c.packets, ∀ place ∈ p.reads m, p.prependPtr ≤ place ∧ place < p.appendPtr)
    (hprinted : c.packets.flatMap (Packet.printed m) = c.contents m) :
    ∀ p ∈ c.packets, 0 ∉ p.contents m ∧ printLimit p.packetLength ≤ p.size := by
  have hscan : ∀ p ∈ c.packets, printLimit p.packetLength ≤ p.size ∨ 0 ∈ p.contents m := fun p hp =>
    Packet.reads_within_iff.mp (hwithin p hp)
  have hsame := eq_of_prefix_of_flatMap (fun p hp => Memory.readString_prefix (hscan p hp)) hprinted
  intro p hp
  have hnul : 0 ∉ p.contents m := by
    rw [Packet.contents, ← hsame p hp]
    exact Memory.readString_no_nul m _ _
  exact ⟨hnul, (hscan p hp).resolve_right hnul⟩

theorem Chain.printed_of_inFirst (h : c.InFirst) (hnul : 0 ∉ c.head.contents m)
    (hlength : c.head.packetLength.toNat < 2 ^ 31) : c.packets.flatMap (Packet.printed m) = c.contents m := by
  have hhead : c.head.printed m = c.head.contents m := by
    rw [Packet.printed, printLimit_of_lt hlength, c.size_eq_iff.mpr fun p hp => (h p hp).1]
    exact Memory.readString_of_no_nul hnul
  have hnext : c.next.flatMap (Packet.printed m) = [] := by
    rw [List.flatMap_eq_nil_iff]
    intro p hp
    rw [Packet.printed, printLimit_eq_zero_iff.mpr (h p hp).2, Memory.readString]
  calc c.packets.flatMap (Packet.printed m)
      = c.head.printed m ++ c.next.flatMap (Packet.printed m) := List.flatMap_cons
    _ = c.head.contents m := by rw [hhead, hnext, List.append_nil]
    _ = c.contents m := (c.contents_of_inFirst h).symm

theorem Chain.within_of_inFirst (h : c.InFirst) (hlength : c.head.packetLength.toNat < 2 ^ 31) :
    ∀ p ∈ c.packets, ∀ place ∈ p.reads m, p.prependPtr ≤ place ∧ place < p.appendPtr := by
  rw [Chain.packets, List.forall_mem_cons]
  constructor
  · refine Packet.reads_within_iff.mpr (Or.inl ?_)
    rw [printLimit_of_lt hlength, c.size_eq_iff.mpr fun p hp => (h p hp).1]
  · intro p hp
    refine Packet.reads_within_iff.mpr (Or.inl ?_)
    rw [printLimit_eq_zero_iff.mpr (h p hp).2]
    exact Nat.zero_le _

/-- A chain that is printed whole is printed from its first packet. -/
theorem Chain.inFirst_of_printed
    (hwithin : ∀ p ∈ c.packets, ∀ place ∈ p.reads m, p.prependPtr ≤ place ∧ place < p.appendPtr)
    (hprinted : c.packets.flatMap (Packet.printed m) = c.contents m) :
    c.InFirst ∧ 0 ∉ c.head.contents m ∧ c.head.packetLength.toNat < 2 ^ 31 := by
  have hends := c.printed_eq hwithin hprinted
  obtain ⟨hnul, hlimit⟩ := hends c.head List.mem_cons_self
  have hsize : c.head.size ≤ c.head.packetLength.toNat := by
    rw [c.total]
    exact Nat.le_add_right _ _
  have hlength : c.head.packetLength.toNat < 2 ^ 31 := by
    by_contra hlong
    have hlt := c.head.packetLength.isLt
    rw [printLimit_of_le (Nat.not_lt.mp hlong)] at hlimit
    omega
  rw [printLimit_of_lt hlength] at hlimit
  have hnext := c.size_eq_iff.mp (Nat.le_antisymm hlimit hsize)
  refine ⟨fun p hp => ⟨hnext p hp, printLimit_eq_zero_iff.mp ?_⟩, hnul, hlength⟩
  have hnone := (hends p (List.mem_cons_of_mem _ hp)).2
  rw [hnext p hp] at hnone
  exact Nat.le_zero.mp hnone

/-- 16 bits of its length are the first packet exactly if it has no more. -/
theorem Packet.payload_eq_iff (p : Packet) :
    m.bytes p.prependPtr (p.size % 2 ^ 16) = p.contents m ↔ p.size < 2 ^ 16 := by
  constructor
  · intro h
    have hlength := congrArg List.length h
    rw [Memory.bytes_length, Packet.contents_length] at hlength
    omega
  · intro h
    rw [Nat.mod_eq_of_lt h, Packet.contents]

end chains

/-- **A chain is consumed whole exactly if all of it is in its first packet, without a NUL, and as long as
the lengths of the print and of the callback can say**, for all chains and all contents of the memory. -/
theorem consumedWhole_iff (registered : Bool) (m : Memory) (methodName context : List Byte) (c : Chain) :
    ConsumedWhole registered m methodName context c ↔
      c.InFirst ∧ 0 ∉ c.head.contents m ∧ c.head.packetLength.toNat < 2 ^ 31 ∧
        (registered = true → c.head.packetLength.toNat < 2 ^ 16) := by
  constructor
  · intro h
    have hprinted : c.packets.flatMap (Packet.printed m) = c.contents m := by
      have hnone := h.printed []
      rw [printfPacket] at hnone
      exact List.append_cancel_right hnone
    obtain ⟨hfirst, hnul, hlength⟩ := c.inFirst_of_printed h.within hprinted
    refine ⟨hfirst, hnul, hlength, ?_⟩
    rintro rfl
    have hpassed := h.passed _ rfl
    rw [c.contents_of_inFirst hfirst] at hpassed
    rw [c.size_eq_iff.mpr fun p hp => (hfirst p hp).1]
    exact c.head.payload_eq_iff.mp hpassed
  · rintro ⟨hfirst, hnul, hlength, hshort⟩
    constructor
    · intro invocation hinvocation
      cases registered with
      | false => cases hinvocation
      | true =>
          cases hinvocation
          rw [c.contents_of_inFirst hfirst]
          apply c.head.payload_eq_iff.mpr
          rw [← c.size_eq_iff.mpr fun p hp => (hfirst p hp).1]
          exact hshort rfl
    · intro prepend
      rw [printfPacket, c.printed_of_inFirst hfirst hnul hlength]
    · exact c.within_of_inFirst hfirst hlength

/-- A payload of six characters in two packets. -/
def splitPayload : Chain where
  head := ⟨0, 3, 6, by decide⟩
  next := [⟨64, 67, 0, by decide⟩]
  total := rfl

/-- Only the first three get to the callback. -/
theorem splitPayload_not_consumedWhole :
    ¬ConsumedWhole true (Memory.run (fun _ => 0) (storesAt 0 (text "abc") ++ storesAt 64 (text "def")))
      (text "reboot") [] splitPayload := by
  intro h
  have hpassed := h.passed _ rfl
  revert hpassed
  decide

end DeviceSample.Nx
