import DeviceSample.NetxOwned
import Mathlib.Data.List.Range

/-!
Making a pool of a piece of memory. The header and the area of each packet are rounded to the alignment, and
as many packets as fit are linked one behind the other.
-/

namespace DeviceSample.NetX

open Base

/-- `NX_PACKET_ALIGNMENT`. -/
def packetAlignment : Nat := 32

/-- A size or an address, rounded up to the alignment. -/
def roundUp (n : Nat) : Nat := (n + packetAlignment - 1) / packetAlignment * packetAlignment

/-- What `_nx_packet_pool_create` is given. `sizeofPacket` is `sizeof(NX_PACKET)`. -/
structure PoolMemory where
  poolStart : Nat
  poolSize : Nat
  payloadSize : Nat
  sizeofPacket : Nat
  memory : Nat → Byte
  packet : Address → Packet

namespace PoolMemory

variable (p : PoolMemory)

def roundedStart : Nat := roundUp p.poolStart

def roundedSize : Nat :=
  (p.poolSize - (p.roundedStart - p.poolStart)) / packetAlignment * packetAlignment

def headerSize : Nat := roundUp (p.roundedStart + p.sizeofPacket) - p.roundedStart

/-- The rounded payload size and the header size, which are the distance of one packet to the next. -/
def step : Nat := roundUp (p.headerSize + p.payloadSize)

def endOfPool : Nat := p.roundedStart + p.roundedSize

/-- A packet of the pool as it is set up. -/
def setup (packetPtr : Nat) (old : Packet) : Packet :=
  { old with
    queueNext := some (packetPtr + p.step)
    next := none
    allocated := false
    area := (List.range p.payloadSize).map fun i => p.memory (packetPtr + p.headerSize + i) }

/-- The walk through the pool's memory: the packets, where it ends, and how many they are. -/
def setupLoop : Nat → PacketPool → Nat → Nat → PacketPool × Nat × Nat
  | 0, pool, packetPtr, packets => (pool, packetPtr, packets)
  | fuel + 1, pool, packetPtr, packets =>
      if packetPtr + p.step ≤ p.endOfPool then
        setupLoop fuel (pool.modify packetPtr (p.setup packetPtr)) (packetPtr + p.step) (packets + 1)
      else (pool, packetPtr, packets)

end PoolMemory

/-- `_nx_packet_pool_create`. Each packet takes some of the memory, so that there are no more rounds than it
has bytes. -/
def nxPacketPoolCreate (p : PoolMemory) : PacketPool :=
  let pool : PacketPool :=
    { payloadSize := p.payloadSize, total := 0, available := 0, availableList := none, packet := p.packet }
  let (pool, packetPtr, packets) := p.setupLoop p.poolSize pool p.roundedStart 0
  { pool.setQueueNext (packetPtr - p.step) none with
    available := packets
    total := packets
    availableList := some p.roundedStart }

/-- `_nxe_packet_pool_create`, for the first pool of the system. -/
def nxePacketPoolCreate (p : PoolMemory) : Except Status PacketPool :=
  if p.poolSize ≤ packetAlignment ∨ p.payloadSize = 0 ∨ p.roundedSize < p.step then .error .sizeError
  else .ok (nxPacketPoolCreate p)

namespace PoolMemory

variable {p : PoolMemory} {pool pool' : PacketPool} {packetPtr packets n fuel : Nat}

theorem dvd_roundUp (n : Nat) : packetAlignment ∣ roundUp n := Nat.dvd_mul_left _ _

theorem le_roundUp (n : Nat) : n ≤ roundUp n := by
  rw [roundUp, packetAlignment]
  omega

/-- The packets of the pool. -/
def places (p : PoolMemory) : List Nat := List.range' p.roundedStart (p.roundedSize / p.step) p.step

theorem header_payload_le_step (p : PoolMemory) : p.headerSize + p.payloadSize ≤ p.step := le_roundUp _

theorem sizeofPacket_le_headerSize (p : PoolMemory) : p.sizeofPacket ≤ p.headerSize := by
  have hround := le_roundUp (p.roundedStart + p.sizeofPacket)
  rw [headerSize]
  omega

/-- One behind the other, the packets are linked up to where the walk ends. -/
theorem setupLoop_spec (pool : PacketPool) (packets : Nat) (hstep : 0 < p.step) (hfits : packetPtr + n * p.step ≤ p.endOfPool)
    (hend : p.endOfPool < packetPtr + (n + 1) * p.step) (hfuel : n < fuel) :
    ∃ pool', p.setupLoop fuel pool packetPtr packets = (pool', packetPtr + n * p.step, packets + n) ∧
      pool'.payloadSize = pool.payloadSize ∧
      Segment (fun a => (pool'.packet a).queueNext) (some packetPtr) (List.range' packetPtr n p.step)
        (some (packetPtr + n * p.step)) ∧
      (∀ a ∈ List.range' packetPtr n p.step, ∃ old, pool'.packet a = p.setup a old) ∧
      ∀ a < packetPtr, pool'.packet a = pool.packet a := by
  induction n generalizing pool packetPtr packets fuel with
  | zero =>
      obtain ⟨fuel, rfl⟩ := Nat.exists_eq_succ_of_ne_zero (Nat.ne_of_gt hfuel)
      rw [Nat.zero_add, Nat.one_mul] at hend
      refine ⟨pool, ?_, rfl, ?_, fun a ha => absurd ha List.not_mem_nil, fun _ _ => rfl⟩
      · rw [setupLoop, if_neg (Nat.not_le.mpr hend), Nat.zero_mul]
        rfl
      · rw [Nat.zero_mul]
        rfl
  | succ n ih =>
      obtain ⟨fuel, rfl⟩ := Nat.exists_eq_succ_of_ne_zero (Nat.ne_of_gt (Nat.zero_lt_of_lt hfuel))
      have hplace : packetPtr + p.step + n * p.step = packetPtr + (n + 1) * p.step := by
        rw [Nat.succ_mul]
        omega
      have hplace' : packetPtr + p.step + (n + 1) * p.step = packetPtr + (n + 1 + 1) * p.step := by
        rw [Nat.succ_mul (n + 1)]
        omega
      obtain ⟨pool', hrun, hpayload, hlinked, hpackets, hbefore⟩ := ih
        (pool.modify packetPtr (p.setup packetPtr)) (packets + 1) (hplace ▸ hfits) (hplace' ▸ hend)
        (Nat.lt_of_succ_lt_succ hfuel)
      have hfirst : pool'.packet packetPtr = p.setup packetPtr (pool.packet packetPtr) := by
        rw [hbefore packetPtr (Nat.lt_add_of_pos_right hstep), PacketPool.packet_modify_self]
      refine ⟨pool', ?_, hpayload, ?_, ?_, fun a ha => ?_⟩
      · rw [setupLoop, if_pos, hrun, hplace]
        · congr 2
          omega
        · rw [← hplace] at hfits
          omega
      · rw [List.range'_succ]
        refine ⟨rfl, ?_⟩
        change Segment _ (pool'.packet packetPtr).queueNext _ _
        rw [hfirst, ← hplace]
        exact hlinked
      · rw [List.range'_succ, List.forall_mem_cons]
        exact ⟨⟨_, hfirst⟩, hpackets⟩
      · rw [hbefore a (Nat.lt_add_right _ ha), PacketPool.packet_modify_of_ne (Nat.ne_of_lt ha)]

/-- What the checks in front of the creation let through. -/
theorem of_created (h : nxePacketPoolCreate p = .ok pool) :
    packetAlignment < p.poolSize ∧ packetAlignment ≤ p.step ∧ p.step ≤ p.roundedSize ∧ nxPacketPoolCreate p = pool := by
  rw [nxePacketPoolCreate] at h
  split at h
  · cases h
  rename_i hsizes
  rw [not_or, not_or, Nat.not_le, Nat.not_lt] at hsizes
  obtain ⟨halign, hpayload, hspace⟩ := hsizes
  refine ⟨halign, ?_, hspace, Except.ok.inj h⟩
  have hpositive := p.header_payload_le_step
  rw [step, roundUp, packetAlignment] at hpositive ⊢
  omega

end PoolMemory

/-- A pool that was created has all packets that its memory has space for, each of them available. -/
theorem Holds.create {p : PoolMemory} {pool : PacketPool} (h : nxePacketPoolCreate p = .ok pool) :
    Holds pool p.places [] := by
  obtain ⟨halign, hstep, hspace, rfl⟩ := PoolMemory.of_created h
  have hpos : 0 < p.step := Nat.lt_of_lt_of_le (by decide) hstep
  have hcount : 0 < p.roundedSize / p.step := Nat.div_pos hspace hpos
  have hfuel : p.roundedSize / p.step < p.poolSize := by
    have hround : p.roundedSize ≤ p.poolSize := (Nat.div_mul_le_self _ _).trans (Nat.sub_le _ _)
    have hless : p.roundedSize / p.step ≤ p.poolSize / packetAlignment :=
      (Nat.div_le_div_right hround).trans (Nat.div_le_div_left hstep (by decide))
    exact Nat.lt_of_le_of_lt hless (Nat.div_lt_self (Nat.zero_lt_of_lt halign) (by decide))
  obtain ⟨pool', hrun, hsize, hlinked, hpackets, -⟩ := PoolMemory.setupLoop_spec
    { payloadSize := p.payloadSize, total := 0, available := 0, availableList := none, packet := p.packet } 0 hpos
    (Nat.add_le_add_left (Nat.div_mul_le_self p.roundedSize p.step) p.roundedStart)
    (Nat.add_lt_add_left (by rw [Nat.mul_comm]; exact Nat.lt_mul_div_succ _ hpos) p.roundedStart) hfuel
  obtain ⟨m, hm⟩ := Nat.exists_eq_succ_of_ne_zero (Nat.ne_of_gt hcount)
  have hlast : p.roundedStart + p.roundedSize / p.step * p.step - p.step = p.roundedStart + m * p.step := by
    rw [hm, Nat.succ_mul]
    omega
  rw [nxPacketPoolCreate, hrun]
  simp only [hlast, Nat.zero_add]
  have hplaces : p.places = List.range' p.roundedStart m p.step ++ [p.roundedStart + m * p.step] := by
    rw [PoolMemory.places, hm, Nat.succ_eq_add_one, List.range'_concat, Nat.mul_comm]
  have hnodup : p.places.Nodup := List.nodup_range' p.step hpos
  -- the last packet's link is the only one that is stored again
  have hlinks : ∀ a ∈ List.range' p.roundedStart m p.step, a ≠ p.roundedStart + m * p.step := fun a ha heq => by
    rw [hplaces] at hnodup
    exact (List.nodup_append.mp hnodup).2.2 a ha _ List.mem_cons_self heq
  have hsetup : ∀ a ∈ p.places, ∃ old, pool'.packet a = p.setup a old := hpackets
  have hareas : ∀ a ∈ p.places, (pool'.packet a).area.length = p.payloadSize ∧ (pool'.packet a).allocated = false := by
    intro a ha
    obtain ⟨old, hold⟩ := hsetup a ha
    rw [hold]
    exact ⟨(List.length_map _).trans List.length_range, rfl⟩
  refine ⟨⟨?_, List.length_range'.symm, fun a ha => ?_, fun a ha => ?_⟩, fun _ hc => absurd hc List.not_mem_nil, ?_, ?_⟩
  · have hwalk : Segment (fun a => (pool'.packet a).queueNext) (some p.roundedStart) p.places
        (some (p.roundedStart + p.roundedSize / p.step * p.step)) := hlinked
    rw [hplaces] at hwalk ⊢
    refine segment_concat.mpr ⟨(segment_concat.mp hwalk).1.congr fun a ha => ?_, ?_⟩
    · change ((pool'.setQueueNext _ none).packet a).queueNext = _
      rw [PacketPool.packet_setQueueNext]
      exact if_neg (hlinks a ha)
    · change ((pool'.setQueueNext _ none).packet _).queueNext = none
      rw [PacketPool.packet_setQueueNext]
      exact if_pos rfl
  · change ((pool'.setQueueNext _ none).packet a).allocated = false
    rw [PacketPool.packet_setQueueNext]
    exact (hareas a ha).2
  · change ((pool'.setQueueNext _ none).packet a).area.length = _
    rw [PacketPool.packet_setQueueNext]
    exact (hareas a ha).1.trans hsize.symm
  · rwa [List.flatMap_nil, List.append_nil]
  · rw [List.flatMap_nil, List.append_nil]
    exact List.length_range'.symm

/-- The packets lie apart in the memory that the pool was given, each with its header and its area. -/
theorem PoolMemory.places_apart (p : PoolMemory) {a : Nat} (ha : a ∈ p.places) :
    p.poolStart ≤ a ∧ a + (p.headerSize + p.payloadSize) ≤ p.poolStart + p.poolSize ∧
      ∀ b ∈ p.places, a ≠ b →
        a + (p.headerSize + p.payloadSize) ≤ b ∨ b + (p.headerSize + p.payloadSize) ≤ a := by
  have hstep := p.header_payload_le_step
  obtain ⟨i, hi, rfl⟩ := List.mem_range'.mp ha
  have hend : p.step * i + p.step ≤ p.roundedSize := by
    rw [← Nat.mul_succ]
    exact (Nat.mul_le_mul_left _ hi).trans (Nat.mul_div_le _ _)
  have hstart : p.poolStart ≤ p.roundedStart := le_roundUp _
  have hround : p.roundedSize ≤ p.poolSize - (p.roundedStart - p.poolStart) := Nat.div_mul_le_self _ _
  have hpositive : 0 < p.roundedSize / p.step := Nat.zero_lt_of_lt hi
  have hspace : 0 < p.roundedSize := Nat.pos_of_ne_zero fun hzero => by simp [hzero] at hpositive
  refine ⟨(le_roundUp _).trans (Nat.le_add_right _ _), by omega, fun b hb hne => ?_⟩
  obtain ⟨j, -, rfl⟩ := List.mem_range'.mp hb
  rcases Nat.lt_or_ge i j with hlt | hge
  · left
    have hnext : p.step * i + p.step ≤ p.step * j := by
      rw [← Nat.mul_succ]
      exact Nat.mul_le_mul_left _ hlt
    omega
  · right
    have hlt : j < i := Nat.lt_of_le_of_ne hge fun heq => hne (by rw [heq])
    have hnext : p.step * j + p.step ≤ p.step * i := by
      rw [← Nat.mul_succ]
      exact Nat.mul_le_mul_left _ hlt
    omega

/-- A memory for three packets of eight bytes. -/
def smallMemory : PoolMemory :=
  { poolStart := 5, poolSize := 230, payloadSize := 8, sizeofPacket := 20, memory := fun _ => 0
    packet := fun _ => ⟨none, none, none, 0, false, 0, 0, []⟩ }

theorem smallMemory_created : nxePacketPoolCreate smallMemory = .ok (nxPacketPoolCreate smallMemory) := rfl

end DeviceSample.NetX
