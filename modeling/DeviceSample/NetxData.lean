import DeviceSample.NetxAppend

/-!
Reading a packet. The data of a chain is retrieved as a whole, or from an offset on, across the packets that
have it.
-/

namespace DeviceSample.NetX

open Base

/-- `_nx_packet_data_retrieve`: its status, `bytes_copied`, and what it stores in the buffer. The count of
bytes that remain is compared after all packets. -/
def nxPacketDataRetrieve (pool : PacketPool) (a : Address) : Status × Nat × List Byte :=
  let packetLength := (pool.packet a).packetLength
  let bytes := pool.bytesOf (nodesFrom (fun b => (pool.packet b).next) pool.total (some a))
  if packetLength = bytes.length then (.success, packetLength, bytes) else (.invalidPacket, bytes.length, bytes)

/-- `_nx_packet_length_get`. -/
def nxPacketLengthGet (pool : PacketPool) (a : Address) : Nat := (pool.packet a).packetLength

/-- The search of `_nx_packet_data_extract_offset` for the packet that has the first byte, and the offset of
the byte in it. -/
def seek (pool : PacketPool) : Nat → Option Address → Nat → Option (Address × Nat)
  | 0, _, _ => none
  | _ + 1, none, _ => none
  | fuel + 1, some a, offset =>
      if offset < (pool.packet a).size then some (a, offset)
      else seek pool fuel (pool.packet a).next (offset - (pool.packet a).size)

/-- Its loop that copies to the buffer. `start` is where the source pointer is in the data of the packet. -/
def extractLoop (pool : PacketPool) : Nat → Option Address → Nat → Nat → List Byte
  | 0, _, _, _ => []
  | _ + 1, none, _, _ => []
  | fuel + 1, some a, start, remaining =>
      if remaining = 0 then []
      else
        let available := (pool.packet a).size - start
        let bytesToCopy := if remaining < available then remaining else available
        ((pool.packet a).bytes.drop start).take bytesToCopy ++
          extractLoop pool fuel (pool.packet a).next 0 (remaining - bytesToCopy)

/-- `_nx_packet_data_extract_offset`: its status, `bytes_copied`, and what it stores in the buffer. -/
def nxPacketDataExtractOffset (pool : PacketPool) (a : Address) (offset bufferLength : Nat) :
    Status × Nat × List Byte :=
  let packetLength := (pool.packet a).packetLength
  if packetLength ≤ offset then
    if offset = 0 then (.success, 0, []) else (.packetOffsetError, 0, [])
  else
    match seek pool pool.total (some a) offset with
    | none => (.packetOffsetError, 0, [])
    | some (work, start) =>
        let bytesToCopy := packetLength - offset
        let count := if bytesToCopy < bufferLength then bytesToCopy else bufferLength
        (.success, count, extractLoop pool pool.total (some work) start count)

variable {pool : PacketPool} {a : Address} {c : Chain} {nodes free : List Address} {start : Option Address}
  {chains : List Chain} {offset count fuel : Nat}

section loops

variable (hlinked : Linked (fun a => (pool.packet a).next) start nodes)
  (hbounded : ∀ a ∈ nodes, (pool.packet a).Bounded pool.payloadSize)

include hlinked hbounded

/-- From a place in a packet on, the loop copies the first bytes of the rest of the chain. -/
theorem extractLoop_eq (hoffset : ∀ a ∈ nodes.head?, offset ≤ (pool.packet a).size) (hfuel : nodes.length ≤ fuel) :
    extractLoop pool fuel start offset count = ((pool.bytesOf nodes).drop offset).take count := by
  induction nodes generalizing start offset count fuel with
  | nil =>
      rw [linked_nil.mp hlinked]
      cases fuel <;> simp [extractLoop, PacketPool.bytesOf]
  | cons a nodes ih =>
      obtain ⟨rfl, hrest⟩ := linked_cons.mp hlinked
      obtain ⟨fuel, rfl⟩ := Nat.exists_eq_succ_of_ne_zero (Nat.ne_of_gt (Nat.zero_lt_of_lt hfuel))
      have hsize := (hbounded a List.mem_cons_self).bytes_length
      have hle : offset ≤ (pool.packet a).bytes.length := hsize.symm ▸ hoffset a rfl
      rw [extractLoop]
      split
      · rename_i hzero
        rw [hzero, List.take_zero]
      · have hcount : (if count < (pool.packet a).size - offset then count else (pool.packet a).size - offset) =
            min count ((pool.packet a).bytes.drop offset).length := by
          rw [List.length_drop, hsize]
          split <;> omega
        simp only [hcount, ih hrest (fun b hb => hbounded b (List.mem_cons_of_mem a hb)) (fun b _ => Nat.zero_le _)
          (Nat.le_of_succ_le_succ hfuel)]
        rw [PacketPool.bytesOf_cons, List.drop_append_of_le_length hle, List.take_append, ← List.take_eq_take_min,
          List.drop_zero]
        congr 2
        omega

/-- The search finds the packet of a byte, and the loop copies from there. -/
theorem seek_extract (offset count : Nat) (hoffset : offset < (pool.bytesOf nodes).length) (hfuel : nodes.length ≤ fuel)
    {fuel' : Nat} (hfuel' : nodes.length ≤ fuel') :
    ∃ work begin, seek pool fuel start offset = some (work, begin) ∧
      extractLoop pool fuel' (some work) begin count = ((pool.bytesOf nodes).drop offset).take count := by
  induction nodes generalizing start offset fuel with
  | nil => exact absurd hoffset (Nat.not_lt_zero offset)
  | cons a nodes ih =>
      obtain ⟨rfl, hrest⟩ := linked_cons.mp hlinked
      obtain ⟨fuel, rfl⟩ := Nat.exists_eq_succ_of_ne_zero (Nat.ne_of_gt (Nat.zero_lt_of_lt hfuel))
      have hsize := (hbounded a List.mem_cons_self).bytes_length
      rw [seek]
      split
      · rename_i hlt
        exact ⟨a, offset, rfl, extractLoop_eq hlinked hbounded (fun b hb => by cases hb; exact Nat.le_of_lt hlt) hfuel'⟩
      · rename_i hge
        rw [PacketPool.bytesOf_cons, List.length_append, hsize] at hoffset
        obtain ⟨work, begin, hseek, hextract⟩ := ih hrest (fun b hb => hbounded b (List.mem_cons_of_mem a hb))
          (offset - (pool.packet a).size) (by omega) (Nat.le_of_succ_le_succ hfuel)
          (Nat.le_of_succ_le hfuel')
        have hdrop : (pool.packet a).bytes.drop offset = [] := List.drop_eq_nil_of_le (by omega)
        refine ⟨work, begin, hseek, ?_⟩
        rw [hextract, PacketPool.bytesOf_cons, List.drop_append, hsize, hdrop, List.nil_append]

end loops

/-- A chain is retrieved whole. -/
theorem Holds.retrieve (h : Holds pool free (c :: chains)) :
    nxPacketDataRetrieve pool c.head = (.success, (pool.bytesOf c.packets).length, pool.bytesOf c.packets) := by
  have hc := h.chained c List.mem_cons_self
  simp only [nxPacketDataRetrieve, nodesFrom_eq hc.linked_packets h.packets_length_le, hc.length, if_true]

/-- An extraction is the slice of the chain's bytes that the offset and the buffer give. -/
theorem Holds.extract (h : Holds pool free (c :: chains)) (offset bufferLength : Nat) :
    nxPacketDataExtractOffset pool c.head offset bufferLength =
      if offset < (pool.bytesOf c.packets).length ∨ offset = 0 then
        (.success, (((pool.bytesOf c.packets).drop offset).take bufferLength).length,
          ((pool.bytesOf c.packets).drop offset).take bufferLength)
      else (.packetOffsetError, 0, []) := by
  have hc := h.chained c List.mem_cons_self
  have hfuel := h.packets_length_le
  rw [nxPacketDataExtractOffset, hc.length]
  by_cases hle : (pool.bytesOf c.packets).length ≤ offset
  · rw [if_pos hle]
    by_cases hzero : offset = 0
    · have hnil : pool.bytesOf c.packets = [] := List.eq_nil_of_length_eq_zero (by omega)
      simp [hzero, hnil]
    · rw [if_neg hzero, if_neg (by omega)]
  · have hlt : offset < (pool.bytesOf c.packets).length := Nat.lt_of_not_le hle
    have hcount : ∀ n, (if n < bufferLength then n else bufferLength) = min bufferLength n := fun n => by
      split <;> omega
    obtain ⟨work, begin, hseek, hextract⟩ := seek_extract hc.linked_packets hc.bounded
      offset (min bufferLength ((pool.bytesOf c.packets).length - offset)) hlt hfuel hfuel
    rw [if_neg hle, if_pos (Or.inl hlt), hseek]
    simp only [hcount, hextract]
    rw [List.length_take, List.length_drop, ← List.length_drop (i := offset), ← List.take_eq_take_min]

end DeviceSample.NetX
