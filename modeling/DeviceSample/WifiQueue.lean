import DeviceSample.WifiSocket

/-!
The queues of the entries. The packets of a queue are linked at `nx_packet_queue_next`, each with its chain
behind it. What is done with one queue keeps the others, and the packets that the callers hold.
-/

namespace DeviceSample.Wifi

open Base NetX

/-- The queue of an entry, in the memory of the packets. -/
structure Queue (pool : PacketPool) (socket : WifiSocket) (q : List Chain) : Prop where
  linked : Linked (fun a => (pool.packet a).queueNext) socket.receivedPacketHead (q.map Chain.head)
  tail : socket.receivedPacketTail = (q.map Chain.head).getLast?

/-- The chains of all queues. -/
def queued (queues : Entry → List Chain) : List Chain := (List.finRange 8).flatMap queues

variable {pool pool' : PacketPool} {free free' : List Address} {a : Address} {c : Chain}
  {chains mine mine' rest q q' : List Chain} {socket : WifiSocket} {queues : Entry → List Chain} {i j : Entry}
  {data : List Byte} {o : Option Address}

theorem queued_update (queues : Entry → List Chain) (i : Entry) (q : List Chain) :
    (queued (Function.update queues i q)).Perm (q ++ queued (Function.update queues i [])) := by
  have hsplit : ∀ l : List Entry, l.Nodup → i ∈ l →
      (l.flatMap (Function.update queues i q)).Perm (q ++ l.flatMap (Function.update queues i [])) := by
    intro l hnodup hi
    induction l with
    | nil => cases hi
    | cons j l ih =>
        obtain ⟨hj, hnodup⟩ := List.nodup_cons.mp hnodup
        rw [List.flatMap_cons, List.flatMap_cons]
        rcases List.mem_cons.mp hi with rfl | hi
        · have hrest : ∀ q', l.flatMap (Function.update queues i q') = l.flatMap queues := fun q' =>
            List.flatMap_congr fun k hk => Function.update_of_ne (ne_of_mem_of_not_mem hk hj) _ _
          rw [Function.update_self, Function.update_self, hrest, hrest, List.nil_append]
        · have hne : j ≠ i := fun heq => hj (heq ▸ hi)
          rw [Function.update_of_ne hne, Function.update_of_ne hne]
          refine ((ih hnodup hi).append_left _).trans ?_
          rw [← List.append_assoc, ← List.append_assoc]
          exact List.perm_append_comm.append_right _
  exact hsplit _ (List.nodup_finRange 8) (List.mem_finRange i)

theorem queued_perm (queues : Entry → List Chain) (i : Entry) :
    (queued queues).Perm (queues i ++ queued (Function.update queues i [])) := by
  have h := queued_update queues i (queues i)
  rwa [Function.update_eq_self] at h

theorem queue_subset_queued (hne : j ≠ i) : queues j ⊆ queued (Function.update queues i []) := fun c hc => by
  refine List.mem_flatMap.mpr ⟨j, List.mem_finRange j, ?_⟩
  rwa [Function.update_of_ne hne]

/-- An exchange of some chains that are held and of the chains of one queue. -/
theorem exchange_queue (h : Holds pool free (mine ++ rest ++ queued queues))
    (he : Exchange pool pool' free free' (mine ++ queues i) (mine' ++ q)) :
    Holds pool' free' (mine' ++ rest ++ queued (Function.update queues i q)) ∧
      Kept (rest ++ queued (Function.update queues i [])) pool pool' ∧
      (free' ++ (mine' ++ rest ++ queued (Function.update queues i q)).flatMap Chain.packets).Perm
        (free ++ (mine ++ rest ++ queued queues).flatMap Chain.packets) := by
  have hsort : ∀ (mine q all : List Chain), all.Perm (q ++ queued (Function.update queues i [])) →
      (mine ++ rest ++ all).Perm (mine ++ q ++ (rest ++ queued (Function.update queues i []))) := by
    intro mine q all hall
    rw [List.append_assoc, List.append_assoc]
    refine List.Perm.append_left mine ((hall.append_left rest).trans ?_)
    rw [← List.append_assoc, ← List.append_assoc]
    exact List.perm_append_comm.append_right _
  have hbefore := hsort mine (queues i) _ (queued_perm queues i)
  have hafter := hsort mine' q _ (queued_update queues i q)
  obtain ⟨hholds, hkept⟩ := he.holds _ (h.perm hbefore)
  refine ⟨hholds.perm hafter.symm, hkept, ?_⟩
  refine ((hafter.flatMap_right _).append_left free').trans (List.Perm.trans ?_
    ((hbefore.flatMap_right _).append_left free).symm)
  exact (he.beside _).perm

theorem Queue.kept (h : Queue pool socket q) (hkept : Kept q pool pool') : Queue pool' socket q where
  linked := h.linked.congr fun a ha => by
    obtain ⟨c, hc, rfl⟩ := List.mem_map.mp ha
    rw [hkept c hc c.head List.mem_cons_self]
  tail := h.tail

theorem Queue.head_eq_none_iff (h : Queue pool socket q) : socket.receivedPacketHead = none ↔ q = [] := by
  rw [h.linked.start_eq, List.head?_eq_none_iff, List.map_eq_nil_iff]

theorem Queue.of_nil (hhead : socket.receivedPacketHead = none) (htail : socket.receivedPacketTail = none) :
    Queue pool socket [] := ⟨hhead, htail⟩

/-- The first packet is taken out by moving the head. -/
theorem Queue.dequeue {socket' : WifiSocket} (h : Queue pool socket (c :: q))
    (hhead : socket'.receivedPacketHead = (pool.packet c.head).queueNext)
    (htail : socket'.receivedPacketTail =
      if (pool.packet c.head).queueNext = none then none else socket.receivedPacketTail) : Queue pool socket' q := by
  have hrest : Linked (fun a => (pool.packet a).queueNext) (pool.packet c.head).queueNext (q.map Chain.head) :=
    (linked_cons.mp h.linked).2
  refine ⟨hhead ▸ hrest, ?_⟩
  have hlast := h.tail
  rw [htail, hlast]
  cases q with
  | nil => exact if_pos (linked_nil.mp hrest)
  | cons d q =>
      rw [if_neg (by rw [(linked_cons.mp hrest).1]; exact Option.some_ne_none _)]
      exact List.getLast?_cons_cons

theorem bytesOf_setQueueNext (addresses : List Address) :
    (pool.setQueueNext a o).bytesOf addresses = pool.bytesOf addresses :=
  PacketPool.bytesOf_congr fun b _ => by
    rw [PacketPool.packet_setQueueNext]
    rfl

/-- The queue links are not part of a chain. -/
theorem Chained.setQueueNext (h : Chained pool c) : Chained (pool.setQueueNext a o) c := by
  refine ⟨?_, fun b hb => ?_, fun b hb => ?_, ?_, ?_⟩
  · rw [PacketPool.packet_setQueueNext]
    exact h.linked.congr fun b _ => by rw [PacketPool.packet_setQueueNext]
  · rw [PacketPool.packet_setQueueNext]
    exact h.allocated b hb
  · rw [PacketPool.packet_setQueueNext]
    exact ⟨(h.bounded b hb).ordered, (h.bounded b hb).inside, (h.bounded b hb).area⟩
  · rw [PacketPool.packet_setQueueNext]
    exact h.last
  · rw [bytesOf_setQueueNext, PacketPool.packet_setQueueNext]
    exact h.length

/-- Storing a queue link of a chain keeps the chains. -/
theorem exchange_setQueueNext (h : Holds pool free (mine ++ chains)) (ha : a ∈ mine.flatMap Chain.packets)
    (o : Option Address) : Exchange pool (pool.setQueueNext a o) free free mine mine := by
  have hnodup := h.nodup
  rw [List.flatMap_append, ← List.append_assoc] at hnodup
  have hfree : ∀ b ∈ free, b ∉ [a] := fun b hb hmem =>
    (List.nodup_append.mp hnodup.of_append_left).2.2 b hb a ha (List.mem_singleton.mp hmem)
  have hu : Untouched [a] pool (pool.setQueueNext a o) := .modify _
  have htouched : [a] ⊆ free ++ mine.flatMap Chain.packets :=
    List.cons_subset.mpr ⟨List.mem_append_right _ ha, List.nil_subset _⟩
  refine .of_holds mine (h.replace mine mine (h.listed.congr hu hfree rfl rfl) (fun c hc => ?_) hu htouched (.refl _))
    hu htouched (.refl _)
  exact Chained.setQueueNext (h.chained c (List.mem_append_left _ hc))

/-- The loop of a reset gives all packets of a queue back. -/
theorem exchange_releaseQueue {start : Option Address} {fuel : Nat} (h : Holds pool free (q ++ chains))
    (hlinked : Linked (fun a => (pool.packet a).queueNext) start (q.map Chain.head)) (hfuel : q.length ≤ fuel) :
    ∃ free', Exchange pool (releaseQueue fuel pool start) free free' q [] := by
  induction q generalizing pool free start fuel with
  | nil =>
      rw [linked_nil.mp hlinked]
      refine ⟨free, ?_⟩
      cases fuel <;> exact .refl pool free []
  | cons c q ih =>
      obtain ⟨rfl, hrest⟩ := linked_cons.mp hlinked
      obtain ⟨fuel, rfl⟩ := Nat.exists_eq_succ_of_ne_zero (Nat.ne_of_gt (Nat.zero_lt_of_lt hfuel))
      obtain ⟨pool₁, free₁, hrun, he⟩ := Exchange.release h
      obtain ⟨hholds, hkept⟩ := he.holds (q ++ chains) h
      have hlinked₁ : Linked (fun a => (pool₁.packet a).queueNext) (pool.packet c.head).queueNext (q.map Chain.head) :=
        hrest.congr fun a ha => by
          obtain ⟨d, hd, rfl⟩ := List.mem_map.mp ha
          rw [hkept d (List.mem_append_left _ hd) d.head List.mem_cons_self]
      obtain ⟨free', he'⟩ := ih hholds hlinked₁ (Nat.le_of_succ_le_succ hfuel)
      refine ⟨free', ?_⟩
      rw [releaseQueue, hrun]
      exact (he.beside q).trans he'

/-- Data that was read is stored exactly if the available packets have space for it. -/
theorem exchange_storeData (h : Holds pool free chains) (hdata : data ≠ []) :
    (free.length * pool.payloadSize < data.length ∧ ∃ status pool' free',
      storeData pool data = (.error status, pool') ∧ Exchange pool pool' free free' [] []) ∨
    (data.length ≤ free.length * pool.payloadSize ∧ ∃ c pool' free',
      storeData pool data = (.ok c.head, pool') ∧ Exchange pool pool' free free' [] [c] ∧
        pool'.bytesOf c.packets = data) := by
  have hlength : 0 < data.length := List.length_pos_iff.mpr hdata
  rcases Exchange.allocate h (Nat.zero_le _) with ⟨rfl, hallocate⟩ | ⟨a, free₁, pool₁, rfl, hallocate, he, hfresh⟩
  · refine Or.inl ⟨by simpa using hlength, .noPacket, pool, [], ?_, .refl pool [] []⟩
    rw [storeData, hallocate]
  · have hholds := (he.holds chains h).1
    have hbounded := (hholds.chained ⟨a, []⟩ List.mem_cons_self).bounded a List.mem_cons_self
    have hroom : (pool₁.packet (Chain.tail ⟨a, []⟩)).room = pool.payloadSize := by
      change (pool₁.packet a).room = _
      rw [Packet.room, hbounded.area, he.payloadSize, hfresh]
      rfl
    have hspace : pool.payloadSize + free₁.length * pool.payloadSize = (a :: free₁).length * pool.payloadSize := by
      rw [List.length_cons, Nat.succ_mul, Nat.add_comm]
    have happend : nxePacketDataAppend pool₁ a data = nxPacketDataAppend pool₁ a data := by
      rw [nxePacketDataAppend, if_neg (by rwa [List.isEmpty_iff])]
    rcases Exchange.append hholds data with ⟨hfew, free₂, pool₂, hrun, he₂⟩ |
      ⟨taken, free₂, pool₂, rfl, hrun, he₂, happended⟩
    · rw [hroom, he.payloadSize, hspace] at hfew
      have he₂ := he₂.beside [⟨a, []⟩]
      obtain ⟨pool₃, free₃, hrelease, he₃⟩ := Exchange.release (he₂.holds chains hholds).1
      refine Or.inl ⟨hfew, .noPacket, pool₃, free₃, ?_, (he.trans he₂).trans he₃⟩
      simp only [storeData, hallocate, happend, hrun]
      exact congrArg (fun r => (Except.error Status.noPacket, r.2)) hrelease
    · have hfits := happended.room
      rw [hroom, he.payloadSize] at hfits
      refine Or.inr ⟨?_, Chain.extend ⟨a, []⟩ taken, pool₂, free₂, ?_, he.trans he₂, ?_⟩
      · rw [← hspace, List.length_append, Nat.add_mul]
        omega
      · simp only [storeData, hallocate, happend, hrun]
        rfl
      · rw [happended.bytes, show pool₁.bytesOf (Chain.packets ⟨a, []⟩) = [] from PacketPool.bytesOf_fresh hfresh,
          List.nil_append]

end DeviceSample.Wifi
