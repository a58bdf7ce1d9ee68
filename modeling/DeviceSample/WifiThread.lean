import DeviceSample.WifiTable

/-!
The thread that reads the module. What it reads of a connection is queued at the entry, one packet behind the
other, and it reads only what the pool has space for.
-/

namespace DeviceSample.Wifi

open Base NetX

/-- The part of an entry that the thread does not write to. -/
def WifiSocket.SameUse (old new : WifiSocket) : Prop :=
  new.valid = old.valid ∧ new.socketPtr = old.socketPtr ∧ new.type = old.type ∧ new.connected = old.connected

variable {places free free' : List Address} {s : Sockets} {held : List (Address × List Byte)}
  {chains q : List Chain} {queues : Entry → List Chain} {i j : Entry} {pool : PacketPool} {c : Chain}
  {data : List Byte} {reads : List (List Byte)}

theorem heads_nodup (h : Holds pool free chains) : (chains.map Chain.head).Nodup := by
  have hpackets := (List.nodup_flatMap.mp h.nodup.of_append_right).2
  refine List.pairwise_map.mpr (hpackets.imp fun {c d} hdisjoint heq => ?_)
  exact hdisjoint (a := c.head) List.mem_cons_self (heq ▸ List.mem_cons_self)

/-- A packet that is put at the end of a queue. -/
theorem enqueue_spec (h : Holds s.pool free ((c :: q) ++ chains)) (hqueue : Queue s.pool (s.socket i) q) :
    ∃ pool' new, s.enqueue i c.head = ⟨pool', Function.update s.socket i new, s.socketCounter⟩ ∧
      Exchange s.pool pool' free free (c :: q) (c :: q) ∧ (∀ a, pool'.bytesOf a = s.pool.bytesOf a) ∧
      Queue pool' new (q ++ [c]) ∧ (s.socket i).SameUse new := by
  have hnodup : (c.head :: q.map Chain.head).Nodup := by
    have hall := heads_nodup h
    rw [List.map_append, List.map_cons] at hall
    exact hall.of_append_left
  obtain ⟨hc, hheads⟩ := List.nodup_cons.mp hnodup
  have hfirst : c.head ∈ (c :: q).flatMap Chain.packets :=
    List.mem_flatMap.mpr ⟨c, List.mem_cons_self, List.mem_cons_self⟩
  rcases List.eq_nil_or_concat' q with rfl | ⟨front, d, rfl⟩
  · have hhead : (s.socket i).receivedPacketHead = none := hqueue.head_eq_none_iff.mpr rfl
    refine ⟨s.pool.setQueueNext c.head none,
      { s.socket i with receivedPacketHead := some c.head, receivedPacketTail := some c.head }, ?_,
      exchange_setQueueNext h hfirst none, fun a => bytesOf_setQueueNext a, ⟨⟨rfl, ?_⟩, rfl⟩, rfl, rfl, rfl, rfl⟩
    · simp only [Sockets.enqueue, hhead]
      rfl
    · change ((s.pool.setQueueNext c.head none).packet c.head).queueNext = none
      rw [PacketPool.packet_setQueueNext, if_pos rfl]
  · have hmap : (front ++ [d]).map Chain.head = front.map Chain.head ++ [d.head] := by
      rw [List.map_append, List.map_singleton]
    rw [hmap] at hc hheads
    have hlinked := hqueue.linked
    have htail := hqueue.tail
    rw [hmap, List.getLast?_concat] at htail
    rw [hmap] at hlinked
    have hstart : ∃ a, (s.socket i).receivedPacketHead = some a := by
      rw [hlinked.start_eq]
      cases front <;> exact ⟨_, rfl⟩
    obtain ⟨a, ha⟩ := hstart
    have hlast : d.head ∈ (c :: (front ++ [d])).flatMap Chain.packets :=
      List.mem_flatMap.mpr ⟨d, by simp, List.mem_cons_self⟩
    have he := exchange_setQueueNext h hlast (some c.head)
    have he' := exchange_setQueueNext (he.holds chains h).1 hfirst none
    refine ⟨(s.pool.setQueueNext d.head (some c.head)).setQueueNext c.head none,
      { s.socket i with receivedPacketTail := some c.head }, ?_, he.trans he', fun a => ?_, ⟨?_, ?_⟩, rfl, rfl, rfl, rfl⟩
    · simp only [Sockets.enqueue, ha, htail]
      rfl
    · rw [bytesOf_setQueueNext, bytesOf_setQueueNext]
    · -- the last link goes to the new packet, which is the end
      have hlink : ∀ b, (((s.pool.setQueueNext d.head (some c.head)).setQueueNext c.head none).packet b).queueNext =
          if b = c.head then none else if b = d.head then some c.head else (s.pool.packet b).queueNext := by
        intro b
        rw [PacketPool.packet_setQueueNext, PacketPool.packet_setQueueNext]
      have hd : d.head ≠ c.head := fun heq => hc (heq ▸ List.mem_append_right _ List.mem_cons_self)
      rw [List.map_append, hmap, List.map_singleton]
      refine segment_concat.mpr ⟨segment_concat.mpr ⟨?_, ?_⟩, ?_⟩
      · refine (segment_concat.mp hlinked).1.congr fun b hb => ?_
        have hnew : b ≠ c.head := fun heq => hc (heq ▸ List.mem_append_left _ hb)
        have hlast : b ≠ d.head := (List.nodup_append.mp hheads).2.2 b hb d.head List.mem_cons_self
        rw [hlink, if_neg hnew, if_neg hlast]
      · rw [hlink, if_neg hd, if_pos rfl]
      · rw [hlink, if_pos rfl]
    · rw [List.map_append, List.map_singleton, List.getLast?_concat]

/-- What a part of a round leaves: each queue is extended by what was read for it. -/
structure Polled (s s' : Sockets) (queues queues' : Entry → List Chain) (read : Entry → List (List Byte)) : Prop where
  sameUse : ∀ j, (s.socket j).SameUse (s'.socket j)
  socketCounter : s'.socketCounter = s.socketCounter
  waiting : ∀ j, waiting s'.pool (queues' j) = waiting s.pool (queues j) ++ read j
  available : s'.pool.available ≤ s.pool.available
  payloadSize : s'.pool.payloadSize = s.pool.payloadSize

namespace Polled

variable {s' s'' : Sockets} {queues' queues'' : Entry → List Chain} {read read' : Entry → List (List Byte)}

theorem refl (s : Sockets) (queues : Entry → List Chain) : Polled s s queues queues fun _ => [] :=
  ⟨fun _ => ⟨rfl, rfl, rfl, rfl⟩, rfl, fun _ => (List.append_nil _).symm, Nat.le_refl _, rfl⟩

theorem trans (h : Polled s s' queues queues' read) (h' : Polled s' s'' queues' queues'' read') :
    Polled s s'' queues queues'' fun j => read j ++ read' j where
  sameUse j := by
    obtain ⟨hvalid, hptr, htype, hconnected⟩ := h.sameUse j
    obtain ⟨hvalid', hptr', htype', hconnected'⟩ := h'.sameUse j
    exact ⟨hvalid'.trans hvalid, hptr'.trans hptr, htype'.trans htype, hconnected'.trans hconnected⟩
  socketCounter := h'.socketCounter.trans h.socketCounter
  waiting j := by rw [h'.waiting j, h.waiting j, List.append_assoc]
  available := Nat.le_trans h'.available h.available
  payloadSize := h'.payloadSize.trans h.payloadSize

/-- A pool that has too little space has it no more after another part of the round. -/
theorem poolShort (h : Polled s s' queues queues' read) (hshort : poolShort s.pool = true) :
    poolShort s'.pool = true := by
  rw [Wifi.poolShort, decide_eq_true_iff] at hshort ⊢
  rw [h.payloadSize]
  exact Nat.lt_of_le_of_lt (Nat.mul_le_mul_right _ h.available) hshort

end Polled

/-- Data that the pool has the space for is stored and queued. -/
theorem poll_step (h : s.Faithful places held free chains queues) (hi : (s.socket i).valid = true)
    (hpool : poolShort s.pool = false) (hdata : data ≠ []) (hlength : data.length ≤ esWifiPayloadSize) :
    ∃ c pool' free' queues', storeData s.pool data = (.ok c, pool') ∧
      ({ s with pool := pool' }.enqueue i c).Faithful places held free' chains queues' ∧
      Polled s ({ s with pool := pool' }.enqueue i c) queues queues' (Function.update (fun _ => []) i [data]) := by
  have hholds : Holds s.pool free (chains ++ queued queues) := h.packets.holds
  rw [poolShort, decide_eq_false_iff_not, Nat.not_lt, hholds.listed.counted] at hpool
  rcases exchange_storeData hholds hdata with ⟨hfew, -⟩ | ⟨-, c, pool₁, free', hstore, he, hbytes⟩
  · omega
  have hkept : Kept (queues i) s.pool pool₁ := (he.holds _ hholds).2.mono fun c hc =>
    List.mem_append_right _ (List.mem_flatMap.mpr ⟨i, List.mem_finRange i, hc⟩)
  have hmine := hholds.perm (((queued_perm queues i).append_left chains).trans (List.perm_append_comm_assoc ..))
  have hown := ((he.beside (queues i)).holds _ hmine).1
  obtain ⟨pool₂, new, henqueue, he₂, hbytes₂, hqueue, hsame⟩ :=
    enqueue_spec (s := { s with pool := pool₁ }) hown ((h.queue i).kept hkept)
  have hwhole : Exchange s.pool pool₂ free free' ([] ++ queues i) ([] ++ (queues i ++ [c])) :=
    ((he.beside (queues i)).trans he₂).trans (.rearrange pool₂ free' (List.perm_append_singleton c (queues i)).symm)
  obtain ⟨hnext, hothers⟩ := h.update [] new s.socketCounter hwhole h.packets.views hqueue
    (fun hinvalid => absurd (hi.symm.trans (hsame.1.symm.trans hinvalid)) Bool.noConfusion)
    (fun _ j hj hvalid hptr => hj (h.distinct j i hvalid hi (hptr.trans hsame.2.1)))
    (by rw [hsame.1])
  refine ⟨c.head, pool₁, free', _, hstore, henqueue ▸ hnext, ?_⟩
  rw [henqueue]
  refine ⟨fun j => ?_, rfl, fun j => ?_, ?_, hwhole.payloadSize⟩
  · by_cases hj : j = i
    · subst hj
      change (s.socket j).SameUse (Function.update s.socket j new j)
      rwa [Function.update_self]
    · change (s.socket j).SameUse (Function.update s.socket i new j)
      rw [Function.update_of_ne hj]
      exact ⟨rfl, rfl, rfl, rfl⟩
  · by_cases hj : j = i
    · subst hj
      have hold : waiting pool₂ (queues j) = waiting s.pool (queues j) :=
        List.map_congr_left fun d hd => (hbytes₂ _).trans (hkept.bytesOf hd)
      rw [Function.update_self, Function.update_self]
      change (queues j ++ [c]).map _ = _
      rw [List.map_append, List.map_singleton, hbytes₂, hbytes]
      exact congrArg (· ++ [data]) hold
    · rw [Function.update_of_ne hj, Function.update_of_ne hj, List.append_nil]
      exact hothers j hj
  · have hcount := hwhole.perm.length_eq
    change pool₂.available ≤ s.pool.available
    rw [hnext.packets.holds.listed.counted, hholds.listed.counted]
    rw [List.nil_append, List.nil_append, List.flatMap_append, List.length_append, List.length_append,
      List.length_append] at hcount
    omega

/-- What the module has for a connection up to where it has nothing. -/
def pending (reads : List (List Byte)) : List (List Byte) := reads.takeWhile fun data => !data.isEmpty

/-- All that the module had was read, or what was left is more than the pool has space for. -/
def Drained (pool : PacketPool) (reads read : List (List Byte)) : Prop :=
  read = pending reads ∨ (read <+: pending reads ∧ poolShort pool = true)

/-- The reads of one entry go to its queue. -/
theorem pollEntry_spec (h : s.Faithful places held free chains queues) (hi : (s.socket i).valid = true)
    (hreads : ∀ data ∈ reads, data.length ≤ esWifiPayloadSize) :
    ∃ free' queues', (pollEntry i s reads).1.Faithful places held free' chains queues' ∧
      Polled s (pollEntry i s reads).1 queues queues' (Function.update (fun _ => []) i (pollEntry i s reads).2) ∧
      Drained (pollEntry i s reads).1.pool reads (pollEntry i s reads).2 := by
  have hnothing : ∀ {pool' : PacketPool} {rest : List (List Byte)}, Drained pool' rest [] →
      ∃ free' queues', s.Faithful places held free' chains queues' ∧
        Polled s s queues queues' (Function.update (fun _ => []) i []) ∧ Drained pool' rest [] := fun hdrained => by
    refine ⟨free, queues, h, ?_, hdrained⟩
    rw [Function.update_eq_self i fun _ => []]
    exact .refl s queues
  induction reads generalizing s free queues with
  | nil => exact hnothing (Or.inl rfl)
  | cons data reads ih =>
      rw [pollEntry]
      split
      · rename_i hshort
        exact hnothing (Or.inr ⟨List.nil_prefix, hshort⟩)
      rename_i hpool
      split
      · rename_i hempty
        exact hnothing (Or.inl (by rw [pending, List.takeWhile_cons, hempty]; rfl))
      rename_i hdata
      obtain ⟨c, pool', free₁, queues₁, hstore, hnext, hpolled⟩ := poll_step h hi (Bool.eq_false_of_not_eq_true hpool)
        (fun hnil => hdata (List.isEmpty_iff.mpr hnil)) (hreads data List.mem_cons_self)
      have hvalid : (({ s with pool := pool' }.enqueue i c).socket i).valid = true := (hpolled.sameUse i).1.trans hi
      obtain ⟨free₂, queues₂, hrest, hpolled₂, hdrained⟩ := ih hnext hvalid
        (fun d hd => hreads d (List.mem_cons_of_mem data hd)) (fun {_ _} hdrained => by
          refine ⟨free₁, queues₁, hnext, ?_, hdrained⟩
          rw [Function.update_eq_self i fun _ => []]
          exact .refl _ queues₁)
      simp only [hstore]
      refine ⟨free₂, queues₂, hrest, ?_, ?_⟩
      · have hboth := hpolled.trans hpolled₂
        refine ⟨hboth.sameUse, hboth.socketCounter, fun j => ?_, hboth.available, hboth.payloadSize⟩
        rw [hboth.waiting j]
        by_cases hj : j = i
        · subst hj
          simp only [Function.update_self, List.singleton_append]
        · simp only [Function.update_of_ne hj, List.append_nil]
      · have hpending : pending (data :: reads) = data :: pending reads := by
          rw [pending, List.takeWhile_cons, if_pos (by simpa using hdata)]
          rfl
        rw [Drained, hpending]
        exact hdrained.imp (congrArg (data :: ·)) fun ⟨hfront, hshort⟩ =>
          ⟨(List.prefix_cons_inj data).mpr hfront, hshort⟩

/-- The loop over the entries reads each that is connected. Where it stops before the last entry, the counter
says that none of those behind is in use. -/
theorem pollLoop_spec {reads : Entry → List (List Byte)} {entries : List Entry} {socketCounter : Nat}
    (h : s.Faithful places held free chains queues) (hnodup : entries.Nodup)
    (hcount : (socketCounter + entries.countP (fun j => (s.socket j).valid) : Nat) ≤ s.socketCounter)
    (hreads : ∀ j, ∀ data ∈ reads j, data.length ≤ esWifiPayloadSize) :
    ∃ free' queues', (pollLoop reads entries socketCounter s).1.Faithful places held free' chains queues' ∧
      Polled s (pollLoop reads entries socketCounter s).1 queues queues' (pollLoop reads entries socketCounter s).2 ∧
      (∀ j ∉ entries, (pollLoop reads entries socketCounter s).2 j = []) ∧
      ∀ j ∈ entries, if (s.socket j).valid && (s.socket j).connected then
        Drained (pollLoop reads entries socketCounter s).1.pool (reads j) ((pollLoop reads entries socketCounter s).2 j)
      else (pollLoop reads entries socketCounter s).2 j = [] := by
  induction entries generalizing s free queues socketCounter with
  | nil => exact ⟨free, queues, h, .refl s queues, fun _ _ => rfl, fun j hj => absurd hj List.not_mem_nil⟩
  | cons i entries ih =>
      obtain ⟨hi, hnodup⟩ := List.nodup_cons.mp hnodup
      have hcons := hcount
      rw [List.countP_cons] at hcons
      rw [pollLoop]
      split
      · split
        · rename_i huse
          obtain ⟨hvalid, -⟩ := (Bool.and_eq_true ..).mp huse
          obtain ⟨free₁, queues₁, hnext, hpolled, hdrained⟩ := pollEntry_spec h hvalid (hreads i)
          have hsame : ∀ j, ((pollEntry i s (reads i)).1.socket j).valid = (s.socket j).valid := fun j =>
            (hpolled.sameUse j).1
          have hleft : (socketCounter + 1 + entries.countP (fun j => ((pollEntry i s (reads i)).1.socket j).valid) : Nat) ≤
              (pollEntry i s (reads i)).1.socketCounter := by
            simp only [hsame, hpolled.socketCounter]
            rw [if_pos hvalid] at hcons
            omega
          obtain ⟨free₂, queues₂, hrest, hpolled₂, hothers, hentries⟩ := ih hnext hnodup hleft
          simp only
          refine ⟨free₂, queues₂, hrest, ?_, fun j hj => ?_, fun j hj => ?_⟩
          · have hboth := hpolled.trans hpolled₂
            refine ⟨hboth.sameUse, hboth.socketCounter, fun j => ?_, hboth.available, hboth.payloadSize⟩
            rw [hboth.waiting j]
            by_cases hj : j = i
            · subst hj
              rw [Function.update_self, Function.update_self, hothers j hi, List.append_nil]
            · rw [Function.update_of_ne hj, Function.update_of_ne hj, List.nil_append]
          · rw [List.mem_cons, not_or] at hj
            rw [Function.update_of_ne hj.1]
            exact hothers j hj.2
          · by_cases hji : j = i
            · subst hji
              rw [if_pos huse, Function.update_self]
              exact hdrained.imp_right fun ⟨hfront, hshort⟩ => ⟨hfront, hpolled₂.poolShort hshort⟩
            · rw [Function.update_of_ne hji]
              have hentry := hentries j (List.mem_of_ne_of_mem hji hj)
              rwa [hsame, (hpolled.sameUse j).2.2.2] at hentry
        · rename_i huse
          have hleft : (socketCounter + entries.countP (fun j => (s.socket j).valid) : Nat) ≤ s.socketCounter := by
            split at hcons <;> omega
          obtain ⟨free', queues', hrest, hpolled, hothers, hentries⟩ := ih h hnodup hleft
          refine ⟨free', queues', hrest, hpolled, fun j hj => hothers j fun hmem => hj (List.mem_cons_of_mem i hmem),
            List.forall_mem_cons.mpr ⟨?_, hentries⟩⟩
          rw [if_neg huse]
          exact hothers i hi
      · rename_i hstop
        have hnone : ∀ j ∈ i :: entries, (s.socket j).valid = false := by
          have hzero : (i :: entries).countP (fun j => (s.socket j).valid) = 0 := by omega
          exact fun j hj => Bool.eq_false_of_not_eq_true (List.countP_eq_zero.mp hzero j hj)
        refine ⟨free, queues, h, .refl s queues, fun _ _ => rfl, fun j hj => ?_⟩
        rw [hnone j hj, Bool.false_and, if_neg Bool.false_ne_true]

/-- A round reads every connection, whatever the others are. -/
theorem threadRound_spec {reads : Entry → List (List Byte)} (h : s.Faithful places held free chains queues)
    (hreads : ∀ j, ∀ data ∈ reads j, data.length ≤ esWifiPayloadSize) :
    ∃ free' queues', (nxWifiThreadRound s reads).1.Faithful places held free' chains queues' ∧
      Polled s (nxWifiThreadRound s reads).1 queues queues' (nxWifiThreadRound s reads).2 ∧
      ∀ j, if (s.socket j).valid && (s.socket j).connected then
        Drained (nxWifiThreadRound s reads).1.pool (reads j) ((nxWifiThreadRound s reads).2 j)
      else (nxWifiThreadRound s reads).2 j = [] := by
  have hcount : (0 + (List.finRange 8).countP (fun j => (s.socket j).valid) : Nat) ≤ s.socketCounter := by
    rw [Nat.zero_add, h.counted]
    exact Int.le_refl _
  rw [nxWifiThreadRound]
  split
  · rename_i hzero
    have hnone : (List.finRange 8).countP (fun j => (s.socket j).valid) = 0 := by omega
    refine ⟨free, queues, h, .refl s queues, fun j => ?_⟩
    rw [Bool.eq_false_of_not_eq_true (List.countP_eq_zero.mp hnone j (List.mem_finRange j)), Bool.false_and,
      if_neg Bool.false_ne_true]
  · obtain ⟨free', queues', hrest, hpolled, -, hentries⟩ := pollLoop_spec h (List.nodup_finRange 8) hcount hreads
    exact ⟨free', queues', hrest, hpolled, fun j => hentries j (List.mem_finRange j)⟩

end DeviceSample.Wifi
