import DeviceSample.NetxOwned

/-!
Appending to a packet. The packets that the data needs are allocated first, on a list of their own; if one
of them cannot be had, the list is released and nothing is written. Otherwise the list is linked to the end
of the chain, and the data is copied across it.
-/

namespace DeviceSample.NetX

open Base

/-- The packets from `nx_packet_last` on, whose space is left for an append. -/
def lastPackets (pool : PacketPool) (a : Address) : List Address :=
  nodesFrom (fun b => (pool.packet b).next) pool.total (pool.packet a).last

/-- `available_bytes` of `_nx_packet_data_append`. -/
def availableBytes (pool : PacketPool) (a : Address) : Nat :=
  match (pool.packet a).last with
  | some _ => ((lastPackets pool a).map fun b => (pool.packet b).room).sum
  | none => (pool.packet a).room

/-- A new packet goes to the end of the list of new packets, whose head has its end in `nx_packet_last`. -/
def linkNew (pool : PacketPool) (work : Address) : Option Address → Option Address × PacketPool
  | none => (some work, pool)
  | some head =>
      match (pool.packet head).last with
      | some last => (some head, (pool.setNext last (some work)).setLast head (some work))
      | none => (some head, (pool.setLast head (some work)).setNext head (some work))

/-- The loop that picks up packets until the data fits. Each round takes an available packet. -/
def pickup (dataSize : Nat) : Nat → PacketPool → Nat → Option Address → Except Status (Option Address) × PacketPool
  | 0, pool, _, _ => (.error .noPacket, pool)
  | fuel + 1, pool, available, newList =>
      if available < dataSize then
        match nxPacketAllocate pool 0 with
        | (.error status, pool) =>
            match newList with
            | some head => (.error status, (nxPacketRelease pool head).2)
            | none => (.error status, pool)
        | (.ok work, pool) =>
            let linked := linkNew pool work newList
            pickup dataSize fuel linked.2 (available + (linked.2.packet work).room) linked.1
      else (.ok newList, pool)

/-- The loop that copies the data, and moves `nx_packet_last` of the first packet along. -/
def copyLoop (first : Address) : Nat → PacketPool → Option Address → List Byte → PacketPool
  | 0, pool, _, _ => pool
  | _ + 1, pool, none, _ => pool
  | fuel + 1, pool, some work, data =>
      if data.isEmpty then pool
      else
        let room := (pool.packet work).room
        let copySize := if data.length < room then data.length else room
        let pool := pool.modify work fun p => p.put (data.take copySize)
        let rest := data.drop copySize
        if rest.isEmpty then pool
        else
          let next := (pool.packet work).next
          copyLoop first fuel (pool.setLast first next) next rest

/-- The new list is linked behind the last packet, and its head has no `nx_packet_last` any more. -/
def linkEnd (pool : PacketPool) (last : Address) : Option Address → PacketPool
  | some new => (pool.setNext last (some new)).setLast new none
  | none => pool

/-- `_nx_packet_data_append` without suspension. -/
def nxPacketDataAppend (pool : PacketPool) (a : Address) (data : List Byte) : Status × PacketPool :=
  let lastPacket := (lastPackets pool a).getLast?.getD a
  match pickup data.length (pool.available + 1) pool (availableBytes pool a) none with
  | (.error status, pool) => (status, pool)
  | (.ok newList, pool) =>
      let pool := (linkEnd pool lastPacket newList).modify a fun p =>
        { p with packetLength := p.packetLength + data.length }
      (.success, copyLoop a pool.total pool (some ((pool.packet a).last.getD a)) data)

/-- `_nxe_packet_data_append`, which is what callers outside of the stack reach. -/
def nxePacketDataAppend (pool : PacketPool) (a : Address) (data : List Byte) : Status × PacketPool :=
  if data.isEmpty then (.sizeError, pool) else nxPacketDataAppend pool a data

/-- The last packet of a chain. -/
def Chain.tail (c : Chain) : Address := c.rest.getLast?.getD c.head

/-- The chain with more packets at its end. -/
def Chain.extend (c : Chain) (packets : List Address) : Chain := ⟨c.head, c.rest ++ packets⟩

namespace Chain

variable {c : Chain}

@[simp] theorem extend_head (packets : List Address) : (c.extend packets).head = c.head := rfl

@[simp] theorem extend_packets (packets : List Address) : (c.extend packets).packets = c.packets ++ packets := rfl

theorem extend_extend (packets packets' : List Address) :
    (c.extend packets).extend packets' = c.extend (packets ++ packets') := by
  rw [extend, extend, extend, List.append_assoc]

theorem extend_nil (c : Chain) : c.extend [] = c := by rw [extend, List.append_nil]

theorem tail_mem (c : Chain) : c.tail ∈ c.packets := by
  rw [tail]
  cases h : c.rest.getLast? with
  | none => exact List.mem_cons_self
  | some a => exact List.mem_cons_of_mem _ (List.mem_of_getLast? h)

theorem exists_packets_eq (c : Chain) : ∃ front, c.packets = front ++ [c.tail] := by
  rcases List.eq_nil_or_concat c.rest with h | ⟨front, a, h⟩
  · exact ⟨[], by rw [packets, tail, h]; rfl⟩
  · exact ⟨c.head :: front, by rw [packets, tail, h]; simp⟩

end Chain

variable {pool pool' : PacketPool} {free touched : List Address} {a b work : Address} {c : Chain}
  {chains : List Chain} {data : List Byte}

namespace Chained

theorem tail_next (h : Chained pool c) : (pool.packet c.tail).next = none := by
  obtain ⟨front, hfront⟩ := c.exists_packets_eq
  have hlinked := h.linked_packets
  rw [hfront] at hlinked
  exact (segment_concat.mp hlinked).2

theorem lastPackets_eq (h : Chained pool c) (htotal : 0 < pool.total) :
    lastPackets pool c.head = c.rest.getLast?.toList := by
  rw [lastPackets, h.last]
  cases hlast : c.rest.getLast? with
  | none => cases pool.total <;> rfl
  | some a =>
      have htail : (pool.packet a).next = none := by
        have := h.tail_next
        rwa [Chain.tail, hlast] at this
      have hlinked : Linked (fun b => (pool.packet b).next) (some a) [a] := ⟨rfl, htail⟩
      exact nodesFrom_eq hlinked htotal

theorem availableBytes_eq (h : Chained pool c) (htotal : 0 < pool.total) :
    availableBytes pool c.head = (pool.packet c.tail).room := by
  rw [availableBytes, h.lastPackets_eq htotal, h.last, Chain.tail]
  cases c.rest.getLast? with
  | none => rfl
  | some a => exact Nat.add_zero _

end Chained

/-- Packets that were taken from the pool and have no data yet. -/
def Blank (pool : PacketPool) (addresses : List Address) : Prop :=
  ∀ a ∈ addresses, (pool.packet a).appendPtr = 0

theorem Blank.of_untouched (h : Blank pool touched) (hu : Untouched free pool pool') (hapart : ∀ a ∈ touched, a ∉ free) :
    Blank pool' touched := fun a ha => by
  rw [hu.packet a (hapart a ha)]
  exact h a ha

/-- Nothing but the links of some packets was written to. -/
structure Relinked (touched : List Address) (pool pool' : PacketPool) : Prop extends Untouched touched pool pool' where
  available : pool'.available = pool.available
  availableList : pool'.availableList = pool.availableList
  links : ∀ a, pool'.packet a =
    { pool.packet a with next := (pool'.packet a).next, last := (pool'.packet a).last }

theorem Relinked.listed {addresses : List Address} (h : Relinked touched pool pool') (hfree : Free pool addresses) :
    Free pool' addresses where
  linked := by
    rw [h.availableList]
    exact hfree.linked.congr fun a _ => by rw [h.links]
  counted := h.available.trans hfree.counted
  released a ha := by
    rw [h.links]
    exact hfree.released a ha
  areas a ha := by
    rw [h.links, h.payloadSize]
    exact hfree.areas a ha

/-- Storing the two links joins a chain and a packet that has no data. -/
theorem Chained.join (hc : Chained pool c) (hwork : Chained pool ⟨work, []⟩) (hempty : pool.bytesOf [work] = [])
    (hnodup : (c.packets ++ [work]).Nodup) (hr : Relinked touched pool pool')
    (hnext : ∀ a, (pool'.packet a).next = if a = c.tail then some work else (pool.packet a).next)
    (hlast : (pool'.packet c.head).last = some work) : Chained pool' (c.extend [work]) := by
  obtain ⟨front, hfront⟩ := c.exists_packets_eq
  have hmem : ∀ a ∈ c.packets ++ [work], a ∈ c.packets ∨ a = work := fun a ha =>
    (List.mem_append.mp ha).imp_right List.mem_singleton.mp
  have hbytes : pool'.bytesOf (c.packets ++ [work]) = pool.bytesOf c.packets := by
    have hlinks : pool'.bytesOf (c.packets ++ [work]) = pool.bytesOf (c.packets ++ [work]) :=
      PacketPool.bytesOf_congr fun a _ => by rw [hr.links]; rfl
    rw [hlinks, PacketPool.bytesOf_append]
    exact (congrArg _ hempty).trans (List.append_nil _)
  refine ⟨?_, fun a ha => ?_, fun a ha => ?_, ?_, ?_⟩
  · have hlinked : Linked (fun a => (pool'.packet a).next) (some c.head) (c.packets ++ [work]) := by
      have hchain := hc.linked_packets
      rw [hfront] at hchain hnodup ⊢
      refine hchain.join (linked_cons.mpr ⟨rfl, hwork.linked⟩) ((hnext _).trans (if_pos rfl)) fun b hb =>
        (hnext b).trans (if_neg fun heq => ?_)
      rw [List.append_assoc] at hnodup
      have hapart := List.nodup_append.mp hnodup
      rcases List.mem_append.mp hb with hb | hb
      · exact hapart.2.2 b hb c.tail List.mem_cons_self heq
      · exact (List.nodup_cons.mp hapart.2.1).1 (heq ▸ hb)
    exact hlinked.2
  · rw [hr.links]
    rcases hmem a ha with ha | rfl
    · exact hc.allocated a ha
    · exact hwork.allocated a List.mem_cons_self
  · rw [hr.links, hr.payloadSize]
    rcases hmem a ha with ha | rfl
    · exact (hc.bounded a ha).relink
    · exact (hwork.bounded a List.mem_cons_self).relink
  · exact hlast.trans List.getLast?_concat.symm
  · rw [Chain.extend_packets, hbytes, hr.links]
    exact hc.length

theorem Chained.linkNew (h : Chained pool c) (work : Address) :
    ∃ pool', NetX.linkNew pool work (some c.head) = (some c.head, pool') ∧ Relinked c.packets pool pool' ∧
      (∀ a, (pool'.packet a).next = if a = c.tail then some work else (pool.packet a).next) ∧
      (pool'.packet c.head).last = some work := by
  rw [NetX.linkNew, h.last]
  cases hlast : c.rest.getLast? with
  | none =>
      have htail : c.tail = c.head := by rw [Chain.tail, hlast]; rfl
      refine ⟨_, rfl, ⟨⟨rfl, rfl, fun a ha => ?_⟩, rfl, rfl, fun a => ?_⟩, fun a => ?_, ?_⟩
      · have hne : a ≠ c.head := fun heq => ha (heq ▸ List.mem_cons_self)
        simp [hne]
      · simp
      · simp [htail]
      · simp
  | some last =>
      have htail : c.tail = last := by rw [Chain.tail, hlast]; rfl
      refine ⟨_, rfl, ⟨⟨rfl, rfl, fun a ha => ?_⟩, rfl, rfl, fun a => ?_⟩, fun a => ?_, ?_⟩
      · have hne : a ≠ c.head := fun heq => ha (heq ▸ List.mem_cons_self)
        have hne' : a ≠ last := fun heq => ha (heq ▸ htail ▸ c.tail_mem)
        simp [hne, hne']
      · simp
      · simp [htail]
      · simp

/-- The packets of the list of new packets, if there is one. -/
def newPackets (new : Option Chain) : List Address := new.toList.flatMap Chain.packets

theorem Holds.linkNew {new : Option Chain} (h : Holds pool free (⟨work, []⟩ :: (new.toList ++ chains)))
    (hempty : pool.bytesOf [work] = []) :
    ∃ new' pool', NetX.linkNew pool work (new.map Chain.head) = (some new'.head, pool') ∧
      Holds pool' free (new' :: chains) ∧ new'.packets = newPackets new ++ [work] ∧
      Relinked (newPackets new) pool pool' := by
  cases new with
  | none => exact ⟨⟨work, []⟩, pool, rfl, h, rfl, ⟨.refl pool, rfl, rfl, fun _ => rfl⟩⟩
  | some c =>
      have hpackets : newPackets (some c) = c.packets := List.flatMap_singleton ..
      have hc := h.chained c (List.mem_cons_of_mem _ List.mem_cons_self)
      have hnodup : (c.packets ++ [work]).Nodup := by
        have hall := h.nodup.of_append_right
        rw [List.flatMap_cons, Option.toList_some, List.singleton_append, List.flatMap_cons, ← List.append_assoc] at hall
        exact List.perm_append_comm.nodup_iff.mp hall.of_append_left
      obtain ⟨pool', hrun, hr, hnext, hlast⟩ := hc.linkNew work
      refine ⟨c.extend [work], pool', hrun, ?_, by rw [hpackets]; rfl, hpackets ▸ hr⟩
      have hjoined := hc.join (h.chained _ List.mem_cons_self) hempty hnodup hr hnext hlast
      refine Holds.replace [⟨work, []⟩, c] [c.extend [work]] h (hr.listed h.listed)
        (List.forall_mem_singleton.mpr hjoined) hr.toUntouched ?_ ?_
      · exact fun a ha => List.mem_append_right _ (List.mem_flatMap.mpr ⟨c, by simp, ha⟩)
      · refine List.Perm.append_left free ?_
        simp only [List.flatMap_cons, List.flatMap_nil, List.append_nil]
        exact (List.perm_append_comm : (c.packets ++ [work]).Perm ([work] ++ c.packets))

theorem newPackets_some (c : Chain) : newPackets (some c) = c.packets := List.flatMap_singleton ..

/-- One round of the loop: the first available packet becomes the last of the new ones. -/
theorem Holds.takeNew {new : Option Chain} (h : Holds pool (a :: free) (new.toList ++ chains))
    (hblank : Blank pool (newPackets new)) :
    ∃ new' pool₁ pool', nxPacketAllocate pool 0 = (.ok a, pool₁) ∧
      NetX.linkNew pool₁ a (new.map Chain.head) = (some new'.head, pool') ∧ Holds pool' free (new' :: chains) ∧
      new'.packets = newPackets new ++ [a] ∧ Blank pool' new'.packets ∧
      Untouched (newPackets new ++ [a]) pool pool' ∧ (pool'.packet a).room = pool.payloadSize := by
  have hnew : a ∉ newPackets new := fun hmem => by
    have hapart := (List.nodup_append.mp h.nodup).2.2 a List.mem_cons_self a
    rw [List.flatMap_append] at hapart
    exact hapart (List.mem_append_left _ hmem) rfl
  rcases h.allocate (Nat.zero_le _) with ⟨hnil, -⟩ | ⟨b, free', pool₁, hcons, hallocate, hholds, hu, hfresh⟩
  · cases hnil
  · cases hcons
    obtain ⟨new', pool', hlink, hholds', hpackets, hr⟩ := hholds.linkNew (PacketPool.bytesOf_fresh hfresh)
    refine ⟨new', pool₁, pool', hallocate, hlink, hholds', hpackets, fun b hb => ?_, ?_, ?_⟩
    · rw [hr.links]
      rcases List.mem_append.mp (hpackets ▸ hb) with hb | hb
      · rw [hu.packet b fun hmem => hnew (List.mem_singleton.mp hmem ▸ hb)]
        exact hblank b hb
      · rw [List.mem_singleton.mp hb, hfresh]
        rfl
    · exact (hu.mono (List.subset_append_right _ _)).trans (hr.toUntouched.mono (List.subset_append_left _ _))
    · rw [hr.links, hfresh]
      exact (Nat.sub_zero _).trans (h.listed.areas a List.mem_cons_self)

/-- The loop takes packets until the data fits, and no more; where the pool has too few, all that it took
are put back. -/
theorem Holds.pickup (new : Option Chain) (dataSize available fuel : Nat)
    (h : Holds pool free (new.toList ++ chains)) (hblank : Blank pool (newPackets new)) (hfuel : free.length < fuel) :
    (available + free.length * pool.payloadSize < dataSize ∧ ∃ free' pool',
      NetX.pickup dataSize fuel pool available (new.map Chain.head) = (.error .noPacket, pool') ∧
        Holds pool' free' chains ∧ free'.Perm (newPackets new ++ free) ∧ Untouched (newPackets new ++ free) pool pool') ∨
    ∃ taken free' new' pool', free = taken ++ free' ∧
      NetX.pickup dataSize fuel pool available (new.map Chain.head) = (.ok (new'.map Chain.head), pool') ∧
        Holds pool' free' (new'.toList ++ chains) ∧ newPackets new' = newPackets new ++ taken ∧
        Blank pool' (newPackets new') ∧ Untouched (newPackets new ++ taken) pool pool' ∧
        dataSize ≤ available + taken.length * pool.payloadSize ∧
        ∀ k < taken.length, available + k * pool.payloadSize < dataSize := by
  induction free generalizing pool new available fuel with
  | nil =>
      obtain ⟨fuel, rfl⟩ := Nat.exists_eq_succ_of_ne_zero (Nat.ne_of_gt hfuel)
      by_cases hlt : available < dataSize
      · left
        refine ⟨by simpa using hlt, ?_⟩
        have hallocate := h.listed.allocate_nil (Nat.zero_le _)
        cases new with
        | none =>
            refine ⟨[], pool, ?_, h, .refl _, .refl pool⟩
            rw [NetX.pickup, if_pos hlt, hallocate]
            rfl
        | some c =>
            obtain ⟨pool', hrun, hholds, hu⟩ := h.release
            refine ⟨_, pool', ?_, hholds, ?_, ?_⟩
            · rw [NetX.pickup, if_pos hlt, hallocate, Option.map_some]
              exact congrArg (fun r => (Except.error Status.noPacket, r.2)) hrun
            · rw [newPackets_some]
              exact (List.reverse_perm c.packets).append_right []
            · rw [newPackets_some, List.append_nil]
              exact hu
      · right
        refine ⟨[], [], new, pool, rfl, by rw [NetX.pickup, if_neg hlt], h, (List.append_nil _).symm, hblank, .refl pool,
          ?_, fun k hk => absurd hk (Nat.not_lt_zero k)⟩
        simpa using hlt
  | cons a free ih =>
      obtain ⟨fuel, rfl⟩ := Nat.exists_eq_succ_of_ne_zero (Nat.ne_of_gt (Nat.zero_lt_of_lt hfuel))
      by_cases hlt : available < dataSize
      · obtain ⟨new', pool₁, pool', hallocate, hlink, hholds, hpackets, hblank', hu, hroom⟩ := h.takeNew hblank
        have hround : NetX.pickup dataSize (fuel + 1) pool available (new.map Chain.head) =
            NetX.pickup dataSize fuel pool' (available + pool.payloadSize) ((some new').map Chain.head) := by
          rw [NetX.pickup, if_pos hlt, hallocate, ← hroom]
          simp only [hlink, Option.map_some]
        have hnew : newPackets (some new') = newPackets new ++ [a] := (newPackets_some new').trans hpackets
        rw [hround]
        rcases @ih pool' (some new') (available + pool.payloadSize) fuel hholds
            ((newPackets_some new').symm ▸ hblank') (Nat.lt_of_succ_lt_succ hfuel) with
          ⟨hfew, free', pool'', hrun, hholds', hperm, hu'⟩ |
          ⟨taken, free', new'', pool'', rfl, hrun, hholds', hpackets', hblank'', hu', hfits, hleast⟩
        · rw [hu.payloadSize] at hfew
          rw [hnew, List.append_assoc, List.singleton_append] at hperm hu'
          refine Or.inl ⟨?_, free', pool'', hrun, hholds', hperm, (hu.mono ?_).trans hu'⟩
          · rw [List.length_cons, Nat.succ_mul]
            omega
          · rw [List.append_cons _ a free]
            exact List.subset_append_left _ _
        · rw [hu.payloadSize] at hfits hleast
          rw [hnew, List.append_assoc, List.singleton_append] at hpackets' hu'
          refine Or.inr ⟨a :: taken, free', new'', pool'', rfl, hrun, hholds', hpackets', hblank'', (hu.mono ?_).trans hu',
            ?_, fun k hk => ?_⟩
          · rw [List.append_cons _ a taken]
            exact List.subset_append_left _ _
          · rw [List.length_cons, Nat.succ_mul]
            omega
          · cases k with
            | zero => simpa using hlt
            | succ k =>
                have hbefore := hleast k (Nat.lt_of_succ_lt_succ hk)
                rw [Nat.succ_mul]
                omega
      · right
        refine ⟨[], a :: free, new, pool, rfl, by rw [NetX.pickup, if_neg hlt], h, (List.append_nil _).symm, hblank,
          .refl pool, ?_, fun k hk => absurd hk (Nat.not_lt_zero k)⟩
        simpa using hlt

/-- What the copying leaves of the headers: it moves `nx_packet_append_ptr` of some packets and
`nx_packet_last` of the first one. -/
structure Copied (first : Address) (nodes : List Address) (pool pool' : PacketPool) : Prop
    extends Untouched (first :: nodes) pool pool' where
  available : pool'.available = pool.available
  availableList : pool'.availableList = pool.availableList
  header : ∀ a, pool'.packet a = { pool.packet a with
    last := (pool'.packet a).last, appendPtr := (pool'.packet a).appendPtr, area := (pool'.packet a).area }
  last : ∀ a ≠ first, (pool'.packet a).last = (pool.packet a).last
  bytes : ∀ a ∉ nodes, (pool'.packet a).bytes = (pool.packet a).bytes
  grows : ∀ a, (pool.packet a).appendPtr ≤ (pool'.packet a).appendPtr
  bounded : ∀ a, (pool.packet a).Bounded pool.payloadSize → (pool'.packet a).Bounded pool.payloadSize

namespace Copied

variable {first : Address} {nodes nodes' : List Address} {pool'' : PacketPool}

theorem refl (pool : PacketPool) : Copied first nodes pool pool where
  toUntouched := .refl pool
  available := rfl
  availableList := rfl
  header _ := rfl
  last _ _ := rfl
  bytes _ _ := rfl
  grows _ := le_rfl
  bounded _ h := h

theorem trans (h : Copied first nodes pool pool') (h' : Copied first nodes pool' pool'') :
    Copied first nodes pool pool'' where
  toUntouched := h.toUntouched.trans h'.toUntouched
  available := h'.available.trans h.available
  availableList := h'.availableList.trans h.availableList
  header a := by rw [h'.header a, h.header a]
  last a ha := (h'.last a ha).trans (h.last a ha)
  bytes a ha := (h'.bytes a ha).trans (h.bytes a ha)
  grows a := le_trans (h.grows a) (h'.grows a)
  bounded a ha := h.payloadSize ▸ h'.bounded a (h.payloadSize.symm ▸ h.bounded a ha)

theorem mono (h : Copied first nodes pool pool') (hsub : nodes ⊆ nodes') : Copied first nodes' pool pool' where
  toUntouched := h.toUntouched.mono (List.cons_subset_cons first hsub)
  available := h.available
  availableList := h.availableList
  header := h.header
  last := h.last
  bytes a ha := h.bytes a fun hmem => ha (hsub hmem)
  grows := h.grows
  bounded := h.bounded

theorem put (hroom : data.length ≤ (pool.packet a).room) :
    Copied first [a] pool (pool.modify a fun p => p.put data) where
  toUntouched := (Untouched.modify _).mono (List.subset_cons_self first [a])
  available := rfl
  availableList := rfl
  header b := by
    rw [PacketPool.packet_modify]
    split <;> rfl
  last b _ := by
    rw [PacketPool.packet_modify]
    split <;> rfl
  bytes b hb := by rw [PacketPool.packet_modify_of_ne fun heq => hb (List.mem_singleton.mpr heq)]
  grows b := by
    rw [PacketPool.packet_modify]
    split
    · exact Nat.le_add_right _ _
    · exact le_rfl
  bounded b h := by
    rw [PacketPool.packet_modify]
    split
    · rename_i heq
      exact h.put (heq ▸ hroom)
    · exact h

theorem setLast (o : Option Address) : Copied first nodes pool (pool.setLast first o) where
  toUntouched := (Untouched.modify _).mono (List.cons_subset_cons first (List.nil_subset nodes))
  available := rfl
  availableList := rfl
  header b := by simp
  last b hb := by simp [hb]
  bytes b _ := by
    rw [PacketPool.packet_setLast]
    rfl
  grows b := by rw [PacketPool.packet_setLast]
  bounded b h := by
    rw [PacketPool.packet_setLast]
    exact h.relink

theorem next (h : Copied first nodes pool pool') (a : Address) : (pool'.packet a).next = (pool.packet a).next := by
  rw [h.header]

end Copied

theorem Blank.room (h : Blank pool touched) (ha : a ∈ touched) (hbounded : (pool.packet a).Bounded pool.payloadSize) :
    (pool.packet a).room = pool.payloadSize := by
  rw [Packet.room, h a ha, hbounded.area]
  exact Nat.sub_zero _

theorem Blank.bytesOf (h : Blank pool touched) : pool.bytesOf touched = [] := by
  rw [PacketPool.bytesOf, List.flatMap_eq_nil_iff]
  intro a ha
  rw [Packet.bytes, Packet.size, h a ha, Nat.zero_sub, List.take_zero]

/-- The data that fits a run of packets, all behind the first one blank, goes to their ends. It fills each
packet but the last, where `nx_packet_last` ends up. -/
theorem copyLoop_spec (first : Address) (data : List Byte) (fuel : Nat) {nodes : List Address}
    (hlinked : Linked (fun b => (pool.packet b).next) (pool.packet a).next nodes) (hnodup : (a :: nodes).Nodup)
    (hbounded : ∀ b ∈ a :: nodes, (pool.packet b).Bounded pool.payloadSize) (hblank : Blank pool nodes)
    (hfits : data.length ≤ (pool.packet a).room + nodes.length * pool.payloadSize)
    (hleast : ∀ k < nodes.length, (pool.packet a).room + k * pool.payloadSize < data.length)
    (hfuel : nodes.length < fuel) :
    ∃ pool', copyLoop first fuel pool (some a) data = pool' ∧ Copied first (a :: nodes) pool pool' ∧
      pool'.bytesOf (a :: nodes) = pool.bytesOf (a :: nodes) ++ data ∧
      (pool'.packet first).last = (if nodes = [] then (pool.packet first).last else nodes.getLast?) ∧
      (pool'.packet (nodes.getLast?.getD a)).room + data.length =
        (pool.packet a).room + nodes.length * pool.payloadSize := by
  induction nodes generalizing pool a data fuel with
  | nil =>
      obtain ⟨fuel, rfl⟩ := Nat.exists_eq_succ_of_ne_zero (Nat.ne_of_gt hfuel)
      have hroom : data.length ≤ (pool.packet a).room := by simpa using hfits
      cases hdata : data with
      | nil => exact ⟨pool, rfl, .refl pool, (List.append_nil _).symm, (if_pos rfl).symm, by simp⟩
      | cons x xs =>
          rw [← hdata]
          have hsize : (if data.length < (pool.packet a).room then data.length else (pool.packet a).room) = data.length := by
            split <;> omega
          have hbytes := Packet.bytes_put (hbounded a List.mem_cons_self) hroom
          refine ⟨pool.modify a fun p => p.put data, ?_, .put hroom, ?_, ?_, ?_⟩
          · rw [copyLoop, if_neg (by rw [hdata]; exact Bool.false_ne_true)]
            simp only [hsize, List.take_length, List.drop_length, List.isEmpty_nil, if_true]
          · rw [PacketPool.bytesOf, PacketPool.bytesOf, List.flatMap_singleton, List.flatMap_singleton,
              PacketPool.packet_modify_self, hbytes]
          · rw [if_pos rfl, PacketPool.packet_modify]
            split <;> rfl
          · rw [List.getLast?_nil, Option.getD_none, PacketPool.packet_modify_self,
              Packet.room_put (hbounded a List.mem_cons_self) hroom]
            simp only [List.length_nil, Nat.zero_mul]
            omega
  | cons b nodes ih =>
      obtain ⟨fuel, rfl⟩ := Nat.exists_eq_succ_of_ne_zero (Nat.ne_of_gt (Nat.zero_lt_of_lt hfuel))
      obtain ⟨hnext, hrest⟩ := linked_cons.mp hlinked
      have hlong : (pool.packet a).room < data.length := by simpa using hleast 0 (Nat.succ_pos _)
      have ha := (List.nodup_cons.mp hnodup).1
      -- the packet is filled, and the first one's `nx_packet_last` goes to the next
      let filled := pool.modify a fun p => p.put (data.take (pool.packet a).room)
      have htake : (data.take (pool.packet a).room).length = (pool.packet a).room := List.length_take_of_le (Nat.le_of_lt hlong)
      have hput : Copied first [a] pool filled := .put (Nat.le_of_eq htake)
      let moved := filled.setLast first (some b)
      have hmoved : Copied first [a] pool moved := hput.trans (.setLast _)
      have hround : copyLoop first (fuel + 1) pool (some a) data =
          copyLoop first fuel moved (some b) (data.drop (pool.packet a).room) := by
        have hempty : data.isEmpty = false := List.isEmpty_eq_false_iff.mpr fun hnil => by simp [hnil] at hlong
        have hrest : (data.drop (pool.packet a).room).isEmpty = false := by
          rw [List.isEmpty_eq_false_iff, ← List.length_pos_iff, List.length_drop]
          omega
        have hlink : (filled.packet a).next = some b := (hput.next a).trans hnext
        rw [copyLoop, if_neg (by rw [hempty]; exact Bool.false_ne_true)]
        simp only [if_neg (Nat.lt_asymm hlong), hrest]
        rw [if_neg Bool.false_ne_true]
        exact congrArg (fun o => copyLoop first fuel (filled.setLast first o) o _) hlink
      have hmem : ∀ d ∈ b :: nodes, d ≠ a := fun d hd heq => ha (heq ▸ hd)
      have hpacket : ∀ d ∈ b :: nodes, moved.packet d = { pool.packet d with last := (moved.packet d).last } :=
        fun d hd => by
          simp only [moved, PacketPool.packet_setLast]
          rw [show filled.packet d = pool.packet d from PacketPool.packet_modify_of_ne (hmem d hd)]
      have hb := hbounded b (List.mem_cons_of_mem a List.mem_cons_self)
      have hroom : (moved.packet b).room = pool.payloadSize := by
        rw [hpacket b List.mem_cons_self]
        exact hblank.room List.mem_cons_self hb
      have hdrop : (data.drop (pool.packet a).room).length = data.length - (pool.packet a).room := List.length_drop
      obtain ⟨pool', hrun, hcopied, hbytes, hlast, hleft⟩ := @ih moved b (data.drop (pool.packet a).room) fuel
        (by rw [hmoved.next]; exact hrest.congr fun d _ => hmoved.next d) (List.nodup_cons.mp hnodup).2
        (fun d hd => hmoved.payloadSize ▸ hmoved.bounded d (hbounded d (List.mem_cons_of_mem a hd)))
        (fun d hd => by
          rw [hpacket d (List.mem_cons_of_mem b hd)]
          exact hblank d (List.mem_cons_of_mem b hd))
        (by
          rw [hroom, hdrop, hmoved.payloadSize]
          rw [List.length_cons, Nat.succ_mul] at hfits
          omega)
        (fun k hk => by
          have hnext := hleast (k + 1) (Nat.succ_lt_succ hk)
          rw [hroom, hdrop, hmoved.payloadSize]
          rw [Nat.succ_mul] at hnext
          omega)
        (Nat.lt_of_succ_lt_succ hfuel)
      refine ⟨pool', hround.trans hrun, ?_, ?_, ?_, ?_⟩
      · exact (hmoved.mono (List.cons_subset_cons a (List.nil_subset _))).trans (hcopied.mono (List.subset_cons_self a _))
      · have hfirst : (pool'.packet a).bytes = (pool.packet a).bytes ++ data.take (pool.packet a).room := by
          rw [hcopied.bytes a ha, PacketPool.packet_setLast]
          exact (congrArg Packet.bytes PacketPool.packet_modify_self).trans
            (Packet.bytes_put (hbounded a List.mem_cons_self) (Nat.le_of_eq htake))
        have hempty : moved.bytesOf (b :: nodes) = [] := (PacketPool.bytesOf_congr fun d hd => by
          rw [hpacket d hd]
          rfl).trans hblank.bytesOf
        calc pool'.bytesOf (a :: b :: nodes)
            = (pool'.packet a).bytes ++ pool'.bytesOf (b :: nodes) := List.flatMap_cons
          _ = (pool.packet a).bytes ++ data := by
              rw [hfirst, hbytes, hempty, List.nil_append, List.append_assoc, List.take_append_drop]
          _ = pool.bytesOf (a :: b :: nodes) ++ data := by
              rw [PacketPool.bytesOf, List.flatMap_cons]
              refine congrArg (· ++ data) ?_
              exact (List.append_nil _).symm.trans (congrArg _ hblank.bytesOf.symm)
      · rw [hlast, if_neg (List.cons_ne_nil b nodes)]
        split
        · rename_i hnil
          simp [hnil, moved]
        · rename_i hne
          exact (List.getLast?_cons_of_ne_nil hne).symm
      · rw [List.getLast?_cons, Option.getD_some, List.length_cons, Nat.succ_mul]
        rw [hdrop, hroom, hmoved.payloadSize] at hleft
        omega

theorem linkEnd_spec (new : Option Address) (hnext : (pool.packet a).next = none) :
    Relinked (a :: new.toList) pool (linkEnd pool a new) ∧ ((linkEnd pool a new).packet a).next = new ∧
      (∀ b ≠ a, ((linkEnd pool a new).packet b).next = (pool.packet b).next) ∧
      ∀ b ∉ new.toList, ((linkEnd pool a new).packet b).last = (pool.packet b).last := by
  cases new with
  | none => exact ⟨⟨.refl pool, rfl, rfl, fun _ => rfl⟩, hnext, fun _ _ => rfl, fun _ _ => rfl⟩
  | some n =>
      refine ⟨⟨⟨rfl, rfl, fun b hb => ?_⟩, rfl, rfl, fun b => by simp [linkEnd]⟩, by simp [linkEnd], fun b hb => ?_,
        fun b hb => ?_⟩
      · simp only [Option.toList_some, List.mem_cons, List.not_mem_nil, or_false, not_or] at hb
        simp [linkEnd, hb.1, hb.2]
      · simp [linkEnd, hb]
      · rw [Option.toList_some, List.mem_singleton] at hb
        simp [linkEnd, hb]

/-- The data of a packet starts where it did, and does not end before. -/
structure Extended (p p' : Packet) : Prop where
  prependPtr : p'.prependPtr = p.prependPtr
  appendPtr : p.appendPtr ≤ p'.appendPtr

/-- What an append leaves of a chain that it extends by some packets. -/
structure Appended (pool pool' : PacketPool) (c : Chain) (taken : List Address) (data : List Byte) : Prop where
  bytes : pool'.bytesOf (c.extend taken).packets = pool.bytesOf c.packets ++ data
  untouched : Untouched (c.extend taken).packets pool pool'
  extended : ∀ a ∈ c.packets, Extended (pool.packet a) (pool'.packet a)
  room : (pool'.packet (c.extend taken).tail).room + data.length =
    (pool.packet c.tail).room + taken.length * pool.payloadSize

/-- The end of an append: the new packets are linked behind the chain, and the data is copied. -/
theorem Holds.fill (data : List Byte) {new : Option Chain} {taken : List Address} (h : Holds pool free (new.toList ++ c :: chains))
    (hpackets : newPackets new = taken) (hblank : Blank pool taken)
    (hfits : data.length ≤ (pool.packet c.tail).room + taken.length * pool.payloadSize)
    (hleast : ∀ k < taken.length, (pool.packet c.tail).room + k * pool.payloadSize < data.length)
    (hpool' : pool' = (linkEnd pool c.tail (new.map Chain.head)).modify c.head fun p =>
      { p with packetLength := p.packetLength + data.length }) :
    ∃ pool'', copyLoop c.head pool'.total pool' (some ((pool'.packet c.head).last.getD c.head)) data = pool'' ∧
      Holds pool'' free (c.extend taken :: chains) ∧ Appended pool pool'' c taken data := by
  have hc := h.chained c (List.mem_append_right _ List.mem_cons_self)
  have hall := h.nodup.of_append_right
  rw [List.flatMap_append, show new.toList.flatMap Chain.packets = taken from hpackets, List.flatMap_cons,
    ← List.append_assoc] at hall
  have hnodup : (c.packets ++ taken).Nodup := List.perm_append_comm.nodup_iff.mp hall.of_append_left
  have hapart : ∀ a ∈ c.packets, a ∉ taken := fun a ha hmem => (List.nodup_append.mp hnodup).2.2 a ha a hmem rfl
  obtain ⟨hr, hnextTail, hnext, hlast⟩ := linkEnd_spec (new.map Chain.head) hc.tail_next
  have hheads : (new.map Chain.head).toList ⊆ taken := by
    cases new with
    | none => exact List.nil_subset _
    | some n =>
        rw [← hpackets, newPackets_some]
        exact List.cons_subset_cons n.head (List.nil_subset _)
  -- what the links and the length are before the data is copied
  have hpacket : ∀ a, pool'.packet a = { pool.packet a with
      next := (pool'.packet a).next, last := (pool'.packet a).last, packetLength := (pool'.packet a).packetLength } := by
    intro a
    rw [hpool', PacketPool.packet_modify]
    split <;> rw [hr.links]
  have hnext' : ∀ a, (pool'.packet a).next = ((linkEnd pool c.tail (new.map Chain.head)).packet a).next := by
    intro a
    rw [hpool', PacketPool.packet_modify]
    split <;> rfl
  have hlast' : (pool'.packet c.head).last = c.rest.getLast? := by
    rw [hpool', PacketPool.packet_modify_self, ← hc.last]
    exact hlast c.head fun hmem => hapart c.head List.mem_cons_self (hheads hmem)
  have hpayload : pool'.payloadSize = pool.payloadSize := by rw [hpool']; exact hr.payloadSize
  have hbytes : ∀ addresses, pool'.bytesOf addresses = pool.bytesOf addresses := fun addresses =>
    PacketPool.bytesOf_congr fun a _ => by rw [hpacket]; rfl
  have hnew : ∀ a ∈ taken, (pool.packet a).allocated = true ∧ (pool.packet a).Bounded pool.payloadSize := by
    intro a ha
    rw [← hpackets, newPackets, List.mem_flatMap] at ha
    obtain ⟨n, hn, ha⟩ := ha
    have hn := h.chained n (List.mem_append_left _ hn)
    exact ⟨hn.allocated a ha, hn.bounded a ha⟩
  have hallocated : ∀ a ∈ c.packets ++ taken, (pool.packet a).allocated = true := fun a ha =>
    (List.mem_append.mp ha).elim (hc.allocated a) fun ha => (hnew a ha).1
  have hbounded : ∀ a ∈ c.packets ++ taken, (pool'.packet a).Bounded pool'.payloadSize := by
    intro a ha
    rw [hpacket, hpayload]
    have hold := (List.mem_append.mp ha).elim (hc.bounded a) fun ha => (hnew a ha).2
    exact ⟨hold.ordered, hold.inside, hold.area⟩
  have hlinked : Linked (fun a => (pool'.packet a).next) (some c.head) (c.packets ++ taken) := by
    obtain ⟨front, hfront⟩ := c.exists_packets_eq
    have htaken : Linked (fun a => (pool.packet a).next) (new.map Chain.head) taken := by
      cases new with
      | none => rw [← hpackets]; exact rfl
      | some n =>
          rw [← hpackets, newPackets_some]
          exact (h.chained n List.mem_cons_self).linked_packets
    have hchain := hc.linked_packets
    rw [hfront] at hchain hnodup ⊢
    rw [List.append_assoc] at hnodup
    have hdistinct := List.nodup_append.mp hnodup
    refine hchain.join htaken ((hnext' _).trans hnextTail) fun b hb => (hnext' b).trans (hnext b fun heq => ?_)
    rcases List.mem_append.mp hb with hb | hb
    · exact hdistinct.2.2 b hb c.tail List.mem_cons_self heq
    · exact (List.nodup_cons.mp hdistinct.2.1).1 (heq ▸ hb)
  obtain ⟨front, hfront⟩ := c.exists_packets_eq
  have hbehind : Linked (fun a => (pool'.packet a).next) (pool'.packet c.tail).next taken := by
    rw [hfront] at hlinked
    obtain ⟨_, hfirst, hsecond⟩ := segment_append.mp hlinked
    rw [(segment_concat.mp hfirst).2]
    exact hsecond
  have hsub : c.tail :: taken ⊆ c.packets ++ taken :=
    List.cons_subset.mpr ⟨List.mem_append_left _ c.tail_mem, List.subset_append_right _ _⟩
  have hroom : (pool'.packet c.tail).room = (pool.packet c.tail).room := by rw [hpacket]; rfl
  have htotal : pool'.total = pool.total := by rw [hpool']; exact hr.total
  obtain ⟨pool'', hrun, hcopied, hcopy, hend, hleft⟩ := copyLoop_spec c.head data pool'.total hbehind
    (List.nodup_cons.mpr ⟨hapart c.tail c.tail_mem, hall.of_append_left.of_append_left⟩)
    (fun a ha => hbounded a (hsub ha)) (fun a ha => by rw [hpacket]; exact hblank a ha)
    (by rwa [hroom, hpayload]) (by rwa [hroom, hpayload])
    (by
      rw [htotal, h.total, List.flatMap_append, show new.toList.flatMap Chain.packets = taken from hpackets,
        List.flatMap_cons, Chain.packets]
      simp only [List.length_append, List.length_cons]
      omega)
  have hcontents : pool''.bytesOf (c.packets ++ taken) = pool.bytesOf c.packets ++ data := by
    have hfirst : pool''.bytesOf front = pool'.bytesOf front := PacketPool.bytesOf_congr fun a ha => by
      refine hcopied.bytes a fun hmem => ?_
      rw [hfront, List.append_assoc] at hnodup
      exact (List.nodup_append.mp hnodup).2.2 a ha a hmem rfl
    have hsplit : c.packets ++ taken = front ++ c.tail :: taken := by rw [hfront, List.append_assoc]; rfl
    calc pool''.bytesOf (c.packets ++ taken)
        = pool''.bytesOf front ++ pool''.bytesOf (c.tail :: taken) := by rw [hsplit, PacketPool.bytesOf_append]
      _ = pool'.bytesOf (c.packets ++ taken) ++ data := by
          rw [hfirst, hcopy, hsplit, PacketPool.bytesOf_append, List.append_assoc]
      _ = pool.bytesOf c.packets ++ data := by
          rw [hbytes, PacketPool.bytesOf_append, hblank.bytesOf, List.append_nil]
  have hu : Untouched (c.packets ++ taken) pool pool'' := by
    have hlinks : Untouched (c.packets ++ taken) pool (linkEnd pool c.tail (new.map Chain.head)) :=
      hr.toUntouched.mono (List.cons_subset.mpr ⟨hsub List.mem_cons_self,
        fun a ha => hsub (List.mem_cons_of_mem _ (hheads ha))⟩)
    have hhead : c.head :: c.tail :: taken ⊆ c.packets ++ taken :=
      List.cons_subset.mpr ⟨List.mem_append_left _ List.mem_cons_self, hsub⟩
    refine (hlinks.trans ?_).trans (hcopied.toUntouched.mono hhead)
    rw [hpool']
    exact (Untouched.modify _).mono fun a ha => hhead (List.mem_singleton.mp ha ▸ List.mem_cons_self)
  have hchained : Chained pool'' (c.extend taken) := by
    refine ⟨(hlinked.congr fun a _ => hcopied.next a).2, fun a ha => ?_, fun a ha => ?_, ?_, ?_⟩
    · rw [hcopied.header, hpacket]
      exact hallocated a ha
    · rw [hcopied.payloadSize]
      exact hcopied.bounded a (hbounded a ha)
    · rw [Chain.extend_head, hend, hlast']
      split
      · rename_i hnil
        rw [hnil, Chain.extend, List.append_nil]
      · rename_i hne
        exact (List.getLast?_append_of_ne_nil _ hne).symm
    · rw [Chain.extend_packets, hcontents, hcopied.header, List.length_append, ← hc.length, hpool',
        Chain.extend_head, PacketPool.packet_modify_self]
      change ((linkEnd pool c.tail _).packet c.head).packetLength + data.length = _
      rw [hr.links]
  have hextended : ∀ a ∈ c.packets, Extended (pool.packet a) (pool''.packet a) := by
    refine fun a _ => ⟨by rw [hcopied.header, hpacket], ?_⟩
    have hgrows := hcopied.grows a
    rwa [hpacket] at hgrows
  have hspace : (pool''.packet (c.extend taken).tail).room + data.length =
      (pool.packet c.tail).room + taken.length * pool.payloadSize := by
    rw [hroom, hpayload] at hleft
    rw [← hleft, Chain.tail, Chain.tail, Chain.extend]
    cases taken with
    | nil => simp
    | cons a taken => simp
  refine ⟨pool'', by rw [hlast']; exact hrun, ?_, hcontents, hu, hextended, hspace⟩
  have hfree : ∀ a ∈ free, a ∉ c.packets ++ taken := fun a ha hmem => by
    refine (List.nodup_append.mp h.nodup).2.2 a ha a ?_ rfl
    rw [List.flatMap_append, show new.toList.flatMap Chain.packets = taken from hpackets, List.flatMap_cons,
      ← List.append_assoc]
    exact List.mem_append_left _ (List.perm_append_comm.mem_iff.mp hmem)
  have hown : Holds pool free ((new.toList ++ [c]) ++ chains) := by rwa [List.append_assoc, List.singleton_append]
  have hmine : (new.toList ++ [c]).flatMap Chain.packets = taken ++ c.packets := by
    rw [List.flatMap_append, List.flatMap_singleton]
    exact congrArg (· ++ c.packets) hpackets
  refine hown.replace (new.toList ++ [c]) [c.extend taken]
    (h.listed.congr hu hfree (hcopied.availableList.trans (by rw [hpool']; exact hr.availableList))
      (hcopied.available.trans (by rw [hpool']; exact hr.available))) (List.forall_mem_singleton.mpr hchained) hu ?_ ?_
  · rw [hmine]
    exact fun a ha => List.mem_append_right _ (List.perm_append_comm.mem_iff.mp ha)
  · rw [hmine, List.flatMap_singleton, Chain.extend_packets]
    exact List.Perm.append_left free (List.perm_append_comm : (c.packets ++ taken).Perm (taken ++ c.packets))

/-- How an append ends: all of the data is in the chain, in as few packets as hold it, or nothing has
changed but the order of the available packets. -/
theorem Holds.append (h : Holds pool free (c :: chains)) (data : List Byte) :
    ((pool.packet c.tail).room + free.length * pool.payloadSize < data.length ∧ ∃ free' pool',
      nxPacketDataAppend pool c.head data = (.noPacket, pool') ∧ Holds pool' free' (c :: chains) ∧
        free'.Perm free ∧ Untouched free pool pool') ∨
    ∃ taken free' pool', free = taken ++ free' ∧ nxPacketDataAppend pool c.head data = (.success, pool') ∧
      Holds pool' free' (c.extend taken :: chains) ∧ Appended pool pool' c taken data ∧
      data.length ≤ (pool.packet c.tail).room + taken.length * pool.payloadSize ∧
      ∀ k < taken.length, (pool.packet c.tail).room + k * pool.payloadSize < data.length := by
  have hc := h.chained c List.mem_cons_self
  have htotal : 0 < pool.total := by
    rw [h.total, List.flatMap_cons, Chain.packets, List.length_append, List.length_append, List.length_cons]
    omega
  have hpickup := Holds.pickup none data.length (pool.packet c.tail).room (pool.available + 1) h (fun b hb => absurd hb List.not_mem_nil)
    (Nat.lt_succ_of_le (Nat.le_of_eq h.listed.counted.symm))
  have hlastPacket : (lastPackets pool c.head).getLast?.getD c.head = c.tail := by
    rw [hc.lastPackets_eq htotal, Chain.tail]
    cases c.rest.getLast? <;> rfl
  simp only [nxPacketDataAppend, hlastPacket, hc.availableBytes_eq htotal]
  rw [Option.map_none] at hpickup
  rcases hpickup with ⟨hfew, free', pool', hrun, hholds, hperm, hu⟩ |
    ⟨taken, free', new, pool₁, rfl, hrun, hholds, hpackets, hblank, hu, hfits, hleast⟩
  · exact Or.inl ⟨hfew, free', pool', by rw [hrun], hholds, hperm, hu⟩
  · have hnew : newPackets new = taken := hpackets
    have hapart : ∀ a ∈ c.packets, a ∉ taken := fun a ha hmem => by
      refine (List.nodup_append.mp h.nodup).2.2 a (List.mem_append_left _ hmem) a ?_ rfl
      rw [List.flatMap_cons]
      exact List.mem_append_left _ ha
    have hkept : ∀ a ∈ c.packets, pool₁.packet a = pool.packet a := fun a ha => hu.packet a (hapart a ha)
    obtain ⟨pool', hcopy, hholds', happended⟩ := hholds.fill data hnew (hnew ▸ hblank)
      (by rwa [hkept c.tail c.tail_mem, hu.payloadSize]) (by rwa [hkept c.tail c.tail_mem, hu.payloadSize]) rfl
    refine Or.inr ⟨taken, free', pool', rfl, ?_, hholds', ⟨?_, ?_, fun a ha => hkept a ha ▸ happended.extended a ha, ?_⟩,
      hfits, hleast⟩
    · rw [hrun]
      exact congrArg (Prod.mk Status.success) hcopy
    · rw [happended.bytes]
      exact congrArg (· ++ data) (PacketPool.bytesOf_congr fun a ha => by rw [hkept a ha])
    · exact (hu.mono (List.subset_append_right c.packets taken)).trans happended.untouched
    · rw [happended.room, hkept c.tail c.tail_mem, hu.payloadSize]

theorem Exchange.append (h : Holds pool free (c :: chains)) (data : List Byte) :
    ((pool.packet c.tail).room + free.length * pool.payloadSize < data.length ∧ ∃ free' pool',
      nxPacketDataAppend pool c.head data = (.noPacket, pool') ∧ Exchange pool pool' free free' [] []) ∨
    ∃ taken free' pool', free = taken ++ free' ∧ nxPacketDataAppend pool c.head data = (.success, pool') ∧
      Exchange pool pool' free free' [c] [c.extend taken] ∧ Appended pool pool' c taken data := by
  rcases h.append data with ⟨hfew, free', pool', hrun, hholds, hperm, hu⟩ |
    ⟨taken, free', pool', rfl, hrun, hholds, happended, -⟩
  · exact Or.inl ⟨hfew, free', pool', hrun, .of_holds [] hholds hu (List.subset_append_left _ _)
      (hperm.append_right _)⟩
  · refine Or.inr ⟨taken, free', pool', rfl, hrun, .of_holds [_] hholds happended.untouched ?_ ?_, happended⟩
    · rw [List.flatMap_singleton, Chain.extend_packets]
      exact List.append_subset.mpr ⟨List.subset_append_right _ _,
        fun a ha => List.mem_append_left _ (List.mem_append_left _ ha)⟩
    · rw [List.flatMap_singleton, List.flatMap_singleton, Chain.extend_packets]
      refine List.perm_append_comm.trans ?_
      rw [List.append_assoc]
      exact List.perm_append_comm

end DeviceSample.NetX
