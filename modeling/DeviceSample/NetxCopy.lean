import DeviceSample.NetxAppend

/-!
Copying a packet. The copy is a packet of its own, to which the data of each packet of the source is
appended, that of the first one together with the space in front of it. Its pointer is then moved behind that
space.
-/

namespace DeviceSample.NetX

open Base

/-- The loop of `_nx_packet_copy` over the packets of the source. When an append fails, the copy is
released. -/
def copyPackets (work : Address) : Nat → Bool → PacketPool → Option Address → Status × PacketPool
  | 0, _, pool, _ => (.success, pool)
  | _ + 1, _, pool, none => (.success, pool)
  | fuel + 1, firstPacket, pool, some a =>
      let p := pool.packet a
      let data := if firstPacket then p.area.take p.appendPtr else p.bytes
      match nxPacketDataAppend pool work data with
      | (.success, pool) => copyPackets work fuel false pool (pool.packet a).next
      | (status, pool) => (status, (nxPacketRelease pool work).2)

/-- `_nx_packet_copy` without suspension, for a copy in the pool of the packet. -/
def nxPacketCopy (pool : PacketPool) (a : Address) : Except Status Address × PacketPool :=
  if (pool.packet a).packetLength = 0 then (.error .invalidPacket, pool)
  else
    match nxPacketAllocate pool 0 with
    | (.error status, pool) => (.error status, pool)
    | (.ok work, pool) =>
        match copyPackets work pool.total true pool (some a) with
        | (.success, pool) =>
            let dataPrependOffset := (pool.packet a).prependPtr
            let pool := pool.modify work fun p =>
              { p with prependPtr := dataPrependOffset, packetLength := p.packetLength - dataPrependOffset }
            if (pool.packet a).packetLength ≠ (pool.packet work).packetLength then
              (.error .invalidPacket, (nxPacketRelease pool work).2)
            else (.ok work, pool)
        | (status, pool) => (.error status, pool)

variable {pool pool' pool'' : PacketPool} {free nodes : List Address} {a : Address} {c d : Chain}
  {chains : List Chain} {data data' : List Byte}

/-- The packets of two chains and the available ones are all different. -/
theorem Holds.apart (h : Holds pool free (d :: c :: chains)) (ha : a ∈ c.packets) : a ∉ free ∧ a ∉ d.packets := by
  have hnodup := h.nodup
  rw [List.flatMap_cons, List.flatMap_cons] at hnodup
  refine ⟨fun hmem => ?_, fun hmem => ?_⟩
  · exact (List.nodup_append.mp hnodup).2.2 a hmem a (List.mem_append_right _ (List.mem_append_left _ ha)) rfl
  · exact (List.nodup_append.mp hnodup.of_append_right).2.2 a hmem a (List.mem_append_left _ ha) rfl

theorem Appended.refl (pool : PacketPool) (c : Chain) : Appended pool pool c [] [] where
  bytes := by rw [Chain.extend_packets, List.append_nil, List.append_nil]
  untouched := .refl pool
  extended _ _ := ⟨rfl, le_rfl⟩
  room := by simp [Chain.extend]

theorem Appended.trans {taken taken' : List Address} (h : Appended pool pool' c taken data)
    (h' : Appended pool' pool'' (c.extend taken) taken' data') :
    Appended pool pool'' c (taken ++ taken') (data ++ data') := by
  have hbytes := h'.bytes
  have huntouched := h'.untouched
  have hroom := h'.room
  rw [Chain.extend_extend] at hbytes huntouched hroom
  refine ⟨?_, ?_, fun a ha => ?_, ?_⟩
  · rw [hbytes, h.bytes, List.append_assoc]
  · refine (h.untouched.mono fun a ha => ?_).trans huntouched
    rw [Chain.extend_packets, ← List.append_assoc]
    exact List.mem_append_left _ ha
  · have hfirst := h.extended a ha
    have hsecond := h'.extended a (List.mem_append_left _ ha)
    exact ⟨hsecond.prependPtr.trans hfirst.prependPtr, le_trans hfirst.appendPtr hsecond.appendPtr⟩
  · have hbefore := h.room
    have hpayload := h.untouched.payloadSize
    rw [hpayload] at hroom
    rw [List.length_append, List.length_append, Nat.add_mul]
    omega

/-- A chain whose first bytes are taken off by its pointer. -/
theorem Chained.advance {n : Nat} (h : Chained pool c) (hnodup : c.packets.Nodup) (hn : n ≤ (pool.packet c.head).size)
    (hpool' : pool' = pool.modify c.head fun p =>
      { p with prependPtr := p.prependPtr + n, packetLength := p.packetLength - n }) :
    Chained pool' c ∧ pool'.bytesOf c.packets = (pool.bytesOf c.packets).drop n := by
  have hhead : pool'.packet c.head = { pool.packet c.head with
      prependPtr := (pool.packet c.head).prependPtr + n, packetLength := (pool.packet c.head).packetLength - n } := by
    rw [hpool', PacketPool.packet_modify_self]
  have hrest : ∀ a ∈ c.rest, pool'.packet a = pool.packet a := fun a ha => by
    have hne : a ≠ c.head := fun heq => (List.nodup_cons.mp hnodup).1 (heq ▸ ha)
    rw [hpool', PacketPool.packet_modify_of_ne hne]
  have hbounded := h.bounded c.head List.mem_cons_self
  have hfirst : (pool'.packet c.head).bytes = (pool.packet c.head).bytes.drop n := by
    rw [hhead, Packet.bytes, Packet.bytes, List.drop_take, List.drop_drop]
    congr 1
    exact Nat.sub_add_eq _ _ _
  have hbytes : pool'.bytesOf c.packets = (pool.bytesOf c.packets).drop n := by
    have hbehind : pool'.bytesOf c.rest = pool.bytesOf c.rest :=
      PacketPool.bytesOf_congr fun a ha => by rw [hrest a ha]
    rw [Chain.packets, PacketPool.bytesOf_cons, PacketPool.bytesOf_cons, hfirst, hbehind,
      List.drop_append_of_le_length (by rwa [hbounded.bytes_length])]
  refine ⟨⟨?_, List.forall_mem_cons.mpr ⟨?_, fun a ha => ?_⟩, List.forall_mem_cons.mpr ⟨?_, fun a ha => ?_⟩, ?_, ?_⟩, hbytes⟩
  · rw [hhead]
    exact h.linked.congr fun a ha => by rw [hrest a ha]
  · rw [hhead]
    exact h.allocated c.head List.mem_cons_self
  · rw [hrest a ha]
    exact h.allocated a (List.mem_cons_of_mem _ ha)
  · have hordered := hbounded.ordered
    have hsize : n ≤ (pool.packet c.head).appendPtr - (pool.packet c.head).prependPtr := hn
    rw [hhead, hpool']
    refine ⟨?_, hbounded.inside, hbounded.area⟩
    change (pool.packet c.head).prependPtr + n ≤ (pool.packet c.head).appendPtr
    omega
  · rw [hrest a ha, hpool']
    exact h.bounded a (List.mem_cons_of_mem _ ha)
  · rw [hhead]
    exact h.last
  · rw [hbytes, hhead, List.length_drop, ← h.length]

/-- The loop behind the first packet appends the bytes of the packets that are left, if they fit, and otherwise
gives the copy back to the pool. -/
theorem Holds.copyPackets (h : Holds pool free (d :: c :: chains)) {start : Option Address} {fuel : Nat}
    (hlinked : Linked (fun a => (pool.packet a).next) start nodes) (hnodes : nodes ⊆ c.packets)
    (hfuel : nodes.length ≤ fuel) :
    ((pool.packet d.tail).room + free.length * pool.payloadSize < (pool.bytesOf nodes).length ∧ ∃ free' pool',
      NetX.copyPackets d.head fuel false pool start = (.noPacket, pool') ∧ Holds pool' free' (c :: chains) ∧
        free'.Perm (d.packets ++ free) ∧ Untouched (d.packets ++ free) pool pool') ∨
    ∃ taken free' pool', free = taken ++ free' ∧
      NetX.copyPackets d.head fuel false pool start = (.success, pool') ∧
        Holds pool' free' (d.extend taken :: c :: chains) ∧ Appended pool pool' d taken (pool.bytesOf nodes) ∧
        (pool.bytesOf nodes).length ≤ (pool.packet d.tail).room + taken.length * pool.payloadSize := by
  induction nodes generalizing pool d free start fuel with
  | nil =>
      rw [linked_nil.mp hlinked]
      exact Or.inr ⟨[], free, pool, rfl, by cases fuel <;> rfl, by rwa [Chain.extend_nil],
        .refl pool d, Nat.zero_le _⟩
  | cons a nodes ih =>
      obtain ⟨rfl, hrest⟩ := linked_cons.mp hlinked
      obtain ⟨fuel, rfl⟩ := Nat.exists_eq_succ_of_ne_zero (Nat.ne_of_gt (Nat.zero_lt_of_lt hfuel))
      rw [PacketPool.bytesOf_cons, List.length_append]
      rcases h.append (pool.packet a).bytes with ⟨hfew, free', pool₁, hrun, hholds, hperm, hu⟩ |
        ⟨taken, free', pool₁, rfl, hrun, hholds, happended, hfits, -⟩
      · obtain ⟨pool', hrelease, hholds', hu'⟩ := hholds.release
        refine Or.inl ⟨Nat.lt_add_right _ hfew, _, pool', ?_, hholds', ?_, ?_⟩
        · rw [NetX.copyPackets]
          simp only [Bool.false_eq_true, if_false, hrun, hrelease]
        · exact (List.reverse_perm d.packets).append hperm
        · exact (hu.mono (List.subset_append_right _ _)).trans (hu'.mono (List.subset_append_left _ _))
      · have hkept : ∀ b ∈ c.packets, pool₁.packet b = pool.packet b := fun b hb => happended.untouched.packet b fun hmem => by
          have hapart := h.apart hb
          rw [Chain.extend_packets, List.mem_append] at hmem
          exact hmem.elim hapart.2 fun hmem => hapart.1 (List.mem_append_left _ hmem)
        have hbehind : ∀ b ∈ nodes, pool₁.packet b = pool.packet b := fun b hb =>
          hkept b (hnodes (List.mem_cons_of_mem a hb))
        have hbytes : pool₁.bytesOf nodes = pool.bytesOf nodes :=
          PacketPool.bytesOf_congr fun b hb => by rw [hbehind b hb]
        have hround : NetX.copyPackets d.head (fuel + 1) false pool (some a) =
            NetX.copyPackets (d.extend taken).head fuel false pool₁ (pool.packet a).next := by
          rw [NetX.copyPackets]
          simp only [Bool.false_eq_true, if_false, hrun, Chain.extend_head]
          rw [hkept a (hnodes List.mem_cons_self)]
        have hroom := happended.room
        have hpayload := happended.untouched.payloadSize
        rw [hround]
        rcases ih (d := d.extend taken) hholds (hrest.congr fun b hb => by rw [hbehind b hb])
            (fun b hb => hnodes (List.mem_cons_of_mem a hb)) (Nat.le_of_succ_le_succ hfuel) with
          ⟨hfew, free'', pool', hrun', hholds', hperm, hu⟩ |
          ⟨taken', free'', pool', rfl, hrun', hholds', happended', hfits'⟩
        · rw [hbytes, hpayload] at hfew
          rw [Chain.extend_packets, List.append_assoc] at hperm hu
          refine Or.inl ⟨?_, free'', pool', hrun', hholds', hperm, ?_⟩
          · rw [List.length_append, Nat.add_mul]
            omega
          · refine (happended.untouched.mono ?_).trans hu
            rw [Chain.extend_packets, ← List.append_assoc]
            exact List.subset_append_left _ _
        · rw [hbytes, hpayload] at hfits'
          rw [hbytes] at happended'
          refine Or.inr ⟨taken ++ taken', free'', pool', by rw [List.append_assoc], hrun', ?_,
            happended.trans happended', ?_⟩
          · rwa [← Chain.extend_extend]
          · rw [List.length_append, Nat.add_mul]
            omega

/-- The first packet of the source goes whole into the packet that was allocated for the copy. -/
theorem Holds.appendFirst {b : Address} (data : List Byte) (h : Holds pool free (⟨b, []⟩ :: chains))
    (hfresh : (pool.packet b).appendPtr = 0) (hfits : data.length ≤ pool.payloadSize) :
    ∃ pool', nxPacketDataAppend pool b data = (.success, pool') ∧ Holds pool' free (⟨b, []⟩ :: chains) ∧
      Appended pool pool' ⟨b, []⟩ [] data ∧ (pool'.packet b).appendPtr = data.length := by
  have hb := (h.chained _ List.mem_cons_self).bounded b List.mem_cons_self
  have hroom : (pool.packet b).room = pool.payloadSize := by
    rw [Packet.room, hfresh, hb.area]
    exact Nat.sub_zero _
  have htail : (⟨b, []⟩ : Chain).tail = b := rfl
  rcases h.append data with ⟨hfew, -⟩ | ⟨taken, free', pool', rfl, hrun, hholds, happended, -, hleast⟩
  · rw [htail, hroom] at hfew
    omega
  · cases taken with
    | cons a taken =>
        have hshort := hleast 0 (Nat.succ_pos _)
        rw [htail, hroom] at hshort
        omega
    | nil =>
        refine ⟨pool', hrun, hholds, happended, ?_⟩
        have hb' := (hholds.chained _ List.mem_cons_self).bounded b List.mem_cons_self
        have hleft : (pool'.packet b).room + data.length = pool.payloadSize := by
          have hspace := happended.room
          rw [Chain.extend_nil, htail, hroom] at hspace
          simpa using hspace
        rw [Packet.room, hb'.area, happended.untouched.payloadSize] at hleft
        have hinside := hb'.inside
        rw [happended.untouched.payloadSize] at hinside
        omega

/-- The end of a copy, once the data is in it: the pointer is moved behind the space, and the lengths agree. -/
theorem Holds.finishCopy {headroom : Nat} {space : List Byte} (h : Holds pool free (d :: chains))
    (hprepend : (pool.packet d.head).prependPtr = 0) (hspace : headroom ≤ (pool.packet d.head).size)
    (hpool' : pool' = pool.modify d.head fun p =>
      { p with prependPtr := headroom, packetLength := p.packetLength - headroom })
    (hbytes : pool.bytesOf d.packets = space ++ data) (hheadroom : space.length = headroom) :
    Holds pool' free (d :: chains) ∧ Untouched d.packets pool pool' ∧ pool'.bytesOf d.packets = data ∧
      (pool'.packet d.head).prependPtr = headroom ∧ (pool'.packet d.head).packetLength = data.length := by
  have hd := h.chained d List.mem_cons_self
  have hnodup := h.nodup
  rw [List.flatMap_cons] at hnodup
  have hsame : pool' = pool.modify d.head fun p =>
      { p with prependPtr := p.prependPtr + headroom, packetLength := p.packetLength - headroom } := by
    rw [hpool']
    exact PacketPool.modify_congr (by rw [hprepend, Nat.zero_add])
  obtain ⟨hchained, hcontents⟩ := hd.advance hnodup.of_append_right.of_append_left hspace hsame
  rw [hbytes, ← hheadroom, List.drop_left] at hcontents
  have hu : Untouched [d.head] pool pool' := by
    rw [hpool']
    exact .modify _
  have hhead : [d.head] ⊆ d.packets := List.cons_subset_cons d.head (List.nil_subset _)
  have hfree : ∀ a ∈ free, a ∉ [d.head] := fun a ha hmem =>
    (List.nodup_append.mp hnodup).2.2 a ha a (List.mem_append_left _ (hhead hmem)) rfl
  refine ⟨?_, hu.mono hhead, hcontents, ?_, by rw [hchained.length, hcontents]⟩
  · refine Holds.replace [d] [d] h (h.listed.congr hu hfree (by rw [hpool']; rfl)
      (by rw [hpool']; rfl)) (List.forall_mem_singleton.mpr hchained) hu ?_ (List.Perm.refl _)
    rw [List.flatMap_singleton]
    exact fun a ha => List.mem_append_right _ (hhead ha)
  · rw [hpool', PacketPool.packet_modify_self]

/-- A packet with data is copied if the pool has the packets for its data and the space in front of it, and
then the copy has its bytes behind the same space. Otherwise the pool has its packets as before. -/
theorem Holds.copy (h : Holds pool free (c :: chains)) :
    ((pool.bytesOf c.packets = [] ∨ free.length * pool.payloadSize <
        (pool.packet c.head).prependPtr + (pool.bytesOf c.packets).length) ∧ ∃ status free' pool',
      nxPacketCopy pool c.head = (.error status, pool') ∧ Holds pool' free' (c :: chains) ∧ free'.Perm free ∧
        Untouched free pool pool') ∨
    ∃ d free' pool', pool.bytesOf c.packets ≠ [] ∧ free = d.packets ++ free' ∧
      (pool.packet c.head).prependPtr + (pool.bytesOf c.packets).length ≤ d.packets.length * pool.payloadSize ∧
      nxPacketCopy pool c.head = (.ok d.head, pool') ∧ Holds pool' free' (d :: c :: chains) ∧
      Untouched d.packets pool pool' ∧ pool'.bytesOf d.packets = pool.bytesOf c.packets ∧
      (pool'.packet d.head).prependPtr = (pool.packet c.head).prependPtr := by
  have hc := h.chained c List.mem_cons_self
  have hbounded := hc.bounded c.head List.mem_cons_self
  by_cases hempty : pool.bytesOf c.packets = []
  · refine Or.inl ⟨Or.inl hempty, .invalidPacket, free, pool, ?_, h, .refl _, .refl pool⟩
    rw [nxPacketCopy, hc.length, hempty]
    rfl
  have hlength : (pool.packet c.head).packetLength ≠ 0 := by
    rwa [hc.length, Ne, List.length_eq_zero_iff]
  rw [nxPacketCopy, if_neg hlength]
  rcases h.allocate (Nat.zero_le _) with ⟨rfl, hallocate⟩ | ⟨b, free, pool₁, rfl, hallocate, hholds, hu, hfresh⟩
  · refine Or.inl ⟨Or.inr ?_, .noPacket, [], pool, by rw [hallocate], h, .refl _, .refl pool⟩
    rw [List.length_nil, Nat.zero_mul]
    exact Nat.lt_of_lt_of_le (List.length_pos_iff.mpr hempty) (Nat.le_add_left _ _)
  have hordered := hbounded.ordered
  have hkept : ∀ a ∈ c.packets, pool₁.packet a = pool.packet a := fun a ha =>
    hu.packet a (hholds.apart ha).2
  have hspace : ((pool.packet c.head).area.take (pool.packet c.head).prependPtr).length =
      (pool.packet c.head).prependPtr := by
    rw [List.length_take, hbounded.area]
    have hinside := hbounded.inside
    omega
  have hlong : ((pool.packet c.head).area.take (pool.packet c.head).appendPtr).length =
      (pool.packet c.head).appendPtr := by
    rw [List.length_take, hbounded.area]
    exact Nat.min_eq_left hbounded.inside
  have hsizes : (pool.packet c.head).appendPtr + (pool.bytesOf c.rest).length =
      (pool.packet c.head).prependPtr + (pool.bytesOf c.packets).length := by
    rw [Chain.packets, PacketPool.bytesOf_cons, List.length_append, hbounded.bytes_length, Packet.size]
    omega
  obtain ⟨pool₂, hfirst, hholds₂, happended₂, hptr⟩ := hholds.appendFirst
    ((pool.packet c.head).area.take (pool.packet c.head).appendPtr) (by rw [hfresh]; rfl)
    (by rw [hlong, hu.payloadSize]; exact hbounded.inside)
  have hkept₂ : ∀ a ∈ c.packets, pool₂.packet a = pool.packet a := fun a ha => by
    refine (happended₂.untouched.packet a ?_).trans (hkept a ha)
    rw [Chain.extend_nil]
    exact (hholds.apart ha).2
  have hbytes₂ : pool₂.bytesOf c.rest = pool.bytesOf c.rest :=
    PacketPool.bytesOf_congr fun a ha => by rw [hkept₂ a (List.mem_cons_of_mem _ ha)]
  obtain ⟨n, hn⟩ : ∃ n, pool₁.total = n + 1 :=
    Nat.exists_eq_succ_of_ne_zero (Nat.ne_of_gt (Nat.lt_of_lt_of_le (Nat.succ_pos _) hholds.packets_length_le))
  have hround : NetX.copyPackets b pool₁.total true pool₁ (some c.head) =
      NetX.copyPackets b n false pool₂ (pool.packet c.head).next := by
    rw [hn, NetX.copyPackets, hkept c.head List.mem_cons_self]
    simp only [if_true, hfirst]
    rw [hkept₂ c.head List.mem_cons_self]
  have hpayload₂ : pool₂.payloadSize = pool.payloadSize :=
    happended₂.untouched.payloadSize.trans hu.payloadSize
  have hb := (hholds₂.chained _ List.mem_cons_self).bounded b List.mem_cons_self
  have hroom₂ : (pool₂.packet b).room = pool.payloadSize - (pool.packet c.head).appendPtr := by
    rw [Packet.room, hb.area, hptr, hlong, hpayload₂]
  have hinside := hbounded.inside
  have hrest : c.rest.length ≤ n := by
    have hpackets := h.packets_length_le
    rw [← hu.total, hn] at hpackets
    exact Nat.le_of_succ_le_succ hpackets
  have hstart : Untouched (b :: free) pool pool₂ :=
    (hu.trans happended₂.untouched).mono (List.cons_subset_cons b (List.nil_subset _))
  rcases hholds₂.copyPackets
      (hc.linked.congr fun a ha => by rw [hkept₂ a (List.mem_cons_of_mem _ ha)]) (List.subset_cons_self _ _) hrest with
    ⟨hfew, free', pool', hrun, hholds', hperm, hu'⟩ | ⟨taken, free', pool₃, rfl, hrun, hholds₃, happended₃, hfits⟩
  · refine Or.inl ⟨Or.inr ?_, .noPacket, free', pool', ?_, hholds', hperm, hstart.trans hu'⟩
    · change (pool₂.packet b).room + _ < _ at hfew
      rw [hroom₂, hpayload₂, hbytes₂] at hfew
      rw [List.length_cons, Nat.succ_mul]
      omega
    · rw [hallocate]
      simp only [hround]
      rw [show NetX.copyPackets b n false pool₂ (pool.packet c.head).next = (.noPacket, pool') from hrun]
  · have hsource : ∀ {pool'}, Untouched ((⟨b, []⟩ : Chain).extend taken).packets pool₂ pool' →
        pool'.packet c.head = pool.packet c.head := fun hu' => by
      refine (hu'.packet c.head fun hmem => ?_).trans (hkept₂ c.head List.mem_cons_self)
      rw [Chain.extend_packets, List.mem_append] at hmem
      have hapart := hholds₂.apart (c := c) List.mem_cons_self
      exact hmem.elim hapart.2 fun hmem => hapart.1 (List.mem_append_left _ hmem)
    have hzero : (pool₃.packet b).prependPtr = 0 := by
      rw [(happended₃.extended b List.mem_cons_self).prependPtr,
        (happended₂.extended b List.mem_cons_self).prependPtr, hfresh]
      rfl
    have hgrown := (happended₃.extended b List.mem_cons_self).appendPtr
    have hcontents : pool₃.bytesOf ((⟨b, []⟩ : Chain).extend taken).packets =
        (pool.packet c.head).area.take (pool.packet c.head).prependPtr ++ pool.bytesOf c.packets := by
      have hfilled := happended₂.bytes
      rw [Chain.extend_nil] at hfilled
      rw [happended₃.bytes, hfilled, hbytes₂, hbounded.take_appendPtr, Chain.packets, PacketPool.bytesOf_fresh hfresh,
        Chain.packets, PacketPool.bytesOf_cons, List.nil_append, List.append_assoc]
    obtain ⟨hholds₄, hu₄, hbytes₄, hprepend₄, hlength₄⟩ := hholds₃.finishCopy hzero
      (by
        change _ ≤ (pool₃.packet b).appendPtr - (pool₃.packet b).prependPtr
        omega) rfl hcontents hspace
    refine Or.inr ⟨(⟨b, []⟩ : Chain).extend taken, free', _, hempty, rfl, ?_, ?_, hholds₄, ?_, hbytes₄, hprepend₄⟩
    · change _ ≤ (pool₂.packet b).room + _ at hfits
      rw [hroom₂, hpayload₂, hbytes₂] at hfits
      have hcount : ((⟨b, []⟩ : Chain).extend taken).packets.length = taken.length + 1 := rfl
      rw [hcount, Nat.succ_mul]
      omega
    · rw [hallocate]
      simp only [hround]
      rw [show NetX.copyPackets b n false pool₂ (pool.packet c.head).next = (.success, pool₃) from hrun]
      have hsource₄ := hsource (happended₃.untouched.trans hu₄)
      simp only [hsource happended₃.untouched]
      refine if_neg (not_not_intro ?_)
      exact (congrArg Packet.packetLength hsource₄).trans (hc.length.trans hlength₄.symm)
    · have hcopied := happended₃.untouched.trans hu₄
      refine ((hu.trans ?_).mono ?_).trans hcopied
      · exact happended₂.untouched
      · exact List.cons_subset_cons b (List.nil_subset _)

theorem Exchange.copy (h : Holds pool free (c :: chains)) :
    (∃ status free' pool', nxPacketCopy pool c.head = (.error status, pool') ∧
      Exchange pool pool' free free' [] []) ∨
    ∃ d free' pool', nxPacketCopy pool c.head = (.ok d.head, pool') ∧ Exchange pool pool' free free' [] [d] ∧
      pool'.bytesOf d.packets = pool.bytesOf c.packets := by
  rcases h.copy with ⟨-, status, free', pool', hrun, hholds, hperm, hu⟩ |
    ⟨d, free', pool', -, rfl, -, hrun, hholds, hu, hbytes, -⟩
  · exact Or.inl ⟨status, free', pool', hrun, .of_holds [] hholds hu (List.subset_append_left _ _)
      (hperm.append_right _)⟩
  · refine Or.inr ⟨d, free', pool', hrun, .of_holds [d] hholds hu ?_ ?_, hbytes⟩
    · exact fun a ha => List.mem_append_left _ (List.mem_append_left _ ha)
    · rw [List.flatMap_singleton, List.flatMap_nil, List.append_nil]
      exact List.perm_append_comm

end DeviceSample.NetX
