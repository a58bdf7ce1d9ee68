import DeviceSample.NetxPool
import Mathlib.Data.List.Nodup
import Mathlib.Data.List.Perm.Basic

/-!
Who has the packets of a pool. Each packet is in the list of available packets or in one of the chains that
were handed out. An operation works on packets of the list and of its own chain, so that all other chains
are kept with their bytes.
-/

namespace DeviceSample.NetX

open Base

/-- A packet and those behind it at `nx_packet_next`. -/
structure Chain where
  head : Address
  rest : List Address
  deriving DecidableEq, Repr

def Chain.packets (c : Chain) : List Address := c.head :: c.rest

/-- The chain is in the memory as the operations leave it. -/
structure Chained (pool : PacketPool) (c : Chain) : Prop where
  linked : Linked (fun a => (pool.packet a).next) (pool.packet c.head).next c.rest
  allocated : ∀ a ∈ c.packets, (pool.packet a).allocated = true
  bounded : ∀ a ∈ c.packets, (pool.packet a).Bounded pool.payloadSize
  last : (pool.packet c.head).last = c.rest.getLast?
  length : (pool.packet c.head).packetLength = (pool.bytesOf c.packets).length

/-- The list of available packets. -/
structure Free (pool : PacketPool) (free : List Address) : Prop where
  linked : Linked (fun a => (pool.packet a).queueNext) pool.availableList free
  counted : pool.available = free.length
  released : ∀ a ∈ free, (pool.packet a).allocated = false
  areas : ∀ a ∈ free, (pool.packet a).area.length = pool.payloadSize

/-- Nothing but some packets was written to. -/
structure Untouched (touched : List Address) (pool pool' : PacketPool) : Prop where
  payloadSize : pool'.payloadSize = pool.payloadSize
  total : pool'.total = pool.total
  packet : ∀ a ∉ touched, pool'.packet a = pool.packet a

/-- The packets of the pool are the available ones and those of the chains, each once. -/
structure Holds (pool : PacketPool) (free : List Address) (chains : List Chain) : Prop where
  listed : Free pool free
  chained : ∀ c ∈ chains, Chained pool c
  nodup : (free ++ chains.flatMap Chain.packets).Nodup
  total : pool.total = (free ++ chains.flatMap Chain.packets).length

/-- A chain as its holder sees it. -/
def Chain.view (pool : PacketPool) (c : Chain) : Address × List Byte := (c.head, pool.bytesOf c.packets)

/-- Nothing has changed in the packets of some chains. -/
def Kept (kept : List Chain) (pool pool' : PacketPool) : Prop :=
  ∀ o ∈ kept, ∀ a ∈ o.packets, pool'.packet a = pool.packet a

/-- An operation makes other chains of some chains and the available packets, and keeps all other chains. -/
structure Exchange (pool pool' : PacketPool) (free free' : List Address) (mine mine' : List Chain) : Prop where
  holds : ∀ others, Holds pool free (mine ++ others) → Holds pool' free' (mine' ++ others) ∧ Kept others pool pool'
  perm : (free' ++ mine'.flatMap Chain.packets).Perm (free ++ mine.flatMap Chain.packets)
  payloadSize : pool'.payloadSize = pool.payloadSize

variable {pool pool' pool'' : PacketPool} {free free' free'' touched touched' : List Address} {a : Address}
  {c : Chain} {chains mine mine' mine'' : List Chain} {packetType : Nat}

theorem Kept.bytesOf (h : Kept chains pool pool') (hc : c ∈ chains) :
    pool'.bytesOf c.packets = pool.bytesOf c.packets :=
  PacketPool.bytesOf_congr fun a ha => by rw [h c hc a ha]

theorem Kept.views (h : Kept chains pool pool') : chains.map (Chain.view pool') = chains.map (Chain.view pool) :=
  List.map_congr_left fun o ho => congrArg (Prod.mk o.head) (h.bytesOf ho)

theorem Kept.trans (h : Kept chains pool pool') (h' : Kept chains pool' pool'') : Kept chains pool pool'' :=
  fun o ho a ha => (h' o ho a ha).trans (h o ho a ha)

theorem Kept.mono (h : Kept chains pool pool') (hsub : mine ⊆ chains) : Kept mine pool pool' :=
  fun o ho => h o (hsub ho)

namespace Untouched

theorem refl (pool : PacketPool) : Untouched touched pool pool := ⟨rfl, rfl, fun _ _ => rfl⟩

theorem trans (h : Untouched touched pool pool') (h' : Untouched touched pool' pool'') :
    Untouched touched pool pool'' where
  payloadSize := h'.payloadSize.trans h.payloadSize
  total := h'.total.trans h.total
  packet a ha := (h'.packet a ha).trans (h.packet a ha)

theorem mono (h : Untouched touched pool pool') (hsub : touched ⊆ touched') : Untouched touched' pool pool' :=
  ⟨h.payloadSize, h.total, fun a ha => h.packet a fun hmem => ha (hsub hmem)⟩

theorem modify (f : Packet → Packet) : Untouched [a] pool (pool.modify a f) :=
  ⟨rfl, rfl, fun _ hb => PacketPool.packet_modify_of_ne fun heq => hb (List.mem_singleton.mpr heq)⟩

end Untouched

theorem Chained.linked_packets (h : Chained pool c) : Linked (fun a => (pool.packet a).next) (some c.head) c.packets :=
  ⟨rfl, h.linked⟩

theorem Chained.congr (h : Chained pool c) (hu : Untouched touched pool pool') (hc : ∀ a ∈ c.packets, a ∉ touched) :
    Chained pool' c := by
  have hpacket : ∀ a ∈ c.packets, pool'.packet a = pool.packet a := fun a ha => hu.packet a (hc a ha)
  have hhead := hpacket c.head List.mem_cons_self
  have hbytes : pool'.bytesOf c.packets = pool.bytesOf c.packets :=
    PacketPool.bytesOf_congr fun a ha => by rw [hpacket a ha]
  refine ⟨?_, fun a ha => ?_, fun a ha => ?_, ?_, ?_⟩
  · rw [hhead]
    exact h.linked.congr fun a ha => by rw [hpacket a (List.mem_cons_of_mem _ ha)]
  · rw [hpacket a ha]
    exact h.allocated a ha
  · rw [hpacket a ha, hu.payloadSize]
    exact h.bounded a ha
  · rw [hhead, h.last]
  · rw [hhead, hbytes, h.length]

namespace Free

theorem congr (h : Free pool free) (hu : Untouched touched pool pool') (hfree : ∀ a ∈ free, a ∉ touched)
    (hlist : pool'.availableList = pool.availableList) (hcount : pool'.available = pool.available) :
    Free pool' free := by
  have hpacket : ∀ a ∈ free, pool'.packet a = pool.packet a := fun a ha => hu.packet a (hfree a ha)
  refine ⟨?_, hcount.trans h.counted, fun a ha => ?_, fun a ha => ?_⟩
  · rw [hlist]
    exact h.linked.congr fun a ha => by rw [hpacket a ha]
  · rw [hpacket a ha]
    exact h.released a ha
  · rw [hpacket a ha, hu.payloadSize]
    exact h.areas a ha

/-- With no packet left there is none to allocate, and nothing changes. -/
theorem allocate_nil (h : Free pool []) (htype : packetType ≤ pool.payloadSize) :
    nxPacketAllocate pool packetType = (.error .noPacket, pool) := by
  have hcount : pool.available = 0 := h.counted
  rw [nxPacketAllocate, if_neg (Nat.not_lt.mpr htype), hcount]

/-- The first packet of the list is allocated. -/
theorem allocate_cons (h : Free pool (a :: free)) (hnodup : (a :: free).Nodup) (htype : packetType ≤ pool.payloadSize) :
    ∃ pool', nxPacketAllocate pool packetType = (.ok a, pool') ∧ Free pool' free ∧ Untouched [a] pool pool' ∧
      pool'.packet a = (pool.packet a).fresh packetType := by
  obtain ⟨hlist, hrest⟩ := linked_cons.mp h.linked
  have hcount : pool.available = free.length + 1 := h.counted
  refine ⟨_, by rw [nxPacketAllocate, if_neg (Nat.not_lt.mpr htype), hcount, hlist], ?_, ?_,
    Function.update_self ..⟩
  · have ha := (List.nodup_cons.mp hnodup).1
    have hpacket : ∀ b ∈ free, (pool.modify a (Packet.fresh · packetType)).packet b = pool.packet b :=
      fun b hb => PacketPool.packet_modify_of_ne fun heq => ha (heq ▸ hb)
    refine ⟨hrest.congr fun b hb => congrArg Packet.queueNext (hpacket b hb), rfl, fun b hb => ?_, fun b hb => ?_⟩
    · exact (congrArg Packet.allocated (hpacket b hb)).trans (h.released b (List.mem_cons_of_mem a hb))
    · exact (congrArg (fun p => p.area.length) (hpacket b hb)).trans (h.areas b (List.mem_cons_of_mem a hb))
  · exact ⟨rfl, rfl, fun b hb => Function.update_of_ne (fun heq => hb (List.mem_singleton.mpr heq)) _ _⟩

theorem putBack (h : Free pool free) (ha : a ∉ free) (harea : (pool.packet a).area.length = pool.payloadSize) :
    Free (pool.putBack a) (a :: free) := by
  have hself : (pool.putBack a).packet a =
      { pool.packet a with allocated := false, queueNext := pool.availableList } := Function.update_self ..
  have hpacket : ∀ b ∈ free, (pool.putBack a).packet b = pool.packet b := fun b hb =>
    PacketPool.packet_putBack_of_ne fun heq => ha (heq ▸ hb)
  refine ⟨⟨rfl, ?_⟩, congrArg (· + 1) h.counted, List.forall_mem_cons.mpr ⟨by rw [hself], fun b hb => ?_⟩,
    List.forall_mem_cons.mpr ⟨by rw [hself]; exact harea, fun b hb => ?_⟩⟩
  · change Linked _ ((pool.putBack a).packet a).queueNext free
    rw [hself]
    exact h.linked.congr fun b hb => by rw [hpacket b hb]
  · rw [hpacket b hb]
    exact h.released b hb
  · rw [hpacket b hb]
    exact h.areas b hb

/-- The loop of `_nx_packet_release` over packets that are linked and allocated puts each of them in front
of the list. -/
theorem releaseLoop {start : Option Address} {nodes : List Address} (h : Free pool free)
    (hlinked : Linked (fun a => (pool.packet a).next) start nodes)
    (hallocated : ∀ a ∈ nodes, (pool.packet a).allocated = true)
    (hareas : ∀ a ∈ nodes, (pool.packet a).area.length = pool.payloadSize) (hnodup : (nodes.reverse ++ free).Nodup)
    {fuel : Nat} (hfuel : nodes.length ≤ fuel) :
    ∃ pool', NetX.releaseLoop fuel pool start = (.success, pool') ∧ Free pool' (nodes.reverse ++ free) ∧
      Untouched nodes pool pool' := by
  induction nodes generalizing pool start free fuel with
  | nil =>
      rw [linked_nil.mp hlinked]
      exact ⟨pool, by cases fuel <;> rfl, h, .refl pool⟩
  | cons a nodes ih =>
      obtain ⟨rfl, hrest⟩ := linked_cons.mp hlinked
      cases fuel with
      | zero => cases hfuel
      | succ fuel =>
          rw [List.reverse_cons, List.append_assoc, List.singleton_append] at hnodup
          have hback := hnodup.of_append_right
          have hkept : ∀ b ∈ nodes, (pool.putBack a).packet b = pool.packet b := fun b hb =>
            PacketPool.packet_putBack_of_ne fun heq => (List.nodup_append.mp hnodup).2.2 b (List.mem_reverse.mpr hb) a
              List.mem_cons_self heq
          have hfree := h.putBack (List.nodup_cons.mp hback).1 (hareas a List.mem_cons_self)
          obtain ⟨pool', hrun, hfree', hu⟩ := ih hfree
            (hrest.congr fun b hb => by rw [hkept b hb])
            (fun b hb => by rw [hkept b hb]; exact hallocated b (List.mem_cons_of_mem a hb))
            (fun b hb => by rw [hkept b hb]; exact hareas b (List.mem_cons_of_mem a hb)) hnodup
            (Nat.le_of_succ_le_succ hfuel)
          refine ⟨pool', ?_, ?_, ?_⟩
          · rw [NetX.releaseLoop, if_pos (hallocated a List.mem_cons_self), hrun]
          · rwa [List.reverse_cons, List.append_assoc, List.singleton_append]
          · refine Untouched.trans ?_ (hu.mono (List.subset_cons_self a nodes))
            exact ⟨rfl, rfl, fun b hb => PacketPool.packet_putBack_of_ne fun heq => hb (heq ▸ List.mem_cons_self)⟩

end Free

namespace Holds

theorem perm (h : Holds pool free mine) (hperm : mine.Perm mine') : Holds pool free mine' where
  listed := h.listed
  chained c hc := h.chained c (hperm.mem_iff.mpr hc)
  nodup := ((hperm.flatMap_right _).append_left free).nodup_iff.mp h.nodup
  total := h.total.trans ((hperm.flatMap_right _).append_left free).length_eq

/-- An operation that works on available packets and on those of some chains keeps the other chains. -/
theorem replace (mine mine' : List Chain) (h : Holds pool free (mine ++ chains)) (hfree : Free pool' free')
    (hmine : ∀ c ∈ mine', Chained pool' c) (hu : Untouched touched pool pool')
    (htouched : touched ⊆ free ++ mine.flatMap Chain.packets)
    (hperm : (free' ++ mine'.flatMap Chain.packets).Perm (free ++ mine.flatMap Chain.packets)) :
    Holds pool' free' (mine' ++ chains) := by
  have hnodup := h.nodup
  have htotal := h.total
  rw [List.flatMap_append, ← List.append_assoc] at hnodup htotal
  have hall : (free' ++ (mine' ++ chains).flatMap Chain.packets).Perm
      (free ++ mine.flatMap Chain.packets ++ chains.flatMap Chain.packets) := by
    rw [List.flatMap_append, ← List.append_assoc]
    exact hperm.append_right _
  refine ⟨hfree, ?_, hall.nodup_iff.mpr hnodup, (hu.total.trans htotal).trans hall.length_eq.symm⟩
  intro c hc
  rcases List.mem_append.mp hc with hc | hc
  · exact hmine c hc
  · refine (h.chained c (List.mem_append_right _ hc)).congr hu fun a ha hmem => ?_
    exact (List.nodup_append.mp hnodup).2.2 a (htouched hmem) a (List.mem_flatMap.mpr ⟨c, hc, ha⟩) rfl

theorem keeps (h : Holds pool free (mine ++ chains)) (hu : Untouched touched pool pool')
    (htouched : touched ⊆ free ++ mine.flatMap Chain.packets) : Kept chains pool pool' := by
  have hnodup := h.nodup
  rw [List.flatMap_append, ← List.append_assoc] at hnodup
  exact fun o ho a ha => hu.packet a fun hmem =>
    (List.nodup_append.mp hnodup).2.2 a (htouched hmem) a (List.mem_flatMap.mpr ⟨o, ho, ha⟩) rfl

/-- Allocation gives a packet that no chain has, if one is available, and otherwise changes nothing. -/
theorem allocate (h : Holds pool free chains) (htype : packetType ≤ pool.payloadSize) :
    (free = [] ∧ nxPacketAllocate pool packetType = (.error .noPacket, pool)) ∨
      ∃ a free' pool', free = a :: free' ∧ nxPacketAllocate pool packetType = (.ok a, pool') ∧
        Holds pool' free' (⟨a, []⟩ :: chains) ∧ Untouched [a] pool pool' ∧
        pool'.packet a = (pool.packet a).fresh packetType := by
  cases free with
  | nil => exact Or.inl ⟨rfl, h.listed.allocate_nil htype⟩
  | cons a free =>
      obtain ⟨pool', hrun, hfree, hu, hpacket⟩ := h.listed.allocate_cons h.nodup.of_append_left htype
      have harea := h.listed.areas a List.mem_cons_self
      have hbytes := PacketPool.bytesOf_fresh hpacket
      refine Or.inr ⟨a, free, pool', rfl, hrun, ?_, hu, hpacket⟩
      refine replace [] [⟨a, []⟩] h hfree (List.forall_mem_singleton.mpr ?_) hu ?_ ?_
      · refine ⟨?_, ?_, ?_, ?_, ?_⟩
        · rw [hpacket]
          exact rfl
        · exact List.forall_mem_singleton.mpr (by rw [hpacket]; rfl)
        · refine List.forall_mem_singleton.mpr ?_
          rw [hpacket, hu.payloadSize]
          exact Packet.bounded_fresh harea htype
        · rw [hpacket]
          rfl
        · rw [Chain.packets, hbytes, hpacket]
          rfl
      · exact List.cons_subset_cons a (List.nil_subset _)
      · rw [List.flatMap_singleton, List.flatMap_nil, List.append_nil]
        exact List.perm_append_singleton a free

theorem length_le (h : Holds pool free (mine ++ chains)) : mine.length ≤ pool.total := by
  rw [h.total, List.length_append, List.flatMap_append, List.length_append]
  have hpackets : ∀ l : List Chain, l.length ≤ (l.flatMap Chain.packets).length := fun l => by
    induction l with
    | nil => exact Nat.le_refl 0
    | cons c l ih =>
        rw [List.flatMap_cons, List.length_append, Chain.packets, List.length_cons, List.length_cons]
        omega
  have hmine := hpackets mine
  omega

theorem packets_length_le (h : Holds pool free (c :: chains)) : c.packets.length ≤ pool.total := by
  rw [h.total, List.flatMap_cons, List.length_append, List.length_append]
  omega

/-- Release puts all packets of a chain back. -/
theorem release (h : Holds pool free (c :: chains)) :
    ∃ pool', nxPacketRelease pool c.head = (.success, pool') ∧ Holds pool' (c.packets.reverse ++ free) chains ∧
      Untouched c.packets pool pool' := by
  have hc := h.chained c List.mem_cons_self
  have hnodup := h.nodup
  rw [List.flatMap_cons, ← List.append_assoc] at hnodup
  have hown : (c.packets.reverse ++ free).Nodup :=
    ((List.reverse_perm c.packets).append_right free |>.trans List.perm_append_comm).nodup_iff.mpr
      hnodup.of_append_left
  obtain ⟨pool', hrun, hfree, hu⟩ := h.listed.releaseLoop (linked_cons.mpr ⟨rfl, hc.linked⟩) hc.allocated
    (fun a ha => (hc.bounded a ha).area) hown h.packets_length_le
  refine ⟨pool', hrun, ?_, hu⟩
  refine replace [c] [] h hfree (fun _ hd => absurd hd List.not_mem_nil) hu ?_ ?_
  · rw [List.flatMap_singleton]
    exact List.subset_append_right free c.packets
  · rw [List.flatMap_singleton, List.flatMap_nil, List.append_nil]
    exact ((List.reverse_perm c.packets).append_right free).trans List.perm_append_comm

end Holds

/-- The packets that are linked in the list of available packets. -/
def availablePackets (pool : PacketPool) : List Address :=
  nodesFrom (fun a => (pool.packet a).queueNext) pool.total pool.availableList

/-- The packets of a chain, by their links. -/
def chainPackets (pool : PacketPool) (a : Address) : List Address :=
  nodesFrom (fun b => (pool.packet b).next) pool.total (some a)

theorem availablePackets_eq (h : Holds pool free chains) : availablePackets pool = free := by
  refine nodesFrom_eq h.listed.linked ?_
  rw [h.total, List.length_append]
  exact Nat.le_add_right _ _

theorem chainPackets_eq (h : Holds pool free chains) (hc : c ∈ chains) : chainPackets pool c.head = c.packets :=
  nodesFrom_eq (h.chained c hc).linked_packets (h.perm (List.perm_cons_erase hc)).packets_length_le

namespace Exchange

theorem of_holds (mine' : List Chain) (h : Holds pool' free' (mine' ++ chains)) (hu : Untouched touched pool pool')
    (htouched : touched ⊆ free ++ mine.flatMap Chain.packets)
    (hperm : (free' ++ mine'.flatMap Chain.packets).Perm (free ++ mine.flatMap Chain.packets)) :
    Exchange pool pool' free free' mine mine' where
  holds _ hbefore := ⟨hbefore.replace mine mine' h.listed (fun c hc => h.chained c (List.mem_append_left _ hc)) hu htouched hperm,
    hbefore.keeps hu htouched⟩
  perm := hperm
  payloadSize := hu.payloadSize

theorem refl (pool : PacketPool) (free : List Address) (mine : List Chain) : Exchange pool pool free free mine mine where
  holds _ h := ⟨h, fun _ _ _ _ => rfl⟩
  perm := .refl _
  payloadSize := rfl

theorem rearrange (pool : PacketPool) (free : List Address) (hperm : mine.Perm mine') :
    Exchange pool pool free free mine mine' where
  holds others h := ⟨h.perm (hperm.append_right others), fun _ _ _ _ => rfl⟩
  perm := (hperm.symm.flatMap_right _).append_left free
  payloadSize := rfl

theorem trans (h : Exchange pool pool' free free' mine mine') (h' : Exchange pool' pool'' free' free'' mine' mine'') :
    Exchange pool pool'' free free'' mine mine'' where
  holds others hbefore := by
    obtain ⟨hmiddle, hkept⟩ := h.holds others hbefore
    obtain ⟨hafter, hkept'⟩ := h'.holds others hmiddle
    exact ⟨hafter, hkept.trans hkept'⟩
  perm := h'.perm.trans h.perm
  payloadSize := h'.payloadSize.trans h.payloadSize

/-- The same with chains beside those that are exchanged. -/
theorem beside (h : Exchange pool pool' free free' mine mine') (chains : List Chain) :
    Exchange pool pool' free free' (mine ++ chains) (mine' ++ chains) where
  holds others hbefore := by
    rw [List.append_assoc] at hbefore ⊢
    obtain ⟨hafter, hkept⟩ := h.holds _ hbefore
    exact ⟨hafter, hkept.mono (List.subset_append_right _ _)⟩
  perm := by
    rw [List.flatMap_append, List.flatMap_append, ← List.append_assoc, ← List.append_assoc]
    exact h.perm.append_right _
  payloadSize := h.payloadSize

theorem release (h : Holds pool free (c :: chains)) :
    ∃ pool' free', nxPacketRelease pool c.head = (.success, pool') ∧ Exchange pool pool' free free' [c] [] := by
  obtain ⟨pool', hrun, hholds, hu⟩ := h.release
  refine ⟨pool', _, hrun, of_holds [] hholds hu ?_ ?_⟩
  · rw [List.flatMap_singleton]
    exact List.subset_append_right _ _
  · rw [List.flatMap_singleton, List.flatMap_nil, List.append_nil]
    exact ((List.reverse_perm c.packets).append_right free).trans List.perm_append_comm

theorem allocate (h : Holds pool free chains) (htype : packetType ≤ pool.payloadSize) :
    (free = [] ∧ nxPacketAllocate pool packetType = (.error .noPacket, pool)) ∨
      ∃ a free' pool', free = a :: free' ∧ nxPacketAllocate pool packetType = (.ok a, pool') ∧
        Exchange pool pool' free free' [] [⟨a, []⟩] ∧ pool'.packet a = (pool.packet a).fresh packetType := by
  rcases h.allocate htype with hnone | ⟨a, free', pool', rfl, hrun, hholds, hu, hfresh⟩
  · exact Or.inl hnone
  · refine Or.inr ⟨a, free', pool', rfl, hrun, of_holds [⟨a, []⟩] hholds hu ?_ ?_, hfresh⟩
    · exact List.cons_subset_cons a (List.nil_subset _)
    · rw [List.flatMap_singleton, List.flatMap_nil, List.append_nil]
      exact List.perm_append_singleton a free'

end Exchange

end DeviceSample.NetX
