import DeviceSample.BaseRun
import DeviceSample.NetxCopy
import DeviceSample.NetxCreate
import DeviceSample.NetxData

/-!
Runs of a pool. Callers allocate, append to, copy and release the packets they hold, in any order. Beside the
pool stands what each packet is for: a buffer with the bytes that were appended to it.
-/

namespace DeviceSample.NetX

open Base

/-- A call of an operation on packets. A caller works on packets that it holds. -/
inductive PacketCall
  | allocate (packetType : Nat)
  | append (a : Address) (data : List Byte)
  | copy (a : Address)
  | release (a : Address)
  deriving DecidableEq, Repr

/-- The pool, and the packets that are held, each with what it is for. -/
structure PacketRun where
  pool : PacketPool
  held : List (Address × List Byte)

/-- A call and what its status says of the packets that are held. -/
def PacketRun.step (s : PacketRun) : PacketCall → Option PacketRun
  | .allocate packetType =>
      match nxPacketAllocate s.pool packetType with
      | (.ok a, pool) => some ⟨pool, (a, []) :: s.held⟩
      | (.error _, pool) => some ⟨pool, s.held⟩
  | .append a data =>
      (s.held.lookup a).map fun old =>
        match nxePacketDataAppend s.pool a data with
        | (.success, pool) => ⟨pool, (a, old ++ data) :: s.held.erase (a, old)⟩
        | (_, pool) => ⟨pool, s.held⟩
  | .copy a =>
      (s.held.lookup a).map fun data =>
        match nxPacketCopy s.pool a with
        | (.ok b, pool) => ⟨pool, (b, data) :: s.held⟩
        | (.error _, pool) => ⟨pool, s.held⟩
  | .release a =>
      (s.held.lookup a).map fun data => ⟨(nxPacketRelease s.pool a).2, s.held.erase (a, data)⟩

/-- The runs of a pool that was created with success. -/
def packetMachine (pool : PacketPool) : Machine PacketRun PacketCall where
  start := ⟨pool, []⟩
  step := PacketRun.step

/-- The packets that are held are chains of the pool, with the bytes they are for. Other chains of it are kept
by other parts of the system. -/
structure PacketRun.Faithful (places : List Address) (s : PacketRun) (free : List Address)
    (chains kept : List Chain) : Prop where
  holds : Holds s.pool free (chains ++ kept)
  views : s.held.Perm (chains.map (Chain.view s.pool))
  places : (free ++ (chains ++ kept).flatMap Chain.packets).Perm places

variable {places : List Address} {s next : PacketRun} {free : List Address} {chains kept : List Chain}
  {a : Address} {data : List Byte} {c : Chain} {pool pool' : PacketPool}

namespace PacketRun

/-- What is held under a pointer is one of the chains, which may be put first. -/
theorem Faithful.exists_chain (h : s.Faithful places free chains kept) (ha : (a, data) ∈ s.held) :
    ∃ c others, c.head = a ∧ s.pool.bytesOf c.packets = data ∧ s.Faithful places free (c :: others) kept ∧
      (s.held.erase (a, data)).Perm (others.map (Chain.view s.pool)) := by
  obtain ⟨c, hc, hview⟩ := List.mem_map.mp (h.views.mem_iff.mp ha)
  have hperm : chains.Perm (c :: chains.erase c) := List.perm_cons_erase hc
  have hviews := h.views.trans (hperm.map _)
  rw [List.map_cons, hview] at hviews
  refine ⟨c, chains.erase c, congrArg Prod.fst hview, congrArg Prod.snd hview,
    ⟨h.holds.perm (hperm.append_right kept), ?_, ?_⟩, ?_⟩
  · exact h.views.trans (hperm.map _)
  · exact (((hperm.append_right kept).flatMap_right _).append_left free).symm.trans h.places
  · exact (hviews.erase (a, data)).trans (by rw [List.erase_cons_head])

theorem mem_held_of_lookup {held : List (Address × List Byte)} (h : held.lookup a = some data) : (a, data) ∈ held := by
  obtain ⟨before, after, rfl, -⟩ := List.lookup_eq_some_iff.mp h
  exact List.mem_append_right before List.mem_cons_self

/-- An operation that exchanges chains of the holders keeps the others as they are. -/
theorem Faithful.exchange {free' : List Address} (mine : List Chain) {mine' : List Chain} {held : List (Address × List Byte)}
    (h : s.Faithful places free (mine ++ chains) kept) (he : Exchange s.pool pool' free free' mine mine')
    (hheld : held.Perm (mine'.map (Chain.view pool') ++ chains.map (Chain.view s.pool))) :
    PacketRun.Faithful places ⟨pool', held⟩ free' (mine' ++ chains) kept ∧ Kept kept s.pool pool' := by
  have hbefore := h.holds
  rw [List.append_assoc] at hbefore
  obtain ⟨hafter, hkept⟩ := he.holds _ hbefore
  refine ⟨⟨by rwa [List.append_assoc], ?_, ?_⟩, hkept.mono (List.subset_append_right _ _)⟩
  · rw [List.map_append, (hkept.mono (List.subset_append_left _ _)).views]
    exact hheld
  · exact ((he.beside chains).beside kept).perm.trans h.places

/-- Each call keeps the packets that are held as what they are for. -/
theorem Faithful.step {call : PacketCall} (h : s.Faithful places free chains kept) (hstep : s.step call = some next) :
    ∃ free' chains', next.Faithful places free' chains' kept ∧ Kept kept s.pool next.pool := by
  cases call with
  | allocate packetType =>
      rw [PacketRun.step] at hstep
      by_cases htype : packetType ≤ s.pool.payloadSize
      · rcases Exchange.allocate h.holds htype with ⟨-, hrun⟩ | ⟨a, free', pool', rfl, hrun, he, hfresh⟩
        · rw [hrun] at hstep
          cases hstep
          exact ⟨free, chains, h, fun _ _ _ _ => rfl⟩
        · rw [hrun] at hstep
          cases hstep
          refine ⟨free', [⟨a, []⟩] ++ chains, Faithful.exchange [] h he ?_⟩
          rw [List.map_singleton, show Chain.view pool' ⟨a, []⟩ = (a, []) from
            congrArg (Prod.mk a) (PacketPool.bytesOf_fresh hfresh)]
          exact h.views.cons _
      · have hrun : nxPacketAllocate s.pool packetType = (.error .invalidParameters, s.pool) := by
          rw [nxPacketAllocate, if_pos (Nat.lt_of_not_le htype)]
        rw [hrun] at hstep
        cases hstep
        exact ⟨free, chains, h, fun _ _ _ _ => rfl⟩
  | append a data =>
      obtain ⟨old, hold, rfl⟩ := Option.map_eq_some_iff.mp hstep
      obtain ⟨c, others, rfl, hold, hc, herase⟩ := h.exists_chain (mem_held_of_lookup hold)
      by_cases hempty : data.isEmpty = true
      · rw [nxePacketDataAppend, if_pos hempty]
        exact ⟨free, chains, h, fun _ _ _ _ => rfl⟩
      · rw [nxePacketDataAppend, if_neg hempty]
        rcases Exchange.append hc.holds data with ⟨-, free', pool', hrun, he⟩ |
          ⟨taken, free', pool', rfl, hrun, he, happended⟩
        · rw [hrun]
          exact ⟨free', [] ++ (c :: others), Faithful.exchange [] hc he hc.views⟩
        · rw [hrun]
          refine ⟨free', [c.extend taken] ++ others, Faithful.exchange [c] hc he ?_⟩
          rw [List.map_singleton, show Chain.view pool' (c.extend taken) = (c.head, old ++ data) from
            congrArg (Prod.mk c.head) (hold ▸ happended.bytes)]
          exact herase.cons _
  | copy a =>
      obtain ⟨data, hdata, rfl⟩ := Option.map_eq_some_iff.mp hstep
      obtain ⟨c, others, rfl, hdata, hc, -⟩ := h.exists_chain (mem_held_of_lookup hdata)
      rcases Exchange.copy hc.holds with ⟨status, free', pool', hrun, he⟩ | ⟨d, free', pool', hrun, he, hbytes⟩
      · rw [hrun]
        exact ⟨free', [] ++ (c :: others), Faithful.exchange [] hc he hc.views⟩
      · rw [hrun]
        refine ⟨free', [d] ++ (c :: others), Faithful.exchange [] hc he ?_⟩
        rw [List.map_singleton, show Chain.view pool' d = (d.head, data) from
          congrArg (Prod.mk d.head) (hdata ▸ hbytes)]
        exact hc.views.cons _
  | release a =>
      obtain ⟨data, hdata, rfl⟩ := Option.map_eq_some_iff.mp hstep
      obtain ⟨c, others, rfl, -, hc, herase⟩ := h.exists_chain (mem_held_of_lookup hdata)
      obtain ⟨pool', free', hrun, he⟩ := Exchange.release hc.holds
      rw [hrun]
      exact ⟨free', [] ++ others, Faithful.exchange [c] hc he herase⟩

end PacketRun

variable {p : PoolMemory}

theorem faithful_of_reachable (hcreate : nxePacketPoolCreate p = .ok pool) (hs : (packetMachine pool).Reachable s) :
    ∃ free chains, s.Faithful p.places free chains [] := by
  refine hs.invariant (packetMachine pool) (fun s => ∃ free chains, s.Faithful p.places free chains []) ?_ ?_
  · refine ⟨p.places, [], .create hcreate, .refl _, ?_⟩
    rw [List.append_nil, List.flatMap_nil, List.append_nil]
  · rintro s call next - ⟨free, chains, h⟩ - hstep
    obtain ⟨free', chains', h', -⟩ := h.step hstep
    exact ⟨free', chains', h'⟩

/-- The calls of a holder that appends to a packet twice, across the end of its area, and of another one that
takes a packet and gives it back in between. -/
def smallCalls : List PacketCall :=
  [.allocate 3, .append 32 [1, 2], .allocate 0, .append 96 [9], .release 96, .append 32 [3, 4, 5, 6, 7]]

theorem smallCalls_held : ∃ s, (packetMachine (nxPacketPoolCreate smallMemory)).Reachable s ∧
    (32, [1, 2, 3, 4, 5, 6, 7]) ∈ s.held := by
  obtain ⟨s, hs, htest⟩ := (packetMachine (nxPacketPoolCreate smallMemory)).exists_reachable smallCalls
    (fun s => decide ((32, [1, 2, 3, 4, 5, 6, 7]) ∈ s.held)) (by decide +kernel)
  exact ⟨s, hs, of_decide_eq_true htest⟩

/-- Whatever the other calls did, a packet reads back as the bytes that were appended to it: as a whole, by
its length, and in any slice. -/
theorem packet_reads_back (hcreate : nxePacketPoolCreate p = .ok pool) (hs : (packetMachine pool).Reachable s)
    (ha : (a, data) ∈ s.held) (offset bufferLength : Nat) :
    nxPacketDataRetrieve s.pool a = (.success, data.length, data) ∧ nxPacketLengthGet s.pool a = data.length ∧
      nxPacketDataExtractOffset s.pool a offset bufferLength =
        if offset < data.length ∨ offset = 0 then
          (.success, ((data.drop offset).take bufferLength).length, (data.drop offset).take bufferLength)
        else (.packetOffsetError, 0, []) := by
  obtain ⟨free, chains, h⟩ := faithful_of_reachable hcreate hs
  obtain ⟨c, others, rfl, rfl, hc, -⟩ := h.exists_chain ha
  exact ⟨hc.holds.retrieve, (hc.holds.chained c List.mem_cons_self).length, hc.holds.extract offset bufferLength⟩

theorem packet_reads_back_small : ∃ s, (packetMachine (nxPacketPoolCreate smallMemory)).Reachable s ∧
    nxPacketDataRetrieve s.pool 32 = (.success, 7, [1, 2, 3, 4, 5, 6, 7]) ∧
      nxPacketDataExtractOffset s.pool 32 3 2 = (.success, 2, [4, 5]) := by
  obtain ⟨s, hs, ha⟩ := smallCalls_held
  obtain ⟨hretrieve, -, hextract⟩ := packet_reads_back smallMemory_created hs ha 3 2
  exact ⟨s, hs, hretrieve, hextract⟩

/-- No packet is lost, and none is given out twice: each packet that the pool was created with is linked in
exactly one place, the list or a chain that is held. A packet of the list is not released once more. -/
theorem packets_conserved (hcreate : nxePacketPoolCreate p = .ok pool) (hs : (packetMachine pool).Reachable s) :
    (availablePackets s.pool ++ s.held.flatMap fun h => chainPackets s.pool h.1).Perm p.places ∧ p.places.Nodup ∧
      s.pool.available = (availablePackets s.pool).length ∧
      ∀ a ∈ availablePackets s.pool, nxPacketRelease s.pool a = (.ptrError, s.pool) := by
  obtain ⟨free, chains, h⟩ := faithful_of_reachable hcreate hs
  have hholds := h.holds
  have hplaces := h.places
  rw [List.append_nil] at hholds hplaces
  have hheld : (s.held.flatMap fun h => chainPackets s.pool h.1).Perm (chains.flatMap Chain.packets) := by
    refine (h.views.flatMap_right _).trans (List.Perm.of_eq ?_)
    rw [List.flatMap_map]
    exact List.flatMap_congr fun c hc => chainPackets_eq hholds hc
  rw [availablePackets_eq hholds]
  refine ⟨(hheld.append_left free).trans hplaces, hplaces.nodup_iff.mp hholds.nodup, hholds.listed.counted,
    fun a ha => ?_⟩
  have hrounds : 0 < s.pool.total := by
    rw [hholds.total, List.length_append]
    exact Nat.lt_of_lt_of_le (List.length_pos_of_mem ha) (Nat.le_add_right _ _)
  obtain ⟨n, hn⟩ := Nat.exists_eq_succ_of_ne_zero (Nat.ne_of_gt hrounds)
  rw [nxPacketRelease, hn, releaseLoop, hholds.listed.released a ha]
  exact if_neg Bool.false_ne_true

theorem packets_conserved_small : ∃ s, (packetMachine (nxPacketPoolCreate smallMemory)).Reachable s ∧
    (32, [1, 2, 3, 4, 5, 6, 7]) ∈ s.held ∧
    (availablePackets s.pool ++ s.held.flatMap fun h => chainPackets s.pool h.1).Perm [32, 96, 160] := by
  obtain ⟨s, hs, ha⟩ := smallCalls_held
  exact ⟨s, hs, ha, (packets_conserved smallMemory_created hs).1⟩

end DeviceSample.NetX
