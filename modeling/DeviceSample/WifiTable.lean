import DeviceSample.WifiQueue

/-!
The table of the entries between two calls. Each entry that is in use has a socket of its own and a queue of
packets; the counter says how many they are.
-/

namespace DeviceSample.Wifi

open Base NetX

/-- How many entries are in use. -/
def validCount (socket : Entry → WifiSocket) : Nat := (List.finRange 8).countP fun i => (socket i).valid

/-- The bytes of the packets that wait in a queue. -/
def waiting (pool : PacketPool) (q : List Chain) : List (List Byte) := q.map fun c => pool.bytesOf c.packets

/-- The entries and their queues, beside the packets that the callers hold. -/
structure Sockets.Faithful (places : List Address) (s : Sockets) (held : List (Address × List Byte))
    (free : List Address) (chains : List Chain) (queues : Entry → List Chain) : Prop where
  packets : PacketRun.Faithful places ⟨s.pool, held⟩ free chains (queued queues)
  queue : ∀ i, Queue s.pool (s.socket i) (queues i)
  idle : ∀ i, (s.socket i).valid = false → queues i = []
  distinct : ∀ i j, (s.socket i).valid = true → (s.socket j).valid = true →
    (s.socket i).socketPtr = (s.socket j).socketPtr → i = j
  counted : s.socketCounter = validCount s.socket

section find

variable {socket : Entry → WifiSocket} {socketPtr : Nat} {entryFind : Bool} {entries : List Entry}
  {emptyIndex : Option Entry} {i : Entry}

/-- The search ends at the entry of the socket, or at one that is not in use. -/
theorem entryFindLoop_eq_some (h : entryFindLoop socket socketPtr entryFind entries emptyIndex = some i) :
    (entryFind = true ∧ (socket i).valid = true ∧ (socket i).socketPtr = socketPtr) ∨
      ((∀ j ∈ entries, (socket j).valid = true → (socket j).socketPtr ≠ socketPtr) ∧
        (emptyIndex = some i ∨ (socket i).valid = false)) := by
  induction entries generalizing emptyIndex with
  | nil => exact Or.inr ⟨fun j hj => absurd hj List.not_mem_nil, Or.inl h⟩
  | cons k entries ih =>
      simp only [entryFindLoop] at h
      split at h
      · rename_i hvalid
        split at h
        · rename_i hptr
          split at h
          · cases h
            exact Or.inl ⟨‹_›, hvalid, hptr⟩
          · cases h
        · rename_i hptr
          exact (ih h).imp_right fun ⟨hothers, hi⟩ => ⟨List.forall_mem_cons.mpr ⟨fun _ => hptr, hothers⟩, hi⟩
      · rename_i hvalid
        rw [Bool.not_eq_true] at hvalid
        refine (ih h).imp_right fun ⟨hothers, hi⟩ => ⟨List.forall_mem_cons.mpr ⟨fun hk => ?_, hothers⟩, ?_⟩
        · exact absurd (hvalid.symm.trans hk) Bool.false_ne_true
        · rcases hi with hi | hi
          · cases emptyIndex with
            | none =>
                cases hi
                exact Or.inr hvalid
            | some e =>
                simp only at hi
                split at hi
                · cases hi
                  exact Or.inr hvalid
                · exact Or.inl hi
          · exact Or.inr hi

theorem entryFind_eq_some (h : nxWifiSocketEntryFind socket socketPtr entryFind = some i) :
    (entryFind = true ∧ (socket i).valid = true ∧ (socket i).socketPtr = socketPtr) ∨
      ((∀ j, (socket j).valid = true → (socket j).socketPtr ≠ socketPtr) ∧ (socket i).valid = false) :=
  (entryFindLoop_eq_some h).imp_right fun ⟨hothers, hi⟩ =>
    ⟨fun j => hothers j (List.mem_finRange j), hi.resolve_left (by simp)⟩

end find

/-- Storing one entry changes the number of those in use by that entry. -/
theorem validCount_update (socket : Entry → WifiSocket) (i : Entry) (new : WifiSocket) :
    validCount (Function.update socket i new) + (socket i).valid.toNat = validCount socket + new.valid.toNat := by
  have hcount : ∀ l : List Entry, l.Nodup → i ∈ l →
      l.countP (fun j => (Function.update socket i new j).valid) + (socket i).valid.toNat =
        l.countP (fun j => (socket j).valid) + new.valid.toNat := by
    intro l hnodup hi
    induction l with
    | nil => cases hi
    | cons j l ih =>
        obtain ⟨hj, hnodup⟩ := List.nodup_cons.mp hnodup
        rw [List.countP_cons, List.countP_cons]
        rcases List.mem_cons.mp hi with rfl | hi
        · have hrest : l.countP (fun k => (Function.update socket i new k).valid) =
              l.countP (fun k => (socket k).valid) :=
            List.countP_congr fun k hk => by rw [Function.update_of_ne (ne_of_mem_of_not_mem hk hj)]
          rw [hrest, Function.update_self]
          cases (socket i).valid <;> cases new.valid <;> simp
        · rw [Function.update_of_ne (ne_of_mem_of_not_mem hi hj).symm]
          have hrest := ih hnodup hi
          omega
  exact hcount _ (List.nodup_finRange 8) (List.mem_finRange i)

variable {places free free' : List Address} {s : Sockets} {held held' : List (Address × List Byte)}
  {chains chains' mine mine' q : List Chain} {queues : Entry → List Chain} {i j : Entry} {pool' : PacketPool}
  {new : WifiSocket} {socketCounter : Int} {socketPtr : Nat}

namespace Sockets.Faithful

/-- An operation on one entry, and on chains that a caller holds. -/
theorem update (mine : List Chain) (new : WifiSocket) (socketCounter : Int) (h : s.Faithful places held free (mine ++ chains) queues)
    (he : Exchange s.pool pool' free free' (mine ++ queues i) (mine' ++ q))
    (hheld : held'.Perm (mine'.map (Chain.view pool') ++ chains.map (Chain.view s.pool))) (hqueue : Queue pool' new q)
    (hidle : new.valid = false → q = [])
    (hdistinct : new.valid = true → ∀ j ≠ i, (s.socket j).valid = true → (s.socket j).socketPtr ≠ new.socketPtr)
    (hcount : socketCounter + (s.socket i).valid.toNat = s.socketCounter + new.valid.toNat) :
    Sockets.Faithful places ⟨pool', Function.update s.socket i new, socketCounter⟩ held' free' (mine' ++ chains)
        (Function.update queues i q) ∧
      ∀ j ≠ i, waiting pool' (queues j) = waiting s.pool (queues j) := by
  obtain ⟨hholds, hkept, hperm⟩ := exchange_queue h.packets.holds he
  have hothers : ∀ j ≠ i, Kept (queues j) s.pool pool' := fun j hj =>
    hkept.mono fun c hc => List.mem_append_right _ (queue_subset_queued hj hc)
  refine ⟨⟨⟨hholds, ?_, hperm.trans h.packets.places⟩, fun j => ?_, fun j => ?_, fun j k => ?_, ?_⟩, fun j hj => ?_⟩
  · rw [List.map_append, (hkept.mono (List.subset_append_left _ _)).views]
    exact hheld
  · by_cases hj : j = i
    · subst hj
      change Queue pool' (Function.update s.socket j new j) (Function.update queues j q j)
      rwa [Function.update_self, Function.update_self]
    · change Queue pool' (Function.update s.socket i new j) (Function.update queues i q j)
      rw [Function.update_of_ne hj, Function.update_of_ne hj]
      exact (h.queue j).kept (hothers j hj)
  · change (Function.update s.socket i new j).valid = false → Function.update queues i q j = []
    by_cases hj : j = i
    · subst hj
      rwa [Function.update_self, Function.update_self]
    · rw [Function.update_of_ne hj, Function.update_of_ne hj]
      exact h.idle j
  · change (Function.update s.socket i new j).valid = true → (Function.update s.socket i new k).valid = true →
      (Function.update s.socket i new j).socketPtr = (Function.update s.socket i new k).socketPtr → j = k
    intro hj hk hptr
    by_cases hji : j = i
    · subst hji
      by_contra hne
      rw [Function.update_self] at hj hptr
      rw [Function.update_of_ne (Ne.symm hne)] at hk hptr
      exact hdistinct hj k (Ne.symm hne) hk hptr.symm
    · rw [Function.update_of_ne hji] at hj hptr
      by_cases hki : k = i
      · subst hki
        rw [Function.update_self] at hk hptr
        exact absurd hptr (hdistinct hk j hji hj)
      · rw [Function.update_of_ne hki] at hk hptr
        exact h.distinct j k hj hk hptr
  · have hcounted := validCount_update s.socket i new
    have hbefore := h.counted
    change socketCounter = (validCount (Function.update s.socket i new) : Int)
    omega
  · exact List.map_congr_left fun c hc => (hothers j hj).bytesOf hc

/-- An operation on packets that are held. -/
theorem trade (h : s.Faithful places held free chains queues)
    (hpackets : PacketRun.Faithful places ⟨pool', held'⟩ free' chains' (queued queues))
    (hkept : Kept (queued queues) s.pool pool') :
    Sockets.Faithful places { s with pool := pool' } held' free' chains' queues ∧
      ∀ j, waiting pool' (queues j) = waiting s.pool (queues j) := by
  have hqueues : ∀ j, Kept (queues j) s.pool pool' := fun j =>
    hkept.mono fun c hc => List.mem_flatMap.mpr ⟨j, List.mem_finRange j, hc⟩
  exact ⟨⟨hpackets, fun j => (h.queue j).kept (hqueues j), h.idle, h.distinct, h.counted⟩,
    fun j => List.map_congr_left fun c hc => (hqueues j).bytesOf hc⟩

/-- An entry is stored, and its queue stays as it is. -/
theorem store (h : s.Faithful places held free chains queues)
    (hhead : new.receivedPacketHead = (s.socket i).receivedPacketHead)
    (htail : new.receivedPacketTail = (s.socket i).receivedPacketTail) (hidle : new.valid = false → queues i = [])
    (hdistinct : new.valid = true → ∀ j ≠ i, (s.socket j).valid = true → (s.socket j).socketPtr ≠ new.socketPtr)
    (hcount : socketCounter + (s.socket i).valid.toNat = s.socketCounter + new.valid.toNat) :
    Sockets.Faithful places ⟨s.pool, Function.update s.socket i new, socketCounter⟩ held free chains queues := by
  have hqueue : Queue s.pool new (queues i) := ⟨hhead ▸ (h.queue i).linked, htail ▸ (h.queue i).tail⟩
  have hstored := (update [] new socketCounter h (.refl s.pool free _) h.packets.views hqueue hidle hdistinct hcount).1
  rwa [Function.update_eq_self] at hstored

theorem fill (type : SocketType) (h : s.Faithful places held free chains queues) (hi : (s.socket i).valid = false)
    (hothers : ∀ j, (s.socket j).valid = true → (s.socket j).socketPtr ≠ socketPtr) :
    (s.fill i socketPtr type).Faithful places held free chains queues := by
  refine h.store rfl rfl (fun _ => h.idle i hi) (fun _ j _ hj => hothers j hj) ?_
  rw [hi]
  exact Int.add_zero _

theorem setConnected (h : s.Faithful places held free chains queues) :
    (s.setConnected i).Faithful places held free chains queues :=
  h.store rfl rfl (h.idle i) (fun hi j hj hvalid hptr => hj (h.distinct j i hvalid hi hptr)) rfl

/-- An entry that is reset gives the packets of its queue back. -/
theorem reset (h : s.Faithful places held free chains queues) (i : Entry) :
    ∃ free' queues', (s.reset i).Faithful places held free' chains queues' ∧ ((s.reset i).socket i).valid = false ∧
      ∀ j ≠ i, (s.reset i).socket j = s.socket j ∧ waiting (s.reset i).pool (queues' j) = waiting s.pool (queues j) := by
  rw [Sockets.reset]
  split
  · rename_i hi
    have hmine := h.packets.holds.perm (((queued_perm queues i).append_left chains).trans (List.perm_append_comm_assoc ..))
    obtain ⟨free', hrelease⟩ := exchange_releaseQueue hmine (h.queue i).linked hmine.length_le
    have he : Exchange s.pool _ free free' ([] ++ queues i) ([] ++ []) := hrelease
    obtain ⟨hreset, hothers⟩ := update [] .zero (s.socketCounter - 1) h he h.packets.views (Queue.of_nil rfl rfl)
      (fun _ => rfl) (fun hvalid => absurd hvalid Bool.false_ne_true) (by simp [hi, WifiSocket.zero])
    refine ⟨free', _, hreset, ?_, fun j hj => ⟨Function.update_of_ne hj _ _, ?_⟩⟩
    · change (Function.update s.socket i .zero i).valid = false
      rw [Function.update_self]
      rfl
    · rw [Function.update_of_ne hj]
      exact hothers j hj
  · rename_i hi
    exact ⟨free, queues, h, Bool.not_eq_true _ ▸ hi, fun _ _ => ⟨rfl, rfl⟩⟩

/-- The first packet of a queue goes to the caller. -/
theorem dequeue {a : Address} (h : s.Faithful places held free chains queues)
    (ha : (s.socket i).receivedPacketHead = some a) :
    ∃ c q, c.head = a ∧ queues i = c :: q ∧
      (s.dequeue i a).Faithful places ((a, s.pool.bytesOf c.packets) :: held) free ([c] ++ chains)
        (Function.update queues i q) := by
  have hqueue := h.queue i
  have hstart := hqueue.linked.start_eq
  rw [ha] at hstart
  cases hq : queues i with
  | nil => rw [hq] at hstart; cases hstart
  | cons c q =>
      rw [hq] at hstart hqueue
      cases hstart
      have hvalid : (s.socket i).valid = true := by
        by_contra hinvalid
        have hnil := h.idle i (Bool.eq_false_of_not_eq_true hinvalid)
        rw [hq] at hnil
        cases hnil
      refine ⟨c, q, rfl, rfl, ?_⟩
      have he : Exchange s.pool s.pool free free ([] ++ queues i) ([c] ++ q) := by
        rw [hq]
        exact .refl s.pool free _
      let head := (s.pool.packet c.head).queueNext
      let new := { s.socket i with
        receivedPacketHead := head
        receivedPacketTail := if head = none then none else (s.socket i).receivedPacketTail }
      exact (update [] new s.socketCounter h he (h.packets.views.cons _) (hqueue.dequeue rfl rfl)
        (fun hinvalid => absurd (hvalid.symm.trans hinvalid) Bool.noConfusion)
        (fun _ j hj hvalid' hptr => hj (h.distinct j i hvalid' hvalid hptr)) rfl).1

theorem connect (h : s.Faithful places held free chains queues) (socketPtr : Nat) (opened : Bool) :
    ∃ free' queues', (nxWifiTcpClientSocketConnect s socketPtr opened).2.Faithful places held free' chains queues' ∧
      ∀ j, ((nxWifiTcpClientSocketConnect s socketPtr opened).2.socket j).valid = true →
        waiting (nxWifiTcpClientSocketConnect s socketPtr opened).2.pool (queues' j) = waiting s.pool (queues j) := by
  cases hfind : nxWifiSocketEntryFind s.socket socketPtr false with
  | none =>
      simp only [nxWifiTcpClientSocketConnect, hfind]
      exact ⟨free, queues, h, fun _ _ => rfl⟩
  | some i =>
      obtain ⟨hothers, hi⟩ := (entryFind_eq_some hfind).resolve_left fun hfound => Bool.false_ne_true hfound.1
      have hfill := h.fill .tcp hi hothers
      cases opened with
      | true =>
          simp only [nxWifiTcpClientSocketConnect, hfind, if_true]
          exact ⟨free, queues, hfill.setConnected, fun _ _ => rfl⟩
      | false =>
          simp only [nxWifiTcpClientSocketConnect, hfind, Bool.false_eq_true, if_false]
          obtain ⟨free', queues', hreset, hclosed, hwaiting⟩ := hfill.reset i
          refine ⟨free', queues', hreset, fun j hj => (hwaiting j fun heq => ?_).2⟩
          rw [heq, hclosed] at hj
          cases hj

theorem bind (h : s.Faithful places held free chains queues) (socketPtr : Nat) :
    (nxWifiUdpSocketBind s socketPtr).2.Faithful places held free chains queues ∧
      (nxWifiUdpSocketBind s socketPtr).2.pool = s.pool := by
  cases hfind : nxWifiSocketEntryFind s.socket socketPtr false with
  | none =>
      simp only [nxWifiUdpSocketBind, hfind]
      exact ⟨h, trivial⟩
  | some i =>
      obtain ⟨hothers, hi⟩ := (entryFind_eq_some hfind).resolve_left fun hfound => Bool.false_ne_true hfound.1
      simp only [nxWifiUdpSocketBind, hfind]
      exact ⟨h.fill .udp hi hothers, rfl⟩

theorem close (h : s.Faithful places held free chains queues) (socketPtr : Nat) :
    ∃ free' queues', (closeEntry s socketPtr).2.Faithful places held free' chains queues' ∧
      ∀ j, ((closeEntry s socketPtr).2.socket j).valid = true →
        waiting (closeEntry s socketPtr).2.pool (queues' j) = waiting s.pool (queues j) := by
  rw [closeEntry]
  split
  · exact ⟨free, queues, h, fun _ _ => rfl⟩
  · rename_i i hfind
    split
    · obtain ⟨free', queues', hreset, hclosed, hwaiting⟩ := h.reset i
      refine ⟨free', queues', hreset, fun j hj => (hwaiting j fun heq => ?_).2⟩
      rw [heq] at hj
      exact Bool.false_ne_true (hclosed.symm.trans hj)
    · exact ⟨free, queues, h, fun _ _ => rfl⟩

end Sockets.Faithful

end DeviceSample.Wifi
