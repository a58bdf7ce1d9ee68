import DeviceSample.NetxSockets

/-!
What the table of sockets is for: the sockets that were created, and a port for each that is bound, which no other
one has. A table in memory stands for such a map, and each operation on its rings for one on the map.
-/

namespace DeviceSample.NetX

open Base

/-- The created sockets, in the order of their creation, and the ports of those that are bound. -/
structure PortMap where
  sockets : List Address
  port : Address → Option Nat
  nodup : sockets.Nodup
  created : ∀ a p, port a = some p → a ∈ sockets
  injective : ∀ a b p, port a = some p → port b = some p → a = b

namespace PortMap

def empty : PortMap := ⟨[], fun _ => none, List.nodup_nil, fun _ _ h => (by cases h), fun _ _ _ h => (by cases h)⟩

/-- A socket has the port. -/
def taken (m : PortMap) (port : Nat) : Bool := m.sockets.any fun a => m.port a == some port

variable {m : PortMap} {a b : Address} {p : Nat}

theorem taken_iff : m.taken p = true ↔ ∃ a, m.port a = some p := by
  rw [taken, List.any_eq_true]
  constructor
  · rintro ⟨a, -, ha⟩
    exact ⟨a, beq_iff_eq.mp ha⟩
  · rintro ⟨a, ha⟩
    exact ⟨a, m.created a p ha, beq_iff_eq.mpr ha⟩

theorem ne_of_taken (h : m.taken p = false) (a : Address) : m.port a ≠ some p := fun ha =>
  Bool.false_ne_true (h.symm.trans (taken_iff.mpr ⟨a, ha⟩))

/-- A socket is created. -/
def add (m : PortMap) (a : Address) (h : a ∉ m.sockets) : PortMap where
  sockets := m.sockets ++ [a]
  port := m.port
  nodup := by
    rw [List.nodup_append]
    exact ⟨m.nodup, List.nodup_singleton a, fun x hx y hy => List.mem_singleton.mp hy ▸ ne_of_mem_of_not_mem hx h⟩
  created b p hb := List.mem_append_left _ (m.created b p hb)
  injective := m.injective

/-- A socket that is not bound is deleted. -/
def remove (m : PortMap) (a : Address) (h : m.port a = none) : PortMap where
  sockets := m.sockets.erase a
  port := m.port
  nodup := m.nodup.erase a
  created b p hb := by
    have hne : b ≠ a := fun heq => by
      rw [heq, h] at hb
      cases hb
    exact (List.mem_erase_of_ne hne).mpr (m.created b p hb)
  injective := m.injective

/-- A socket gets a port that no other one has. -/
def assign (m : PortMap) (a : Address) (p : Nat) (ha : a ∈ m.sockets) (hp : m.taken p = false) : PortMap where
  sockets := m.sockets
  port := Function.update m.port a (some p)
  nodup := m.nodup
  created b q hb := by
    by_cases hba : b = a
    · exact hba ▸ ha
    · exact m.created b q (by rwa [Function.update_of_ne hba] at hb)
  injective b c q hb hc := by
    have hother : ∀ d, d ≠ a → Function.update m.port a (some p) d = some q → q ≠ p := fun d hd hq heq => by
      rw [Function.update_of_ne hd] at hq
      exact ne_of_taken hp d (heq ▸ hq)
    have hself : Function.update m.port a (some p) a = some q → q = p := fun h => by
      rw [Function.update_self] at h
      exact (Option.some.inj h).symm
    by_cases hba : b = a <;> by_cases hca : c = a
    · rw [hba, hca]
    · exact absurd (hself (hba ▸ hb)) (hother c hca hc)
    · exact absurd (hself (hca ▸ hc)) (hother b hba hb)
    · rw [Function.update_of_ne hba] at hb
      rw [Function.update_of_ne hca] at hc
      exact m.injective b c q hb hc

theorem assign_port_self {ha : a ∈ m.sockets} {hp : m.taken p = false} : (m.assign a p ha hp).port a = some p :=
  Function.update_self ..

theorem assign_port_of_ne {ha : a ∈ m.sockets} {hp : m.taken p = false} (h : b ≠ a) :
    (m.assign a p ha hp).port b = m.port b := Function.update_of_ne h _ _

theorem assign_taken {ha : a ∈ m.sockets} {hp : m.taken p = false} (hnone : m.port a = none) {q : Nat} :
    (m.assign a p ha hp).taken q = true ↔ m.taken q = true ∨ q = p := by
  rw [taken_iff, taken_iff]
  constructor
  · rintro ⟨b, hb⟩
    by_cases hba : b = a
    · rw [hba, assign_port_self] at hb
      exact Or.inr (Option.some.inj hb).symm
    · exact Or.inl ⟨b, assign_port_of_ne hba ▸ hb⟩
  · rintro (⟨b, hb⟩ | rfl)
    · have hba : b ≠ a := fun heq => by
        rw [heq, hnone] at hb
        cases hb
      exact ⟨b, (assign_port_of_ne hba).trans hb⟩
    · exact ⟨a, assign_port_self⟩

/-- The port of a socket is given up. -/
def release (m : PortMap) (a : Address) : PortMap where
  sockets := m.sockets
  port := Function.update m.port a none
  nodup := m.nodup
  created b p hb := by
    by_cases hba : b = a
    · rw [hba, Function.update_self] at hb
      cases hb
    · exact m.created b p (by rwa [Function.update_of_ne hba] at hb)
  injective b c p hb hc := by
    by_cases hba : b = a
    · rw [hba, Function.update_self] at hb
      cases hb
    by_cases hca : c = a
    · rw [hca, Function.update_self] at hc
      cases hc
    rw [Function.update_of_ne hba] at hb
    rw [Function.update_of_ne hca] at hc
    exact m.injective b c p hb hc

theorem release_port_self : (m.release a).port a = none := Function.update_self ..

theorem release_port_of_ne (h : b ≠ a) : (m.release a).port b = m.port b := Function.update_of_ne h _ _

/-- The ports that are given to those who ask for any, from one of them on and around. -/
def portsFrom (start : Nat) : List Nat :=
  (List.range (nxMaxPort + 1 - nxSearchPortStart)).map fun k =>
    nxSearchPortStart + (start + k) % (nxMaxPort + 1 - nxSearchPortStart)

/-- The first of these ports that is free. -/
def firstFree (m : PortMap) (start : Nat) : Option Nat := (portsFrom start).find? fun p => !m.taken p

/-- Every port from the first one of the search on is among them. -/
theorem mem_portsFrom {start : Nat} : p ∈ portsFrom start ↔ nxSearchPortStart ≤ p ∧ p ≤ nxMaxPort := by
  rw [portsFrom, List.mem_map]
  constructor
  · rintro ⟨k, -, rfl⟩
    have hlt := Nat.mod_lt (start + k) (show 0 < nxMaxPort + 1 - nxSearchPortStart by decide)
    simp only [nxMaxPort, nxSearchPortStart] at hlt ⊢
    omega
  · rintro ⟨hlow, hhigh⟩
    refine ⟨(p - nxSearchPortStart + (nxMaxPort + 1 - nxSearchPortStart) - start % (nxMaxPort + 1 - nxSearchPortStart)) %
      (nxMaxPort + 1 - nxSearchPortStart), List.mem_range.mpr (Nat.mod_lt _ (by decide)), ?_⟩
    simp only [nxMaxPort, nxSearchPortStart] at hlow hhigh ⊢
    omega

theorem firstFree_eq_none {start : Nat} :
    m.firstFree start = none ↔ ∀ p, nxSearchPortStart ≤ p → p ≤ nxMaxPort → m.taken p = true := by
  rw [firstFree, List.find?_eq_none]
  constructor
  · intro h p hlow hhigh
    simpa using h p (mem_portsFrom.mpr ⟨hlow, hhigh⟩)
  · intro h p hp
    obtain ⟨hlow, hhigh⟩ := mem_portsFrom.mp hp
    simpa using h p hlow hhigh

/-- The ports before the first free one, in the order of the search, are taken. -/
theorem firstFree_eq_some {start : Nat} (h : m.firstFree start = some p) :
    ∃ k, p = nxSearchPortStart + (start + k) % (nxMaxPort + 1 - nxSearchPortStart) ∧ m.taken p = false ∧
      ∀ j < k, m.taken (nxSearchPortStart + (start + j) % (nxMaxPort + 1 - nxSearchPortStart)) = true := by
  rw [firstFree, portsFrom, List.find?_map, Option.map_eq_some_iff] at h
  obtain ⟨k, hk, rfl⟩ := h
  obtain ⟨hfree, -, hbefore⟩ := List.find?_range_eq_some.mp hk
  exact ⟨k, rfl, by simpa using hfree, fun j hj => by simpa using hbefore j hj⟩

/-- The port that a call of bind asks for. -/
def choose (m : PortMap) (port rand : Nat) : Option Nat := if port = nxAnyPort then m.firstFree rand else some port

/-- What binding a created socket is for. -/
def bind (m : PortMap) (a : Address) (port rand : Nat) (ha : a ∈ m.sockets) : SocketStatus × PortMap :=
  if (m.port a).isSome then (.alreadyBound, m)
  else
    match m.choose port rand with
    | none => (.noFreePorts, m)
    | some p => if hp : m.taken p = false then (.success, m.assign a p ha hp) else (.portUnavailable, m)

end PortMap

/-- A table in memory stands for a map. -/
structure Represents (t : SocketTable) (m : PortMap) : Prop where
  created : RingAt t.created t.createdSocketsPtr m.sockets
  count : t.createdSocketsCount = m.sockets.length
  id : ∀ a, t.id a = true ↔ a ∈ m.sockets
  idle : ∀ a ∈ m.sockets, t.bindInProgress a = false
  port : ∀ a p, m.port a = some p → t.port a = p
  unbound : ∀ a ∈ m.sockets, m.port a = none → t.bound.next a = none
  buckets : ∀ i, ∃ nodes, RingAt t.bound (t.portTable i) nodes ∧
    ∀ a, a ∈ nodes ↔ ∃ p, m.port a = some p ∧ portIndex p = i

section rings

variable {t : SocketTable} {nodes first second : List Address} {a : Address} {i : Fin 32}

/-- A new socket is behind the last one of the created list. -/
theorem linkCreated_spec (h : RingAt t.created t.createdSocketsPtr nodes) (ha : a ∉ nodes) :
    ∃ created start, t.linkCreated a = some { t with created := created, createdSocketsPtr := start } ∧
      RingAt created start (nodes ++ [a]) := by
  cases nodes with
  | nil =>
      refine ⟨_, _, by rw [SocketTable.linkCreated, h.start]; rfl, ring_singleton.mpr ?_, rfl⟩
      simp [Links.Beside]
  | cons b nodes =>
      obtain ⟨c, hc, hprevious, hring⟩ := h.ring.append ha
      have hba : b ≠ a := ne_of_mem_of_not_mem List.mem_cons_self ha
      have hca : c ≠ a := ne_of_mem_of_not_mem hc ha
      refine ⟨_, _, by rw [SocketTable.linkCreated, h.start]; simp only [List.head?_cons, hprevious]; rfl, ?_, h.start⟩
      refine hring.congr (fun x _ => ?_) (fun x _ => ?_)
      · by_cases hxa : x = a
        · simp [Links.between, hxa, hca.symm]
        · simp [Links.between, hxa]
      · by_cases hxa : x = a
        · simp [Links.between, hxa, hba.symm]
        · simp [Links.between, hxa]

/-- A socket is linked in behind the last one of a list of the port table, and no other list changes. -/
theorem linkBound_spec (h : RingAt t.bound (t.portTable i) nodes) (ha : a ∉ nodes) :
    ∃ bound portTable, t.linkBound a i = some { t with bound := bound, portTable := portTable } ∧
      RingAt bound (portTable i) (nodes ++ [a]) ∧ (∀ j, j ≠ i → portTable j = t.portTable j) ∧
      ∀ x ∉ nodes ++ [a], bound.next x = t.bound.next x ∧ bound.previous x = t.bound.previous x := by
  cases nodes with
  | nil =>
      refine ⟨_, _, by rw [SocketTable.linkBound, h.start]; rfl, ⟨ring_singleton.mpr ?_, Function.update_self ..⟩,
        fun j hj => Function.update_of_ne hj _ _, fun x hx => ?_⟩
      · simp [Links.Beside]
      · have hxa : x ≠ a := fun heq => hx (heq ▸ List.mem_singleton_self a)
        simp [hxa]
  | cons b nodes =>
      obtain ⟨c, hc, hprevious, hring⟩ := h.ring.append ha
      have hba : b ≠ a := ne_of_mem_of_not_mem List.mem_cons_self ha
      have hca : c ≠ a := ne_of_mem_of_not_mem hc ha
      refine ⟨_, t.portTable, by
          rw [SocketTable.linkBound, h.start]
          simp only [List.head?_cons, Links.setNext_previous, Links.setPrevious_previous, hprevious, if_neg hba]
          rfl, ⟨?_, h.start⟩, fun _ _ => rfl, fun x hx => ?_⟩
      · refine hring.congr (fun x _ => ?_) (fun x _ => ?_) <;> simp [Links.between]
      · have hxa : x ≠ a := fun heq => hx (List.mem_append_right _ (List.mem_singleton.mpr heq))
        have hxb : x ≠ b := fun heq => hx (heq ▸ List.mem_append_left _ List.mem_cons_self)
        have hxc : x ≠ c := fun heq => hx (heq ▸ List.mem_append_left _ hc)
        simp [hxa, hxb, hxc]

/-- A deleted socket is taken out of the created list. -/
theorem unlinkCreated_spec (h : RingAt t.created t.createdSocketsPtr (first ++ a :: second)) :
    ∃ created start, t.unlinkCreated a = some { t with created := created, createdSocketsPtr := start } ∧
      RingAt created start (first ++ second) := by
  have hself := Ring.next_eq_self (h.ring.rotate : Ring t.created (a :: (second ++ first)))
  by_cases halone : second ++ first = []
  · obtain ⟨rfl, rfl⟩ := List.append_eq_nil_iff.mp halone
    exact ⟨t.created, none, by rw [SocketTable.unlinkCreated, if_pos (hself.mpr halone)], ringAt_nil⟩
  · obtain ⟨b, l', hnext, hhead, hunlink, hring, -, hnext'⟩ := h.ring.unlink halone
    refine ⟨l', _, by
      rw [SocketTable.unlinkCreated, if_neg fun heq => halone (hself.mp heq), hunlink]
      rfl, hring, ?_⟩
    rw [← h.start_remove, hnext', hhead]

/-- A socket is taken out of a list of the port table, and is not linked any more. -/
theorem unlinkBound_spec (h : RingAt t.bound (t.portTable (portIndex (t.port a))) (first ++ a :: second)) :
    ∃ bound portTable, t.unlinkBound a = some { t with bound := bound, portTable := portTable } ∧
      RingAt bound (portTable (portIndex (t.port a))) (first ++ second) ∧
      (∀ j, j ≠ portIndex (t.port a) → portTable j = t.portTable j) ∧ bound.next a = none ∧
      ∀ x ∉ first ++ a :: second, bound.next x = t.bound.next x ∧ bound.previous x = t.bound.previous x := by
  have hself := Ring.next_eq_self (h.ring.rotate : Ring t.bound (a :: (second ++ first)))
  have hother : ∀ x ∉ first ++ a :: second, x ≠ a := fun x hx heq =>
    hx (heq ▸ List.mem_append_right _ List.mem_cons_self)
  by_cases halone : second ++ first = []
  · obtain ⟨rfl, rfl⟩ := List.append_eq_nil_iff.mp halone
    refine ⟨t.bound.setNext a none, _, by rw [SocketTable.unlinkBound, if_pos (hself.mpr halone)], ?_,
      fun j hj => Function.update_of_ne hj _ _, ?_, fun x hx => ⟨?_, rfl⟩⟩
    · rw [Function.update_self]
      exact ringAt_nil
    · rw [Links.setNext_next, if_pos rfl]
    · rw [Links.setNext_next, if_neg (hother x hx)]
  · obtain ⟨b, l', hnext, hhead, hunlink, hring, hframe, hnext'⟩ := h.ring.unlink halone
    have hgone : a ∉ first ++ second := fun hmem =>
      (List.nodup_cons.mp (Ring.nodup (h.ring.rotate : Ring t.bound (a :: (second ++ first))))).1
        (List.perm_append_comm.mem_iff.mp hmem)
    refine ⟨l'.setNext a none, _, by
      rw [SocketTable.unlinkBound, if_neg fun heq => halone (hself.mp heq), hunlink]
      rfl, ⟨hring.congr (fun x hx => ?_) fun _ _ => rfl, ?_⟩, fun j hj => ?_, ?_, fun x hx => ⟨?_, ?_⟩⟩
    · rw [Links.setNext_next, if_neg (ne_of_mem_of_not_mem hx hgone)]
    · rw [← h.start_remove, hnext', ← hhead]
      split
      · exact Function.update_self ..
      · rfl
    · split
      · exact Function.update_of_ne hj _ _
      · rfl
    · rw [Links.setNext_next, if_pos rfl]
    · rw [Links.setNext_next, if_neg (hother x hx)]
      exact (hframe x hx).1
    · exact (hframe x hx).2

end rings

namespace Represents

variable {t : SocketTable} {m : PortMap} {a : Address}

theorem next_isSome (h : Represents t m) (ha : a ∈ m.sockets) : (t.bound.next a).isSome = (m.port a).isSome := by
  cases hport : m.port a with
  | none => rw [h.unbound a ha hport]
  | some p =>
      obtain ⟨nodes, hring, hnodes⟩ := h.buckets (portIndex p)
      exact hring.ring.next_isSome ((hnodes a).mpr ⟨p, hport, rfl⟩)

/-- The sockets of a list are created ones, so that there are no more of them. -/
theorem length_le (h : Represents t m) {nodes : List Address} (hnodup : nodes.Nodup)
    (hnodes : ∀ a ∈ nodes, ∃ p, m.port a = some p) : nodes.length ≤ t.createdSocketsCount := by
  rw [h.count]
  refine (List.subperm_of_subset hnodup fun a ha => ?_).length_le
  obtain ⟨p, hp⟩ := hnodes a ha
  exact m.created a p hp

/-- The walk along a list of the port table finds whether the port is taken. -/
theorem searchPort (h : Represents t m) (p : Nat) :
    ∃ search, t.searchPort p = some (search, m.taken p) ∧ search.any (fun s => t.port s == p) = m.taken p := by
  obtain ⟨nodes, hring, hnodes⟩ := h.buckets (portIndex p)
  have hport : ∀ a ∈ nodes, (t.port a == p) = (m.port a == some p) := fun a ha => by
    obtain ⟨q, hq, -⟩ := (hnodes a).mp ha
    rw [h.port a q hq, hq]
    exact Bool.eq_iff_iff.mpr (by simp)
  have htaken : m.taken p = nodes.any fun a => t.port a == p := by
    rw [Bool.eq_iff_iff, PortMap.taken_iff, List.any_eq_true]
    constructor
    · rintro ⟨a, ha⟩
      have hmem : a ∈ nodes := (hnodes a).mpr ⟨p, ha, rfl⟩
      exact ⟨a, hmem, by rw [hport a hmem, ha, beq_self_eq_true]⟩
    · rintro ⟨a, hmem, ha⟩
      rw [hport a hmem] at ha
      exact ⟨a, beq_iff_eq.mp ha⟩
  cases nodes with
  | nil =>
      refine ⟨none, ?_, by rw [htaken]; rfl⟩
      rw [SocketTable.searchPort, hring.start, htaken]
      rfl
  | cons first rest =>
      have hlength := h.length_le hring.ring.nodup fun a ha => by
        obtain ⟨q, hq, -⟩ := (hnodes a).mp ha
        exact ⟨q, hq⟩
      have hsearch := hring.ring.search (fun a => t.port a == p) (show rest.length < t.createdSocketsCount from hlength)
      rw [SocketTable.searchPort, hring.start]
      simp only [List.head?_cons, hsearch, htaken]
      cases hfind : (first :: rest).find? fun a => t.port a == p with
      | none =>
          have hnone : ∀ a ∈ first :: rest, (t.port a == p) = false := fun a ha => by
            simpa using List.find?_eq_none.mp hfind a ha
          have hany : (first :: rest).any (fun a => t.port a == p) = false := by
            rw [List.any_eq_false]
            exact fun a ha => by rw [hnone a ha]; exact Bool.false_ne_true
          exact ⟨some first, by rw [hany]; rfl, by rw [hany]; exact hnone first List.mem_cons_self⟩
      | some b =>
          have hb : (t.port b == p) = true := List.find?_some (p := fun a => t.port a == p) hfind
          have hany : (first :: rest).any (fun a => t.port a == p) = true :=
            List.any_eq_true.mpr ⟨b, List.mem_of_find?_eq_some hfind, hb⟩
          exact ⟨some b, by rw [hany]; rfl, by rw [hany]; exact hb⟩

/-- The loop over the ports, when it has come to one of them. -/
theorem freePortLoop (h : Represents t m) (start : Nat) {k fuel : Nat} (hk : k < nxMaxPort + 1 - nxSearchPortStart)
    (hfuel : nxMaxPort + 1 - nxSearchPortStart - k ≤ fuel) :
    t.freePortLoop (nxSearchPortStart + start % (nxMaxPort + 1 - nxSearchPortStart)) fuel
        (nxSearchPortStart + (start + k) % (nxMaxPort + 1 - nxSearchPortStart)) =
      some (match ((List.range' k (nxMaxPort + 1 - nxSearchPortStart - k)).map fun k =>
          nxSearchPortStart + (start + k) % (nxMaxPort + 1 - nxSearchPortStart)).find? fun p => !m.taken p with
        | some p => .ok p
        | none => .error .noFreePorts) := by
  induction fuel generalizing k with
  | zero => omega
  | succ fuel ih =>
      have hrange : List.range' k (nxMaxPort + 1 - nxSearchPortStart - k) =
          k :: List.range' (k + 1) (nxMaxPort + 1 - nxSearchPortStart - (k + 1)) := by
        rw [← List.range'_succ]
        congr 1
        omega
      obtain ⟨search, hsearch, -⟩ :=
        h.searchPort (nxSearchPortStart + (start + k) % (nxMaxPort + 1 - nxSearchPortStart))
      rw [SocketTable.freePortLoop, hsearch, hrange, List.map_cons]
      cases htaken : m.taken (nxSearchPortStart + (start + k) % (nxMaxPort + 1 - nxSearchPortStart)) with
      | false => simp [htaken]
      | true =>
          rw [List.find?_cons_of_neg (by simp [htaken])]
          -- The next port is the next of the cycle, and the first one again only behind the last.
          have hnext : (if nxMaxPort < nxSearchPortStart + (start + k) % (nxMaxPort + 1 - nxSearchPortStart) + 1 then
                nxSearchPortStart
              else nxSearchPortStart + (start + k) % (nxMaxPort + 1 - nxSearchPortStart) + 1) =
              nxSearchPortStart + (start + (k + 1)) % (nxMaxPort + 1 - nxSearchPortStart) := by
            by_cases hwrap : nxMaxPort < nxSearchPortStart + (start + k) % (nxMaxPort + 1 - nxSearchPortStart) + 1
            · rw [if_pos hwrap]
              simp only [nxMaxPort, nxSearchPortStart] at hwrap ⊢
              omega
            · rw [if_neg hwrap]
              simp only [nxMaxPort, nxSearchPortStart] at hwrap ⊢
              omega
          by_cases hlast : k + 1 < nxMaxPort + 1 - nxSearchPortStart
          · have hne : nxSearchPortStart + start % (nxMaxPort + 1 - nxSearchPortStart) ≠
                nxSearchPortStart + (start + (k + 1)) % (nxMaxPort + 1 - nxSearchPortStart) := by
              simp only [nxMaxPort, nxSearchPortStart] at hlast ⊢
              omega
            simp only [Option.bind_eq_bind, Option.bind_some, if_true, hnext, if_neg hne]
            exact ih hlast (by omega)
          · have heq : nxSearchPortStart + start % (nxMaxPort + 1 - nxSearchPortStart) =
                nxSearchPortStart + (start + (k + 1)) % (nxMaxPort + 1 - nxSearchPortStart) := by
              simp only [nxMaxPort, nxSearchPortStart] at hk hlast ⊢
              omega
            have hend : nxMaxPort + 1 - nxSearchPortStart - (k + 1) = 0 := by omega
            simp only [Option.bind_eq_bind, Option.bind_some, if_true, hnext, if_pos heq, hend]
            rfl

/-- The search for a port finds the first one that is free, if there is one. -/
theorem freePortFind (h : Represents t m) (start : Nat) :
    t.freePortFind (nxSearchPortStart + start % (nxMaxPort + 1 - nxSearchPortStart)) =
      some (match m.firstFree start with
        | some p => .ok p
        | none => .error .noFreePorts) := by
  have hloop := h.freePortLoop start (show 0 < nxMaxPort + 1 - nxSearchPortStart by decide)
    (show nxMaxPort + 1 - nxSearchPortStart - 0 ≤ nxMaxPort + 1 by decide)
  rw [SocketTable.freePortFind, PortMap.firstFree, PortMap.portsFrom, List.range_eq_range']
  exact hloop

/-- The loop of the checked create finds the sockets of the list it walks along. -/
theorem alreadyCreated_eq {nodes : List Address} {start stop : Option Address}
    (h : Segment t.created.next start nodes stop) :
    t.alreadyCreated a nodes.length start = some (decide (a ∈ nodes)) := by
  induction nodes generalizing start with
  | nil => rfl
  | cons b nodes ih =>
      obtain ⟨rfl, hrest⟩ := segment_cons.mp h
      rw [List.length_cons, SocketTable.alreadyCreated]
      by_cases hba : b = a
      · simp [hba]
      · have hne : (some b : Option Address) ≠ some a := fun heq => hba (Option.some.inj heq)
        rw [if_neg hne, Option.bind_eq_bind, Option.bind_some, ih hrest]
        simp [Ne.symm hba]

theorem alreadyCreated (h : Represents t m) (a : Address) :
    t.alreadyCreated a t.createdSocketsCount t.createdSocketsPtr = some (decide (a ∈ m.sockets)) := by
  rw [h.count, h.created.start]
  cases hsockets : m.sockets with
  | nil => rfl
  | cons first rest =>
      have hring : Ring t.created (first :: rest) := hsockets ▸ h.created.ring
      exact alreadyCreated_eq ⟨rfl, segment_of_isChain hring.isChain⟩

/-- A port that is stored to a socket that has none changes nothing. -/
theorem setPort (h : Represents t m) (ha : m.port a = none) (p : Nat) :
    Represents { t with port := Function.update t.port a p } m :=
  { h with
    port := fun b q hb => by
      have hne : b ≠ a := fun heq => by
        rw [heq, ha] at hb
        cases hb
      exact (Function.update_of_ne hne _ _).trans (h.port b q hb) }

/-- The sockets of a list of the port table are created ones. -/
theorem bucket_created (_ : Represents t m) {nodes : List Address} {i : Fin 32}
    (hnodes : ∀ a, a ∈ nodes ↔ ∃ p, m.port a = some p ∧ portIndex p = i) (ha : a ∈ nodes) : a ∈ m.sockets := by
  obtain ⟨p, hp, -⟩ := (hnodes a).mp ha
  exact m.created a p hp

theorem create (h : Represents t m) (ha : a ∉ m.sockets) :
    ∃ t', t.create a = some t' ∧ Represents t' (m.add a ha) := by
  have hne : ∀ b ∈ m.sockets, b ≠ a := fun b hb => ne_of_mem_of_not_mem hb ha
  have hcleared : Represents { t.clear a with id := t.id } m := by
    refine ⟨?_, h.count, h.id, fun b hb => ?_, fun b p hb => ?_, fun b hb hport => ?_, fun i => ?_⟩
    · exact h.created.congr (fun b hb => by simp [SocketTable.clear, hne b hb])
        (fun b hb => by simp [SocketTable.clear, hne b hb])
    · exact (Function.update_of_ne (hne b hb) _ _).trans (h.idle b hb)
    · exact (Function.update_of_ne (hne b (m.created b p hb)) _ _).trans (h.port b p hb)
    · simpa [SocketTable.clear, hne b hb] using h.unbound b hb hport
    · obtain ⟨nodes, hring, hnodes⟩ := h.buckets i
      refine ⟨nodes, hring.congr (fun b hb => ?_) (fun b hb => ?_), hnodes⟩
      · simp [SocketTable.clear, hne b (h.bucket_created hnodes hb)]
      · simp [SocketTable.clear, hne b (h.bucket_created hnodes hb)]
  obtain ⟨created, start, hlinked, hring⟩ := linkCreated_spec
    (t := { t.clear a with id := Function.update (t.clear a).id a true }) hcleared.created ha
  have hcreate : t.create a = some { t.clear a with
      id := Function.update (t.clear a).id a true
      created := created
      createdSocketsPtr := start
      createdSocketsCount := t.createdSocketsCount + 1 } := by
    rw [SocketTable.create]
    simp only [hlinked]
    rfl
  refine ⟨_, hcreate, hring, ?_, fun b => ?_, fun b hb => ?_, hcleared.port, fun b hb hport => ?_, hcleared.buckets⟩
  · change t.createdSocketsCount + 1 = (m.sockets ++ [a]).length
    rw [h.count, List.length_append]
    rfl
  · change Function.update (Function.update t.id a false) a true b = true ↔ b ∈ m.sockets ++ [a]
    rw [Function.update_idem, List.mem_append, List.mem_singleton, Function.update_apply]
    split
    · exact iff_of_true rfl (Or.inr ‹_›)
    · rw [h.id b, or_iff_left ‹_›]
  · rcases List.mem_append.mp hb with hb | hb
    · exact hcleared.idle b hb
    · rw [List.mem_singleton.mp hb]
      exact Function.update_self ..
  · rcases List.mem_append.mp hb with hb | hb
    · exact hcleared.unbound b hb hport
    · rw [List.mem_singleton.mp hb]
      exact Function.update_self ..

theorem delete (h : Represents t m) (ha : a ∈ m.sockets) (hport : m.port a = none) :
    ∃ t', t.delete a = some t' ∧ Represents t' (m.remove a hport) := by
  obtain ⟨first, second, hsockets⟩ := List.append_of_mem ha
  have hnodup := m.nodup
  rw [hsockets] at hnodup
  have hfirst : a ∉ first := fun hmem => (List.nodup_append.mp hnodup).2.2 a hmem a List.mem_cons_self rfl
  have herase : m.sockets.erase a = first ++ second := by
    rw [hsockets, List.erase_append_right _ hfirst, List.erase_cons_head]
  obtain ⟨created, start, hunlinked, hring⟩ := unlinkCreated_spec
    (t := { t with id := Function.update t.id a false }) (hsockets ▸ h.created)
  have hsub : ∀ b ∈ m.sockets.erase a, b ∈ m.sockets := fun b hb => List.mem_of_mem_erase hb
  have hdelete : t.delete a = some { t with
      id := Function.update t.id a false
      created := created
      createdSocketsPtr := start
      createdSocketsCount := t.createdSocketsCount - 1 } := by
    rw [SocketTable.delete]
    simp only [hunlinked]
    rfl
  refine ⟨_, hdelete, ?_, ?_, fun b => ?_, fun b hb => h.idle b (hsub b hb), h.port,
    fun b hb => h.unbound b (hsub b hb), h.buckets⟩
  · change RingAt created start (m.sockets.erase a)
    rwa [herase]
  · exact (congrArg (· - 1) h.count).trans (List.length_erase_of_mem ha).symm
  · change Function.update t.id a false b = true ↔ b ∈ m.sockets.erase a
    rw [m.nodup.mem_erase_iff, Function.update_apply]
    split
    · exact iff_of_false Bool.false_ne_true fun hb => hb.1 ‹_›
    · rw [h.id b, and_iff_right ‹_›]

/-- What binding and unbinding have in common: one list of the port table changes. -/
theorem rebind (h : Represents t m) {m' : PortMap} {bound : Links Address} {portTable : Fin 32 → Option Address}
    {nodes : List Address} {i : Fin 32} (hsockets : m'.sockets = m.sockets)
    (hnodes : ∀ a, a ∈ nodes ↔ ∃ p, m.port a = some p ∧ portIndex p = i) (nodes' : List Address)
    (hnodes' : ∀ a, a ∈ nodes' ↔ ∃ p, m'.port a = some p ∧ portIndex p = i)
    (hother : ∀ j, j ≠ i → ∀ a p, portIndex p = j → (m'.port a = some p ↔ m.port a = some p))
    (hport : ∀ a p, m'.port a = some p → t.port a = p) (hring : RingAt bound (portTable i) nodes')
    (htable : ∀ j, j ≠ i → portTable j = t.portTable j)
    (hunbound : ∀ a ∈ m.sockets, m'.port a = none → bound.next a = none)
    (hframe : ∀ x, x ∉ nodes → x ∉ nodes' → bound.next x = t.bound.next x ∧ bound.previous x = t.bound.previous x) :
    Represents { t with bound := bound, portTable := portTable } m' := by
  refine ⟨hsockets ▸ h.created, hsockets ▸ h.count, hsockets ▸ h.id, hsockets ▸ h.idle, hport,
    hsockets ▸ hunbound, fun j => ?_⟩
  by_cases hj : j = i
  · exact ⟨nodes', hj ▸ hring, hj ▸ hnodes'⟩
  · obtain ⟨others, hothers, hmem⟩ := h.buckets j
    have hmem' : ∀ a, a ∈ others ↔ ∃ p, m'.port a = some p ∧ portIndex p = j := fun a => by
      rw [hmem a]
      constructor
      · rintro ⟨p, hp, rfl⟩
        exact ⟨p, (hother _ hj a p rfl).mpr hp, rfl⟩
      · rintro ⟨p, hp, rfl⟩
        exact ⟨p, (hother _ hj a p rfl).mp hp, rfl⟩
    have happart : ∀ x ∈ others, x ∉ nodes ∧ x ∉ nodes' := fun x hx => by
      constructor
      · intro hx'
        obtain ⟨p, hp, hpj⟩ := (hmem x).mp hx
        obtain ⟨q, hq, hqi⟩ := (hnodes x).mp hx'
        cases hp.symm.trans hq
        exact hj (hpj.symm.trans hqi)
      · intro hx'
        obtain ⟨p, hp, hpj⟩ := (hmem' x).mp hx
        obtain ⟨q, hq, hqi⟩ := (hnodes' x).mp hx'
        cases hp.symm.trans hq
        exact hj (hpj.symm.trans hqi)
    refine ⟨others, ?_, hmem'⟩
    change RingAt bound (portTable j) others
    rw [htable j hj]
    exact hothers.congr (fun x hx => (hframe x (happart x hx).1 (happart x hx).2).1)
      fun x hx => (hframe x (happart x hx).1 (happart x hx).2).2

theorem linkBound (h : Represents t m) {p : Nat} (ha : a ∈ m.sockets) (hnone : m.port a = none)
    (hp : m.taken p = false) (hport : t.port a = p) :
    ∃ t', t.linkBound a (portIndex p) = some t' ∧ Represents t' (m.assign a p ha hp) := by
  obtain ⟨nodes, hring, hnodes⟩ := h.buckets (portIndex p)
  have hnot : a ∉ nodes := fun hmem => by
    obtain ⟨q, hq, -⟩ := (hnodes a).mp hmem
    cases hnone.symm.trans hq
  obtain ⟨bound, portTable, hlinked, hring', htable, hframe⟩ := linkBound_spec hring hnot
  have hself : (m.assign a p ha hp).port a = some p := PortMap.assign_port_self
  have hother : ∀ b, b ≠ a → (m.assign a p ha hp).port b = m.port b := fun b => PortMap.assign_port_of_ne
  refine ⟨_, hlinked, h.rebind rfl hnodes (nodes ++ [a]) (fun b => ?_) (fun j hj b q hq => ?_) (fun b q hb => ?_)
    hring' htable (fun b hb hbnone => ?_) fun x _ hx => hframe x hx⟩
  · by_cases hba : b = a
    · rw [hba, hself]
      exact iff_of_true (List.mem_append_right _ (List.mem_singleton_self a)) ⟨p, rfl, rfl⟩
    · rw [hother b hba, ← hnodes b, List.mem_append, List.mem_singleton, or_iff_left hba]
  · by_cases hba : b = a
    · rw [hba, hself, hnone]
      refine iff_of_false (fun heq => ?_) (fun heq => by cases heq)
      cases heq
      exact hj hq.symm
    · rw [hother b hba]
  · by_cases hba : b = a
    · rw [hba, hself] at hb
      rw [hba, hport]
      exact Option.some.inj hb
    · exact h.port b q (hother b hba ▸ hb)
  · have hba : b ≠ a := fun heq => by
      rw [heq, hself] at hbnone
      cases hbnone
    have hb' : b ∉ nodes ++ [a] := fun hmem => by
      rw [List.mem_append, List.mem_singleton, or_iff_left hba] at hmem
      obtain ⟨q, hq, -⟩ := (hnodes b).mp hmem
      cases (hother b hba ▸ hbnone).symm.trans hq
    rw [(hframe b hb').1]
    exact h.unbound b hb (hother b hba ▸ hbnone)

theorem unlinkBound (h : Represents t m) {p : Nat} (hp : m.port a = some p) :
    ∃ t', t.unlinkBound a = some t' ∧ Represents t' (m.release a) := by
  have hport := h.port a p hp
  obtain ⟨nodes, hring, hnodes⟩ := h.buckets (portIndex p)
  obtain ⟨first, second, rfl⟩ := List.append_of_mem ((hnodes a).mpr ⟨p, hp, rfl⟩)
  rw [← hport] at hring
  obtain ⟨bound, portTable, hunlinked, hring', htable, hnone, hframe⟩ := unlinkBound_spec hring
  rw [hport] at hring' htable
  have hself : (m.release a).port a = none := PortMap.release_port_self
  have hother : ∀ b, b ≠ a → (m.release a).port b = m.port b := fun b => PortMap.release_port_of_ne
  have hnodup : a ∉ first ++ second := fun hmem =>
    (List.nodup_cons.mp (Ring.nodup (hring.ring.rotate : Ring t.bound (a :: (second ++ first))))).1
      (List.perm_append_comm.mem_iff.mp hmem)
  have hmem : ∀ b, b ≠ a → (b ∈ first ++ second ↔ b ∈ first ++ a :: second) := fun b hb => by
    rw [List.mem_append, List.mem_append, List.mem_cons, or_iff_right hb]
  refine ⟨_, hunlinked, h.rebind rfl hnodes (first ++ second) (fun b => ?_) (fun j hj b q hq => ?_)
    (fun b q hb => ?_) hring' htable (fun b hb hbnone => ?_) fun x hx _ => hframe x hx⟩
  · by_cases hba : b = a
    · rw [hba, hself]
      exact iff_of_false hnodup fun ⟨q, hq, _⟩ => by cases hq
    · rw [hother b hba, hmem b hba, hnodes b]
  · by_cases hba : b = a
    · rw [hba, hself, hp]
      refine iff_of_false (fun heq => by cases heq) (fun heq => ?_)
      cases heq
      exact hj hq.symm
    · rw [hother b hba]
  · by_cases hba : b = a
    · rw [hba, hself] at hb
      cases hb
    · exact h.port b q (hother b hba ▸ hb)
  · by_cases hba : b = a
    · rw [hba, hnone]
    · have hb' : b ∉ first ++ a :: second := fun hin => by
        obtain ⟨q, hq, -⟩ := (hnodes b).mp hin
        cases (hother b hba ▸ hbnone).symm.trans hq
      rw [(hframe b hb').1]
      exact h.unbound b hb (hother b hba ▸ hbnone)

theorem choosePort (h : Represents t m) (port rand : Nat) :
    t.choosePort port rand = some (match m.choose port rand with
      | some p => .ok p
      | none => .error .noFreePorts) := by
  rw [SocketTable.choosePort, PortMap.choose]
  split
  · exact h.freePortFind rand
  · rfl

theorem bindPort (h : Represents t m) (ha : a ∈ m.sockets) (hport : m.port a = none) (p : Nat) :
    (m.taken p = true ∧ ∃ t', t.bindPort a p = some (.portUnavailable, t') ∧ Represents t' m) ∨
      ∃ hp : m.taken p = false, ∃ t', t.bindPort a p = some (.success, t') ∧ Represents t' (m.assign a p ha hp) := by
  have hset := h.setPort hport p
  obtain ⟨search, hsearch, htaken⟩ := hset.searchPort p
  rw [SocketTable.bindPort]
  simp only [hsearch, Option.bind_eq_bind, Option.bind_some]
  by_cases hp : m.taken p = false
  · obtain ⟨t', hlinked, ht'⟩ := hset.linkBound ha hport hp (Function.update_self ..)
    refine Or.inr ⟨hp, t', ?_, ht'⟩
    rw [if_neg (by rw [htaken, hp]; exact Bool.false_ne_true), hlinked]
    rfl
  · rw [Bool.not_eq_false] at hp
    refine Or.inl ⟨hp, _, ?_, hset⟩
    rw [if_pos (by rw [htaken, hp])]
    rfl

/-- `bind` gives the socket the port, if no other one has it; any port is the first that is free. -/
theorem bind (h : Represents t m) (ha : a ∈ m.sockets) (port rand : Nat) :
    ∃ t', t.bind a port rand = some ((m.bind a port rand ha).1, t') ∧ Represents t' (m.bind a port rand ha).2 := by
  rw [SocketTable.bind, PortMap.bind, h.next_isSome ha, h.idle a ha, Bool.or_false, h.choosePort]
  cases hport : m.port a with
  | some p => exact ⟨t, rfl, h⟩
  | none =>
      cases m.choose port rand with
      | none => exact ⟨t, rfl, h⟩
      | some p =>
          obtain ⟨hp, t', hbind, ht'⟩ | ⟨hp, t', hbind, ht'⟩ := h.bindPort ha hport p
          · refine ⟨t', ?_, ?_⟩
            · simp [hbind, hp]
            · simpa [hp] using ht'
          · refine ⟨t', ?_, ?_⟩
            · simp [hbind, hp]
            · simpa [hp] using ht'

end Represents

end DeviceSample.NetX
