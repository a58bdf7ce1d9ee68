import DeviceSample.BaseLinked
import Mathlib.Data.List.Cycle
import Mathlib.Logic.Function.Basic

/-!
Rings of nodes that are linked in both directions. Where a ring begins is a matter of the pointer to it only, so
that a ring is a chain over a cycle; a node is taken in behind the last one, and taken out at any place.
-/

namespace DeviceSample.Base

variable {α : Type*}

/-- The links of the nodes in a memory. -/
structure Links (α : Type*) where
  next : α → Option α
  previous : α → Option α

namespace Links

section stores

variable [DecidableEq α]

/-- `node->next = pointer`. -/
def setNext (l : Links α) (a : α) (o : Option α) : Links α := { l with next := Function.update l.next a o }

/-- `node->previous = pointer`. -/
def setPrevious (l : Links α) (a : α) (o : Option α) : Links α :=
  { l with previous := Function.update l.previous a o }

/-- The neighbours of a node are linked with each other. There is none without a neighbour. -/
def unlink (l : Links α) (a : α) : Option (Links α) := do
  let next ← l.next a
  let l := l.setPrevious next (l.previous a)
  let previous ← l.previous a
  return l.setNext previous (l.next a)

end stores

/-- Two nodes are linked with each other. -/
def Beside (l : Links α) (a b : α) : Prop := l.next a = some b ∧ l.previous b = some a

/-- The links after a node was linked in between two others. -/
def between [DecidableEq α] (l : Links α) (c a b : α) : Links α :=
  ((l.setNext a (some b)).setNext c (some a)).setPrevious a (some c) |>.setPrevious b (some a)

/-- The links after two nodes were linked with each other. -/
def join [DecidableEq α] (l : Links α) (c b : α) : Links α := (l.setPrevious b (some c)).setNext c (some b)

end Links

/-- `do { if (found(node)) break; node = node->next; } while (node != end)`, in at most so many rounds: where the
loop ends, and whether by the break. There is no result at a null pointer. -/
def ringSearch [DecidableEq α] (next : α → Option α) (found : α → Bool) (stop : α) : Nat → α → Option (α × Bool)
  | 0, _ => none
  | fuel + 1, a =>
      if found a then some (a, true)
      else do
        let b ← next a
        if b = stop then return (b, false) else ringSearch next found stop fuel b

/-- A ring: each node is linked with the one behind it, and the last one with the first. -/
structure Ring (l : Links α) (nodes : List α) : Prop where
  nodup : nodes.Nodup
  chain : Cycle.Chain l.Beside (nodes : Cycle α)

/-- The ring that a pointer is the beginning of. A null pointer is one of no nodes. -/
structure RingAt (l : Links α) (start : Option α) (nodes : List α) : Prop where
  ring : Ring l nodes
  start : start = nodes.head?

section chain

variable {l : Links α} {nodes first second : List α} {a b : α} {R S : α → α → Prop}

/-- A chain over the relation of its own neighbours: one that is behind another is not the first, and one that is
before another is not the last. -/
theorem isChain_imp_of_mem (h : List.IsChain R nodes)
    (himp : ∀ a ∈ nodes.dropLast, ∀ b ∈ nodes.tail, R a b → S a b) : List.IsChain S nodes := by
  induction h with
  | nil => exact .nil
  | singleton a => exact .singleton a
  | @cons_cons a b rest hab _ ih =>
      refine .cons_cons (himp a List.mem_cons_self b List.mem_cons_self hab) (ih fun c hc d hd => ?_)
      exact himp c (List.mem_cons_of_mem _ hc) d (List.mem_cons_of_mem _ hd)

theorem ring_nil : Ring l [] := ⟨List.nodup_nil, Cycle.Chain.nil _⟩

theorem ringAt_nil : RingAt l none [] := ⟨ring_nil, rfl⟩

theorem ring_singleton : Ring l [a] ↔ l.Beside a a :=
  ⟨fun h => (Cycle.chain_singleton _ _).mp h.chain, fun h => ⟨List.nodup_singleton a, (Cycle.chain_singleton _ _).mpr h⟩⟩

/-- A ring from one of its nodes on. -/
theorem Ring.isChain (h : Ring l (a :: nodes)) : List.IsChain l.Beside (a :: (nodes ++ [a])) :=
  (Cycle.chain_coe_cons _ _ _).mp h.chain

/-- A ring may be read from any place. -/
theorem Ring.rotate (h : Ring l (first ++ second)) : Ring l (second ++ first) := by
  have hrotated : (first ++ second).IsRotated (second ++ first) := List.isRotated_append
  exact ⟨hrotated.nodup_iff.mp h.nodup, Cycle.coe_eq_coe.mpr hrotated ▸ h.chain⟩

theorem Ring.congr {l' : Links α} (h : Ring l nodes) (hnext : ∀ a ∈ nodes, l'.next a = l.next a)
    (hprevious : ∀ a ∈ nodes, l'.previous a = l.previous a) : Ring l' nodes := by
  refine ⟨h.nodup, ?_⟩
  cases nodes with
  | nil => exact Cycle.Chain.nil _
  | cons a nodes =>
      have hmem : ∀ b, b ∈ a :: (nodes ++ [a]) → b ∈ a :: nodes := fun b hb => by
        rw [← List.cons_append, List.mem_append, List.mem_singleton] at hb
        exact hb.elim id fun heq => heq ▸ List.mem_cons_self
      refine h.isChain.imp_of_mem_imp fun b c hb hc hbc => ⟨?_, ?_⟩
      · rw [hnext b (hmem b hb)]
        exact hbc.1
      · rw [hprevious c (hmem c hc)]
        exact hbc.2

theorem RingAt.congr {l' : Links α} {start : Option α} (h : RingAt l start nodes)
    (hnext : ∀ a ∈ nodes, l'.next a = l.next a) (hprevious : ∀ a ∈ nodes, l'.previous a = l.previous a) :
    RingAt l' start nodes := ⟨h.ring.congr hnext hprevious, h.start⟩

/-- The node behind the first one and the one before it. -/
theorem Ring.neighbours (h : Ring l (a :: nodes)) :
    l.next a = (nodes ++ [a]).head? ∧ l.previous a = (a :: nodes).getLast? := by
  constructor
  · cases nodes with
    | nil => exact (ring_singleton.mp h).1
    | cons b nodes => exact (List.isChain_cons_cons.mp h.isChain).1.1
  · obtain hnil | ⟨front, c, hlast⟩ := List.eq_nil_or_concat' (a :: nodes)
    · cases hnil
    · have hchain : List.IsChain l.Beside (front ++ c :: a :: []) := by
        have heq : a :: (nodes ++ [a]) = front ++ c :: a :: [] := by
          rw [← List.cons_append, hlast, List.append_assoc]
          rfl
        exact heq ▸ h.isChain
      rw [hlast, List.getLast?_concat]
      exact (List.isChain_append_cons_cons.mp hchain).2.1.2

/-- A node is alone in its ring when it is linked with itself. -/
theorem Ring.next_eq_self (h : Ring l (a :: nodes)) : l.next a = some a ↔ nodes = [] := by
  rw [h.neighbours.1]
  cases nodes with
  | nil => exact iff_of_true rfl rfl
  | cons b nodes =>
      refine iff_of_false (fun heq => ?_) (List.cons_ne_nil _ _)
      cases (Option.some.inj heq : b = a)
      exact (List.nodup_cons.mp h.nodup).1 List.mem_cons_self

theorem Ring.next_isSome (h : Ring l nodes) (ha : a ∈ nodes) : (l.next a).isSome = true := by
  obtain ⟨first, second, rfl⟩ := List.append_of_mem ha
  rw [(Ring.neighbours (h.rotate : Ring l (a :: (second ++ first)))).1, List.isSome_head?]
  exact List.append_ne_nil_of_right_ne_nil _ (List.cons_ne_nil a [])

theorem segment_of_isChain (h : List.IsChain l.Beside (a :: (nodes ++ [b]))) :
    Segment l.next (l.next a) nodes (some b) := by
  induction nodes generalizing a with
  | nil => exact (List.isChain_pair.mp h).1
  | cons c nodes ih =>
      obtain ⟨hac, hrest⟩ := List.isChain_cons_cons.mp h
      exact ⟨hac.1, ih hrest⟩

end chain

section stores

variable [DecidableEq α] {l : Links α} {nodes first second : List α} {a b c : α} {o : Option α}

@[simp] theorem Links.setNext_next : (l.setNext a o).next b = if b = a then o else l.next b :=
  Function.update_apply ..

@[simp] theorem Links.setNext_previous : (l.setNext a o).previous = l.previous := rfl

@[simp] theorem Links.setPrevious_previous : (l.setPrevious a o).previous b = if b = a then o else l.previous b :=
  Function.update_apply ..

@[simp] theorem Links.setPrevious_next : (l.setPrevious a o).next = l.next := rfl

/-- A node that is not in the ring is linked in behind the last one. -/
theorem Ring.append (h : Ring l (b :: nodes)) (ha : a ∉ b :: nodes) :
    ∃ c ∈ b :: nodes, l.previous b = some c ∧ Ring (l.between c a b) (b :: nodes ++ [a]) := by
  obtain hnil | ⟨front, c, hlast⟩ := List.eq_nil_or_concat' (b :: nodes)
  · cases hnil
  have hmem : c ∈ b :: nodes := hlast ▸ List.mem_append_right _ (List.mem_singleton_self c)
  have hca : c ≠ a := ne_of_mem_of_not_mem hmem ha
  have hba : b ≠ a := ne_of_mem_of_not_mem List.mem_cons_self ha
  refine ⟨c, hmem, ?_, ?_, ?_⟩
  · rw [h.neighbours.2, hlast, List.getLast?_concat]
  · rw [List.nodup_append]
    exact ⟨h.nodup, List.nodup_singleton a, fun x hx y hy => List.mem_singleton.mp hy ▸ ne_of_mem_of_not_mem hx ha⟩
  · -- Among the old nodes only the link behind the last one and the one before the first one change.
    have hold : List.IsChain (l.between c a b).Beside (front ++ [c]) := by
      have hchain : List.IsChain l.Beside (b :: nodes) := by
        have hall := h.isChain
        rw [← List.cons_append] at hall
        exact hall.left_of_append
      have hnodup := h.nodup
      have hfront : c ∉ front := fun hc =>
        (List.nodup_append.mp (hlast ▸ hnodup)).2.2 c hc c (List.mem_singleton_self c) rfl
      rw [← hlast]
      refine isChain_imp_of_mem hchain fun x hx y hy hxy => ?_
      rw [hlast, List.dropLast_concat] at hx
      have hxc : x ≠ c := ne_of_mem_of_not_mem hx hfront
      have hyb : y ≠ b := ne_of_mem_of_not_mem hy (List.nodup_cons.mp hnodup).1
      have hxa : x ≠ a := ne_of_mem_of_not_mem (hlast ▸ List.mem_append_left _ hx) ha
      have hya : y ≠ a := ne_of_mem_of_not_mem (List.mem_of_mem_tail hy) ha
      simpa [Links.Beside, Links.between, hxc, hyb, hxa, hya] using hxy
    rw [List.cons_append, Cycle.chain_coe_cons, ← List.cons_append, ← List.cons_append, hlast,
      List.append_assoc, List.append_assoc]
    refine List.isChain_append_cons_cons.mpr ⟨hold, ?_, List.isChain_pair.mpr ?_⟩
    · simp [Links.Beside, Links.between, hba.symm]
    · simp [Links.Beside, Links.between, hca.symm]

/-- A node is taken out of the ring. -/
theorem Ring.remove (h : Ring l (first ++ a :: second)) (hne : second ++ first ≠ []) :
    ∃ b c, l.next a = some b ∧ l.previous a = some c ∧ b ∈ second ++ first ∧ c ∈ second ++ first ∧
      (second ++ first).head? = some b ∧ Ring (l.join c b) (first ++ second) := by
  have hring : Ring l (a :: (second ++ first)) := h.rotate
  obtain ⟨b, rest, hrest⟩ := List.exists_cons_of_ne_nil hne
  obtain hnil | ⟨front, c, hlast⟩ := List.eq_nil_or_concat' (second ++ first)
  · exact absurd hnil hne
  have hneighbours := hring.neighbours
  have hnodup := (List.nodup_cons.mp hring.nodup).2
  refine ⟨b, c, ?_, ?_, ?_, ?_, ?_, Ring.rotate ⟨hnodup, ?_⟩⟩
  · rw [hneighbours.1, hrest]
    rfl
  · rw [hneighbours.2, hlast, ← List.cons_append, List.getLast?_concat]
  · rw [hrest]
    exact List.mem_cons_self
  · rw [hlast]
    exact List.mem_append_right _ (List.mem_singleton_self c)
  · rw [hrest]
    rfl
  · have hold : List.IsChain (l.join c b).Beside (second ++ first) := by
      have hchain : List.IsChain l.Beside (second ++ first) :=
        (List.isChain_cons.mp hring.isChain).2.left_of_append
      refine isChain_imp_of_mem hchain fun x hx y hy hxy => ?_
      have hxc : x ≠ c := by
        rw [hlast, List.dropLast_concat] at hx
        exact fun heq => (List.nodup_append.mp (hlast ▸ hnodup)).2.2 x hx c (List.mem_singleton_self c) heq
      have hyb : y ≠ b := by
        rw [hrest] at hy hnodup
        exact ne_of_mem_of_not_mem hy (List.nodup_cons.mp hnodup).1
      simpa [Links.Beside, Links.join, hxc, hyb] using hxy
    rw [hrest, Cycle.chain_coe_cons, ← List.cons_append, ← hrest, hlast, List.append_assoc]
    refine List.isChain_append_cons_cons.mpr ⟨hlast ▸ hold, ?_, List.isChain_singleton b⟩
    simp [Links.Beside, Links.join]

theorem Ring.unlink (h : Ring l (first ++ a :: second)) (hne : second ++ first ≠ []) :
    ∃ b l', l.next a = some b ∧ (second ++ first).head? = some b ∧ l.unlink a = some l' ∧ Ring l' (first ++ second) ∧
      (∀ x ∉ first ++ a :: second, l'.next x = l.next x ∧ l'.previous x = l.previous x) ∧
      l'.next a = some b := by
  obtain ⟨b, c, hnext, hprevious, hb, hc, hhead, hring⟩ := h.remove hne
  have hnodup : a ∉ second ++ first := (List.nodup_cons.mp (Ring.nodup (h.rotate : Ring l (a :: (second ++ first))))).1
  have hba : b ≠ a := ne_of_mem_of_not_mem hb hnodup
  have hca : c ≠ a := ne_of_mem_of_not_mem hc hnodup
  have hmem : ∀ x ∈ second ++ first, x ∈ first ++ a :: second := fun x hx => by
    rw [List.mem_append] at hx ⊢
    exact hx.elim (fun h => Or.inr (List.mem_cons_of_mem _ h)) Or.inl
  refine ⟨b, l.join c b, hnext, hhead, ?_, hring, fun x hx => ⟨?_, ?_⟩, ?_⟩
  · simp [Links.unlink, Links.join, hnext, hprevious]
  · have hxc : x ≠ c := fun heq => hx (hmem x (heq ▸ hc))
    simp [Links.join, hxc]
  · have hxb : x ≠ b := fun heq => hx (hmem x (heq ▸ hb))
    simp [Links.join, hxb]
  · simp [Links.join, hca.symm, hnext]

/-- The pointer to a ring is moved on when it is to the node that is taken out. -/
theorem RingAt.start_remove {start : Option α} (h : RingAt l start (first ++ a :: second)) :
    (if start = some a then (second ++ first).head? else start) = (first ++ second).head? := by
  rw [h.start]
  cases first with
  | nil => rw [List.nil_append, List.head?_cons, if_pos rfl, List.append_nil, List.nil_append]
  | cons b first =>
      have hne : b ≠ a := fun heq =>
        (List.nodup_cons.mp h.ring.nodup).1 (heq ▸ List.mem_append_right _ List.mem_cons_self)
      rw [List.cons_append, List.head?_cons, if_neg fun heq => hne (Option.some.inj heq)]
      rfl

/-- The search from a node on, with the nodes behind it up to the end. -/
theorem ringSearch_eq {next : α → Option α} {rest : List α} {stop : α} (found : α → Bool)
    (h : Segment next (next a) rest (some stop)) (hstop : stop ∉ rest) {fuel : Nat} (hfuel : rest.length < fuel) :
    ringSearch next found stop fuel a =
      some (match (a :: rest).find? found with
        | some b => (b, true)
        | none => (stop, false)) := by
  induction rest generalizing a fuel with
  | nil =>
      obtain ⟨fuel, rfl⟩ := Nat.exists_eq_succ_of_ne_zero (Nat.ne_of_gt hfuel)
      have hnext : next a = some stop := h
      cases hfound : found a <;> simp [ringSearch, hfound, hnext]
  | cons b rest ih =>
      obtain ⟨fuel, rfl⟩ := Nat.exists_eq_succ_of_ne_zero (Nat.ne_of_gt (Nat.zero_lt_of_lt hfuel))
      obtain ⟨hnext, hrest⟩ := segment_cons.mp h
      obtain ⟨hne, hstop⟩ := List.ne_and_not_mem_of_not_mem_cons hstop
      have hloop := ih hrest hstop (Nat.lt_of_succ_lt_succ hfuel)
      cases hfound : found a with
      | true => simp [ringSearch, hfound]
      | false => simpa [ringSearch, hfound, hnext, Ne.symm hne] using hloop

/-- A search of the whole ring ends at the first node that is found, or else at the beginning. -/
theorem Ring.search (h : Ring l (a :: nodes)) (found : α → Bool) {fuel : Nat} (hfuel : nodes.length < fuel) :
    ringSearch l.next found a fuel a =
      some (match (a :: nodes).find? found with
        | some b => (b, true)
        | none => (a, false)) :=
  ringSearch_eq found (segment_of_isChain h.isChain) (List.nodup_cons.mp h.nodup).1 hfuel

end stores

end DeviceSample.Base
