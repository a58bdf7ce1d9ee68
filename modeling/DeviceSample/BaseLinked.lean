import Mathlib.Data.List.Basic

/-!
Linked lists in a memory. The links are a function from a node to the pointer it holds; a segment is the
list of nodes between two pointers. Where a node is stored to, the segments that do not have it are kept.
-/

namespace DeviceSample.Base

variable {α : Type*} {link link' : α → Option α} {start stop : Option α} {a b : α} {nodes nodes' : List α}

/-- From one pointer to another along the links, through the nodes of a list. -/
def Segment (link : α → Option α) : Option α → List α → Option α → Prop
  | start, [], stop => start = stop
  | start, a :: nodes, stop => start = some a ∧ Segment link (link a) nodes stop

/-- The nodes from a pointer on, up to the null pointer. -/
def Linked (link : α → Option α) (start : Option α) (nodes : List α) : Prop := Segment link start nodes none

/-- `for (; node; node = link(node))`, in at most so many rounds: the nodes that the loop visits. -/
def nodesFrom (link : α → Option α) : Nat → Option α → List α
  | _, none => []
  | 0, some _ => []
  | fuel + 1, some a => a :: nodesFrom link fuel (link a)

theorem segment_cons : Segment link start (a :: nodes) stop ↔ start = some a ∧ Segment link (link a) nodes stop :=
  Iff.rfl

theorem linked_nil : Linked link start ([] : List α) ↔ start = none := Iff.rfl

theorem linked_cons : Linked link start (a :: nodes) ↔ start = some a ∧ Linked link (link a) nodes := Iff.rfl

theorem segment_append :
    Segment link start (nodes ++ nodes') stop ↔
      ∃ middle, Segment link start nodes middle ∧ Segment link middle nodes' stop := by
  induction nodes generalizing start with
  | nil => exact ⟨fun h => ⟨start, rfl, h⟩, fun ⟨_, h, h'⟩ => h ▸ h'⟩
  | cons a nodes ih =>
      rw [List.cons_append, segment_cons, ih]
      constructor
      · rintro ⟨hstart, middle, hfirst, hsecond⟩
        exact ⟨middle, ⟨hstart, hfirst⟩, hsecond⟩
      · rintro ⟨middle, ⟨hstart, hfirst⟩, hsecond⟩
        exact ⟨hstart, middle, hfirst, hsecond⟩

/-- A segment depends on the links of its own nodes only. -/
theorem Segment.congr (h : Segment link start nodes stop) (hlinks : ∀ a ∈ nodes, link' a = link a) :
    Segment link' start nodes stop := by
  induction nodes generalizing start with
  | nil => exact h
  | cons a nodes ih =>
      refine ⟨h.1, ?_⟩
      rw [hlinks a List.mem_cons_self]
      exact ih h.2 fun b hb => hlinks b (List.mem_cons_of_mem a hb)

theorem Linked.congr (h : Linked link start nodes) (hlinks : ∀ a ∈ nodes, link' a = link a) :
    Linked link' start nodes := Segment.congr h hlinks

/-- The last node's link is where the segment stops. -/
theorem segment_concat :
    Segment link start (nodes ++ [a]) stop ↔ Segment link start nodes (some a) ∧ link a = stop := by
  rw [segment_append]
  constructor
  · rintro ⟨_, hfirst, rfl, hstop⟩
    exact ⟨hfirst, hstop⟩
  · rintro ⟨hfirst, hstop⟩
    exact ⟨some a, hfirst, rfl, hstop⟩

theorem Linked.start_eq (h : Linked link start nodes) : start = nodes.head? := by
  cases nodes with
  | nil => exact h
  | cons a nodes => exact h.1

theorem Linked.unique (h : Linked link start nodes) (h' : Linked link start nodes') : nodes = nodes' := by
  induction nodes generalizing start nodes' with
  | nil =>
      cases nodes' with
      | nil => rfl
      | cons b rest => cases (show start = none from h).symm.trans h'.1
  | cons a nodes ih =>
      cases nodes' with
      | nil => cases h.1.symm.trans (show start = none from h')
      | cons b rest =>
          cases h.1.symm.trans h'.1
          rw [ih h.2 h'.2]

/-- The loop over a linked list visits its nodes, when it has a round for each. -/
theorem nodesFrom_eq (h : Linked link start nodes) {fuel : Nat} (hfuel : nodes.length ≤ fuel) :
    nodesFrom link fuel start = nodes := by
  induction nodes generalizing start fuel with
  | nil =>
      rw [linked_nil.mp h]
      cases fuel <;> rfl
  | cons a nodes ih =>
      obtain ⟨rfl, hrest⟩ := linked_cons.mp h
      cases fuel with
      | zero => cases hfuel
      | succ fuel => rw [nodesFrom, ih hrest (Nat.le_of_succ_le_succ hfuel)]

/-- Storing the head of another list to the link of the last node joins the two. -/
theorem Linked.join (h : Linked link start (nodes ++ [a])) (h' : Linked link stop nodes') (hlast : link' a = stop)
    (hlinks : ∀ b ∈ nodes ++ nodes', link' b = link b) : Linked link' start (nodes ++ [a] ++ nodes') := by
  rw [Linked, segment_append]
  refine ⟨stop, segment_concat.mpr ⟨?_, hlast⟩, ?_⟩
  · exact (segment_concat.mp h).1.congr fun b hb => hlinks b (List.mem_append_left _ hb)
  · exact h'.congr fun b hb => hlinks b (List.mem_append_right _ hb)

end DeviceSample.Base
