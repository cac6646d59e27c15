import Mathlib.Tactic

/-! Singly linked lists in a heap of nodes: list segments, what a store to one node does to
them, and the bound they put on a traversal. -/

namespace MessageBroker.Lib

structure Node (α : Type*) where
  value : α
  next : Option ℕ

structure Heap (α : Type*) where
  cells : ℕ → Option (Node α)
  top : ℕ
  unused : ∀ p, top ≤ p → cells p = none

namespace Heap

variable {α : Type*}

def empty : Heap α := ⟨fun _ => none, 0, fun _ _ => rfl⟩

def alloc (h : Heap α) (p : ℕ) (node : Node α) : Heap α where
  cells := Function.update h.cells p (some node)
  top := max h.top (p + 1)
  unused := by
    intro q hq
    rw [Function.update_of_ne (by omega)]
    exact h.unused q (by omega)

def free (h : Heap α) (p : ℕ) : Heap α where
  cells := Function.update h.cells p none
  top := h.top
  unused := by
    intro q hq
    by_cases he : q = p
    · rw [he, Function.update_self]
    · rw [Function.update_of_ne he]
      exact h.unused q hq

def store (h : Heap α) (p : ℕ) (f : Node α → Node α) : Heap α where
  cells := Function.update h.cells p ((h.cells p).map f)
  top := h.top
  unused := by
    intro q hq
    by_cases he : q = p
    · rw [he, Function.update_self, h.unused p (he ▸ hq)]
      rfl
    · rw [Function.update_of_ne he]
      exact h.unused q hq

def setNext (h : Heap α) (p : ℕ) (next : Option ℕ) : Heap α :=
  h.store p (fun node => { node with next := next })

def setValue (h : Heap α) (p : ℕ) (f : α → α) : Heap α :=
  h.store p (fun node => { node with value := f node.value })

variable {h h' : Heap α} {p q : ℕ}

lemma alloc_other (node : Node α) (hq : q ≠ p) : (h.alloc p node).cells q = h.cells q :=
  Function.update_of_ne hq _ _

lemma alloc_self (node : Node α) :
    (h.alloc p node).cells p = some node := Function.update_self _ _ _

lemma free_other (hq : q ≠ p) : (h.free p).cells q = h.cells q := Function.update_of_ne hq _ _

lemma store_other (f : Node α → Node α) (hq : q ≠ p) : (h.store p f).cells q = h.cells q :=
  Function.update_of_ne hq _ _

lemma store_self (f : Node α → Node α) : (h.store p f).cells p = (h.cells p).map f :=
  Function.update_self _ _ _

/-- The nodes met on the way from `start` to `stop`. -/
def Segment (h : Heap α) : Option ℕ → List (ℕ × α) → Option ℕ → Prop
  | start, [], stop => start = stop
  | start, (p, v) :: xs, stop =>
    start = some p ∧ ∃ next, h.cells p = some ⟨v, next⟩ ∧ Segment h next xs stop

def Chain (h : Heap α) (start : Option ℕ) (xs : List (ℕ × α)) : Prop := h.Segment start xs none

variable {start mid stop : Option ℕ} {xs ys : List (ℕ × α)} {v : α}

lemma segment_append :
    h.Segment start (xs ++ ys) stop ↔
      ∃ mid, h.Segment start xs mid ∧ h.Segment mid ys stop := by
  induction xs generalizing start with
  | nil => simp [Segment]
  | cons x xs ih =>
    obtain ⟨p, v⟩ := x
    constructor
    · rintro ⟨rfl, next, hp, hs⟩
      obtain ⟨mid, hx, hy⟩ := ih.mp hs
      exact ⟨mid, ⟨rfl, next, hp, hx⟩, hy⟩
    · rintro ⟨mid, ⟨rfl, next, hp, hx⟩, hy⟩
      exact ⟨rfl, next, hp, ih.mpr ⟨mid, hx, hy⟩⟩

lemma Segment.congr (hs : h.Segment start xs stop)
    (hc : ∀ p ∈ xs.map Prod.fst, h'.cells p = h.cells p) : h'.Segment start xs stop := by
  induction xs generalizing start with
  | nil => exact hs
  | cons x xs ih =>
    obtain ⟨p, v⟩ := x
    obtain ⟨rfl, next, hp, hs⟩ := hs
    refine ⟨rfl, next, ?_, ih hs (fun q hq => hc q (List.mem_cons_of_mem _ hq))⟩
    rw [hc p List.mem_cons_self, hp]

lemma Segment.cell (hs : h.Segment start xs stop) (hx : (p, v) ∈ xs) :
    ∃ next, h.cells p = some ⟨v, next⟩ := by
  induction xs generalizing start with
  | nil => cases hx
  | cons x xs ih =>
    obtain ⟨q, w⟩ := x
    obtain ⟨rfl, next, hq, hs⟩ := hs
    rcases List.mem_cons.mp hx with he | hx
    · cases he
      exact ⟨next, hq⟩
    · exact ih hs hx

lemma Chain.unique (hx : h.Chain start xs) (hy : h.Chain start ys) : xs = ys := by
  induction xs generalizing start ys with
  | nil =>
    cases ys with
    | nil => rfl
    | cons y ys =>
      obtain ⟨q, w⟩ := y
      cases hx
      cases hy.1
  | cons x xs ih =>
    obtain ⟨p, v⟩ := x
    obtain ⟨rfl, next, hp, hx⟩ := hx
    cases ys with
    | nil => cases hy
    | cons y ys =>
      obtain ⟨q, w⟩ := y
      obtain ⟨he, next', hq, hy⟩ := hy
      cases Option.some.inj he
      rw [hp] at hq
      cases hq
      rw [ih hx hy]

lemma Chain.nodup (hx : h.Chain start xs) : (xs.map Prod.fst).Nodup := by
  induction xs generalizing start with
  | nil => exact List.nodup_nil
  | cons x xs ih =>
    obtain ⟨p, v⟩ := x
    have hwhole := hx
    obtain ⟨rfl, next, hp, hs⟩ := hx
    refine List.nodup_cons.mpr ⟨fun hmem => ?_, ih hs⟩
    obtain ⟨⟨q, w⟩, hqw, he⟩ := List.mem_map.mp hmem
    dsimp only at he
    subst he
    obtain ⟨as, bs, rfl⟩ := List.append_of_mem hqw
    obtain ⟨mid, -, hq⟩ := segment_append.mp hs
    have hmid : mid = some q := hq.1
    subst hmid
    have heq := congrArg List.length (Chain.unique hwhole hq)
    simp only [List.length_cons, List.length_append] at heq
    omega

lemma Chain.length_le (hx : h.Chain start xs) : xs.length ≤ h.top := by
  have hsub : xs.map Prod.fst ⊆ List.range h.top := by
    intro p hp
    obtain ⟨⟨q, v⟩, hmem, rfl⟩ := List.mem_map.mp hp
    obtain ⟨next, hc⟩ := Segment.cell hx hmem
    rw [List.mem_range]
    by_contra hge
    rw [h.unused q (by omega)] at hc
    cases hc
  have hle := (hx.nodup.subperm hsub).length_le
  simpa using hle

lemma Chain.value_unique {w : α} (hx : h.Chain start xs) (hv : (p, v) ∈ xs) (hw : (p, w) ∈ xs) :
    v = w := by
  obtain ⟨next, hc⟩ := Segment.cell hx hv
  obtain ⟨next', hc'⟩ := Segment.cell hx hw
  rw [hc] at hc'
  cases hc'
  rfl

lemma Segment.relink (hs : h.Segment start (xs ++ [(q, v)]) stop)
    (hq : q ∉ xs.map Prod.fst) (next : Option ℕ) :
    (h.setNext q next).Segment start (xs ++ [(q, v)]) next := by
  obtain ⟨mid, hx, rfl, old, hc, rfl⟩ := segment_append.mp hs
  refine segment_append.mpr ⟨some q, hx.congr (fun p hp => ?_), rfl, next, ?_, rfl⟩
  · exact store_other _ (fun he => hq (he ▸ hp))
  · rw [setNext, store_self, hc]
    rfl

lemma Segment.setValue (hs : h.Segment start xs stop) (p : ℕ) (f : α → α) :
    (h.setValue p f).Segment start (xs.map fun x => if x.1 = p then (x.1, f x.2) else x) stop := by
  induction xs generalizing start with
  | nil => exact hs
  | cons x xs ih =>
    obtain ⟨q, v⟩ := x
    obtain ⟨rfl, next, hq, hs⟩ := hs
    rw [List.map_cons]
    by_cases he : q = p
    · subst he
      rw [if_pos rfl]
      exact ⟨rfl, next, by rw [Heap.setValue, store_self, hq]; rfl, ih hs⟩
    · rw [if_neg he]
      exact ⟨rfl, next, by rw [Heap.setValue, store_other _ he, hq], ih hs⟩

section MapValues

def mapValues (f : α → α) (h : Heap α) : Heap α where
  cells := fun p => (h.cells p).map (fun node => { node with value := f node.value })
  top := h.top
  unused := by
    intro p hp
    rw [h.unused p hp]
    rfl

variable {f g : α → α}

lemma mapValues_eq_none : (h.mapValues f).cells p = none ↔ h.cells p = none :=
  Option.map_eq_none_iff

end MapValues

end Heap

end MessageBroker.Lib
