import Mathlib.Tactic

/-! The growing vector of pointers of utils/vector.c. The pointers are the indices of the
allocations they point to, and qsort is a parameter. -/

namespace MessageBroker.Manager

inductive Panic
  | capacityExceeded
  | unknownError
  -- more packets than bytes in the FIFO
  | endless
  deriving DecidableEq

structure PointerVector where
  -- buff[0] to buff[size - 1]
  buff : List ℕ
  capacity : ℕ
  fits : buff.length ≤ capacity

def vectorCreate (initialCapacity : ℕ) : PointerVector := ⟨[], initialCapacity, Nat.zero_le _⟩

def growth (capacity : ℕ) : ℕ := if capacity / 2 < 1 then 1 else capacity / 2

lemma growth_pos (capacity : ℕ) : 0 < growth capacity := by
  rw [growth]
  split_ifs <;> omega

lemma fits_grown {xs : List ℕ} {capacity : ℕ} (h : xs.length ≤ capacity) (data : ℕ) :
    (xs ++ [data]).length ≤ capacity + growth capacity := by
  have hg := growth_pos capacity
  rw [List.length_append, List.length_singleton]
  omega

lemma fits_pushed {xs : List ℕ} {capacity : ℕ} (h : xs.length ≤ capacity)
    (hne : xs.length ≠ capacity) (data : ℕ) : (xs ++ [data]).length ≤ capacity := by
  rw [List.length_append, List.length_singleton]
  omega

def vectorPush (v : PointerVector) (data : ℕ) : Except Panic PointerVector :=
  if h : v.buff.length = v.capacity then
    if 100000 < v.capacity + growth v.capacity then .error .capacityExceeded
    else .ok ⟨v.buff ++ [data], v.capacity + growth v.capacity, fits_grown v.fits data⟩
  else .ok ⟨v.buff ++ [data], v.capacity, fits_pushed v.fits h data⟩

def vectorSort (qsort : (ℕ → ℕ → ℤ) → List ℕ → List ℕ) (cmp : ℕ → ℕ → ℤ) (v : PointerVector) :
    List ℕ :=
  if 1 < v.buff.length then qsort cmp v.buff else v.buff

/-- What the C library promises of qsort for a comparator that is a total preorder. -/
structure Sorts (qsort : (ℕ → ℕ → ℤ) → List ℕ → List ℕ) : Prop where
  perm : ∀ cmp xs, (qsort cmp xs).Perm xs
  sorted : ∀ cmp xs, (∀ a b, cmp a b ≤ 0 ∨ cmp b a ≤ 0) →
    (∀ a b c, cmp a b ≤ 0 → cmp b c ≤ 0 → cmp a c ≤ 0) →
    (qsort cmp xs).Pairwise (fun a b => cmp a b ≤ 0)

/-- The capacities of the vector of the list command, as long as it may grow. -/
def capacities : List ℕ := List.iterate (fun c => c + growth c) 5 25

def capacityLimit : ℕ := 71140

lemma capacities_grow : ∀ c ∈ capacities, c ≠ capacityLimit →
    c + growth c ≤ 100000 ∧ c + growth c ∈ capacities := by
  decide

lemma vectorPush_cases {v : PointerVector} (hv : v.capacity ∈ capacities)
    (data : ℕ) :
    (vectorPush v data = .error .capacityExceeded ∧ capacityLimit ≤ v.buff.length) ∨
      ∃ w, vectorPush v data = .ok w ∧ w.buff = v.buff ++ [data] ∧ w.capacity ∈ capacities := by
  rw [vectorPush]
  by_cases hc : v.capacity = capacityLimit
  · split_ifs with h hcap
    · exact .inl ⟨rfl, by omega⟩
    · rw [hc] at hcap
      exact (hcap (by decide)).elim
    · exact .inr ⟨_, rfl, rfl, hv⟩
  · obtain ⟨hle, hmem⟩ := capacities_grow v.capacity hv hc
    split_ifs with h hcap
    · omega
    · exact .inr ⟨_, rfl, rfl, hmem⟩
    · exact .inr ⟨_, rfl, rfl, hv⟩

variable {qsort : (ℕ → ℕ → ℤ) → List ℕ → List ℕ} {cmp : ℕ → ℕ → ℤ} {v : PointerVector}

lemma vectorSort_perm (hq : Sorts qsort) : (vectorSort qsort cmp v).Perm v.buff := by
  rw [vectorSort]
  split_ifs
  · exact hq.perm cmp v.buff
  · exact .refl _

lemma vectorSort_sorted (hq : Sorts qsort) (htotal : ∀ a b, cmp a b ≤ 0 ∨ cmp b a ≤ 0)
    (htrans : ∀ a b c, cmp a b ≤ 0 → cmp b c ≤ 0 → cmp a c ≤ 0) :
    (vectorSort qsort cmp v).Pairwise (fun a b => cmp a b ≤ 0) := by
  rw [vectorSort]
  split_ifs with h
  · exact hq.sorted cmp v.buff htotal htrans
  · cases hb : v.buff with
    | nil => exact .nil
    | cons p ps =>
      have hnil : ps = [] := by
        apply List.length_eq_zero_iff.mp
        rw [hb, List.length_cons] at h
        omega
      subst hnil
      exact List.pairwise_singleton _ p

end MessageBroker.Manager
