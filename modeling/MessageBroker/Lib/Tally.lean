import Mathlib.Tactic
import Mathlib.Algebra.BigOperators.Group.Finset.Piecewise
import Mathlib.Algebra.BigOperators.Group.Finset.Basic
import Mathlib.Combinatorics.Enumerative.DoubleCounting

namespace MessageBroker.Lib

variable {ι α : Type*} [Fintype ι]

omit [Fintype ι] in
lemma update_cases [DecidableEq ι] {g : ι → α} {i j : ι} {x y : α}
    (h : Function.update g i x j = y) : (j = i ∧ x = y) ∨ (j ≠ i ∧ g j = y) := by
  by_cases hj : j = i
  · subst hj
    rw [Function.update_self] at h
    exact .inl ⟨rfl, h⟩
  · rw [Function.update_of_ne hj] at h
    exact .inr ⟨hj, h⟩

def total (w : α → ℕ) (g : ι → α) : ℕ := ∑ i, w (g i)

def tally (p : α → Bool) (g : ι → α) : ℕ := total (fun x => (p x).toNat) g

lemma total_update [DecidableEq ι] (w : α → ℕ) (g : ι → α) (i : ι) (x : α) :
    total w (Function.update g i x) + w (g i) = total w g + w x := by
  have hg : total w g = w (g i) + ∑ j ∈ Finset.univ \ {i}, w (g j) := by
    simpa [total] using
      Finset.sum_eq_add_sum_sdiff_singleton_of_mem (Finset.mem_univ i) (fun j => w (g j))
  have hu : total w (Function.update g i x) = w x + ∑ j ∈ Finset.univ \ {i}, w (g j) := by
    rw [total, ← Finset.sum_update_of_mem (Finset.mem_univ i) (fun j => w (g j))]
    apply Finset.sum_congr rfl
    intro j _
    by_cases hj : j = i
    · subst hj; simp
    · simp [Function.update_of_ne hj]
  omega

lemma tally_update [DecidableEq ι] (p : α → Bool) (g : ι → α) (i : ι) (x : α) :
    tally p (Function.update g i x) + (p (g i)).toNat = tally p g + (p x).toNat :=
  total_update (fun x => (p x).toNat) g i x

lemma tally_eq_zero {p : α → Bool} {g : ι → α} : tally p g = 0 ↔ ∀ i, p (g i) = false := by
  simp [tally, total]

lemma tally_pos {p : α → Bool} {g : ι → α} : 0 < tally p g ↔ ∃ i, p (g i) = true := by
  rw [Nat.pos_iff_ne_zero, ne_eq, tally_eq_zero]
  simp

lemma tally_le_card (p : α → Bool) (g : ι → α) : tally p g ≤ Fintype.card ι := by
  have h : tally p g ≤ ∑ _i : ι, 1 := Finset.sum_le_sum (fun i _ => Bool.toNat_le (p (g i)))
  simpa using h

lemma tally_congr {β : Type*} {p : α → Bool} {q : β → Bool} {g : ι → α} {h : ι → β}
    (he : ∀ i, p (g i) = q (h i)) : tally p g = tally q h := by
  simp only [tally, total, he]

lemma tally_const {p : α → Bool} {x : α} (h : p x = false) : tally p (fun _ : ι => x) = 0 :=
  tally_eq_zero.mpr (fun _ => h)

lemma tally_unit (p : α → Bool) (g : Unit → α) : tally p g = (p (g ())).toNat := by
  simp [tally, total]

lemma sum_add_le_of_single {f g : ι → ℕ} {k : ℕ} (i : ι) (hi : g i + k ≤ f i)
    (h : ∀ j, j ≠ i → g j ≤ f j) : (∑ j, g j) + k ≤ ∑ j, f j := by
  classical
  rw [← Finset.add_sum_erase _ g (Finset.mem_univ i),
    ← Finset.add_sum_erase _ f (Finset.mem_univ i)]
  have hrest : ∑ j ∈ Finset.univ.erase i, g j ≤ ∑ j ∈ Finset.univ.erase i, f j := by
    apply Finset.sum_le_sum
    intro j hj
    exact h j (Finset.ne_of_mem_erase hj)
  omega

lemma sum_le_add_card {f g : ι → ℕ} {k : ℕ} (h : ∀ j, g j ≤ f j + k) :
    ∑ j, g j ≤ ∑ j, f j + k * Fintype.card ι := by
  have hsum : ∑ j, g j ≤ ∑ j, (f j + k) := Finset.sum_le_sum (fun j _ => h j)
  simpa [Finset.sum_add_distrib, Nat.mul_comm] using hsum

section Matching

variable {β : Type*} {s : Finset α} {t : Finset β} {n : ℕ} {P : ℕ → Prop} [DecidablePred P]

omit [Fintype ι] [DecidablePred P] in
lemma card_eq_of_matching (r : α → β → Prop) (hs : ∀ a ∈ s, ∃ b ∈ t, r a b)
    (ht : ∀ b ∈ t, ∃ a ∈ s, r a b) (left : ∀ {a a' b}, r a b → r a' b → a = a')
    (right : ∀ {a b b'}, r a b → r a b' → b = b') : s.card = t.card := by
  apply le_antisymm
  · apply Finset.card_le_card_of_forall_subsingleton r hs
    rintro b - a ⟨-, ha⟩ a' ⟨-, ha'⟩
    exact left ha ha'
  · apply Finset.card_le_card_of_forall_subsingleton' r ht
    rintro a - b ⟨-, hb⟩ b' ⟨-, hb'⟩
    exact right hb hb'

lemma le_card_filter_iff : n ≤ ((Finset.range n).filter P).card ↔ ∀ i < n, P i := by
  have hle := Finset.card_filter_le (Finset.range n) P
  have heq := @Finset.card_filter_eq_iff _ (Finset.range n) P _
  rw [Finset.card_range] at hle heq
  rw [show (n ≤ _ ↔ _ = n) from ⟨fun h => le_antisymm hle h, fun h => h.ge⟩, heq]
  simp

lemma le_card_filter_succ_iff (h0 : 0 < n) :
    n ≤ ((Finset.range n).filter (fun i => 0 < i ∧ P i)).card + 1 ↔ ∀ i < n, 0 < i → P i := by
  have hinsert : (Finset.range n).filter (fun i => i = 0 ∨ P i) =
      insert 0 ((Finset.range n).filter (fun i => 0 < i ∧ P i)) := by
    ext i
    simp only [Finset.mem_filter, Finset.mem_range, Finset.mem_insert]
    rcases Nat.eq_zero_or_pos i with rfl | hi
    · simp [h0]
    · simp [hi, hi.ne']
  rw [← Finset.card_insert_of_notMem (a := 0) (by simp), ← hinsert, le_card_filter_iff]
  apply forall₂_congr
  intro i _
  rcases Nat.eq_zero_or_pos i with rfl | hi
  · simp
  · simp [hi, hi.ne']

end Matching

end MessageBroker.Lib
