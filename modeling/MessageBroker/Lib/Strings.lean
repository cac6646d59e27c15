import MessageBroker.Lib.CString
import Mathlib.Data.List.Lex
import Mathlib.Data.List.TakeWhile

/-! The comparisons of string.h on memory: the order of what stands before the first NUL. The
end of the memory counts as a NUL. -/

namespace MessageBroker.Lib

def text (mem : List UInt8) : List UInt8 := mem.takeWhile (fun b => b != 0)

def strcmp : List UInt8 → List UInt8 → ℤ
  | [], [] => 0
  | [], b :: _ => -(b.toNat : ℤ)
  | a :: _, [] => (a.toNat : ℤ)
  | a :: as, b :: bs =>
    if a ≠ b then (a.toNat : ℤ) - b.toNat else if a = 0 then 0 else strcmp as bs

def strncmp : ℕ → List UInt8 → List UInt8 → ℤ
  | 0, _, _ => 0
  | _ + 1, [], [] => 0
  | _ + 1, [], b :: _ => -(b.toNat : ℤ)
  | _ + 1, a :: _, [] => (a.toNat : ℤ)
  | n + 1, a :: as, b :: bs =>
    if a ≠ b then (a.toNat : ℤ) - b.toNat else if a = 0 then 0 else strncmp n as bs

variable {a b c : List UInt8}

lemma text_nil : text [] = [] := rfl

lemma text_cons (x : UInt8) (xs : List UInt8) :
    text (x :: xs) = if x = 0 then [] else x :: text xs := by
  by_cases h : x = 0
  · simp [text, h]
  · simp [text, h]

lemma text_noNul (mem : List UInt8) : 0 ∉ text mem := by
  intro h
  have hz := List.mem_takeWhile_imp h
  simp at hz

lemma bne_zero (h : 0 ∉ a) : ∀ x ∈ a, (x != 0) = true := by
  intro x hx
  have hne : x ≠ 0 := fun he => h (he ▸ hx)
  simpa using hne

lemma text_of_noNul (h : 0 ∉ a) : text a = a :=
  List.takeWhile_eq_self_iff.mpr (bne_zero h)

lemma text_append_nul (h : 0 ∉ a) (b : List UInt8) : text (a ++ 0 :: b) = a := by
  rw [text, List.takeWhile_append_of_pos (bne_zero h)]
  simp

lemma text_of_take {l : List UInt8} {n : ℕ} (h : (text (l.take n)).length < n) :
    text l = text (l.take n) := by
  induction l generalizing n with
  | nil => simp
  | cons x xs ih =>
    cases n with
    | zero => cases h
    | succ n =>
      rw [List.take_succ_cons, text_cons] at *
      rw [text_cons]
      split_ifs at * with hx
      · rfl
      · rw [ih (by simpa using h)]

def textKey (mem : List UInt8) : List ℕ := (text mem).map UInt8.toNat

lemma textKey_inj : textKey a = textKey b ↔ text a = text b := by
  constructor
  · intro h
    apply List.map_injective_iff.mpr _ h
    intro x y
    exact UInt8.toNat_inj.mp
  · intro h
    rw [textKey, h, textKey]

lemma toNat_pos {x : UInt8} (h : x ≠ 0) : 0 < x.toNat := by
  apply Nat.pos_of_ne_zero
  intro hz
  exact h (UInt8.toNat_inj.mp hz)

lemma textKey_nil : textKey [] = [] := rfl

lemma textKey_cons (x : UInt8) (xs : List UInt8) :
    textKey (x :: xs) = if x = 0 then [] else x.toNat :: textKey xs := by
  rw [textKey, text_cons]
  split_ifs <;> rfl

lemma strcmp_key (a b : List UInt8) :
    (strcmp a b = 0 ↔ textKey a = textKey b) ∧ (strcmp a b < 0 ↔ textKey a < textKey b) := by
  induction a generalizing b with
  | nil =>
    cases b with
    | nil => simp [strcmp]
    | cons y ys =>
      rw [strcmp, textKey_cons, textKey_nil]
      by_cases hy : y = 0
      · simp [hy]
      · have hp := toNat_pos hy
        simp only [if_neg hy, List.nil_lt_cons, iff_true, reduceCtorEq, iff_false]
        omega
  | cons x xs ih =>
    cases b with
    | nil =>
      rw [strcmp, textKey_cons, textKey_nil]
      by_cases hx : x = 0
      · simp [hx]
      · have hp := toNat_pos hx
        simp only [if_neg hx, List.not_lt_nil, reduceCtorEq, iff_false]
        omega
    | cons y ys =>
      rw [strcmp, textKey_cons, textKey_cons]
      by_cases hxy : x = y
      · subst hxy
        by_cases hx : x = 0
        · simp [hx]
        · obtain ⟨h₀, h₁⟩ := ih ys
          simp only [ne_eq, not_true_eq_false, if_false, if_neg hx, h₀, h₁, List.cons.injEq,
            true_and, List.cons_lt_cons_iff, lt_irrefl, false_or, and_self]
      · have hne : x.toNat ≠ y.toNat := fun he => hxy (UInt8.toNat_inj.mp he)
        rw [if_pos hxy]
        by_cases hx : x = 0
        · have hy : y ≠ 0 := fun he => hxy (hx.trans he.symm)
          have hp := toNat_pos hy
          simp only [hx, if_true, if_neg hy, List.nil_lt_cons, iff_true, reduceCtorEq, iff_false]
          simp
          omega
        · by_cases hy : y = 0
          · have hp := toNat_pos hx
            simp only [hy, if_true, if_neg hx, List.not_lt_nil, iff_false, reduceCtorEq]
            simp
            omega
          · simp only [if_neg hx, if_neg hy, List.cons.injEq, List.cons_lt_cons_iff]
            constructor <;> omega

lemma strcmp_eq_zero : strcmp a b = 0 ↔ text a = text b :=
  (strcmp_key a b).1.trans textKey_inj

lemma strcmp_le : strcmp a b ≤ 0 ↔ textKey a ≤ textKey b := by
  rw [le_iff_lt_or_eq, le_iff_lt_or_eq, (strcmp_key a b).1, (strcmp_key a b).2]

lemma strcmp_total (a b : List UInt8) : strcmp a b ≤ 0 ∨ strcmp b a ≤ 0 := by
  rw [strcmp_le, strcmp_le]
  exact le_total _ _

lemma strcmp_trans (hab : strcmp a b ≤ 0) (hbc : strcmp b c ≤ 0) : strcmp a c ≤ 0 := by
  rw [strcmp_le] at *
  exact hab.trans hbc

lemma strncmp_eq_zero (n : ℕ) (a b : List UInt8) :
    strncmp n a b = 0 ↔ (text a).take n = (text b).take n := by
  induction n generalizing a b with
  | zero => simp [strncmp]
  | succ n ih =>
    cases a with
    | nil =>
      cases b with
      | nil => simp [strncmp]
      | cons y ys =>
        by_cases hy : y = 0
        · simp [strncmp, text_cons, text_nil, hy]
        · have hp := toNat_pos hy
          simp [strncmp, text_cons, text_nil, hy]
          omega
    | cons x xs =>
      cases b with
      | nil =>
        by_cases hx : x = 0
        · simp [strncmp, text_cons, text_nil, hx]
        · have hp := toNat_pos hx
          simp [strncmp, text_cons, text_nil, hx]
          omega
      | cons y ys =>
        by_cases hxy : x = y
        · subst hxy
          by_cases hx : x = 0
          · simp [strncmp, text_cons, hx]
          · simp [strncmp, text_cons, hx, ih]
        · have hne : x.toNat ≠ y.toNat := fun he => hxy (UInt8.toNat_inj.mp he)
          have hd : (x.toNat : ℤ) - y.toNat ≠ 0 := by omega
          rw [strncmp, if_pos hxy, text_cons, text_cons]
          apply iff_of_false hd
          by_cases hx : x = 0
          · have hy : y ≠ 0 := fun he => hxy (hx.trans he.symm)
            simp [hx, hy]
          · by_cases hy : y = 0
            · simp [hx, hy]
            · simp [hx, hy, hxy]

end MessageBroker.Lib
