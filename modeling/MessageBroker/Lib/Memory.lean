import Mathlib.Tactic

namespace MessageBroker.Lib

variable {m : ℕ → UInt8} {a b n : ℕ} {bs : List UInt8}

def readMem (m : ℕ → UInt8) (a n : ℕ) : List UInt8 := (List.range n).map (fun i => m (a + i))

def writeMem (m : ℕ → UInt8) (a : ℕ) (bs : List UInt8) : ℕ → UInt8 := fun x =>
  if a ≤ x ∧ x < a + bs.length then bs.getD (x - a) 0 else m x

@[simp] lemma readMem_length (m : ℕ → UInt8) (a n : ℕ) : (readMem m a n).length = n := by
  simp [readMem]

lemma readMem_getElem? {i : ℕ} (hi : i < n) : (readMem m a n)[i]? = some (m (a + i)) := by
  simp [readMem, hi]

lemma readMem_congr {m' : ℕ → UInt8} (h : ∀ i, i < n → m (a + i) = m' (a + i)) :
    readMem m a n = readMem m' a n := by
  apply List.map_congr_left
  intro i hi
  exact h i (List.mem_range.mp hi)

lemma readMem_take {k : ℕ} (h : k ≤ n) : (readMem m a n).take k = readMem m a k := by
  rw [readMem, readMem, ← List.map_take, List.take_range, Nat.min_eq_left h]

lemma readMem_add (m : ℕ → UInt8) (a k n : ℕ) :
    readMem m a (k + n) = readMem m a k ++ readMem m (a + k) n := by
  rw [readMem, List.range_add, List.map_append, List.map_map]
  congr 1
  apply List.map_congr_left
  intro i _
  simp [Nat.add_assoc]

lemma readMem_drop (m : ℕ → UInt8) (a k n : ℕ) :
    (readMem m a n).drop k = readMem m (a + k) (n - k) := by
  apply List.ext_getElem?
  intro i
  rw [List.getElem?_drop]
  by_cases hi : i < n - k
  · rw [readMem_getElem? hi, readMem_getElem? (by omega), Nat.add_assoc]
  · rw [List.getElem?_eq_none (by rw [readMem_length]; omega),
      List.getElem?_eq_none (by rw [readMem_length]; omega)]

lemma writeMem_in {i : ℕ} (hi : i < bs.length) : writeMem m a bs (a + i) = bs.getD i 0 := by
  rw [writeMem, if_pos (by omega), Nat.add_sub_cancel_left]

lemma writeMem_out {x : ℕ} (h : x < a ∨ a + bs.length ≤ x) : writeMem m a bs x = m x := by
  rw [writeMem, if_neg (by omega)]

lemma readMem_writeMem_self : readMem (writeMem m a bs) a bs.length = bs := by
  apply List.ext_getElem?
  intro i
  by_cases hi : i < bs.length
  · rw [readMem_getElem? hi, writeMem_in hi, List.getD_eq_getElem?_getD,
      List.getElem?_eq_getElem hi]
    rfl
  · rw [List.getElem?_eq_none (by rw [readMem_length]; omega), List.getElem?_eq_none (by omega)]

lemma readMem_writeMem_eq (h : bs.length = n) : readMem (writeMem m a bs) a n = bs := by
  subst h
  exact readMem_writeMem_self

lemma readMem_writeMem_apart (h : b + n ≤ a ∨ a + bs.length ≤ b) :
    readMem (writeMem m a bs) b n = readMem m b n := by
  apply readMem_congr
  intro i hi
  exact writeMem_out (by omega)

lemma readMem_writeMem_over {k : ℕ} (hk : k ≤ n) :
    readMem (writeMem m (a + k) bs) a (max n (k + bs.length)) =
      (readMem m a n).take k ++ bs ++ (readMem m a n).drop (k + bs.length) := by
  have hmax : max n (k + bs.length) = k + (bs.length + (n - (k + bs.length))) := by omega
  have hbefore : readMem (writeMem m (a + k) bs) a k = readMem m a k :=
    readMem_writeMem_apart (.inl le_rfl)
  have hbehind : readMem (writeMem m (a + k) bs) (a + k + bs.length) (n - (k + bs.length)) =
      readMem m (a + k + bs.length) (n - (k + bs.length)) :=
    readMem_writeMem_apart (.inr le_rfl)
  rw [hmax, readMem_add, readMem_add, hbefore, readMem_writeMem_self, hbehind, readMem_take hk,
    readMem_drop, Nat.add_assoc, List.append_assoc]

end MessageBroker.Lib
