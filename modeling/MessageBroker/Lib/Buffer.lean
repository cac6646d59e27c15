import Mathlib.Tactic

namespace MessageBroker.Lib

variable {α : Type*} {n : ℕ}

def writeAt (mem : List α) (off : ℕ) (xs : List α) : List α :=
  mem.take off ++ xs ++ mem.drop (off + xs.length)

lemma writeAt_append (front rest xs : List α) :
    writeAt (front ++ rest) front.length xs = front ++ xs ++ rest.drop xs.length := by
  simp [writeAt, List.drop_append]

def slice (mem : List α) (off n : ℕ) : List α := (mem.drop off).take n

lemma writeAt_length {mem xs : List α} {off : ℕ} (h : off + xs.length ≤ mem.length) :
    (writeAt mem off xs).length = mem.length := by
  simp only [writeAt, List.length_append, List.length_take, List.length_drop]
  omega

lemma writeAt_length_le (mem xs : List α) (off : ℕ) : mem.length ≤ (writeAt mem off xs).length := by
  simp only [writeAt, List.length_append, List.length_take, List.length_drop]
  omega

lemma writeAt_reaches {mem : List α} {off : ℕ} (xs : List α) (h : off ≤ mem.length) :
    off + xs.length ≤ (writeAt mem off xs).length := by
  simp only [writeAt, List.length_append, List.length_take, List.length_drop]
  omega

lemma slice_writeAt {mem : List α} {off : ℕ} (xs : List α) (h : off ≤ mem.length) :
    slice (writeAt mem off xs) off xs.length = xs := by
  have hlen : (mem.take off).length = off := by
    rw [List.length_take]
    omega
  rw [slice, writeAt, List.append_assoc, List.drop_left' hlen, List.take_left]

lemma slice_writeAt_self {mem xs : List α} {off : ℕ} (h : off + xs.length ≤ mem.length) :
    slice (writeAt mem off xs) off xs.length = xs := slice_writeAt xs (by omega)

lemma slice_writeAt_before {mem xs : List α} {off o k : ℕ} (h : off + xs.length ≤ mem.length)
    (hk : o + k ≤ off) : slice (writeAt mem off xs) o k = slice mem o k := by
  have hlen : k ≤ ((mem.take off).drop o).length := by
    rw [List.length_drop, List.length_take]
    omega
  have ho : o ≤ (mem.take off).length := by
    rw [List.length_take]
    omega
  rw [slice, slice, writeAt, List.append_assoc, List.drop_append_of_le_length ho,
    List.take_append_of_le_length hlen, List.drop_take, List.take_take]
  congr 1
  omega

lemma slice_writeAt_after {mem xs : List α} {off o k : ℕ} (h : off + xs.length ≤ mem.length)
    (ho : off + xs.length ≤ o) : slice (writeAt mem off xs) o k = slice mem o k := by
  have hlen : (mem.take off ++ xs).length = off + xs.length := by
    rw [List.length_append, List.length_take]
    omega
  have hd : o = (mem.take off ++ xs).length + (o - (off + xs.length)) := by omega
  rw [slice, slice, writeAt, hd, List.drop_length_add_append, List.drop_drop]
  congr 2
  omega

structure Holds (n : ℕ) (mem : List α) (records : List (List α)) : Prop where
  width : ∀ r ∈ records, r.length = n
  front : records.flatten <+: mem

lemma flatten_length {records : List (List α)} (h : ∀ r ∈ records, r.length = n) :
    records.flatten.length = n * records.length := by
  induction records with
  | nil => rfl
  | cons r records ih =>
    have hr := h r List.mem_cons_self
    have hh := ih (fun r' hr' => h r' (List.mem_cons_of_mem _ hr'))
    rw [List.flatten_cons, List.length_append, hh, hr, List.length_cons, Nat.mul_succ, Nat.add_comm]

namespace Holds

variable {mem : List α} {records : List (List α)} {r : List α} {k : ℕ}

lemma nil : Holds n mem [] := ⟨by simp, List.nil_prefix⟩

lemma append (h : Holds n mem records) (hr : r.length = n) :
    Holds n (writeAt mem (n * records.length) r) (records ++ [r]) := by
  obtain ⟨hw, rest, rfl⟩ := h
  constructor
  · intro r' hr'
    rcases List.mem_append.mp hr' with hr' | hr'
    · exact hw r' hr'
    · exact List.mem_singleton.mp hr' ▸ hr
  · rw [← flatten_length hw, writeAt_append]
    exact ⟨rest.drop r.length, by simp⟩

lemma read (h : Holds n mem records) (hk : records[k]? = some r) :
    (mem.drop (n * k)).take n = r := by
  obtain ⟨hw, rest, rfl⟩ := h
  induction records generalizing k with
  | nil => cases hk
  | cons r' records ih =>
    have hr' := hw r' List.mem_cons_self
    cases k with
    | zero =>
      cases Option.some.inj hk
      rw [List.flatten_cons, List.append_assoc, Nat.mul_zero, List.drop_zero, ← hr', List.take_left]
    | succ k =>
      have hd : n * (k + 1) = r'.length + n * k := by rw [hr', Nat.mul_succ, Nat.add_comm]
      rw [List.flatten_cons, List.append_assoc, hd, List.drop_length_add_append]
      exact ih (by simpa using hk) (fun r hr => hw r (List.mem_cons_of_mem _ hr))

end Holds

end MessageBroker.Lib
