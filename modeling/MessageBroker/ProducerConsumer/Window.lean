import MessageBroker.ProducerConsumer.Accounting
import Mathlib.Order.Interval.Finset.Nat

namespace MessageBroker.ProducerConsumer

open MessageBroker.Lib

variable {E P C : Type} {n : ℕ}

def elems (cells : List (Cell E)) : List E := cells.filterMap Cell.stored

lemma elems_eq_nil {cells : List (Cell E)} (h : ∀ c ∈ cells, c.stored = none) :
    elems cells = [] := by
  simpa [elems, List.filterMap_eq_nil_iff] using h

lemma elems_eq_prefix {cells : List (Cell E)} {w : List E}
    (hw : ∀ (j : ℕ) (e : E), w[j]? = some e → cells[j]? = some (.elem e))
    (hb : ∀ (j : ℕ) (c : Cell E), w.length ≤ j → cells[j]? = some c → c.stored = none) :
    elems cells = w := by
  induction w generalizing cells with
  | nil =>
    apply elems_eq_nil
    intro c hc
    obtain ⟨j, hj⟩ := List.mem_iff_getElem?.mp hc
    exact hb j c (Nat.zero_le _) hj
  | cons a w ih =>
    cases cells with
    | nil => simpa using hw 0 a rfl
    | cons c cells =>
      obtain rfl : c = .elem a := by simpa using hw 0 a rfl
      have hh : elems cells = w := by
        apply ih
        · intro j e he
          simpa using hw (j + 1) e (by simpa using he)
        · intro j c hj hc
          exact hb (j + 1) c (by simpa using hj) (by simpa using hc)
      simpa [elems, Cell.stored] using hh

lemma elems_map_elem (w : List E) : elems (w.map .elem) = w := by
  simp [elems, List.filterMap_map, Function.comp_def, Cell.stored]

lemma slot_ne {r i j : ℕ} (hi : r ≤ i) (hin : i < r + n) (hj : r ≤ j) (hjn : j < r + n)
    (hne : i ≠ j) : i % n ≠ j % n := fun h =>
  hne (Nat.mod_injOn_Ico r n (by simp [hi, hin]) (by simp [hj, hjn]) h)

/-- Position `i` of the enqueue order owns slot `i % n` from its store to its take. -/
structure Window (n : ℕ) (s : State E P C) : Prop where
  below : s.returned.length ≤ s.stored.length
  above : s.stored.length ≤ s.returned.length + n
  returned : s.returned = (s.stored.take s.returned.length).map .elem
  occupied : ∀ i e, s.returned.length ≤ i → s.stored[i]? = some e →
    s.queue.buffer[i % n]? = some (.elem e)
  blank : ∀ i, s.stored.length ≤ i → i < s.returned.length + n →
    ∃ c, s.queue.buffer[i % n]? = some c ∧ c.stored = none
  intact : s.overwritten = []

variable [DecidableEq P] [DecidableEq C]

lemma window_initial : Window n (blocks E P C n).init where
  below := le_rfl
  above := Nat.zero_le _
  returned := rfl
  occupied i e _ he := by simp [blocks, initial] at he
  blank i _ hi := by
    have hn : i % n < n := Nat.mod_lt _ (by simp [blocks, initial] at hi; omega)
    exact ⟨.unwritten, by simp [blocks, initial, created, hn], rfl⟩
  intact := rfl

variable [Fintype P] [Fintype C] {s t : State E P C}

lemma window_store {p : P} (hn : 0 < n) (ha : Accounting n s) (h : Window n s)
    (hroom : s.stored.length < s.returned.length + n)
    (hb : blockStep s (.enqueueTransfer p) = some t) : Window n t := by
  obtain ⟨e, _, rfl⟩ := enqueueTransfer_step hb
  have hslot : s.stored.length % n < s.queue.buffer.length := by
    rw [ha.length]; exact Nat.mod_lt _ hn
  obtain ⟨hbelow, habove, hret, hocc, hblank, hint⟩ := h
  refine ⟨by simp; omega, by simp; omega, ?_, ?_, ?_, ?_⟩
  · have htake : (s.stored ++ [e]).take s.returned.length = s.stored.take s.returned.length :=
      List.take_append_of_le_length hbelow
    simpa only [htake] using hret
  · intro i a hi ha'
    simp only [PcQueue.enqueueTransfer, ha.head]
    rcases Nat.lt_trichotomy i s.stored.length with hlt | rfl | hgt
    · rw [List.getElem?_set_ne (slot_ne hbelow hroom hi (by omega) (by omega))]
      exact hocc i a hi (by rwa [List.getElem?_append_left hlt] at ha')
    · obtain rfl : e = a := by simpa using ha'
      rw [List.getElem?_set_self hslot]
    · rw [List.getElem?_eq_none (by simp; omega)] at ha'
      cases ha'
  · intro i hi hin
    simp only [List.length_append, List.length_singleton] at hi
    obtain ⟨c, hc, hcs⟩ := hblank i (by omega) hin
    refine ⟨c, ?_, hcs⟩
    simp only [PcQueue.enqueueTransfer, ha.head]
    rwa [List.getElem?_set_ne (slot_ne hbelow hroom (by omega) hin (by omega))]
  · obtain ⟨c, hc, hcs⟩ := hblank s.stored.length le_rfl hroom
    simp [hint, List.getD, ha.head, hc, hcs]

lemma window_take {c : C} (hn : 0 < n) (ha : Accounting n s) (h : Window n s)
    (hfull : s.returned.length < s.stored.length)
    (hb : blockStep s (.dequeueTransfer c) = some t) : Window n t := by
  obtain ⟨_, rfl⟩ := dequeueTransfer_step hb
  have hslot : s.returned.length % n < s.queue.buffer.length := by
    rw [ha.length]; exact Nat.mod_lt _ hn
  obtain ⟨hbelow, habove, hret, hocc, hblank, hint⟩ := h
  have hdata : s.queue.dequeueData = .elem s.stored[s.returned.length] := by
    have hh := hocc s.returned.length _ le_rfl (List.getElem?_eq_getElem hfull)
    simp [PcQueue.dequeueData, List.getD, ha.tail, hh]
  refine ⟨by simp; omega, by simp; omega, ?_, ?_, ?_, hint⟩
  · rw [List.length_append, List.length_singleton, List.take_succ_eq_append_getElem hfull,
      List.map_append, ← hret, hdata]
    rfl
  · intro i a hi ha'
    simp only [List.length_append, List.length_singleton] at hi
    change s.stored[i]? = some a at ha'
    have hlt : i < s.stored.length := by
      by_contra hge
      rw [List.getElem?_eq_none (by omega)] at ha'
      cases ha'
    simp only [PcQueue.dequeueTransfer, ha.tail]
    rw [List.getElem?_set_ne (slot_ne le_rfl (by omega) (by omega) (by omega) (by omega))]
    exact hocc i a (by omega) ha'
  · intro i hi hin
    simp only [List.length_append, List.length_singleton] at hin
    change s.stored.length ≤ i at hi
    simp only [PcQueue.dequeueTransfer, ha.tail]
    by_cases hlap : i < s.returned.length + n
    · obtain ⟨c, hc, hcs⟩ := hblank i hi hlap
      refine ⟨c, ?_, hcs⟩
      rwa [List.getElem?_set_ne (slot_ne le_rfl (by omega) (by omega) hlap (by omega))]
    · obtain rfl : i = s.returned.length + n := by omega
      exact ⟨.null, by rw [Nat.add_mod_right, List.getElem?_set_self hslot], rfl⟩

omit [Fintype P] [Fintype C] [DecidableEq P] [DecidableEq C] in
lemma Window.contents (hlen : s.queue.buffer.length = n) (h : Window n s) :
    elems (s.queue.buffer.rotate s.returned.length) = s.stored.drop s.returned.length := by
  have hrot : ∀ j, j < n → (s.queue.buffer.rotate s.returned.length)[j]? =
      s.queue.buffer[(s.returned.length + j) % n]? := by
    intro j hj
    rw [List.getElem?_rotate (by omega), hlen, Nat.add_comm]
  apply elems_eq_prefix
  · intro j e he
    rw [List.getElem?_drop] at he
    have hj : s.returned.length + j < s.stored.length := (List.getElem?_eq_some_iff.mp he).1
    rw [hrot j (by have := h.above; omega)]
    exact h.occupied _ e (by omega) he
  · intro j c hj hc
    have hjn : j < n := by
      have hh := (List.getElem?_eq_some_iff.mp hc).1
      rwa [List.length_rotate, hlen] at hh
    obtain ⟨d, hd, hds⟩ := h.blank (s.returned.length + j) (by simp at hj; omega) (by omega)
    rw [hrot j hjn, hd] at hc
    obtain rfl := Option.some.inj hc
    exact hds

end MessageBroker.ProducerConsumer
