import MessageBroker.ProducerConsumer.HandOver

namespace MessageBroker.ProducerConsumer

open MessageBroker.Lib

variable {E : Type} {n : ℕ}

def Producer.inFlight : Producer E → List E
  | .outside => []
  | .reserving e | .storing e => [e]

lemma passed_step {C : Type} [DecidableEq C] {s t : State E Unit C} {b : Block E Unit C}
    (h : s.passed = s.stored ++ (s.producers ()).inFlight)
    (hb : blockStep s b = some t) : t.passed = t.stored ++ (t.producers ()).inFlight := by
  cases b with
  | enqueueCall p e =>
    obtain ⟨hp, rfl⟩ := enqueueCall_step hb
    simp [h, hp, Producer.inFlight]
  | enqueueReserve p =>
    obtain ⟨e, hp, _, rfl⟩ := enqueueReserve_step hb
    simp [h, hp, Producer.inFlight]
  | enqueueTransfer p =>
    obtain ⟨e, hp, rfl⟩ := enqueueTransfer_step hb
    simp [h, hp, Producer.inFlight]
  | dequeueCall c =>
    obtain ⟨_, rfl⟩ := dequeueCall_step hb
    exact h
  | dequeueReserve c =>
    obtain ⟨_, _, rfl⟩ := dequeueReserve_step hb
    exact h
  | dequeueTransfer c =>
    obtain ⟨_, rfl⟩ := dequeueTransfer_step hb
    exact h

lemma reachable_passed {C : Type} [DecidableEq C] {s : State E Unit C}
    (h : (blocks E Unit C n).Reachable s) :
    s.passed = s.stored ++ (s.producers ()).inFlight := by
  induction h with
  | init => rfl
  | step _ _ hb ih => exact passed_step ih hb

variable {s t : State E Unit Unit}

lemma enqueue_backed {p : Unit} (hn : 2 ≤ n) (h : Orderly n s)
    (hb : blockStep s (.enqueueReserve p) = some t) : Timely s (.enqueueReserve p) := by
  obtain ⟨e, hp, hw, _⟩ := enqueueReserve_step hb
  obtain ⟨hne, hring⟩ := enqueueWaits_false hw
  have hst : pendingStores s = 0 := by simp [pendingStores, tally_unit, hp, Producer.isStoring]
  have htk : pendingTakes s ≤ 1 := by
    rw [pendingTakes, tally_unit]; exact Bool.toNat_le _
  obtain ⟨hcap, _, hsize, hhead, htail, hbal⟩ := h.accounting
  have habove := h.window.above
  simp only [Timely]
  by_contra hfull
  -- the consumer has reserved the only element missing from a full ring, so head meets tail
  have hlap : s.stored.length = s.returned.length + n := by omega
  have hmeet : s.queue.head = s.queue.tail := by rw [hhead, htail, hlap, Nat.add_mod_right]
  have := hring hmeet
  omega

lemma dequeue_backed {c : Unit} (hn : 2 ≤ n) (h : Orderly n s)
    (hb : blockStep s (.dequeueReserve c) = some t) : Timely s (.dequeueReserve c) := by
  obtain ⟨hc, hw, _⟩ := dequeueReserve_step hb
  obtain ⟨hne, hring⟩ := dequeueWaits_false hw
  have htk : pendingTakes s = 0 := by simp [pendingTakes, tally_unit, hc, Consumer.isTaking]
  have hst : pendingStores s ≤ 1 := by
    rw [pendingStores, tally_unit]; exact Bool.toNat_le _
  obtain ⟨hcap, _, hsize, hhead, htail, hbal⟩ := h.accounting
  have hbelow := h.window.below
  simp only [Timely]
  by_contra hempty
  -- the only element counted is still to be stored, so tail meets head
  have hmeet : s.queue.tail = s.queue.head := by
    rw [hhead, htail, show s.returned.length = s.stored.length by omega]
  have := hring hmeet
  omega

lemma single_timely (hn : 2 ≤ n) (h : (blocks E Unit Unit n).Reachable s) :
    (blocks E Unit Unit n).ReachableBy Timely s := by
  apply h.strengthen orderly_initial
  · intro s b t ho _ hb
    cases b with
    | enqueueReserve p => exact enqueue_backed hn ho hb
    | dequeueReserve c => exact dequeue_backed hn ho hb
    | enqueueCall | enqueueTransfer | dequeueCall | dequeueTransfer => trivial
  · exact fun _ _ _ ho ht hb => timely_step (by omega) ho ht hb

structure IsFifo (n : ℕ) (s : State E Unit Unit) (values window rest : List E) : Prop where
  stored : s.stored = values ++ window
  returned : s.returned = values.map .elem
  passed : s.passed = values ++ window ++ rest
  bounded : window.length ≤ n
  head : s.queue.head = (s.queue.tail + window.length) % n
  slots : ∀ k e, window[k]? = some e →
    s.queue.buffer[(s.queue.tail + k) % n]? = some (.elem e)
  blank : ∀ k, window.length ≤ k → k < n →
    ∃ c, s.queue.buffer[(s.queue.tail + k) % n]? = some c ∧ c.stored = none

lemma Orderly.isFifo (h : Orderly n s)
    (hpassed : s.passed = s.stored ++ (s.producers ()).inFlight) :
    IsFifo n s (s.stored.take s.returned.length) (s.stored.drop s.returned.length)
      (s.producers ()).inFlight := by
  obtain ⟨hbelow, habove, hret, hocc, hblank, _⟩ := h.window
  have htail := h.accounting.tail
  refine ⟨(List.take_append_drop _ _).symm, hret, by rw [List.take_append_drop, hpassed],
    by rw [List.length_drop]; omega, ?_, ?_, ?_⟩
  · rw [h.accounting.head, htail, List.length_drop, Nat.mod_add_mod]
    congr 1
    omega
  · intro k e he
    rw [List.getElem?_drop] at he
    rw [htail, Nat.mod_add_mod]
    exact hocc _ e (by omega) he
  · intro k hk hkn
    rw [List.length_drop] at hk
    rw [htail, Nat.mod_add_mod]
    exact hblank _ (by omega) (by omega)

theorem single_fifo (hn : 2 ≤ n) (h : (blocks E Unit Unit n).Reachable s) :
    ∃ values window rest, IsFifo n s values window rest :=
  ⟨_, _, _, (timely_orderly (by omega) (single_timely hn h)).isFifo (reachable_passed h)⟩

theorem single_fifo_run :
    ∃ s, (blocks ℕ Unit Unit 2).run (blocks ℕ Unit Unit 2).init
        [.enqueueCall () 7, .enqueueReserve (), .enqueueTransfer (), .dequeueCall (),
          .dequeueReserve (), .enqueueCall () 8, .enqueueReserve (), .dequeueTransfer ()] = some s ∧
      ∃ values window rest, IsFifo 2 s values window rest := by
  obtain ⟨s, hs⟩ : ∃ s, (blocks ℕ Unit Unit 2).run (blocks ℕ Unit Unit 2).init
      [.enqueueCall () 7, .enqueueReserve (), .enqueueTransfer (), .dequeueCall (),
        .dequeueReserve (), .enqueueCall () 8, .enqueueReserve (), .dequeueTransfer ()] = some s :=
    ⟨_, rfl⟩
  exact ⟨s, hs, single_fifo le_rfl (System.reachable_of_run hs)⟩

end MessageBroker.ProducerConsumer
