import MessageBroker.ProducerConsumer.Accounting

namespace MessageBroker.ProducerConsumer

open MessageBroker.Lib

variable {E P C : Type} {n : ℕ}

def Producer.isInside : Producer E → Bool
  | .outside => false
  | _ => true

def Consumer.isInside : Consumer → Bool
  | .outside => false
  | _ => true

def Block.isEnqueueCall : Block E P C → Bool
  | .enqueueCall _ _ => true
  | _ => false

def Block.isDequeueCall : Block E P C → Bool
  | .dequeueCall _ => true
  | _ => false

def AtRest (s : State E P C) : Prop :=
  (∀ p, s.producers p = .outside) ∧ ∀ c, s.consumers c = .outside

variable [Fintype P] [Fintype C]

def enqueues (s : State E P C) : ℕ := s.stored.length + tally Producer.isInside s.producers

def dequeues (s : State E P C) : ℕ := s.returned.length + tally Consumer.isInside s.consumers

variable {s t : State E P C}

lemma AtRest.settled (h : AtRest s) :
    pendingStores s = 0 ∧ pendingTakes s = 0 ∧ enqueues s = s.stored.length ∧
      dequeues s = s.returned.length := by
  have hp : s.producers = fun _ => .outside := funext h.1
  have hc : s.consumers = fun _ => .outside := funext h.2
  have hinp : tally Producer.isInside s.producers = 0 := hp ▸ tally_const rfl
  have hinc : tally Consumer.isInside s.consumers = 0 := hc ▸ tally_const rfl
  refine ⟨?_, ?_, ?_, ?_⟩
  · rw [pendingStores, hp]
    exact tally_const rfl
  · rw [pendingTakes, hc]
    exact tally_const rfl
  · rw [enqueues, hinp, Nat.add_zero]
  · rw [dequeues, hinc, Nat.add_zero]

lemma Accounting.head_congr (h : Accounting n s) :
    (s.queue.head : ℤ) ≡
      s.queue.tail + s.queue.currentSize - pendingStores s + pendingTakes s [ZMOD n] := by
  have hhead : (s.queue.head : ℤ) ≡ s.stored.length [ZMOD n] := by
    rw [h.head, Int.natCast_mod]
    exact Int.mod_modEq _ _
  have htail : (s.queue.tail : ℤ) ≡ s.returned.length [ZMOD n] := by
    rw [h.tail, Int.natCast_mod]
    exact Int.mod_modEq _ _
  have hbal : (s.stored.length : ℤ) =
      s.returned.length + s.queue.currentSize - pendingStores s + pendingTakes s := by
    have hb := h.balance
    omega
  apply hhead.trans
  rw [hbal]
  exact ((htail.symm.add_right _).sub_right _).add_right _

variable [DecidableEq P] [DecidableEq C]

lemma calls_step {b : Block E P C} (hb : blockStep s b = some t) :
    enqueues t = enqueues s + b.isEnqueueCall.toNat ∧
      dequeues t = dequeues s + b.isDequeueCall.toNat := by
  cases b with
  | enqueueCall p e =>
    obtain ⟨hp, rfl⟩ := enqueueCall_step hb
    have hu := tally_update Producer.isInside s.producers p (.reserving e)
    rw [hp] at hu
    exact ⟨by simp only [enqueues]; exact congrArg (_ + ·) hu, rfl⟩
  | enqueueReserve p =>
    obtain ⟨e, hp, _, rfl⟩ := enqueueReserve_step hb
    have hu := tally_update Producer.isInside s.producers p (.storing e)
    rw [hp] at hu
    exact ⟨congrArg (_ + ·) (Nat.add_right_cancel hu), rfl⟩
  | enqueueTransfer p =>
    obtain ⟨e, hp, rfl⟩ := enqueueTransfer_step hb
    have hu := tally_update Producer.isInside s.producers p .outside
    rw [hp] at hu
    refine ⟨?_, rfl⟩
    simp only [enqueues, List.length_append, List.length_singleton]
    simp only [Producer.isInside, Bool.toNat_true, Bool.toNat_false] at hu
    simp only [Block.isEnqueueCall, Bool.toNat_false]
    omega
  | dequeueCall c =>
    obtain ⟨hc, rfl⟩ := dequeueCall_step hb
    have hu := tally_update Consumer.isInside s.consumers c .reserving
    rw [hc] at hu
    exact ⟨rfl, by simp only [dequeues]; exact congrArg (_ + ·) hu⟩
  | dequeueReserve c =>
    obtain ⟨hc, _, rfl⟩ := dequeueReserve_step hb
    have hu := tally_update Consumer.isInside s.consumers c .taking
    rw [hc] at hu
    exact ⟨rfl, congrArg (_ + ·) (Nat.add_right_cancel hu)⟩
  | dequeueTransfer c =>
    obtain ⟨hc, rfl⟩ := dequeueTransfer_step hb
    have hu := tally_update Consumer.isInside s.consumers c .outside
    rw [hc] at hu
    refine ⟨rfl, ?_⟩
    simp only [dequeues, List.length_append, List.length_singleton]
    simp only [Consumer.isInside, Bool.toNat_true, Bool.toNat_false] at hu
    simp only [Block.isDequeueCall, Bool.toNat_false]
    omega

lemma calls_run {bs : List (Block E P C)} (h : (blocks E P C n).run s bs = some t) :
    enqueues t = enqueues s + bs.countP Block.isEnqueueCall ∧
      dequeues t = dequeues s + bs.countP Block.isDequeueCall := by
  induction bs generalizing s with
  | nil => exact Option.some.inj h ▸ ⟨rfl, rfl⟩
  | cons b bs ih =>
    obtain ⟨u, hu, ht⟩ := Option.bind_eq_some_iff.mp h
    obtain ⟨henq, hdeq⟩ := calls_step hu
    obtain ⟨ihenq, ihdeq⟩ := ih ht
    have count (p : Block E P C → Bool) : (b :: bs).countP p = (p b).toNat + bs.countP p := by
      cases hb : p b <;> simp [hb, Nat.add_comm]
    rw [ihenq, ihdeq, henq, hdeq, count, count]
    exact ⟨Nat.add_assoc _ _ _, Nat.add_assoc _ _ _⟩

theorem queue_bookkeeping (hn : 0 < n) :
    (∀ s, (blocks E P C n).Reachable s →
      s.queue.currentSize ≤ n ∧ s.queue.head < n ∧ s.queue.tail < n ∧
        (s.queue.head : ℤ) ≡
          s.queue.tail + s.queue.currentSize - pendingStores s + pendingTakes s [ZMOD n]) ∧
    ∀ bs k s, (blocks E P C n).run (blocks E P C n).init bs = some s → AtRest s →
      bs.countP Block.isEnqueueCall = k → bs.countP Block.isDequeueCall = k →
        s.queue.currentSize = 0 ∧ s.queue.head = k % n ∧ s.queue.tail = k % n := by
  constructor
  · intro s hs
    have ha := reachable_accounting hs
    exact ⟨ha.size_le, ha.head ▸ Nat.mod_lt _ hn, ha.tail ▸ Nat.mod_lt _ hn, ha.head_congr⟩
  · intro bs k s hs hrest henq hdeq
    have ha := reachable_accounting (System.reachable_of_run hs)
    have hstart : AtRest (blocks E P C n).init := ⟨fun _ => rfl, fun _ => rfl⟩
    obtain ⟨hps, hpt, hen, hde⟩ := hrest.settled
    obtain ⟨-, -, hen', hde'⟩ := hstart.settled
    obtain ⟨hstored, hreturned⟩ := calls_run hs
    rw [hen, hen', henq] at hstored
    rw [hde, hde', hdeq] at hreturned
    replace hstored : s.stored.length = k := hstored.trans (Nat.zero_add k)
    replace hreturned : s.returned.length = k := hreturned.trans (Nat.zero_add k)
    have hbal := ha.balance
    rw [hps, hpt] at hbal
    refine ⟨by omega, ?_, ?_⟩
    · rw [ha.head, hstored]
    · rw [ha.tail, hreturned]

theorem queue_bookkeeping_two :
    ∃ s : State ℕ Unit Unit, (blocks ℕ Unit Unit 2).run (blocks ℕ Unit Unit 2).init
        [.enqueueCall () 7, .enqueueReserve (), .dequeueCall (), .enqueueTransfer (),
          .dequeueReserve (), .dequeueTransfer ()] = some s ∧
      s.queue.currentSize = 0 ∧ s.queue.head = 1 ∧ s.queue.tail = 1 := by
  obtain ⟨s, hs⟩ : ∃ s, (blocks ℕ Unit Unit 2).run (blocks ℕ Unit Unit 2).init
      [.enqueueCall () 7, .enqueueReserve (), .dequeueCall (), .enqueueTransfer (),
        .dequeueReserve (), .dequeueTransfer ()] = some s := ⟨_, rfl⟩
  have hrest : AtRest s := by
    cases Option.some.inj hs
    exact ⟨fun _ => rfl, fun _ => rfl⟩
  exact ⟨s, hs, (queue_bookkeeping (by decide)).2 _ 1 s hs hrest rfl rfl⟩

end MessageBroker.ProducerConsumer
