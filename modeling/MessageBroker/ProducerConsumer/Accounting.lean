import MessageBroker.ProducerConsumer.Queue

namespace MessageBroker.ProducerConsumer

open MessageBroker.Lib

variable {E P C : Type} [DecidableEq P] [DecidableEq C] {s t : State E P C} {n : ℕ}

lemma enqueueCall_step {p : P} {e : E} (h : blockStep s (.enqueueCall p e) = some t) :
    s.producers p = .outside ∧ t = { s with
      producers := Function.update s.producers p (.reserving e)
      passed := s.passed ++ [e] } := by
  cases hp : s.producers p <;> simp_all [blockStep]

lemma enqueueReserve_step {p : P} (h : blockStep s (.enqueueReserve p) = some t) :
    ∃ e, s.producers p = .reserving e ∧ s.queue.enqueueWaits = false ∧ t = { s with
      queue := s.queue.enqueueReserve
      producers := Function.update s.producers p (.storing e) } := by
  cases hp : s.producers p with
  | reserving e =>
    cases hw : s.queue.enqueueWaits with
    | false => exact ⟨e, rfl, rfl, by simpa [blockStep, hp, hw] using h.symm⟩
    | true => simp [blockStep, hp, hw] at h
  | outside | storing => simp [blockStep, hp] at h

lemma enqueueTransfer_step {p : P} (h : blockStep s (.enqueueTransfer p) = some t) :
    ∃ e, s.producers p = .storing e ∧ t = { s with
      queue := s.queue.enqueueTransfer e
      producers := Function.update s.producers p .outside
      stored := s.stored ++ [e]
      overwritten := s.overwritten ++
        (s.queue.buffer.getD s.queue.head .unwritten).stored.toList } := by
  cases hp : s.producers p with
  | storing e => exact ⟨e, rfl, by simpa [blockStep, hp] using h.symm⟩
  | outside | reserving => simp [blockStep, hp] at h

lemma dequeueCall_step {c : C} (h : blockStep s (.dequeueCall c) = some t) :
    s.consumers c = .outside ∧
      t = { s with consumers := Function.update s.consumers c .reserving } := by
  cases hc : s.consumers c <;> simp_all [blockStep]

lemma dequeueReserve_step {c : C} (h : blockStep s (.dequeueReserve c) = some t) :
    s.consumers c = .reserving ∧ s.queue.dequeueWaits = false ∧ t = { s with
      queue := s.queue.dequeueReserve
      consumers := Function.update s.consumers c .taking } := by
  cases hc : s.consumers c with
  | reserving =>
    cases hw : s.queue.dequeueWaits with
    | false => exact ⟨rfl, rfl, by simpa [blockStep, hc, hw] using h.symm⟩
    | true => simp [blockStep, hc, hw] at h
  | outside | taking => simp [blockStep, hc] at h

lemma dequeueTransfer_step {c : C} (h : blockStep s (.dequeueTransfer c) = some t) :
    s.consumers c = .taking ∧ t = { s with
      queue := s.queue.dequeueTransfer
      consumers := Function.update s.consumers c .outside
      returned := s.returned ++ [s.queue.dequeueData] } := by
  cases hc : s.consumers c with
  | taking => exact ⟨rfl, by simpa [blockStep, hc] using h.symm⟩
  | outside | reserving => simp [blockStep, hc] at h

lemma enqueueWaits_false {q : PcQueue E} (h : q.enqueueWaits = false) :
    q.currentSize ≠ q.capacity ∧ (q.head = q.tail → q.currentSize = 0) := by
  simpa [PcQueue.enqueueWaits] using h

lemma dequeueWaits_false {q : PcQueue E} (h : q.dequeueWaits = false) :
    q.currentSize ≠ 0 ∧ (q.tail = q.head → q.currentSize = q.capacity) := by
  simpa [PcQueue.dequeueWaits] using h

variable [Fintype P] [Fintype C]

def pendingStores (s : State E P C) : ℕ := tally Producer.isStoring s.producers

def pendingTakes (s : State E P C) : ℕ := tally Consumer.isTaking s.consumers

lemma pending_step {b : Block E P C} (hb : blockStep s b = some t) :
    match b with
    | .enqueueCall _ _ | .dequeueCall _ =>
      pendingStores t = pendingStores s ∧ pendingTakes t = pendingTakes s
    | .enqueueReserve _ => pendingStores t = pendingStores s + 1 ∧ pendingTakes t = pendingTakes s
    | .enqueueTransfer _ => pendingStores t + 1 = pendingStores s ∧ pendingTakes t = pendingTakes s
    | .dequeueReserve _ => pendingStores t = pendingStores s ∧ pendingTakes t = pendingTakes s + 1
    | .dequeueTransfer _ =>
      pendingStores t = pendingStores s ∧ pendingTakes t + 1 = pendingTakes s := by
  cases b with
  | enqueueCall p e =>
    obtain ⟨hp, rfl⟩ := enqueueCall_step hb
    have hu := tally_update Producer.isStoring s.producers p (.reserving e)
    simpa [pendingStores, pendingTakes, hp, Producer.isStoring] using hu
  | enqueueReserve p =>
    obtain ⟨e, hp, _, rfl⟩ := enqueueReserve_step hb
    have hu := tally_update Producer.isStoring s.producers p (.storing e)
    simpa [pendingStores, pendingTakes, hp, Producer.isStoring] using hu
  | enqueueTransfer p =>
    obtain ⟨e, hp, rfl⟩ := enqueueTransfer_step hb
    have hu := tally_update Producer.isStoring s.producers p .outside
    simpa [pendingStores, pendingTakes, hp, Producer.isStoring] using hu
  | dequeueCall c =>
    obtain ⟨hc, rfl⟩ := dequeueCall_step hb
    have hu := tally_update Consumer.isTaking s.consumers c .reserving
    simpa [pendingStores, pendingTakes, hc, Consumer.isTaking] using hu
  | dequeueReserve c =>
    obtain ⟨hc, _, rfl⟩ := dequeueReserve_step hb
    have hu := tally_update Consumer.isTaking s.consumers c .taking
    simpa [pendingStores, pendingTakes, hc, Consumer.isTaking] using hu
  | dequeueTransfer c =>
    obtain ⟨hc, rfl⟩ := dequeueTransfer_step hb
    have hu := tally_update Consumer.isTaking s.consumers c .outside
    simpa [pendingStores, pendingTakes, hc, Consumer.isTaking] using hu

structure Accounting (n : ℕ) (s : State E P C) : Prop where
  capacity : s.queue.capacity = n
  length : s.queue.buffer.length = n
  size_le : s.queue.currentSize ≤ n
  head : s.queue.head = s.stored.length % n
  tail : s.queue.tail = s.returned.length % n
  balance : s.queue.currentSize + pendingTakes s + s.returned.length =
    s.stored.length + pendingStores s

lemma accounting_initial : Accounting n (blocks E P C n).init where
  capacity := rfl
  length := by simp [blocks, initial, created]
  size_le := Nat.zero_le _
  head := by simp [blocks, initial, created]
  tail := by simp [blocks, initial, created]
  balance := by
    have hp : pendingStores (blocks E P C n).init = 0 := tally_const rfl
    have hc : pendingTakes (blocks E P C n).init = 0 := tally_const rfl
    rw [hp, hc]
    rfl

lemma accounting_step {b : Block E P C} (h : Accounting n s) (hb : blockStep s b = some t) :
    Accounting n t := by
  obtain ⟨hcap, hlen, hsize, hhead, htail, hbal⟩ := h
  have hpend := pending_step hb
  cases b with
  | enqueueCall p e =>
    obtain ⟨_, rfl⟩ := enqueueCall_step hb
    exact ⟨hcap, hlen, hsize, hhead, htail, by dsimp only at *; omega⟩
  | enqueueReserve p =>
    obtain ⟨e, _, hw, rfl⟩ := enqueueReserve_step hb
    have hne := (enqueueWaits_false hw).1
    refine ⟨hcap, hlen, ?_, hhead, htail, ?_⟩
    · dsimp only [PcQueue.enqueueReserve]; omega
    · dsimp only [PcQueue.enqueueReserve] at *; omega
  | enqueueTransfer p =>
    obtain ⟨e, _, rfl⟩ := enqueueTransfer_step hb
    refine ⟨hcap, by simpa [PcQueue.enqueueTransfer] using hlen, hsize, ?_, htail, ?_⟩
    · simp [PcQueue.enqueueTransfer, hhead, hcap]
    · dsimp only [PcQueue.enqueueTransfer] at *
      rw [List.length_append, List.length_singleton]
      omega
  | dequeueCall c =>
    obtain ⟨_, rfl⟩ := dequeueCall_step hb
    exact ⟨hcap, hlen, hsize, hhead, htail, by dsimp only at *; omega⟩
  | dequeueReserve c =>
    obtain ⟨_, hw, rfl⟩ := dequeueReserve_step hb
    have hne := (dequeueWaits_false hw).1
    refine ⟨hcap, hlen, ?_, hhead, htail, ?_⟩
    · dsimp only [PcQueue.dequeueReserve]; omega
    · dsimp only [PcQueue.dequeueReserve] at *; omega
  | dequeueTransfer c =>
    obtain ⟨_, rfl⟩ := dequeueTransfer_step hb
    refine ⟨hcap, by simpa [PcQueue.dequeueTransfer] using hlen, hsize, hhead, ?_, ?_⟩
    · simp [PcQueue.dequeueTransfer, htail, hcap]
    · dsimp only [PcQueue.dequeueTransfer] at *
      rw [List.length_append, List.length_singleton]
      omega

theorem reachable_accounting (h : (blocks E P C n).Reachable s) : Accounting n s :=
  h.invariant accounting_initial (fun _ _ _ hI hb => accounting_step hI hb)

end MessageBroker.ProducerConsumer
