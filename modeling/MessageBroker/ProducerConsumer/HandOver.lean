import MessageBroker.ProducerConsumer.Window

/-! Exactly-once hand-over. The guards admit a reservation that no stored element or
free slot backs; a run hands over every element once while each reservation is backed. -/

namespace MessageBroker.ProducerConsumer

open MessageBroker.Lib

variable {E P C : Type} {n : ℕ}

structure HandOver (s : State E P C) : Prop where
  delivered : ∀ c ∈ s.returned, ∃ e, c = .elem e
  intact : s.overwritten = []
  once : s.stored.Perm (elems s.returned ++ elems s.queue.buffer)

variable [Fintype P] [Fintype C]

/-- The size counts elements reserved but not yet stored, and leaves out elements reserved
but not yet taken: a reservation is backed when it does not rest on those. -/
def Timely (s : State E P C) : Block E P C → Prop
  | .enqueueReserve _ => s.queue.currentSize + pendingTakes s < s.queue.capacity
  | .dequeueReserve _ => pendingStores s < s.queue.currentSize
  | _ => True

instance (s : State E P C) (b : Block E P C) : Decidable (Timely s b) := by
  cases b <;> simp only [Timely] <;> infer_instance

structure Backed (n : ℕ) (s : State E P C) : Prop where
  takes : s.returned.length + pendingTakes s ≤ s.stored.length
  stores : s.stored.length + pendingStores s ≤ s.returned.length + n

variable {s t : State E P C}

omit [Fintype P] [Fintype C] in
lemma window_frame (h : Window n s) (hq : t.queue.buffer = s.queue.buffer)
    (hs : t.stored = s.stored) (hr : t.returned = s.returned)
    (ho : t.overwritten = s.overwritten) : Window n t := by
  obtain ⟨h₁, h₂, h₃, h₄, h₅, h₆⟩ := h
  constructor <;> simp only [hq, hs, hr, ho] <;> assumption

omit [Fintype P] [Fintype C] in
lemma Window.handOver (hlen : s.queue.buffer.length = n) (h : Window n s) : HandOver s where
  delivered := by
    intro c hc
    rw [h.returned] at hc
    obtain ⟨e, _, rfl⟩ := List.mem_map.mp hc
    exact ⟨e, rfl⟩
  intact := h.intact
  once := by
    have hr : elems s.returned = s.stored.take s.returned.length :=
      (congrArg elems h.returned).trans (elems_map_elem _)
    have hp : (elems s.queue.buffer).Perm (s.stored.drop s.returned.length) := by
      rw [← h.contents hlen]
      exact ((List.rotate_perm s.queue.buffer s.returned.length).filterMap Cell.stored).symm
    rw [hr]
    nth_rewrite 1 [← List.take_append_drop s.returned.length s.stored]
    exact hp.symm.append_left _

variable [DecidableEq P] [DecidableEq C]

structure Orderly (n : ℕ) (s : State E P C) : Prop where
  accounting : Accounting n s
  window : Window n s
  backed : Backed n s

lemma orderly_initial : Orderly n (blocks E P C n).init where
  accounting := accounting_initial
  window := window_initial
  backed := by
    have hp : pendingStores (blocks E P C n).init = 0 := tally_const rfl
    have hc : pendingTakes (blocks E P C n).init = 0 := tally_const rfl
    constructor <;> simp [hp, hc] <;> simp [blocks, initial]

lemma timely_step {b : Block E P C} (hn : 0 < n) (h : Orderly n s) (ht : Timely s b)
    (hb : blockStep s b = some t) : Orderly n t := by
  have hacc := accounting_step h.accounting hb
  have hpend := pending_step hb
  have hcap := h.accounting.capacity
  have hbal := h.accounting.balance
  obtain ⟨htakes, hstores⟩ := h.backed
  cases b with
  | enqueueCall p e =>
    obtain ⟨_, rfl⟩ := enqueueCall_step hb
    refine ⟨hacc, window_frame h.window rfl rfl rfl rfl, ?_⟩
    constructor <;> dsimp only at * <;> omega
  | enqueueReserve p =>
    obtain ⟨e, _, _, rfl⟩ := enqueueReserve_step hb
    refine ⟨hacc, window_frame h.window rfl rfl rfl rfl, ?_⟩
    constructor <;> dsimp only [Timely] at * <;> omega
  | enqueueTransfer p =>
    have hw := window_store hn h.accounting h.window (by omega) hb
    obtain ⟨e, _, rfl⟩ := enqueueTransfer_step hb
    refine ⟨hacc, hw, ?_⟩
    constructor <;> dsimp only at * <;> rw [List.length_append, List.length_singleton] <;> omega
  | dequeueCall c =>
    obtain ⟨_, rfl⟩ := dequeueCall_step hb
    refine ⟨hacc, window_frame h.window rfl rfl rfl rfl, ?_⟩
    constructor <;> dsimp only at * <;> omega
  | dequeueReserve c =>
    obtain ⟨_, _, rfl⟩ := dequeueReserve_step hb
    refine ⟨hacc, window_frame h.window rfl rfl rfl rfl, ?_⟩
    constructor <;> dsimp only [Timely] at * <;> omega
  | dequeueTransfer c =>
    have hw := window_take hn h.accounting h.window (by omega) hb
    obtain ⟨_, rfl⟩ := dequeueTransfer_step hb
    refine ⟨hacc, hw, ?_⟩
    constructor <;> dsimp only at * <;> rw [List.length_append, List.length_singleton] <;> omega

lemma timely_orderly (hn : 0 < n) (h : (blocks E P C n).ReachableBy Timely s) : Orderly n s :=
  h.invariant orderly_initial (fun _ _ _ hI ht hb => timely_step hn hI ht hb)

omit [Fintype P] [DecidableEq P] [DecidableEq C] in
lemma exists_taking (h : 0 < pendingTakes s) : ∃ c, s.consumers c = .taking := by
  obtain ⟨c, hc⟩ := tally_pos.mp h
  refine ⟨c, ?_⟩
  cases hs : s.consumers c <;> simp_all [Consumer.isTaking]

omit [Fintype C] [DecidableEq P] [DecidableEq C] in
lemma exists_storing (h : 0 < pendingStores s) : ∃ p e, s.producers p = .storing e := by
  obtain ⟨p, hp⟩ := tally_pos.mp h
  cases hs : s.producers p with
  | storing e => exact ⟨p, e, hs⟩
  | outside | reserving => simp [hs, Producer.isStoring] at hp

lemma take_blank {c : C} (ha : Accounting n s) (hw : Window n s) (hn : 0 < n)
    (hempty : s.stored.length ≤ s.returned.length)
    (hb : blockStep s (.dequeueTransfer c) = some t) : ∃ d ∈ t.returned, d.stored = none := by
  obtain ⟨cell, hcell, hcs⟩ := hw.blank s.returned.length hempty (by omega)
  obtain ⟨_, rfl⟩ := dequeueTransfer_step hb
  refine ⟨s.queue.dequeueData, by simp, ?_⟩
  rw [PcQueue.dequeueData, List.getD, ha.tail, hcell]
  exact hcs

lemma store_occupied {p : P} (ha : Accounting n s) (hw : Window n s) (hn : 0 < n)
    (hfull : s.returned.length + n ≤ s.stored.length)
    (hb : blockStep s (.enqueueTransfer p) = some t) : t.overwritten ≠ [] := by
  have hlap : s.stored.length = s.returned.length + n := le_antisymm hw.above hfull
  have hlt : s.returned.length < s.stored.length := by omega
  have hocc := hw.occupied _ _ le_rfl (List.getElem?_eq_getElem hlt)
  obtain ⟨e, _, rfl⟩ := enqueueTransfer_step hb
  simp [List.getD, ha.head, hlap, hocc, Cell.stored]

omit [Fintype P] [Fintype C] in
lemma transfer_first {u : State E P C} {b : Block E P C} (hk : b.isTransfer)
    (hb : blockStep s b = some t) (hu : (blocks E P C n).Continues (fun b => b.isTransfer) t u) :
    (blocks E P C n).Continues (fun b => b.isTransfer) s u :=
  hu.head hk hb

lemma overrun_take (hn : 0 < n) (ha : Accounting n s) (hw : Window n s)
    (hover : s.stored.length < s.returned.length + pendingTakes s) :
    ∃ u, (blocks E P C n).Continues (fun b => b.isTransfer) s u ∧ ¬ HandOver u := by
  induction hd : s.stored.length - s.returned.length generalizing s with
  | zero =>
    obtain ⟨c, hc⟩ := exists_taking (s := s) (by have := hw.below; omega)
    obtain ⟨t, hb⟩ : ∃ t, blockStep s (.dequeueTransfer c) = some t := by simp [blockStep, hc]
    obtain ⟨d, hd, hblank⟩ := take_blank ha hw hn (by omega) hb
    refine ⟨t, transfer_first rfl hb .refl, fun h => ?_⟩
    obtain ⟨e, rfl⟩ := h.delivered d hd
    cases hblank
  | succ d ih =>
    obtain ⟨c, hc⟩ := exists_taking (s := s) (by have := hw.below; omega)
    obtain ⟨t, hb⟩ : ∃ t, blockStep s (.dequeueTransfer c) = some t := by simp [blockStep, hc]
    have hpend := pending_step hb
    obtain ⟨hst, hret⟩ : t.stored = s.stored ∧ t.returned.length = s.returned.length + 1 := by
      obtain ⟨_, rfl⟩ := dequeueTransfer_step hb
      simp
    obtain ⟨u, hu, hn'⟩ := ih (accounting_step ha hb) (window_take hn ha hw (by omega) hb)
      (by dsimp only at hpend; rw [hst]; omega) (by rw [hst]; omega)
    exact ⟨u, transfer_first rfl hb hu, hn'⟩

lemma overrun_store (hn : 0 < n) (ha : Accounting n s) (hw : Window n s)
    (hover : s.returned.length + n < s.stored.length + pendingStores s) :
    ∃ u, (blocks E P C n).Continues (fun b => b.isTransfer) s u ∧ ¬ HandOver u := by
  induction hd : s.returned.length + n - s.stored.length generalizing s with
  | zero =>
    obtain ⟨p, e, hp⟩ := exists_storing (s := s) (by have := hw.above; omega)
    obtain ⟨t, hb⟩ : ∃ t, blockStep s (.enqueueTransfer p) = some t := by simp [blockStep, hp]
    exact ⟨t, transfer_first rfl hb .refl, fun h => store_occupied ha hw hn (by omega) hb h.intact⟩
  | succ d ih =>
    obtain ⟨p, e, hp⟩ := exists_storing (s := s) (by have := hw.above; omega)
    obtain ⟨t, hb⟩ : ∃ t, blockStep s (.enqueueTransfer p) = some t := by simp [blockStep, hp]
    have hpend := pending_step hb
    obtain ⟨hret, hst⟩ : t.returned = s.returned ∧ t.stored.length = s.stored.length + 1 := by
      obtain ⟨e, _, rfl⟩ := enqueueTransfer_step hb
      simp
    obtain ⟨u, hu, hn'⟩ := ih (accounting_step ha hb) (window_store hn ha hw (by omega) hb)
      (by dsimp only at hpend; rw [hret]; omega) (by rw [hret]; omega)
    exact ⟨u, transfer_first rfl hb hu, hn'⟩

lemma untimely_overrun {b : Block E P C} (hn : 0 < n) (h : Orderly n s) (ht : ¬ Timely s b)
    (hb : blockStep s b = some t) :
    ∃ u, (blocks E P C n).Continues (fun b => b.isTransfer) t u ∧ ¬ HandOver u := by
  have hacc := accounting_step h.accounting hb
  have hpend := pending_step hb
  have hcap := h.accounting.capacity
  have hbal := h.accounting.balance
  cases b with
  | enqueueReserve p =>
    simp only [Timely] at ht
    obtain ⟨e, _, _, rfl⟩ := enqueueReserve_step hb
    apply overrun_store hn hacc (window_frame h.window rfl rfl rfl rfl)
    dsimp only at *
    omega
  | dequeueReserve c =>
    simp only [Timely] at ht
    obtain ⟨_, _, rfl⟩ := dequeueReserve_step hb
    apply overrun_take hn hacc (window_frame h.window rfl rfl rfl rfl)
    dsimp only at *
    omega
  | enqueueCall | enqueueTransfer | dequeueCall | dequeueTransfer => exact (ht trivial).elim

theorem handOver_iff_timely (hn : 2 ≤ n) (h : (blocks E P C n).ReachableBy Timely s) :
    HandOver s ∧ ∀ b t, blockStep s b = some t →
      (Timely s b ↔
        ∀ u, (blocks E P C n).Continues (fun b => b.isTransfer) t u → HandOver u) := by
  have hpos : 0 < n := by omega
  have ho := timely_orderly hpos h
  refine ⟨ho.window.handOver ho.accounting.length, fun b t hb => ⟨?_, ?_⟩⟩
  · intro ht u hu
    have hr : (blocks E P C n).ReachableBy Timely t := .step h ht hb
    have htransfer : ∀ (s : State E P C) b, b.isTransfer = true → Timely s b := by
      intro s b hk
      cases b <;> simp_all [Block.isTransfer, Timely]
    have hou := timely_orderly hpos (hr.continues hu htransfer)
    exact hou.window.handOver hou.accounting.length
  · intro hall
    by_contra ht
    obtain ⟨u, hu, hnot⟩ := untimely_overrun hpos ho ht hb
    exact hnot (hall u hu)

theorem handOver_iff_timely_run :
    ∃ s, (blocks ℕ Unit (Fin 2) 2).runIf Timely (blocks ℕ Unit (Fin 2) 2).init
        [.enqueueCall () 7, .enqueueReserve (), .dequeueCall 0] = some s ∧
      HandOver s ∧ ∀ b t, blockStep s b = some t →
        (Timely s b ↔
          ∀ u, (blocks ℕ Unit (Fin 2) 2).Continues (fun b => b.isTransfer) t u → HandOver u) := by
  obtain ⟨s, hs⟩ : ∃ s, (blocks ℕ Unit (Fin 2) 2).runIf Timely (blocks ℕ Unit (Fin 2) 2).init
      [.enqueueCall () 7, .enqueueReserve (), .dequeueCall 0] = some s := ⟨_, rfl⟩
  exact ⟨s, hs, handOver_iff_timely (by decide) (.runIf .init hs)⟩

/-- One producer and two workers at capacity 2: both workers pass the guard while the second
element is reserved but not stored, and the later one returns a slot never written. -/
def overtaking {C : Type} (c d : C) : List (Block ℕ Unit C) :=
  [.enqueueCall () 7, .enqueueReserve (), .enqueueTransfer (),
    .enqueueCall () 8, .enqueueReserve (),
    .dequeueCall c, .dequeueReserve c, .dequeueCall d, .dequeueReserve d,
    .dequeueTransfer c, .dequeueTransfer d]

theorem overtaking_not_handOver :
    ¬ ∀ s, (blocks ℕ Unit (Fin 2) 2).Reachable s → HandOver s := by
  intro h
  obtain ⟨s, hs, hr⟩ : ∃ s, (blocks ℕ Unit (Fin 2) 2).run (blocks ℕ Unit (Fin 2) 2).init
      (overtaking 0 1) = some s ∧ s.returned = [.elem 7, .unwritten] := ⟨_, rfl, rfl⟩
  obtain ⟨e, he⟩ := (h s (System.reachable_of_run hs)).delivered .unwritten (by simp [hr])
  cases he

end MessageBroker.ProducerConsumer
