import MessageBroker.ProducerConsumer.Fifo

namespace MessageBroker.Mbroker

open MessageBroker.Lib MessageBroker.ProducerConsumer

variable {E : Type} {m : ℕ}

inductive Worker
  | looping
  | exited
  -- the pointer dequeued was never written
  | crashed
  deriving DecidableEq

structure Pool (E : Type) (m : ℕ) where
  queue : ProducerConsumer.State E Unit (Fin m)
  workers : Fin m → Worker
  processed : List E

def workerMain (s : Pool E m) (w : Fin m) : Cell E → Pool E m
  | .elem packet => { s with processed := s.processed ++ [packet] }
  | .null => { s with workers := Function.update s.workers w .exited }
  | .unwritten => { s with workers := Function.update s.workers w .crashed }

def poolStep (s : Pool E m) (b : Block E Unit (Fin m)) : Option (Pool E m) :=
  match b with
  | .dequeueCall w =>
    if s.workers w = .looping then (blockStep s.queue b).map (fun q => { s with queue := q })
    else none
  | .dequeueTransfer w =>
    (blockStep s.queue b).map (fun q =>
      workerMain { s with queue := q } w s.queue.queue.dequeueData)
  | _ => (blockStep s.queue b).map (fun q => { s with queue := q })

/-- `main` gives the queue the capacity `max_sessions` and starts as many workers. -/
def pool (E : Type) (maxSessions : ℕ) : System (Pool E maxSessions) (Block E Unit (Fin maxSessions))
    where
  init := ⟨initial (created E maxSessions), fun _ => .looping, []⟩
  step := poolStep

variable {s t : Pool E m}

@[simp] lemma workerMain_queue (w : Fin m) (d : Cell E) : (workerMain s w d).queue = s.queue := by
  cases d <;> rfl

lemma poolStep_queue {b : Block E Unit (Fin m)} (h : poolStep s b = some t) :
    blockStep s.queue b = some t.queue := by
  cases b with
  | dequeueCall w =>
    simp only [poolStep] at h
    split at h
    · obtain ⟨q, hq, rfl⟩ := Option.map_eq_some_iff.mp h
      exact hq
    · cases h
  | dequeueTransfer w =>
    obtain ⟨q, hq, rfl⟩ := Option.map_eq_some_iff.mp h
    simpa using hq
  | enqueueCall | enqueueReserve | enqueueTransfer | dequeueReserve =>
    obtain ⟨q, hq, rfl⟩ := Option.map_eq_some_iff.mp h
    exact hq

lemma poolStep_same {b : Block E Unit (Fin m)} (h : poolStep s b = some t)
    (hb : ∀ w, b ≠ .dequeueTransfer w) : t.workers = s.workers ∧ t.processed = s.processed := by
  cases b with
  | dequeueCall w =>
    simp only [poolStep] at h
    split at h
    · obtain ⟨q, _, rfl⟩ := Option.map_eq_some_iff.mp h
      exact ⟨rfl, rfl⟩
    · cases h
  | dequeueTransfer w => exact (hb w rfl).elim
  | enqueueCall | enqueueReserve | enqueueTransfer | dequeueReserve =>
    obtain ⟨q, _, rfl⟩ := Option.map_eq_some_iff.mp h
    exact ⟨rfl, rfl⟩

structure InOrder (s : Pool E m) : Prop where
  processed : s.processed <+: s.queue.passed
  delivered : ∀ c ∈ s.queue.returned, ∃ e, c = .elem e
  intact : s.queue.overwritten = []
  looping : ∀ w, s.workers w = .looping

def Apart (s : Pool E m) : Block E Unit (Fin m) → Prop
  | .enqueueReserve _ => ∀ w, s.queue.consumers w ≠ .taking
  | .dequeueReserve _ => (s.queue.producers ()).isStoring = false
  | _ => True

instance (s : Pool E m) (b : Block E Unit (Fin m)) : Decidable (Apart s b) := by
  cases b <;> simp only [Apart] <;> infer_instance

structure SinglePool (s : Pool E 1) : Prop where
  orderly : Orderly 1 s.queue
  passed : s.queue.passed = s.queue.stored ++ (s.queue.producers ()).inFlight
  processed : s.processed = elems s.queue.returned
  looping : ∀ w, s.workers w = .looping

variable {s t : Pool E 1}

lemma apart_timely {b : Block E Unit (Fin 1)} (h : SinglePool s) (ha : Apart s b)
    (hb : poolStep s b = some t) : Timely s.queue b := by
  obtain ⟨hcap, _, hsize, _, _, _⟩ := h.orderly.accounting
  cases b with
  | enqueueReserve p =>
    obtain ⟨e, _, hw, _⟩ := enqueueReserve_step (poolStep_queue hb)
    have hne := (enqueueWaits_false hw).1
    have htk : pendingTakes s.queue = 0 := by
      apply tally_eq_zero.mpr
      intro w
      cases hc : s.queue.consumers w with
      | taking => exact (ha w hc).elim
      | outside | reserving => rfl
    simp only [Timely]
    omega
  | dequeueReserve w =>
    obtain ⟨_, hw, _⟩ := dequeueReserve_step (poolStep_queue hb)
    have hne := (dequeueWaits_false hw).1
    have hst : pendingStores s.queue = 0 := tally_eq_zero.mpr (fun _ => ha)
    simp only [Timely]
    omega
  | enqueueCall | enqueueTransfer | dequeueCall | dequeueTransfer => trivial

lemma singlePool_step {b : Block E Unit (Fin 1)} (h : SinglePool s) (ha : Apart s b)
    (hb : poolStep s b = some t) : SinglePool t := by
  have hq := poolStep_queue hb
  have ho := timely_step Nat.one_pos h.orderly (apart_timely h ha hb) hq
  have hp := passed_step h.passed hq
  by_cases htake : ∃ w, b = .dequeueTransfer w
  · obtain ⟨w, rfl⟩ := htake
    obtain ⟨q, hq', rfl⟩ := Option.map_eq_some_iff.mp hb
    obtain ⟨_, rfl⟩ := dequeueTransfer_step hq'
    rw [workerMain_queue] at ho
    obtain ⟨e, he⟩ := (ho.window.handOver ho.accounting.length).delivered
      s.queue.queue.dequeueData (by simp)
    rw [he] at hp ho ⊢
    exact ⟨ho, hp, by simp [workerMain, h.processed, elems, Cell.stored], h.looping⟩
  · obtain ⟨hw, hpr⟩ := poolStep_same hb (by simpa using htake)
    have hret : t.queue.returned = s.queue.returned := by
      cases b with
      | enqueueCall => obtain ⟨_, he⟩ := enqueueCall_step hq; rw [he]
      | enqueueReserve => obtain ⟨_, _, _, he⟩ := enqueueReserve_step hq; rw [he]
      | enqueueTransfer => obtain ⟨_, _, he⟩ := enqueueTransfer_step hq; rw [he]
      | dequeueCall => obtain ⟨_, he⟩ := dequeueCall_step hq; rw [he]
      | dequeueReserve => obtain ⟨_, _, he⟩ := dequeueReserve_step hq; rw [he]
      | dequeueTransfer w => exact (htake ⟨w, rfl⟩).elim
    exact ⟨ho, hp, by rw [hpr, hret, h.processed], by rw [hw]; exact h.looping⟩

lemma apart_singlePool (h : (pool E 1).ReachableBy Apart s) : SinglePool s :=
  h.invariant ⟨orderly_initial, rfl, rfl, fun _ => rfl⟩
    (fun _ _ _ hI ha hb => singlePool_step hI ha hb)

lemma SinglePool.inOrder (h : SinglePool s) : InOrder s where
  processed := by
    rw [h.processed, h.orderly.window.returned, elems_map_elem, h.passed]
    exact (List.take_prefix _ _).trans (List.prefix_append _ _)
  delivered := (h.orderly.window.handOver h.orderly.accounting.length).delivered
  intact := h.orderly.window.intact
  looping := h.looping

lemma one_transfer {b : Block E Unit (Fin 1)} (hk : b.isTransfer) (hb : poolStep s b = some t) :
    (pool E 1).Continues (fun b => b.isTransfer) s t := .tail .refl hk hb

lemma not_apart_fails {b : Block E Unit (Fin 1)} (h : SinglePool s) (ha : ¬ Apart s b)
    (hb : poolStep s b = some t) :
    ∃ u, (pool E 1).Continues (fun b => b.isTransfer) t u ∧ ¬ InOrder u := by
  have hq := poolStep_queue hb
  have hacc := accounting_step h.orderly.accounting hq
  have hbal := h.orderly.accounting.balance
  have hsize := h.orderly.accounting.size_le
  have hcap := h.orderly.accounting.capacity
  cases b with
  | enqueueReserve p =>
    obtain ⟨w, hw⟩ : ∃ w, s.queue.consumers w = .taking := by simpa [Apart] using ha
    obtain ⟨e, hp, hwait, he⟩ := enqueueReserve_step hq
    have hne := (enqueueWaits_false hwait).1
    have hst : pendingStores s.queue = 0 := by
      simp [pendingStores, tally_unit, hp, Producer.isStoring]
    have htk : 0 < pendingTakes s.queue := tally_pos.mpr ⟨w, by rw [hw]; rfl⟩
    have hwin : Window 1 t.queue := window_frame h.orderly.window (by rw [he]; rfl)
      (by rw [he]) (by rw [he]) (by rw [he])
    obtain ⟨u, hu⟩ : ∃ u, poolStep t (.enqueueTransfer p) = some u := by
      simp [poolStep, blockStep, he]
    refine ⟨u, one_transfer rfl hu, fun hio => ?_⟩
    refine store_occupied hacc hwin Nat.one_pos ?_ (poolStep_queue hu) hio.intact
    rw [he]
    dsimp only
    omega
  | dequeueReserve w =>
    have hstoring : (s.queue.producers ()).isStoring = true := by simpa [Apart] using ha
    obtain ⟨hc, hwait, he⟩ := dequeueReserve_step hq
    have hne := (dequeueWaits_false hwait).1
    have hst : pendingStores s.queue = 1 := by rw [pendingStores, tally_unit, hstoring]; rfl
    have htk : pendingTakes s.queue = 0 := tally_eq_zero.mpr (fun w' => by
      rw [Subsingleton.elim w' w, hc]
      rfl)
    have hwin : Window 1 t.queue := window_frame h.orderly.window (by rw [he]; rfl)
      (by rw [he]) (by rw [he]) (by rw [he])
    obtain ⟨u, hu⟩ : ∃ u, poolStep t (.dequeueTransfer w) = some u := by
      simp [poolStep, blockStep, he]
    refine ⟨u, one_transfer rfl hu, fun hio => ?_⟩
    have hempty : t.queue.stored.length ≤ t.queue.returned.length := by
      rw [he]
      dsimp only
      omega
    obtain ⟨d, hd, hblank⟩ := take_blank hacc hwin Nat.one_pos hempty (poolStep_queue hu)
    obtain ⟨e, rfl⟩ := hio.delivered d hd
    cases hblank
  | enqueueCall | enqueueTransfer | dequeueCall | dequeueTransfer => exact (ha trivial).elim

theorem single_session_iff_apart (h : (pool E 1).ReachableBy Apart s) :
    InOrder s ∧ ∀ b t, poolStep s b = some t →
      (Apart s b ↔ ∀ u, (pool E 1).Continues (fun b => b.isTransfer) t u → InOrder u) := by
  have hs := apart_singlePool h
  refine ⟨hs.inOrder, fun b t hb => ⟨?_, ?_⟩⟩
  · intro ha u hu
    have ht : (pool E 1).ReachableBy Apart t := .step h ha hb
    have htransfer : ∀ (s : Pool E 1) b, b.isTransfer = true → Apart s b := by
      intro s b hk
      cases b <;> simp_all [Block.isTransfer, Apart]
    exact (apart_singlePool (ht.continues hu htransfer)).inOrder
  · intro hall
    by_contra ha
    obtain ⟨u, hu, hnot⟩ := not_apart_fails hs ha hb
    exact hnot (hall u hu)

theorem single_session_iff_apart_run :
    ∃ s, (pool ℕ 1).runIf Apart (pool ℕ 1).init
        [.enqueueCall () 7, .enqueueReserve (), .enqueueTransfer (), .dequeueCall 0] = some s ∧
      InOrder s ∧ ∀ b t, poolStep s b = some t →
        (Apart s b ↔ ∀ u, (pool ℕ 1).Continues (fun b => b.isTransfer) t u → InOrder u) := by
  obtain ⟨s, hs⟩ : ∃ s, (pool ℕ 1).runIf Apart (pool ℕ 1).init
      [.enqueueCall () 7, .enqueueReserve (), .enqueueTransfer (), .dequeueCall 0] = some s :=
    ⟨_, rfl⟩
  exact ⟨s, hs, single_session_iff_apart (.runIf .init hs)⟩

def leaving : List (Block ℕ Unit (Fin 1)) :=
  [.enqueueCall () 7, .enqueueReserve (), .enqueueTransfer (),
    .dequeueCall 0, .dequeueReserve 0, .dequeueTransfer 0,
    .enqueueCall () 8, .enqueueReserve (), .dequeueCall 0, .dequeueReserve 0, .dequeueTransfer 0]

theorem leaving_not_inOrder : ¬ ∀ s, (pool ℕ 1).Reachable s → InOrder s := by
  intro h
  obtain ⟨s, hs, hw⟩ : ∃ s, (pool ℕ 1).run (pool ℕ 1).init leaving = some s ∧
      s.workers 0 = .exited := ⟨_, rfl, rfl⟩
  have hl := (h s (System.reachable_of_run hs)).looping 0
  rw [hw] at hl
  cases hl

end MessageBroker.Mbroker
