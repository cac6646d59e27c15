import MessageBroker.ProducerConsumer.Waiting

namespace MessageBroker.ProducerConsumer

open MessageBroker.Lib

variable {E P C ι α β : Type} {n : ℕ}

def Event.isCall : Event E P C → Bool
  | .enqueueCall _ _ | .dequeueCall _ => true
  | _ => false

def Phase.isWaiting : Phase α β → Bool
  | .waiting _ => true
  | _ => false

def Quiescent (s : Threads E P C) : Prop :=
  (∀ p, s.producers p = .outside ∨ (s.producers p).isAsleep = true) ∧
    ∀ c, s.consumers c = .outside ∨ (s.consumers c).isAsleep = true

def Phase.rank : Phase α β → ℕ
  | .outside => 0
  | .asleep _ | .signalling _ => 3
  | .waiting _ | .transferring _ => 4
  | .checking _ => 5

variable [Fintype ι] [Fintype P] [Fintype C]

def rank (s : Threads E P C) : ℕ := total Phase.rank s.producers + total Phase.rank s.consumers

lemma total_of {g : ι → Phase α β} {i : ι} {x : Phase α β} [DecidableEq ι] (y : Phase α β)
    (h : g i = x) : total Phase.rank (Function.update g i y) + x.rank =
      total Phase.rank g + y.rank := by
  subst h
  exact total_update Phase.rank g i y

lemma condSignal_rank [DecidableEq ι] {g g' : ι → Phase α β} {w : Option ι}
    (h : condSignal g w = some g') : total Phase.rank g' ≤ total Phase.rank g + 2 := by
  cases w with
  | none =>
    simp only [condSignal] at h
    split_ifs at h
    cases Option.some.inj h
    exact Nat.le_add_right _ _
  | some i =>
    cases hi : g i <;> simp only [condSignal, hi, reduceCtorEq] at h
    rename_i a
    cases Option.some.inj h
    have ht := total_of (.checking a) hi
    simp only [Phase.rank] at ht
    omega

lemma condSignal_enabled [DecidableEq ι] (g : ι → Phase α β) :
    ∃ w g', condSignal g w = some g' := by
  by_cases hz : sleepers g = 0
  · exact ⟨none, g, if_pos hz⟩
  · obtain ⟨i, hi⟩ := tally_pos.mp (Nat.pos_of_ne_zero hz)
    cases hg : g i <;> simp only [hg, Phase.isAsleep, Bool.false_eq_true] at hi
    rename_i a
    exact ⟨some i, Function.update g i (.checking a), by simp only [condSignal, hg]⟩

lemma condSignal_waiting [DecidableEq ι] {g g' : ι → Phase α β} {w : Option ι}
    (h : condSignal g w = some g') {i : ι} (hi : (g i).isWaiting = true) :
    (g' i).isWaiting = true := by
  cases w with
  | none =>
    simp only [condSignal] at h
    split_ifs at h
    exact Option.some.inj h ▸ hi
  | some j =>
    cases hj : g j <;> simp only [condSignal, hj, reduceCtorEq] at h
    cases Option.some.inj h
    have hne : i ≠ j := by
      rintro rfl
      rw [hj] at hi
      cases hi
    rwa [Function.update_of_ne hne]

variable [DecidableEq P] [DecidableEq C] {s t : Threads E P C} {ev : Event E P C}

lemma moves_rank (h : Moves s ev t) (hc : ev.isCall = false) : rank t < rank s := by
  cases h with
  | enqueueCall | dequeueCall => cases hc
  | @enqueueBlocked p e hp =>
    have ht := total_of (.waiting e) hp
    simp only [rank, Phase.rank] at *
    omega
  | @enqueueReserve p e hp =>
    have ht := total_of (.transferring e) hp
    simp only [rank, Phase.rank] at *
    omega
  | @enqueueWait p e hp =>
    have ht := total_of (.asleep e) hp
    simp only [rank, Phase.rank] at *
    omega
  | @enqueueTransfer p e hp =>
    have ht := total_of (.signalling ()) hp
    simp only [rank, Phase.rank] at *
    omega
  | @enqueueSignal p u w cs hp hs =>
    have ht := total_of .outside hp
    have hw := condSignal_rank hs
    simp only [rank, Phase.rank] at *
    omega
  | @dequeueBlocked c u hcs =>
    have ht := total_of (.waiting ()) hcs
    simp only [rank, Phase.rank] at *
    omega
  | @dequeueReserve c u hcs =>
    have ht := total_of (.transferring ()) hcs
    simp only [rank, Phase.rank] at *
    omega
  | @dequeueWait c u hcs =>
    have ht := total_of (.asleep ()) hcs
    simp only [rank, Phase.rank] at *
    omega
  | @dequeueTransfer c u hcs =>
    have ht := total_of (.signalling s.queue.dequeueData) hcs
    simp only [rank, Phase.rank] at *
    omega
  | @dequeueSignal c d w ps hcs hs =>
    have ht := total_of .outside hcs
    have hw := condSignal_rank hs
    simp only [rank, Phase.rank] at *
    omega

def LockHeld (s : Threads E P C) : Prop :=
  s.sizeLocked = true →
    (∃ p, (s.producers p).isWaiting = true) ∨ ∃ c, (s.consumers c).isWaiting = true

omit [Fintype P] [Fintype C] in
omit [DecidableEq C] in
lemma LockHeld.producer {p : P} {x y : Phase E Unit} {q : PcQueue E} (h : LockHeld s)
    (hp : s.producers p = x) (hx : x.isWaiting = false) :
    LockHeld { s with queue := q, producers := Function.update s.producers p y } := by
  intro hl
  refine (h hl).imp_left (fun ⟨p', hp'⟩ => ⟨p', ?_⟩)
  have hne : p' ≠ p := by
    rintro rfl
    rw [hp, hx] at hp'
    cases hp'
  simpa [Function.update_of_ne hne] using hp'

omit [Fintype P] [Fintype C] in
omit [DecidableEq P] in
lemma LockHeld.consumer {c : C} {x y : Phase Unit (Cell E)} {q : PcQueue E} (h : LockHeld s)
    (hc : s.consumers c = x) (hx : x.isWaiting = false) :
    LockHeld { s with queue := q, consumers := Function.update s.consumers c y } := by
  intro hl
  refine (h hl).imp_right (fun ⟨c', hc'⟩ => ⟨c', ?_⟩)
  have hne : c' ≠ c := by
    rintro rfl
    rw [hc, hx] at hc'
    cases hc'
  simpa [Function.update_of_ne hne] using hc'

lemma moves_lockHeld (hs : LockHeld s) (h : Moves s ev t) : LockHeld t := by
  cases h with
  | enqueueCall hp => exact hs.producer hp rfl
  | @enqueueBlocked p => exact fun _ => .inl ⟨p, by simp [Phase.isWaiting]⟩
  | enqueueReserve hp => exact hs.producer hp rfl
  | enqueueTransfer hp => exact hs.producer hp rfl
  | enqueueSignal hp hw =>
    intro hl
    refine (hs.producer (q := s.queue) hp rfl hl).imp_right (fun ⟨c, hc⟩ => ⟨c, ?_⟩)
    exact condSignal_waiting hw hc
  | dequeueCall hc => exact hs.consumer hc rfl
  | @dequeueBlocked c => exact fun _ => .inr ⟨c, by simp [Phase.isWaiting]⟩
  | dequeueReserve hc => exact hs.consumer hc rfl
  | dequeueTransfer hc => exact hs.consumer hc rfl
  | dequeueSignal hc hw =>
    intro hl
    refine (hs.consumer (q := s.queue) hc rfl hl).imp_left (fun ⟨p, hp⟩ => ⟨p, ?_⟩)
    exact condSignal_waiting hw hp
  | enqueueWait | dequeueWait => exact fun hl => by cases hl

lemma threads_lockHeld (h : (threads E P C n).Reachable s) : LockHeld s :=
  h.invariant (fun hl => by cases hl) (fun _ _ _ hs hst => moves_lockHeld hs (waitStep_moves hst))

lemma producer_enabled {p : P} (hl : s.sizeLocked = false)
    (h : ¬ (s.producers p = .outside ∨ (s.producers p).isAsleep = true)) :
    ∃ ev t, ev.isCall = false ∧ waitStep s ev = some t := by
  cases hp : s.producers p with
  | outside => exact (h (.inl hp)).elim
  | asleep e => exact (h (.inr (by rw [hp]; rfl))).elim
  | checking e =>
    cases hw : s.queue.enqueueWaits
    · exact ⟨.enqueueCheck p, _, rfl, by simp only [waitStep, hp, hl, hw]; rfl⟩
    · exact ⟨.enqueueCheck p, _, rfl, by simp only [waitStep, hp, hl, hw]; rfl⟩
  | waiting e => exact ⟨.enqueueWait p, _, rfl, by simp only [waitStep, hp]; rfl⟩
  | transferring e => exact ⟨.enqueueTransfer p, _, rfl, by simp only [waitStep, hp]; rfl⟩
  | signalling u =>
    obtain ⟨w, cs, hs⟩ := condSignal_enabled s.consumers
    exact ⟨.enqueueSignal p w, _, rfl, by simp only [waitStep, hp, hs]; rfl⟩

lemma consumer_enabled {c : C} (hl : s.sizeLocked = false)
    (h : ¬ (s.consumers c = .outside ∨ (s.consumers c).isAsleep = true)) :
    ∃ ev t, ev.isCall = false ∧ waitStep s ev = some t := by
  cases hc : s.consumers c with
  | outside => exact (h (.inl hc)).elim
  | asleep u => exact (h (.inr (by rw [hc]; rfl))).elim
  | checking u =>
    cases hw : s.queue.dequeueWaits
    · exact ⟨.dequeueCheck c, _, rfl, by simp only [waitStep, hc, hl, hw]; rfl⟩
    · exact ⟨.dequeueCheck c, _, rfl, by simp only [waitStep, hc, hl, hw]; rfl⟩
  | waiting u => exact ⟨.dequeueWait c, _, rfl, by simp only [waitStep, hc]; rfl⟩
  | transferring u => exact ⟨.dequeueTransfer c, _, rfl, by simp only [waitStep, hc]; rfl⟩
  | signalling d =>
    obtain ⟨w, ps, hs⟩ := condSignal_enabled s.producers
    exact ⟨.dequeueSignal c w, _, rfl, by simp only [waitStep, hc, hs]; rfl⟩

lemma quiescent_or_enabled (hlock : LockHeld s) :
    Quiescent s ∨ ∃ ev t, ev.isCall = false ∧ waitStep s ev = some t := by
  by_cases hq : Quiescent s
  · exact .inl hq
  right
  cases hl : s.sizeLocked with
  | true =>
    -- the holder of the lock is about to release it
    rcases hlock hl with ⟨p, hp⟩ | ⟨c, hc⟩
    · cases h : s.producers p <;> simp only [h, Phase.isWaiting, Bool.false_eq_true] at hp
      exact ⟨.enqueueWait p, _, rfl, by simp only [waitStep, h]; rfl⟩
    · cases h : s.consumers c <;> simp only [h, Phase.isWaiting, Bool.false_eq_true] at hc
      exact ⟨.dequeueWait c, _, rfl, by simp only [waitStep, h]; rfl⟩
  | false =>
    rw [Quiescent, not_and_or, not_forall, not_forall] at hq
    rcases hq with ⟨p, hp⟩ | ⟨c, hc⟩
    · exact producer_enabled hl hp
    · exact consumer_enabled hl hc

theorem comes_to_rest (h : (threads E P C n).Reachable s) :
    ∃ t, (threads E P C n).Continues (fun ev => ev.isCall = false) s t ∧ Quiescent t := by
  induction hr : rank s using Nat.strong_induction_on generalizing s with
  | _ r ih =>
    rcases quiescent_or_enabled (threads_lockHeld h) with hq | ⟨ev, t, hc, hst⟩
    · exact ⟨s, .refl, hq⟩
    · have hlt := moves_rank (waitStep_moves hst) hc
      obtain ⟨u, hu, hq⟩ := ih (rank t) (hr ▸ hlt) (h.step hst) rfl
      exact ⟨u, hu.head hc hst, hq⟩

end MessageBroker.ProducerConsumer
