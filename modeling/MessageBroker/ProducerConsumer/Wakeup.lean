import MessageBroker.Lib.CondLedger
import MessageBroker.ProducerConsumer.Accounting
import MessageBroker.ProducerConsumer.Quiescence

namespace MessageBroker.ProducerConsumer

open MessageBroker.Lib

variable {E P C : Type} {n : ℕ}

def Stranded (s : Threads E P C) : Prop :=
  Quiescent s ∧
    ((∃ p, (s.producers p).isAsleep = true ∧ s.queue.currentSize < s.queue.capacity) ∨
      ∃ c, (s.consumers c).isAsleep = true ∧ 0 < s.queue.currentSize)

section Counts

variable {ι α β : Type} [Fintype ι] {g : ι → Phase α β} {i : ι} {x : Phase α β}

lemma phase_counts [DecidableEq ι] (y : Phase α β) (h : g i = x) :
    awake (Function.update g i y) + x.isAwake.toNat = awake g + y.isAwake.toNat ∧
      sleepers (Function.update g i y) + x.isAsleep.toNat = sleepers g + y.isAsleep.toNat ∧
      signals (Function.update g i y) + x.owesSignal.toNat = signals g + y.owesSignal.toNat := by
  subst h
  exact ⟨tally_update _ g i y, tally_update _ g i y, tally_update _ g i y⟩

lemma awake_pos (h : g i = x) (hx : x.isAwake = true) : 0 < awake g :=
  tally_pos.mpr ⟨i, by rw [h, hx]⟩

end Counts

variable [Fintype P] [Fintype C]

/-- The condition variable of producers: free places, and a signal due from each consumer
past its reservation. -/
def pushers (s : Threads E P C) : Ledger :=
  ⟨s.queue.capacity - s.queue.currentSize, awake s.producers, sleepers s.producers,
    signals s.consumers⟩

def poppers (s : Threads E P C) : Ledger :=
  ⟨s.queue.currentSize, awake s.consumers, sleepers s.consumers, signals s.producers⟩

def Covered (s : Threads E P C) : Event E P C → Prop
  | .enqueueWait _ => (pushers s).MayWait
  | .dequeueWait _ => (poppers s).MayWait
  | _ => True

instance (s : Threads E P C) (ev : Event E P C) : Decidable (Covered s ev) := by
  cases ev <;> simp only [Covered] <;> infer_instance

variable [DecidableEq P] [DecidableEq C] {s t : Threads E P C} {ev : Event E P C}

lemma threads_size_le (h : (threads E P C n).Reachable s) :
    s.queue.currentSize ≤ s.queue.capacity := by
  obtain ⟨u, hu, hR⟩ := threads_refine_blocks h
  have hacc := reachable_accounting hu
  rw [← hR.queue, hacc.capacity]
  exact hacc.size_le

def pushKind (s : Threads E P C) : Event E P C → Ledger.Kind
  | .enqueueCall _ _ => .call
  | .enqueueCheck _ => if s.queue.enqueueWaits then .idle else .take
  | .enqueueWait _ => .wait
  | .dequeueCheck _ => if s.queue.dequeueWaits then .idle else .supply
  | .dequeueSignal _ _ => .signal
  | _ => .idle

def popKind (s : Threads E P C) : Event E P C → Ledger.Kind
  | .dequeueCall _ => .call
  | .dequeueCheck _ => if s.queue.dequeueWaits then .idle else .take
  | .dequeueWait _ => .wait
  | .enqueueCheck _ => if s.queue.enqueueWaits then .idle else .supply
  | .enqueueSignal _ _ => .signal
  | _ => .idle

omit [Fintype P] [Fintype C] [DecidableEq P] [DecidableEq C] in
lemma pushKind_wait (h : pushKind s ev = .wait) : ∃ p, ev = .enqueueWait p := by
  cases ev <;> simp only [pushKind] at h <;> grind

omit [Fintype P] [Fintype C] [DecidableEq P] [DecidableEq C] in
lemma popKind_wait (h : popKind s ev = .wait) : ∃ c, ev = .dequeueWait c := by
  cases ev <;> simp only [popKind] at h <;> grind

omit [Fintype P] [Fintype C] [DecidableEq P] [DecidableEq C] in
lemma pushKind_call (h : pushKind s ev = .call) : ev.isCall = true := by
  cases ev <;> simp only [pushKind, Event.isCall] at * <;> grind

omit [Fintype P] [Fintype C] [DecidableEq P] [DecidableEq C] in
lemma popKind_call (h : popKind s ev = .call) : ev.isCall = true := by
  cases ev <;> simp only [popKind, Event.isCall] at * <;> grind

lemma ledgers_move (hle : s.queue.currentSize ≤ s.queue.capacity) (h : Moves s ev t) :
    (pushers s).Move (pushKind s ev) (pushers t) ∧
      (poppers s).Move (popKind s ev) (poppers t) := by
  cases h with
  | @enqueueCall p e hp =>
    have hc := phase_counts (.checking e) hp
    simp only [Phase.isAwake, Phase.isAsleep, Phase.owesSignal, Bool.toNat_true,
      Bool.toNat_false] at hc
    simp only [pushKind, popKind, Ledger.Move, pushers, poppers, true_and,
      and_true]
    omega
  | @enqueueBlocked p e hp hw =>
    have hc := phase_counts (.waiting e) hp
    simp only [Phase.isAwake, Phase.isAsleep, Phase.owesSignal, Bool.toNat_true,
      Bool.toNat_false] at hc
    simp only [pushKind, popKind, hw, if_true, Ledger.Move, pushers, poppers, true_and,
      and_true]
    omega
  | @enqueueReserve p e hp hw =>
    have hc := phase_counts (.transferring e) hp
    simp only [Phase.isAwake, Phase.isAsleep, Phase.owesSignal, Bool.toNat_true,
      Bool.toNat_false] at hc
    have hne := (enqueueWaits_false hw).1
    simp only [pushKind, popKind, hw, Bool.false_eq_true, if_false, PcQueue.enqueueReserve,
      Ledger.Move, pushers, poppers, true_and,
      and_true]
    omega
  | @enqueueWait p e hp =>
    have hc := phase_counts (.asleep e) hp
    simp only [Phase.isAwake, Phase.isAsleep, Phase.owesSignal, Bool.toNat_true,
      Bool.toNat_false] at hc
    simp only [pushKind, popKind, Ledger.Move, pushers, poppers, true_and,
      and_true]
    omega
  | @enqueueTransfer p e hp =>
    have hc := phase_counts (.signalling ()) hp
    simp only [Phase.isAwake, Phase.isAsleep, Phase.owesSignal, Bool.toNat_true,
      Bool.toNat_false] at hc
    simp only [pushKind, popKind, PcQueue.enqueueTransfer, Ledger.Move, pushers, poppers, true_and,
      and_true]
    omega
  | @enqueueSignal p u w cs hp hs =>
    have hc := phase_counts .outside hp
    simp only [Phase.isAwake, Phase.isAsleep, Phase.owesSignal, Bool.toNat_true,
      Bool.toNat_false] at hc
    have hw := condSignal_counts hs
    simp only [pushKind, popKind, Ledger.Move, pushers, poppers, true_and]
    omega
  | @dequeueCall c hcs =>
    have hc := phase_counts (.checking ()) hcs
    simp only [Phase.isAwake, Phase.isAsleep, Phase.owesSignal, Bool.toNat_true,
      Bool.toNat_false] at hc
    simp only [pushKind, popKind, Ledger.Move, pushers, poppers, true_and,
      and_true]
    omega
  | @dequeueBlocked c u hcs hw =>
    have hc := phase_counts (.waiting ()) hcs
    simp only [Phase.isAwake, Phase.isAsleep, Phase.owesSignal, Bool.toNat_true,
      Bool.toNat_false] at hc
    simp only [pushKind, popKind, hw, if_true, Ledger.Move, pushers, poppers, true_and,
      and_true]
    omega
  | @dequeueReserve c u hcs hw =>
    have hc := phase_counts (.transferring ()) hcs
    simp only [Phase.isAwake, Phase.isAsleep, Phase.owesSignal, Bool.toNat_true,
      Bool.toNat_false] at hc
    have hne := (dequeueWaits_false hw).1
    simp only [pushKind, popKind, hw, Bool.false_eq_true, if_false, PcQueue.dequeueReserve,
      Ledger.Move, pushers, poppers, true_and,
      and_true]
    omega
  | @dequeueWait c u hcs =>
    have hc := phase_counts (.asleep ()) hcs
    simp only [Phase.isAwake, Phase.isAsleep, Phase.owesSignal, Bool.toNat_true,
      Bool.toNat_false] at hc
    simp only [pushKind, popKind, Ledger.Move, pushers, poppers, true_and,
      and_true]
    omega
  | @dequeueTransfer c u hcs =>
    have hc := phase_counts (.signalling s.queue.dequeueData) hcs
    simp only [Phase.isAwake, Phase.isAsleep, Phase.owesSignal, Bool.toNat_true,
      Bool.toNat_false] at hc
    simp only [pushKind, popKind, PcQueue.dequeueTransfer, Ledger.Move, pushers, poppers, true_and,
      and_true]
    omega
  | @dequeueSignal c d w ps hcs hs =>
    have hc := phase_counts .outside hcs
    simp only [Phase.isAwake, Phase.isAsleep, Phase.owesSignal, Bool.toNat_true,
      Bool.toNat_false] at hc
    have hw := condSignal_counts hs
    simp only [pushKind, popKind, Ledger.Move, pushers, poppers, true_and]
    omega

structure Promised (s : Threads E P C) : Prop where
  pushers : (pushers s).Kept
  poppers : (poppers s).Kept

lemma Promised.move (hs : Promised s) (hle : s.queue.currentSize ≤ s.queue.capacity)
    (h : Moves s ev t) (hc : Covered s ev) : Promised t := by
  obtain ⟨hpush, hpop⟩ := ledgers_move hle h
  constructor
  · apply hs.pushers.move hpush
    intro hk
    obtain ⟨p, rfl⟩ := pushKind_wait hk
    exact hc
  · apply hs.poppers.move hpop
    intro hk
    obtain ⟨c, rfl⟩ := popKind_wait hk
    exact hc

lemma covered_promised (h : (threads E P C n).ReachableBy Covered s) : Promised s := by
  induction h with
  | init =>
    have hp : sleepers (threads E P C n).init.producers = 0 := tally_const rfl
    have hc : sleepers (threads E P C n).init.consumers = 0 := tally_const rfl
    constructor <;> simp [Ledger.Kept, pushers, poppers, hp, hc]
  | step hb hc hst ih => exact ih.move (threads_size_le hb.reachable) (waitStep_moves hst) hc

omit [DecidableEq P] [DecidableEq C] in
lemma Quiescent.at_rest (h : Quiescent s) :
    awake s.producers = 0 ∧ awake s.consumers = 0 ∧ signals s.producers = 0 ∧
      signals s.consumers = 0 := by
  have hrest : ∀ {α β : Type} (x : Phase α β), x = .outside ∨ x.isAsleep = true →
      x.isAwake = false ∧ x.owesSignal = false := by
    intro α β x hx
    cases x <;> simp_all [Phase.isAwake, Phase.isAsleep, Phase.owesSignal]
  exact ⟨tally_eq_zero.mpr fun p => (hrest _ (h.1 p)).1,
    tally_eq_zero.mpr fun c => (hrest _ (h.2 c)).1,
    tally_eq_zero.mpr fun p => (hrest _ (h.1 p)).2,
    tally_eq_zero.mpr fun c => (hrest _ (h.2 c)).2⟩

omit [DecidableEq P] [DecidableEq C] in
lemma stranded_iff (hle : s.queue.currentSize ≤ s.queue.capacity) (h : Quiescent s) :
    Stranded s ↔ ¬ Promised s := by
  obtain ⟨hp, hc, hsp, hsc⟩ := h.at_rest
  have hpush := @Ledger.kept_at_rest (pushers s) hp hsc
  have hpop := @Ledger.kept_at_rest (poppers s) hc hsp
  have hps : (∃ p, (s.producers p).isAsleep = true) ↔ 0 < sleepers s.producers := tally_pos.symm
  have hcs : (∃ c, (s.consumers c).isAsleep = true) ↔ 0 < sleepers s.consumers := tally_pos.symm
  have hboth : Promised s ↔ (pushers s).Kept ∧ (poppers s).Kept :=
    ⟨fun h => ⟨h.pushers, h.poppers⟩, fun h => ⟨h.1, h.2⟩⟩
  simp only [Stranded, h, true_and, exists_and_right, hps, hcs, hboth, hpush, hpop]
  simp only [pushers, poppers]
  omega

def Unaided (s : Threads E P C) : Event E P C → Prop
  | .enqueueWait _ => awake s.consumers + sleepers s.consumers = 0
  | .dequeueWait _ => awake s.producers + sleepers s.producers = 0
  | _ => False

lemma supply_awake (h : Moves s ev t) (hk : pushKind s ev = .supply) : 0 < awake s.consumers := by
  cases h with
  | dequeueBlocked hc | dequeueReserve hc => exact awake_pos hc rfl
  | enqueueBlocked _ hw | enqueueReserve _ hw =>
    simp only [pushKind, hw] at hk
    cases hk
  | _ => cases hk

lemma demand_awake (h : Moves s ev t) (hk : popKind s ev = .supply) : 0 < awake s.producers := by
  cases h with
  | enqueueBlocked hp | enqueueReserve hp => exact awake_pos hp rfl
  | dequeueBlocked _ hw | dequeueReserve _ hw =>
    simp only [popKind, hw] at hk
    cases hk
  | _ => cases hk

structure Forsaken (s : Threads E P C) : Prop where
  size_le : s.queue.currentSize ≤ s.queue.capacity
  broken : (¬ (pushers s).Kept ∧ awake s.consumers + sleepers s.consumers = 0) ∨
    (¬ (poppers s).Kept ∧ awake s.producers + sleepers s.producers = 0)

lemma Forsaken.move (hs : Forsaken s) (h : Moves s ev t) (hc : ev.isCall = false)
    (hle : t.queue.currentSize ≤ t.queue.capacity) : Forsaken t := by
  obtain ⟨hpush, hpop⟩ := ledgers_move hs.size_le h
  have hcp : pushKind s ev ≠ .call := fun hk => by simp [pushKind_call hk] at hc
  have hcc : popKind s ev ≠ .call := fun hk => by simp [popKind_call hk] at hc
  refine ⟨hle, ?_⟩
  rcases hs.broken with ⟨hb, ha⟩ | ⟨hb, ha⟩
  · have hns : pushKind s ev ≠ .supply := fun hk => by
      have := supply_awake h hk
      omega
    exact .inl ⟨Ledger.not_kept_move hb hpush hcp hns, Ledger.nobody_move hpop hcc ha⟩
  · have hns : popKind s ev ≠ .supply := fun hk => by
      have := demand_awake h hk
      omega
    exact .inr ⟨Ledger.not_kept_move hb hpop hcc hns, Ledger.nobody_move hpush hcp ha⟩

omit [DecidableEq P] [DecidableEq C] in
lemma Forsaken.not_promised (hs : Forsaken s) : ¬ Promised s := by
  intro hp
  rcases hs.broken with ⟨hb, _⟩ | ⟨hb, _⟩
  · exact hb hp.pushers
  · exact hb hp.poppers

lemma uncovered_forsaken (hle : s.queue.currentSize ≤ s.queue.capacity) (h : Moves s ev t)
    (hle' : t.queue.currentSize ≤ t.queue.capacity) (hc : ¬ Covered s ev) (hu : Unaided s ev) :
    Forsaken t := by
  obtain ⟨hpush, hpop⟩ := ledgers_move hle h
  refine ⟨hle', ?_⟩
  cases ev with
  | enqueueWait p =>
    exact .inl ⟨fun hk => hc ((Ledger.wait_kept_iff hpush).mp hk),
      Ledger.nobody_move hpop (by simp [popKind]) hu⟩
  | dequeueWait c =>
    exact .inr ⟨fun hk => hc ((Ledger.wait_kept_iff hpop).mp hk),
      Ledger.nobody_move hpush (by simp [pushKind]) hu⟩
  | _ => exact hu.elim

lemma Forsaken.continues (ht : (threads E P C n).Reachable t) (h : Forsaken t) {u}
    (hu : (threads E P C n).Continues (fun ev => ev.isCall = false) t u) :
    (threads E P C n).Reachable u ∧ Forsaken u := by
  induction hu with
  | refl => exact ⟨ht, h⟩
  | tail _ hc hst ih =>
    have hr := ih.1.step hst
    exact ⟨hr, ih.2.move (waitStep_moves hst) hc (threads_size_le hr)⟩

theorem no_lost_wakeup_covered (h : (threads E P C n).ReachableBy Covered s) :
    ¬ Stranded s ∧ ∀ ev t, waitStep s ev = some t → ¬ Covered s ev → Unaided s ev →
      (∃ u, (threads E P C n).Continues (fun ev => ev.isCall = false) t u ∧ Quiescent u) ∧
      ∀ u, (threads E P C n).Continues (fun ev => ev.isCall = false) t u → Quiescent u →
        Stranded u := by
  have hle := threads_size_le h.reachable
  refine ⟨fun hs => (stranded_iff hle hs.1).mp hs (covered_promised h), ?_⟩
  intro ev t hst hc hun
  have ht : (threads E P C n).Reachable t := h.reachable.step hst
  have hf := uncovered_forsaken hle (waitStep_moves hst) (threads_size_le ht) hc hun
  refine ⟨comes_to_rest ht, fun u hu hq => ?_⟩
  obtain ⟨hru, hfu⟩ := hf.continues ht hu
  exact (stranded_iff (threads_size_le hru) hq).mpr hfu.not_promised

theorem no_lost_wakeup_covered_run :
    ∃ s, (threads ℕ Unit Unit 1).runIf Covered (threads ℕ Unit Unit 1).init
        [.dequeueCall (), .dequeueCheck (), .dequeueWait (), .enqueueCall () 7,
          .enqueueCheck (), .enqueueTransfer (), .enqueueSignal () (some ())] = some s ∧
      ¬ Stranded s ∧ ∀ ev t, waitStep s ev = some t → ¬ Covered s ev → Unaided s ev →
        (∃ u, (threads ℕ Unit Unit 1).Continues (fun ev => ev.isCall = false) t u ∧
          Quiescent u) ∧
        ∀ u, (threads ℕ Unit Unit 1).Continues (fun ev => ev.isCall = false) t u →
          Quiescent u → Stranded u := by
  obtain ⟨s, hs⟩ : ∃ s, (threads ℕ Unit Unit 1).runIf Covered (threads ℕ Unit Unit 1).init
      [.dequeueCall (), .dequeueCheck (), .dequeueWait (), .enqueueCall () 7,
        .enqueueCheck (), .enqueueTransfer (), .enqueueSignal () (some ())] = some s := ⟨_, rfl⟩
  exact ⟨s, hs, no_lost_wakeup_covered (.runIf .init hs)⟩

/-- The second producer finds the ring test true between the two blocks of the first, whose
signal goes to consumers alone. -/
def sameSide {P : Type} (p q : P) : List (Event ℕ P Unit) :=
  [.enqueueCall p 7, .enqueueCheck p, .enqueueCall q 8, .enqueueCheck q, .enqueueWait q,
    .enqueueTransfer p, .enqueueSignal p none]

theorem sameSide_stranded :
    ¬ ∀ s, (threads ℕ (Fin 2) Unit 2).Reachable s → ¬ Stranded s := by
  intro h
  obtain ⟨s, hs, h₀, h₁, hc, hq⟩ : ∃ s, (threads ℕ (Fin 2) Unit 2).run
      (threads ℕ (Fin 2) Unit 2).init (sameSide 0 1) = some s ∧ s.producers 0 = .outside ∧
        s.producers 1 = .asleep 8 ∧ s.consumers () = .outside ∧
        s.queue.currentSize < s.queue.capacity := ⟨_, rfl, rfl, rfl, rfl, by decide⟩
  refine h s (System.reachable_of_run hs) ⟨⟨fun p => ?_, fun c => .inl hc⟩, .inl ⟨1, ?_, hq⟩⟩
  · match p with
    | 0 => exact .inl h₀
    | 1 => exact .inr (by rw [h₁]; rfl)
  · rw [h₁]
    rfl

end MessageBroker.ProducerConsumer
