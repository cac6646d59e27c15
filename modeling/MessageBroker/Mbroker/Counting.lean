import MessageBroker.Lib.TransitionSystem
import MessageBroker.Lib.Tally

/-! The subscriber count of one box, each increment and decrement a load and a store: the first
runs under messages_lock, the second under the wait_mutex of the box. -/

namespace MessageBroker.Mbroker.Counting

open MessageBroker.Lib

inductive SubscriberStage
  | outside
  -- messages_lock held
  | found
  | incrementing (loaded : UInt64)
  | incremented
  -- no mutex held
  | serving
  | asleep
  -- wait_mutex held
  | checking
  | departing
  | decrementing (loaded : UInt64)
  | decremented
  deriving DecidableEq

inductive CountEvent (W : Type)
  | lockMessages (w : W)
  | openFailed (w : W)
  | load (w : W)
  | store (w : W)
  | unlock (w : W)
  | lockWait (w : W) (leave : Bool)
  | sleep (w : W)
  | wake (w : W)
  | remove (publishers : UInt64)

structure SubscriberCount (W : Type) where
  subscribers : UInt64
  messagesLock : Option W
  waitMutex : Option W
  stageOf : W → SubscriberStage
  removed : Bool

namespace SubscriberStage

def loaded : SubscriberStage → Option UInt64
  | incrementing loaded | decrementing loaded => some loaded
  | _ => none

def isLive : SubscriberStage → Bool
  | incremented | serving | asleep | checking | departing => true
  | _ => false

def isCounted : SubscriberStage → Bool
  | decrementing _ => true
  | stage => stage.isLive

end SubscriberStage

section Model

variable {W : Type} [DecidableEq W]

def SubscriberCount.at (s : SubscriberCount W) (w : W) (stage : SubscriberStage) :
    SubscriberCount W :=
  { s with stageOf := Function.update s.stageOf w stage }

def workerStep (s : SubscriberCount W) (w : W) : SubscriberStage → CountEvent W →
    Option (SubscriberCount W)
  | .outside, .lockMessages _ =>
    if s.messagesLock = none then some ({ s with messagesLock := some w }.at w .found) else none
  | .found, .openFailed _ => some ({ s with messagesLock := none }.at w .outside)
  | .found, .load _ => some (s.at w (.incrementing s.subscribers))
  | .incrementing loaded, .store _ =>
    some ({ s with subscribers := loaded + 1 }.at w .incremented)
  | .incremented, .unlock _ => some ({ s with messagesLock := none }.at w .serving)
  | .serving, .lockWait _ leave =>
    if s.waitMutex = none then
      some ({ s with waitMutex := some w }.at w (if leave then .departing else .checking))
    else none
  | .checking, .sleep _ => some ({ s with waitMutex := none }.at w .asleep)
  | .asleep, .wake _ =>
    if s.waitMutex = none then some ({ s with waitMutex := some w }.at w .checking) else none
  | .checking, .unlock _ => some ({ s with waitMutex := none }.at w .serving)
  | .departing, .load _ => some (s.at w (.decrementing s.subscribers))
  | .decrementing loaded, .store _ =>
    some ({ s with subscribers := loaded - 1 }.at w .decremented)
  | .decremented, .unlock _ => some ({ s with waitMutex := none }.at w .outside)
  | _, _ => none

def countStep (s : SubscriberCount W) (ev : CountEvent W) : Option (SubscriberCount W) :=
  if s.removed then none
  else match ev with
    | .remove publishers =>
      if s.messagesLock = none then
        some { s with removed := publishers == 0 && s.subscribers == 0 }
      else none
    | .lockMessages w | .openFailed w | .load w | .store w | .unlock w | .lockWait w _ | .sleep w
    | .wake w => workerStep s w (s.stageOf w) ev

def counting (W : Type) [DecidableEq W] : System (SubscriberCount W) (CountEvent W) where
  init := ⟨0, none, none, fun _ => .outside, false⟩
  step := countStep

def Apart (s : SubscriberCount W) : CountEvent W → Prop
  | .load _ => ∀ x, (s.stageOf x).loaded = none
  | _ => True

def IsStore : CountEvent W → Prop
  | .store _ => True
  | _ => False

variable [Fintype W]

instance (s : SubscriberCount W) (ev : CountEvent W) : Decidable (Apart s ev) :=
  match ev with
  | .load _ => inferInstanceAs (Decidable (∀ x, (s.stageOf x).loaded = none))
  | .lockMessages _ | .openFailed _ | .store _ | .unlock _ | .lockWait _ _ | .sleep _ | .wake _
  | .remove _ => inferInstanceAs (Decidable True)

structure Accurate (s : SubscriberCount W) : Prop where
  settled : (∀ w, (s.stageOf w).loaded = none) →
    s.subscribers.toNat = tally SubscriberStage.isLive s.stageOf
  removed : s.removed = true → ∀ w, (s.stageOf w).isLive = false
  refused : (∀ w, s.stageOf w = .outside) → s.subscribers = 0

end Model

variable {W : Type} [Fintype W] {s t : SubscriberCount W} {ev : CountEvent W}

structure Tracked (s : SubscriberCount W) : Prop where
  count : s.subscribers.toNat = tally SubscriberStage.isCounted s.stageOf
  current : ∀ w v, (s.stageOf w).loaded = some v → v = s.subscribers
  single : ∀ w x, (s.stageOf w).loaded ≠ none → (s.stageOf x).loaded ≠ none → w = x
  removed : s.removed = true → s.subscribers = 0

lemma live_eq_counted (hm : ∀ w, (s.stageOf w).loaded = none) :
    tally SubscriberStage.isLive s.stageOf = tally SubscriberStage.isCounted s.stageOf := by
  apply tally_congr
  intro w
  have hw := hm w
  cases hs : s.stageOf w <;> first | rfl | (rw [hs] at hw; cases hw)

lemma Tracked.accurate (h : Tracked s) : Accurate s := by
  refine ⟨?_, ?_, ?_⟩
  · intro hm
    rw [live_eq_counted hm]
    exact h.count
  · intro hr w
    have hc := h.count
    rw [h.removed hr] at hc
    have hw := tally_eq_zero.mp hc.symm w
    cases hs : s.stageOf w <;> first | rfl | (rw [hs] at hw; cases hw)
  · intro ho
    have hz : tally SubscriberStage.isCounted s.stageOf = 0 := by
      apply tally_eq_zero.mpr
      intro w
      rw [ho w]
      rfl
    have hc := h.count
    rw [hz] at hc
    exact UInt64.toNat_inj.mp hc

variable [DecidableEq W]

lemma counted_at (s : SubscriberCount W) (w : W) (stage : SubscriberStage) :
    tally SubscriberStage.isCounted (s.at w stage).stageOf + (s.stageOf w).isCounted.toNat =
      tally SubscriberStage.isCounted s.stageOf + stage.isCounted.toNat :=
  tally_update _ _ _ _

omit [Fintype W] in
lemma stageOf_at (s : SubscriberCount W) (w x : W) (stage : SubscriberStage) :
    (s.at w stage).stageOf x = if x = w then stage else s.stageOf x :=
  Function.update_apply _ _ _ _

lemma Tracked.move (h : Tracked s) {w : W} {stage : SubscriberStage}
    (hc : (s.stageOf w).isCounted = stage.isCounted) (hl : stage.loaded = none)
    (hr : s.removed = false) (m x : Option W) :
    Tracked ({ s with messagesLock := m, waitMutex := x }.at w stage) := by
  have ha := counted_at s w stage
  have hn := h.count
  rw [hc] at ha
  refine ⟨?_, ?_, ?_, ?_⟩
  · simp only [SubscriberCount.at] at ha ⊢
    omega
  · intro y v hy
    rw [stageOf_at] at hy
    split_ifs at hy
    · rw [hl] at hy
      cases hy
    · exact h.current y v hy
  · intro y z hy hz
    rw [stageOf_at] at hy hz
    split_ifs at hy hz
    · exact (hy hl).elim
    · exact (hy hl).elim
    · exact (hz hl).elim
    · exact h.single y z hy hz
  · intro ht
    change s.removed = true at ht
    rw [hr] at ht
    cases ht

lemma Tracked.load (h : Tracked s) {w : W} {stage : SubscriberStage}
    (ha : ∀ x, (s.stageOf x).loaded = none) (hc : (s.stageOf w).isCounted = stage.isCounted)
    (hl : stage.loaded = some s.subscribers) (hr : s.removed = false) :
    Tracked (s.at w stage) := by
  have ht := counted_at s w stage
  have hn := h.count
  rw [hc] at ht
  refine ⟨?_, ?_, ?_, ?_⟩
  · simp only [SubscriberCount.at] at ht ⊢
    omega
  · intro y v hy
    rw [stageOf_at] at hy
    split_ifs at hy
    · rw [hl] at hy
      exact (Option.some.inj hy).symm
    · rw [ha] at hy
      cases hy
  · intro y z hy hz
    rw [stageOf_at] at hy hz
    split_ifs at hy hz with h₁ h₂
    · rw [h₁, h₂]
    · exact (hz (ha z)).elim
    · exact (hy (ha y)).elim
    · exact (hy (ha y)).elim
  · intro ht
    change s.removed = true at ht
    rw [hr] at ht
    cases ht

lemma Tracked.store (h : Tracked s) {w : W} {stage : SubscriberStage} {v : UInt64}
    (hw : (s.stageOf w).loaded ≠ none) (hl : stage.loaded = none) (hr : s.removed = false)
    (hc : v.toNat + (s.stageOf w).isCounted.toNat = s.subscribers.toNat + stage.isCounted.toNat) :
    Tracked ({ s with subscribers := v }.at w stage) := by
  have ht := counted_at s w stage
  have hn := h.count
  have hz : ∀ x, (({ s with subscribers := v }.at w stage).stageOf x).loaded = none := by
    intro x
    rw [stageOf_at]
    split_ifs with hx
    · exact hl
    · by_contra hne
      exact hx (h.single x w hne hw)
  refine ⟨?_, ?_, ?_, ?_⟩
  · simp only [SubscriberCount.at] at ht ⊢
    omega
  · intro y v hy
    rw [hz] at hy
    cases hy
  · intro y z hy
    exact (hy (hz y)).elim
  · intro ht
    change s.removed = true at ht
    rw [hr] at ht
    cases ht

lemma counted_room (hW : Fintype.card W < 2 ^ 64) (h : Tracked s) {w : W}
    (hw : (s.stageOf w).isCounted = false) : s.subscribers.toNat + 1 < 2 ^ 64 := by
  have ht := counted_at s w .serving
  have hle := tally_le_card SubscriberStage.isCounted (s.at w .serving).stageOf
  have hn := h.count
  rw [hw] at ht
  simp only [SubscriberStage.isCounted, SubscriberStage.isLive, Bool.toNat_true,
    Bool.toNat_false] at ht
  omega

omit [DecidableEq W] in
lemma counted_pos (h : Tracked s) {w : W} (hw : (s.stageOf w).isCounted = true) :
    0 < s.subscribers.toNat := by
  rw [h.count]
  exact tally_pos.mpr ⟨w, hw⟩

lemma workerStep_tracked (hW : Fintype.card W < 2 ^ 64) (h : Tracked s)
    (hr : s.removed = false) {w : W} (ha : Apart s ev)
    (hs : workerStep s w (s.stageOf w) ev = some t) : Tracked t := by
  cases hp : s.stageOf w with
  | outside =>
    cases ev <;> simp only [workerStep, hp, reduceCtorEq] at hs
    split_ifs at hs
    cases hs
    exact h.move (by rw [hp]; rfl) rfl hr _ _
  | found =>
    cases ev <;> simp only [workerStep, hp, reduceCtorEq, Option.some.injEq] at hs
    · subst hs
      exact h.move (by rw [hp]; rfl) rfl hr _ _
    · subst hs
      exact h.load ha (by rw [hp]; rfl) rfl hr
  | incrementing v =>
    cases ev <;> simp only [workerStep, hp, reduceCtorEq, Option.some.injEq] at hs
    subst hs
    have hv := h.current w v (by rw [hp]; rfl)
    have hroom := counted_room hW h (w := w) (by rw [hp]; rfl)
    apply h.store (by simp [hp, SubscriberStage.loaded]) rfl hr
    rw [hp, hv, UInt64.toNat_add]
    simp only [SubscriberStage.isCounted, SubscriberStage.isLive, UInt64.toNat_one]
    rw [Nat.mod_eq_of_lt hroom]
    rfl
  | incremented =>
    cases ev <;> simp only [workerStep, hp, reduceCtorEq, Option.some.injEq] at hs
    subst hs
    exact h.move (by rw [hp]; rfl) rfl hr _ _
  | serving =>
    cases ev <;> simp only [workerStep, hp, reduceCtorEq] at hs
    split_ifs at hs
    · cases hs
      exact h.move (by rw [hp]; rfl) rfl hr _ _
    · cases hs
      exact h.move (by rw [hp]; rfl) rfl hr _ _
  | asleep =>
    cases ev <;> simp only [workerStep, hp, reduceCtorEq] at hs
    split_ifs at hs
    cases hs
    exact h.move (by rw [hp]; rfl) rfl hr _ _
  | checking =>
    cases ev <;> simp only [workerStep, hp, reduceCtorEq, Option.some.injEq] at hs
    · subst hs
      exact h.move (by rw [hp]; rfl) rfl hr _ _
    · subst hs
      exact h.move (by rw [hp]; rfl) rfl hr _ _
  | departing =>
    cases ev <;> simp only [workerStep, hp, reduceCtorEq, Option.some.injEq] at hs
    subst hs
    exact h.load ha (by rw [hp]; rfl) rfl hr
  | decrementing v =>
    cases ev <;> simp only [workerStep, hp, reduceCtorEq, Option.some.injEq] at hs
    subst hs
    have hv := h.current w v (by rw [hp]; rfl)
    have hpos := counted_pos h (w := w) (by rw [hp]; rfl)
    have hlt := s.subscribers.toNat_lt
    apply h.store (by simp [hp, SubscriberStage.loaded]) rfl hr
    rw [hp, hv, UInt64.toNat_sub]
    simp only [SubscriberStage.isCounted, SubscriberStage.isLive, UInt64.toNat_one,
      Bool.toNat_true, Bool.toNat_false]
    omega
  | decremented =>
    cases ev <;> simp only [workerStep, hp, reduceCtorEq, Option.some.injEq] at hs
    subst hs
    exact h.move (by rw [hp]; rfl) rfl hr _ _

lemma countStep_tracked (hW : Fintype.card W < 2 ^ 64) (h : Tracked s) (ha : Apart s ev)
    (hs : countStep s ev = some t) : Tracked t := by
  by_cases hr : s.removed = true
  · simp [countStep, hr] at hs
  · have hf : s.removed = false := by simpa using hr
    cases ev with
    | remove publishers =>
      simp only [countStep, hf, Bool.false_eq_true, if_false] at hs
      split_ifs at hs
      cases hs
      refine ⟨h.count, h.current, h.single, ?_⟩
      intro ht
      simp only [Bool.and_eq_true, beq_iff_eq] at ht
      exact ht.2
    | lockMessages w | openFailed w | load w | store w | unlock w | lockWait w | sleep w | wake w =>
      simp only [countStep, hf, Bool.false_eq_true, if_false] at hs
      exact workerStep_tracked hW h hf ha hs

lemma apart_tracked (hW : Fintype.card W < 2 ^ 64) (h : (counting W).ReachableBy Apart s) :
    Tracked s := by
  have hi : Tracked (counting W).init := by
    refine ⟨?_, ?_, ?_, ?_⟩
    · exact (tally_const rfl).symm
    · intro w v hw
      cases hw
    · intro w x hw
      exact (hw rfl).elim
    · intro hr
      cases hr
  apply h.invariant hi
  intro s ev t hI ha hs
  exact countStep_tracked hW hI ha hs

lemma stores_tracked (hW : Fintype.card W < 2 ^ 64) (h : Tracked s)
    (hc : (counting W).Continues IsStore s t) : Tracked t := by
  induction hc with
  | refl => exact h
  | @tail _ _ ev _ hk hs ih =>
    cases ev with
    | store w =>
      exact countStep_tracked hW ih (show Apart (W := W) _ (.store w) from trivial) hs
    | lockMessages | openFailed | load | unlock | lockWait | sleep | wake | remove => exact hk.elim

def SubscriberStage.afterStore : SubscriberStage → SubscriberStage
  | .incrementing _ => .incremented
  | .decrementing _ => .decremented
  | stage => stage

def SubscriberStage.toStore (stage : SubscriberStage) (v : UInt64) : UInt64 :=
  if stage.isCounted then v - 1 else v + 1

lemma afterStore_loaded {stage : SubscriberStage} : stage.afterStore.loaded = none := by
  cases stage <;> rfl

lemma afterStore_counted {stage : SubscriberStage} (h : stage.loaded ≠ none) :
    stage.afterStore.isCounted = !stage.isCounted := by
  cases stage <;> first | rfl | exact (h rfl).elim

lemma store_step {w : W} {v : UInt64} (hw : (s.stageOf w).loaded = some v)
    (hr : s.removed = false) :
    ∃ t, countStep s (.store w) = some t ∧ t.removed = false ∧
      t.subscribers = (s.stageOf w).toStore v ∧
      (∀ y, t.stageOf y = if y = w then (s.stageOf w).afterStore else s.stageOf y) ∧
      tally SubscriberStage.isCounted t.stageOf + (s.stageOf w).isCounted.toNat =
        tally SubscriberStage.isCounted s.stageOf + (!(s.stageOf w).isCounted).toNat := by
  have ht := counted_at { s with subscribers := (s.stageOf w).toStore v } w
    (s.stageOf w).afterStore
  rw [afterStore_counted (by rw [hw]; exact Option.some_ne_none v)] at ht
  refine ⟨{ s with subscribers := (s.stageOf w).toStore v }.at w (s.stageOf w).afterStore, ?_, hr,
    rfl, fun y => stageOf_at _ w y _, ht⟩
  cases hp : s.stageOf w with
  | incrementing l | decrementing l =>
    rw [hp] at hw
    cases Option.some.inj hw
    simp [countStep, workerStep, hp, hr, SubscriberStage.afterStore, SubscriberStage.toStore,
      SubscriberStage.isCounted, SubscriberStage.isLive]
  | outside | found | incremented | serving | asleep | checking | departing | decremented =>
    rw [hp] at hw
    cases hw

lemma overlap_spoils (hW : Fintype.card W < 2 ^ 64) (h : Tracked s) (hr : s.removed = false)
    {w x : W} (hw : (s.stageOf w).loaded = none) (hx : (s.stageOf x).loaded ≠ none)
    {stage : SubscriberStage} (hl : stage.loaded = some s.subscribers)
    (hc : (s.stageOf w).isCounted = stage.isCounted) :
    ∃ u, (counting W).Continues IsStore (s.at w stage) u ∧ ¬ Accurate u := by
  obtain ⟨v, hv⟩ := Option.ne_none_iff_exists'.mp hx
  cases h.current x v hv
  have hxw : x ≠ w := by
    intro he
    rw [he] at hx
    exact hx hw
  have hat : (s.at w stage).stageOf w = stage := by rw [stageOf_at, if_pos rfl]
  have hloaded := counted_at s w stage
  rw [hc] at hloaded
  obtain ⟨t, h₁, hrt, -, hst, htally⟩ := store_step (s := s.at w stage) (by rw [hat]; exact hl) hr
  have htx : t.stageOf x = s.stageOf x := by
    rw [hst, if_neg hxw, stageOf_at, if_neg hxw]
  obtain ⟨u, h₂, -, hsub, hsu, hually⟩ := store_step (s := t) (by rw [htx]; exact hv) hrt
  refine ⟨u, .tail (.tail .refl (a := .store w) trivial h₁) (a := .store x) trivial h₂, ?_⟩
  intro hacc
  have hsettled : ∀ y, (u.stageOf y).loaded = none := by
    intro y
    rw [hsu]
    split_ifs with hyx
    · exact afterStore_loaded
    rw [hst]
    split_ifs with hyw
    · exact afterStore_loaded
    rw [stageOf_at, if_neg hyw]
    by_contra hy
    exact hyx (h.single y x hy hx)
  have hcount := hacc.settled hsettled
  have hn := h.count
  have hlt := s.subscribers.toNat_lt
  rw [hat] at htally
  rw [live_eq_counted hsettled, hsub, htx] at hcount
  rw [htx] at hually
  cases hcx : (s.stageOf x).isCounted with
  | true =>
    have hpos := counted_pos h hcx
    rw [hcx] at hually
    simp only [SubscriberStage.toStore, hcx, if_true, UInt64.toNat_sub, UInt64.toNat_one] at hcount
    cases hcw : stage.isCounted <;> rw [hcw] at htally hloaded <;>
      simp only [Bool.not_true, Bool.not_false, Bool.toNat_true, Bool.toNat_false]
        at htally hually hloaded <;> omega
  | false =>
    have hroom := counted_room hW h hcx
    rw [hcx] at hually
    simp only [SubscriberStage.toStore, hcx, Bool.false_eq_true, if_false, UInt64.toNat_add,
      UInt64.toNat_one] at hcount
    cases hcw : stage.isCounted <;> rw [hcw] at htally hloaded <;>
      simp only [Bool.not_true, Bool.not_false, Bool.toNat_true, Bool.toNat_false]
        at htally hually hloaded <;> omega

lemma load_spoils (hW : Fintype.card W < 2 ^ 64) (h : Tracked s) (ha : ¬ Apart s ev)
    (hs : countStep s ev = some t) :
    ∃ u, (counting W).Continues IsStore t u ∧ ¬ Accurate u := by
  cases ev with
  | load w =>
    have hr : s.removed = false := by
      by_contra hr
      simp [countStep, hr] at hs
    obtain ⟨x, hx⟩ := not_forall.mp ha
    simp only [countStep, hr, Bool.false_eq_true, if_false] at hs
    cases hp : s.stageOf w <;> simp only [workerStep, hp, reduceCtorEq, Option.some.injEq] at hs
    · subst hs
      exact overlap_spoils hW h hr (by rw [hp]; rfl) hx rfl (by rw [hp]; rfl)
    · subst hs
      exact overlap_spoils hW h hr (by rw [hp]; rfl) hx rfl (by rw [hp]; rfl)
  | lockMessages | openFailed | store | unlock | lockWait | sleep | wake | remove =>
    exact (ha trivial).elim

/-- The workers are the threads spawned for the int num_sessions, `n`. -/
theorem subscriberCount_iff_apart {n : Fin (2 ^ 31)}
    {s : SubscriberCount (Fin n)}
    (h : (counting (Fin n)).ReachableBy Apart s) :
    Accurate s ∧ ∀ ev t, countStep s ev = some t →
      ((∀ u, (counting (Fin n)).Continues IsStore t u → Accurate u) ↔ Apart s ev) := by
  have hW : Fintype.card (Fin n) < 2 ^ 64 := by
    rw [Fintype.card_fin]
    omega
  have ht := apart_tracked hW h
  refine ⟨ht.accurate, ?_⟩
  intro ev t hs
  constructor
  · intro hu
    by_contra ha
    obtain ⟨u, hc, hn⟩ := load_spoils hW ht ha hs
    exact hn (hu u hc)
  · intro ha u hc
    exact (stores_tracked hW (countStep_tracked hW ht ha hs) hc).accurate

theorem subscriberCount_iff_apart_run :
    ∃ s, (counting (Fin 2)).runIf Apart (counting (Fin 2)).init
        [.lockMessages 0, .load 0, .store 0, .unlock 0, .lockMessages 1, .load 1, .lockWait 0 true,
          .store 1, .load 0, .store 0, .unlock 0] = some s ∧ Accurate s := by
  obtain ⟨s, hs⟩ : ∃ s, (counting (Fin 2)).runIf Apart (counting (Fin 2)).init
      [.lockMessages 0, .load 0, .store 0, .unlock 0, .lockMessages 1, .load 1, .lockWait 0 true,
        .store 1, .load 0, .store 0, .unlock 0] = some s := ⟨_, rfl⟩
  exact ⟨s, hs, (subscriberCount_iff_apart (n := 2) (.runIf .init hs)).1⟩

theorem overlap_miscounts :
    (∃ s : SubscriberCount (Fin 2), (counting (Fin 2)).Reachable s ∧ s.removed = true ∧
      (s.stageOf 1).isLive = true) ∧
    ∃ s : SubscriberCount (Fin 2), (counting (Fin 2)).Reachable s ∧ s.subscribers = 1 ∧
      s.removed = false ∧ ∀ w, s.stageOf w = .outside := by
  constructor
  · obtain ⟨s, hs⟩ : ∃ s, (counting (Fin 2)).run (counting (Fin 2)).init
        [.lockMessages 0, .load 0, .store 0, .unlock 0, .lockWait 0 true, .load 0,
          .lockMessages 1, .load 1, .store 1, .unlock 1, .store 0, .unlock 0,
          .remove 0] = some s := ⟨_, rfl⟩
    cases Option.some.inj hs
    exact ⟨_, System.reachable_of_run hs, rfl, rfl⟩
  · obtain ⟨s, hs⟩ : ∃ s, (counting (Fin 2)).run (counting (Fin 2)).init
        [.lockMessages 0, .load 0, .store 0, .unlock 0, .lockWait 0 true, .load 0,
          .lockMessages 1, .load 1, .store 0, .unlock 0, .store 1, .unlock 1,
          .lockWait 1 true, .load 1, .store 1, .unlock 1] = some s := ⟨_, rfl⟩
    cases Option.some.inj hs
    refine ⟨_, System.reachable_of_run hs, rfl, rfl, ?_⟩
    intro w
    fin_cases w <;> rfl

end MessageBroker.Mbroker.Counting
