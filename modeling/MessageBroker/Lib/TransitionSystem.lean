import Mathlib.Tactic

/-! Transition systems whose labels resolve all nondeterminism: guarded
reachability, the invariant rule and forward simulations. -/

namespace MessageBroker.Lib

structure System (σ α : Type*) where
  init : σ
  step : σ → α → Option σ

namespace System

variable {σ α τ β : Type*}

def run (M : System σ α) : σ → List α → Option σ
  | s, [] => some s
  | s, a :: as => (M.step s a).bind (fun t => run M t as)

def runIf (M : System σ α) (allowed : σ → α → Prop) [∀ s a, Decidable (allowed s a)] :
    σ → List α → Option σ
  | s, [] => some s
  | s, a :: as => if allowed s a then (M.step s a).bind (fun t => runIf M allowed t as) else none

def attempt (M : System σ α) (s : σ) (a : α) : σ := (M.step s a).getD s

def attempts (M : System σ α) : σ → List α → σ
  | s, [] => s
  | s, a :: as => attempts M (M.attempt s a) as

inductive ReachableBy (M : System σ α) (allowed : σ → α → Prop) : σ → Prop
  | init : ReachableBy M allowed M.init
  | step {s t a} : ReachableBy M allowed s → allowed s a → M.step s a = some t →
      ReachableBy M allowed t

def Reachable (M : System σ α) : σ → Prop := M.ReachableBy (fun _ _ => True)

inductive Continues (M : System σ α) (allowed : α → Prop) (s : σ) : σ → Prop
  | refl : Continues M allowed s s
  | tail {t u a} : Continues M allowed s t → allowed a → M.step t a = some u →
      Continues M allowed s u

variable {M : System σ α} {N : System τ β}

@[simp] lemma run_nil (s : σ) : M.run s [] = some s := rfl

@[simp] lemma run_cons (s : σ) (a : α) (as : List α) :
    M.run s (a :: as) = (M.step s a).bind (fun t => M.run t as) := rfl

lemma run_append (s : σ) (as bs : List α) :
    M.run s (as ++ bs) = (M.run s as).bind (fun t => M.run t bs) := by
  induction as generalizing s with
  | nil => rfl
  | cons a as ih => cases h : M.step s a <;> simp [h, ih]

lemma run_length_le {I : σ → Prop} {kind : σ → α → Prop} {μ : σ → ℕ}
    (hstep : ∀ s a t, I s → kind s a → M.step s a = some t → I t ∧ μ t < μ s) {s t : σ}
    {as : List α} [∀ s a, Decidable (kind s a)] (hI : I s) (hr : M.runIf kind s as = some t) :
    I t ∧ as.length + μ t ≤ μ s := by
  induction as generalizing s with
  | nil =>
    cases Option.some.inj hr
    exact ⟨hI, by rw [List.length_nil, Nat.zero_add]⟩
  | cons a as ih =>
    rw [runIf] at hr
    split_ifs at hr with hk
    obtain ⟨u, hu, hr⟩ := Option.bind_eq_some_iff.mp hr
    obtain ⟨hI', hlt⟩ := hstep _ _ _ hI hk hu
    obtain ⟨ht, hle⟩ := ih hI' hr
    refine ⟨ht, ?_⟩
    rw [List.length_cons]
    omega

lemma attempts_filter {R : σ → σ → Prop} {p : α → Bool}
    (hstep : ∀ {s t}, R s t → ∀ a, R (M.attempt s a) (M.attempt t a))
    (hskip : ∀ {s t}, R s t → ∀ a, p a = false → R (M.attempt s a) t) {s t : σ} (h : R s t)
    (as : List α) : R (M.attempts s as) (M.attempts t (as.filter p)) := by
  induction as generalizing s t with
  | nil => exact h
  | cons a as ih =>
    cases hp : p a with
    | true =>
      rw [List.filter_cons_of_pos hp]
      exact ih (hstep h a)
    | false =>
      rw [List.filter_cons_of_neg (by rw [hp]; exact Bool.false_ne_true)]
      exact ih (hskip h a hp)

namespace ReachableBy

variable {allowed weaker : σ → α → Prop} {s t : σ}

lemma mono (h : M.ReachableBy allowed s) (hw : ∀ s a, allowed s a → weaker s a) :
    M.ReachableBy weaker s := by
  induction h with
  | init => exact .init
  | step _ ha hs ih => exact .step ih (hw _ _ ha) hs

lemma reachable (h : M.ReachableBy allowed s) : M.Reachable s :=
  h.mono (fun _ _ _ => trivial)

lemma invariant {I : σ → Prop} (h : M.ReachableBy allowed s) (hi : I M.init)
    (hs : ∀ s a t, I s → allowed s a → M.step s a = some t → I t) : I s := by
  induction h with
  | init => exact hi
  | step _ ha hst ih => exact hs _ _ _ ih ha hst

lemma strengthen {I : σ → Prop} (h : M.ReachableBy weaker s) (hi : I M.init)
    (ha : ∀ s a t, I s → weaker s a → M.step s a = some t → allowed s a)
    (hs : ∀ s a t, I s → allowed s a → M.step s a = some t → I t) :
    M.ReachableBy allowed s := by
  suffices M.ReachableBy allowed s ∧ I s from this.1
  induction h with
  | init => exact ⟨.init, hi⟩
  | step _ hw hst ih =>
    have hh := ha _ _ _ ih.2 hw hst
    exact ⟨.step ih.1 hh hst, hs _ _ _ ih.2 hh hst⟩

lemma continues {kind : α → Prop} (h : M.ReachableBy allowed s) (hc : M.Continues kind s t)
    (hk : ∀ s a, kind a → allowed s a) : M.ReachableBy allowed t := by
  induction hc with
  | refl => exact h
  | tail _ ha hst ih => exact .step ih (hk _ _ ha) hst

lemma runIf [∀ s a, Decidable (allowed s a)] {as : List α} (h : M.ReachableBy allowed s)
    (hr : M.runIf allowed s as = some t) : M.ReachableBy allowed t := by
  induction as generalizing s with
  | nil => exact (Option.some.inj hr) ▸ h
  | cons a as ih =>
    by_cases ha : allowed s a
    · rw [System.runIf, if_pos ha] at hr
      obtain ⟨u, hu, hr⟩ := Option.bind_eq_some_iff.mp hr
      exact ih (.step h ha hu) hr
    · rw [System.runIf, if_neg ha] at hr
      cases hr

end ReachableBy

namespace Reachable

variable {s t : σ}

lemma init : M.Reachable M.init := ReachableBy.init

lemma step {a : α} (h : M.Reachable s) (hs : M.step s a = some t) : M.Reachable t :=
  ReachableBy.step h trivial hs

lemma run {as : List α} (h : M.Reachable s) (hr : M.run s as = some t) : M.Reachable t := by
  induction as generalizing s with
  | nil => exact (Option.some.inj hr) ▸ h
  | cons a as ih =>
    obtain ⟨u, hu, hr⟩ := Option.bind_eq_some_iff.mp hr
    exact ih (h.step hu) hr

lemma invariant {I : σ → Prop} (h : M.Reachable s) (hi : I M.init)
    (hs : ∀ s a t, I s → M.step s a = some t → I t) : I s :=
  ReachableBy.invariant h hi (fun s a t hI _ hst => hs s a t hI hst)

end Reachable

lemma reachable_of_run {as : List α} {s : σ} (h : M.run M.init as = some s) : M.Reachable s :=
  Reachable.init.run h

namespace Continues

variable {allowed : α → Prop} {s t u : σ}

lemma head {a : α} (ha : allowed a) (hs : M.step s a = some t) (h : M.Continues allowed t u) :
    M.Continues allowed s u := by
  induction h with
  | refl => exact .tail .refl ha hs
  | tail _ hb hst ih => exact .tail ih hb hst

end Continues

lemma simulate_run {R : σ → τ → Prop} {f : α → List β}
    (hs : ∀ s t a s', R s t → M.step s a = some s' → ∃ t', N.run t (f a) = some t' ∧ R s' t')
    {s s' : σ} {t : τ} {as : List α} (hr : R s t) (h : M.run s as = some s') :
    ∃ t', N.run t (as.flatMap f) = some t' ∧ R s' t' := by
  induction as generalizing s t with
  | nil => exact ⟨t, rfl, Option.some.inj h ▸ hr⟩
  | cons a as ih =>
    obtain ⟨u, hu, h⟩ := Option.bind_eq_some_iff.mp h
    obtain ⟨v, hv, hR⟩ := hs _ _ _ _ hr hu
    obtain ⟨t', ht, hR'⟩ := ih hR h
    exact ⟨t', by rw [List.flatMap_cons, run_append, hv]; exact ht, hR'⟩

lemma simulate_reachable {R : σ → τ → Prop} (hi : R M.init N.init)
    (hs : ∀ s t a s', R s t → M.step s a = some s' → ∃ bs t', N.run t bs = some t' ∧ R s' t')
    {s : σ} (h : M.Reachable s) : ∃ t, N.Reachable t ∧ R s t := by
  induction h with
  | init => exact ⟨_, .init, hi⟩
  | step _ _ hst ih =>
    obtain ⟨t, ht, hR⟩ := ih
    obtain ⟨bs, t', hr, hR'⟩ := hs _ _ _ _ hR hst
    exact ⟨t', ht.run hr, hR'⟩

end System

end MessageBroker.Lib
