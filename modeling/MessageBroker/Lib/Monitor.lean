import MessageBroker.Lib.Linearizable

/-! One mutex around every operation: threads interleave access by access, and the operations
still take effect one at a time. -/

namespace MessageBroker.Lib

/-- What runs under the mutex, cut into its accesses to the data; `next` goes on with what the
access found. -/
inductive Code (σ ε ρ : Type)
  | done (r : ρ)
  | fail (e : ε)
  | access (f : σ → σ) (next : σ → Code σ ε ρ)

namespace Code

variable {σ ε ρ τ : Type}

def run : Code σ ε ρ → σ → Except ε (σ × ρ)
  | .done r, s => .ok (s, r)
  | .fail e, _ => .error e
  | .access f next, s => (next s).run (f s)

def bind : Code σ ε ρ → (ρ → Code σ ε τ) → Code σ ε τ
  | .done r, k => k r
  | .fail e, _ => .fail e
  | .access f next, k => .access f (fun s => (next s).bind k)

def atomic (f : σ → Except ε (σ × ρ)) : Code σ ε ρ :=
  .access (fun s => match f s with | .ok x => x.1 | .error _ => s)
    (fun s => match f s with | .ok x => .done x.2 | .error e => .fail e)

instance : Monad (Code σ ε) where
  pure := .done
  bind := .bind

lemma run_bind (c : Code σ ε ρ) (k : ρ → Code σ ε τ) (s : σ) :
    (c >>= k).run s = c.run s >>= fun x => (k x.2).run x.1 := by
  show (c.bind k).run s = _
  induction c generalizing s with
  | done r => rfl
  | fail e => rfl
  | access f next ih => exact ih s (f s)

lemma run_pure (r : ρ) (s : σ) : (pure r : Code σ ε ρ).run s = .ok (s, r) := rfl

lemma run_atomic (f : σ → Except ε (σ × ρ)) (s : σ) : (atomic f).run s = f s := by
  show Code.run (match f s with | .ok x => .done x.2 | .error e => .fail e)
    (match f s with | .ok x => x.1 | .error _ => s) = f s
  cases f s <;> rfl

end Code

inductive Thread (κ σ ε ρ : Type)
  | outside
  | waiting (k : κ)
  | inside (k : κ) (code : Code σ ε ρ)
  | leaving (k : κ) (r : ρ)

structure Monitor (ι κ σ ε ρ : Type) where
  data : σ
  mutex : Option ι
  threads : ι → Thread κ σ ε ρ
  failed : Option ε
  -- history: how many calls of a thread have returned, and all calls and returns
  returns : ι → ℕ
  trace : List (Visible (ι × ℕ) κ ρ Empty)

inductive MonitorEvent (ι κ : Type)
  | call (i : ι) (k : κ)
  | lock (i : ι)
  | access (i : ι)
  | unlock (i : ι)
  | answer (i : ι)

variable {ι κ σ ε ρ τ : Type} [DecidableEq ι]

def Monitor.turn (s : Monitor ι κ σ ε ρ) (i : ι) (thread : Thread κ σ ε ρ) : Monitor ι κ σ ε ρ :=
  { s with threads := Function.update s.threads i thread }

def monitorStep (code : κ → Code σ ε ρ) (s : Monitor ι κ σ ε ρ) :
    MonitorEvent ι κ → Option (Monitor ι κ σ ε ρ)
  | .call i k =>
    match s.threads i with
    | .outside => some { s.turn i (.waiting k) with trace := s.trace ++ [.call (i, s.returns i) k] }
    | _ => none
  | .lock i =>
    match s.threads i, s.mutex with
    | .waiting k, none => some { s.turn i (.inside k (code k)) with mutex := some i }
    | _, _ => none
  | .access i =>
    match s.threads i with
    | .inside k (.access f next) =>
      some { s.turn i (.inside k (next s.data)) with data := f s.data }
    | .inside _ (.fail e) => some { s with failed := some e }
    | _ => none
  | .unlock i =>
    match s.threads i with
    | .inside k (.done r) => some { s.turn i (.leaving k r) with mutex := none }
    | _ => none
  | .answer i =>
    match s.threads i with
    | .leaving _ r => some { s.turn i .outside with
        returns := Function.update s.returns i (s.returns i + 1)
        trace := s.trace ++ [.answer (i, s.returns i) r] }
    | _ => none

def monitor (ι : Type) [DecidableEq ι] (code : κ → Code σ ε ρ) (start : σ) :
    System (Monitor ι κ σ ε ρ) (MonitorEvent ι κ) where
  init := ⟨start, none, fun _ => .outside, none, fun _ => 0, []⟩
  step s ev := if s.failed.isSome then none else monitorStep code s ev

def Thread.Asks (allowed : κ → Prop) : Thread κ σ ε ρ → Prop
  | .waiting k => allowed k
  | .outside | .inside _ _ | .leaving _ _ => True

def Admitted (allowed : σ → κ → Prop) (s : Monitor ι κ σ ε ρ) : MonitorEvent ι κ → Prop
  | .lock i => (s.threads i).Asks (allowed s.data)
  | .call _ _ | .access _ | .unlock _ | .answer _ => True

instance (allowed : κ → Prop) [DecidablePred allowed] (thread : Thread κ σ ε ρ) :
    Decidable (thread.Asks allowed) :=
  match thread with
  | .waiting k => inferInstanceAs (Decidable (allowed k))
  | .outside | .inside _ _ | .leaving _ _ => inferInstanceAs (Decidable True)

instance (allowed : σ → κ → Prop) [∀ u k, Decidable (allowed u k)] (s : Monitor ι κ σ ε ρ)
    (ev : MonitorEvent ι κ) : Decidable (Admitted allowed s ev) :=
  match ev with
  | .lock i => inferInstanceAs (Decidable ((s.threads i).Asks (allowed s.data)))
  | .call _ _ | .access _ | .unlock _ | .answer _ => inferInstanceAs (Decidable True)

def Thread.call : Thread κ σ ε ρ → Call κ ρ
  | .outside => .idle
  | .waiting k | .inside k _ => .called k
  | .leaving k r => .answered k r

section Linearization

variable (code : κ → Code σ ε ρ) (O : Object τ κ ρ Empty) (R : σ → τ → Prop)
  (allowed : σ → κ → Prop)

/-- Where it is allowed, an operation that runs alone does not fail, and has the effect of the
object's. -/
def Implements : Prop :=
  ∀ u x k, R u x → allowed u k →
    ∃ v y r, (code k).run u = .ok (v, r) ∧ O.effect x k = some (y, r) ∧ R v y

inductive Stands (s : Monitor ι κ σ ε ρ) (x : τ) : Prop
  | idle : s.mutex = none → R s.data x → Stands s x
  | busy {i k c u} : s.mutex = some i → s.threads i = .inside k c → R u x → allowed u k →
      (code k).run u = c.run s.data → Stands s x

structure Tracks (s : Monitor ι κ σ ε ρ) (d : Shared (ι × ℕ) τ κ ρ Empty) : Prop where
  running : s.failed = none
  stands : Stands code R allowed s d.state
  alone : ∀ i k c, s.threads i = .inside k c → s.mutex = some i
  follows : Follows s.returns s.trace (fun i => (s.threads i).call) d

end Linearization

section Steps

variable {code : κ → Code σ ε ρ} {O : Object τ κ ρ Empty} {R : σ → τ → Prop}
  {allowed : σ → κ → Prop} {s t : Monitor ι κ σ ε ρ} {d : Shared (ι × ℕ) τ κ ρ Empty} {i : ι}
  {k : κ}

lemma turn_call (s : Monitor ι κ σ ε ρ) (i : ι) (thread : Thread κ σ ε ρ) :
    (fun j => (Function.update s.threads i thread j).call) =
      Function.update (fun j => (s.threads j).call) i thread.call :=
  funext (fun j => Function.apply_update (fun _ => Thread.call) s.threads i thread j)

lemma turn_call_same (s : Monitor ι κ σ ε ρ) (thread : Thread κ σ ε ρ)
    (hi : thread.call = (s.threads i).call) :
    (fun j => (Function.update s.threads i thread j).call) = fun j => (s.threads j).call := by
  rw [turn_call, hi]
  exact Function.update_eq_self i _

namespace Tracks

lemma stands_outside (h : Tracks code R allowed s d) {thread : Thread κ σ ε ρ}
    (hi : ∀ k c, s.threads i ≠ .inside k c) (hm : t.mutex = s.mutex) (hd : t.data = s.data)
    (ht : t.threads = Function.update s.threads i thread) : Stands code R allowed t d.state := by
  cases h.stands with
  | idle hfree hR => exact .idle (hm.trans hfree) (hd ▸ hR)
  | @busy j k c u hj hin hR ha hrun =>
    have hji : j ≠ i := by
      rintro rfl
      exact hi k c hin
    refine .busy (hm.trans hj) ?_ hR ha (hd ▸ hrun)
    rw [ht, Function.update_of_ne hji, hin]

lemma alone_outside (h : Tracks code R allowed s d) {thread : Thread κ σ ε ρ}
    (hi : ∀ k c, thread ≠ .inside k c) (hm : t.mutex = s.mutex)
    (ht : t.threads = Function.update s.threads i thread) :
    ∀ j k c, t.threads j = .inside k c → t.mutex = some j := by
  intro j k c hj
  rw [ht] at hj
  by_cases hji : j = i
  · rw [hji, Function.update_self] at hj
    exact absurd hj (hi k c)
  · rw [Function.update_of_ne hji] at hj
    rw [hm]
    exact h.alone j k c hj

omit [DecidableEq ι] in
lemma inside (h : Tracks code R allowed s d) {c : Code σ ε ρ} (hi : s.threads i = .inside k c) :
    s.mutex = some i ∧ ∃ u, R u d.state ∧ allowed u k ∧ (code k).run u = c.run s.data := by
  have hm := h.alone i k c hi
  refine ⟨hm, ?_⟩
  cases h.stands with
  | idle hfree => rw [hm] at hfree; cases hfree
  | @busy j k' c' u hj hin hR ha hrun =>
    rw [hm] at hj
    cases hj
    rw [hi] at hin
    cases hin
    exact ⟨u, hR, ha, hrun⟩

lemma step (hc : Implements code O R allowed) (h : Tracks code R allowed s d)
    {ev : MonitorEvent ι κ} (ha : Admitted allowed s ev) (hst : monitorStep code s ev = some t) :
    ∃ evs d', (shared (ι × ℕ) O).run d evs = some d' ∧ Tracks code R allowed t d' := by
  cases ev with
  | call i k =>
    simp only [monitorStep] at hst
    split at hst
    · rename_i hi
      cases hst
      obtain ⟨d', hd, hstate, hf⟩ := h.follows.call O (i := i) (by rw [hi]; rfl) k
      have hrun : (shared (ι × ℕ) O).run d [.call (i, s.returns i) k] = some d' := by
        rw [System.run_cons, hd]
        rfl
      refine ⟨[.call (i, s.returns i) k], d', hrun, h.running, ?_, ?_, ?_⟩
      · rw [hstate]
        exact h.stands_outside (by simp [hi]) rfl rfl rfl
      · exact h.alone_outside (by simp) rfl rfl
      · exact (turn_call s i (.waiting k)).symm ▸ hf
    · cases hst
  | lock i =>
    simp only [monitorStep] at hst
    split at hst
    · rename_i k hi hm
      cases hst
      have hR : R s.data d.state := by
        cases h.stands with
        | idle _ hR => exact hR
        | busy hj => rw [hm] at hj; cases hj
      have hallowed : allowed s.data k := by
        simp only [Admitted, hi, Thread.Asks] at ha
        exact ha
      refine ⟨[], d, rfl, h.running, .busy rfl (Function.update_self _ _ _) hR hallowed rfl, ?_, ?_⟩
      · intro j k' c hj
        by_cases hji : j = i
        · rw [hji]
        · have hin := h.alone j k' c ((Function.update_of_ne hji _ _).symm.trans hj)
          rw [hm] at hin
          cases hin
      · exact (turn_call_same s (.inside k (code k)) (by rw [hi]; rfl)).symm ▸ h.follows
    · cases hst
  | access i =>
    simp only [monitorStep] at hst
    split at hst
    · rename_i k f next hi
      cases hst
      obtain ⟨hm, u, hR, hu, hrun⟩ := h.inside hi
      refine ⟨[], d, rfl, h.running, .busy hm (Function.update_self _ _ _) hR hu hrun, ?_, ?_⟩
      · intro j k' c hj
        by_cases hji : j = i
        · rw [hji]
          exact hm
        · exact h.alone j k' c ((Function.update_of_ne hji _ _).symm.trans hj)
      · exact (turn_call_same s (.inside k (next s.data)) (by rw [hi]; rfl)).symm ▸ h.follows
    · rename_i k e hi
      obtain ⟨-, u, hR, hu, hrun⟩ := h.inside hi
      obtain ⟨v, y, r, hok, -⟩ := hc u d.state k hR hu
      rw [hok] at hrun
      cases hrun
    · cases hst
  | unlock i =>
    simp only [monitorStep] at hst
    split at hst
    · rename_i k r hi
      cases hst
      obtain ⟨hm, u, hR, hu, hrun⟩ := h.inside hi
      obtain ⟨v, y, r', hok, heff, hRv⟩ := hc u d.state k hR hu
      rw [hok] at hrun
      cases hrun
      obtain ⟨d', hd, hstate, hf⟩ := h.follows.perform (i := i) (by rw [hi]; rfl) heff
      refine ⟨[.perform (i, s.returns i)], d', by rw [System.run_cons, hd]; rfl, h.running,
        .idle rfl (hstate ▸ hRv), ?_, ?_⟩
      · intro j k' c hj
        have hj' : Function.update s.threads i (.leaving k r) j = .inside k' c := hj
        by_cases hji : j = i
        · rw [hji, Function.update_self] at hj'
          cases hj'
        · have hin := h.alone j k' c ((Function.update_of_ne hji _ _).symm.trans hj)
          rw [hm] at hin
          exact absurd (Option.some.inj hin).symm hji
      · exact (turn_call s i (.leaving k r)).symm ▸ hf
    · cases hst
  | answer i =>
    simp only [monitorStep] at hst
    split at hst
    · rename_i k r hi
      cases hst
      obtain ⟨d', hd, hstate, hf⟩ := h.follows.answer O (i := i) (by rw [hi]; rfl)
      have hrun : (shared (ι × ℕ) O).run d [.answer (i, s.returns i)] = some d' := by
        rw [System.run_cons, hd]
        rfl
      refine ⟨[.answer (i, s.returns i)], d', hrun, h.running, ?_, ?_, ?_⟩
      · rw [hstate]
        exact h.stands_outside (by simp [hi]) rfl rfl rfl
      · exact h.alone_outside (by simp) rfl rfl
      · exact (turn_call s i .outside).symm ▸ hf
    · cases hst

end Tracks

lemma monitor_linearizes (hc : Implements code O R allowed) {u : σ} (hu : R u O.start)
    (h : (monitor ι code u).ReachableBy (Admitted allowed) s) :
    ∃ d, (shared (ι × ℕ) O).Reachable d ∧ Tracks code R allowed s d := by
  induction h with
  | init =>
    exact ⟨_, .init, rfl, .idle rfl hu, by simp [monitor], .init⟩
  | step _ ha hst ih =>
    obtain ⟨d, hd, ht⟩ := ih
    have hst' := hst
    simp only [monitor, ht.running, Option.isSome_none, Bool.false_eq_true, if_false] at hst'
    obtain ⟨evs, d', hrun, ht'⟩ := ht.step hc ha hst'
    exact ⟨d', hd.run hrun, ht'⟩

end Steps

end MessageBroker.Lib
