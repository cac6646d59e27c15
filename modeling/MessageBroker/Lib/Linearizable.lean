import MessageBroker.Lib.TransitionSystem

/-! Calls of many clients to one shared object, which takes steps of its own as well: each call
takes effect at once, at some moment between the call and its return. -/

namespace MessageBroker.Lib

variable {ι σ κ ρ ο : Type*}

inductive Call (κ ρ : Type*)
  | idle
  | called (k : κ)
  | answered (k : κ) (r : ρ)

structure Object (σ κ ρ ο : Type*) where
  start : σ
  effect : σ → κ → Option (σ × ρ)
  -- what it does on its own
  act : σ → ο → Option σ

inductive Visible (ι κ ρ ο : Type*)
  | call (i : ι) (k : κ)
  | answer (i : ι) (r : ρ)
  | leave (i : ι)
  | act (o : ο)

inductive Effect (ι κ ρ ο : Type*)
  | call (i : ι) (k : κ) (r : ρ)
  | act (o : ο)

def Visible.step : Visible ι κ ρ ο → Option ο
  | .act o => some o
  | .call _ _ | .answer _ _ | .leave _ => none

def Effect.step : Effect ι κ ρ ο → Option ο
  | .act o => some o
  | .call _ _ _ => none

def Effect.caller : Effect ι κ ρ ο → Option ι
  | .call i _ _ => some i
  | .act _ => none

structure Shared (ι σ κ ρ ο : Type*) where
  state : σ
  calls : ι → Call κ ρ
  present : ι → Bool
  -- history: what took effect, and what was seen
  order : List (Effect ι κ ρ ο)
  trace : List (Visible ι κ ρ ο)

inductive SharedEvent (ι κ ο : Type*)
  | call (i : ι) (k : κ)
  | perform (i : ι)
  | act (o : ο)
  | answer (i : ι)
  | leave (i : ι)

variable [DecidableEq ι] (O : Object σ κ ρ ο)

def sharedStep (s : Shared ι σ κ ρ ο) : SharedEvent ι κ ο → Option (Shared ι σ κ ρ ο)
  | .call i k =>
    match s.calls i, s.present i with
    | .idle, true => some { s with
        calls := Function.update s.calls i (.called k)
        trace := s.trace ++ [.call i k] }
    | _, _ => none
  | .perform i =>
    match s.calls i with
    | .called k => (O.effect s.state k).map fun x => { s with
        state := x.1
        calls := Function.update s.calls i (.answered k x.2)
        order := s.order ++ [.call i k x.2] }
    | _ => none
  | .act o => (O.act s.state o).map fun x => { s with
      state := x
      order := s.order ++ [.act o]
      trace := s.trace ++ [.act o] }
  | .answer i =>
    match s.calls i, s.present i with
    | .answered _ r, true => some { s with
        present := Function.update s.present i false
        trace := s.trace ++ [.answer i r] }
    | _, _ => none
  | .leave i =>
    if s.present i = true then some { s with
      present := Function.update s.present i false
      trace := s.trace ++ [.leave i] }
    else none

def shared (ι : Type*) [DecidableEq ι] (O : Object σ κ ρ ο) :
    System (Shared ι σ κ ρ ο) (SharedEvent ι κ ο) where
  init := ⟨O.start, fun _ => .idle, fun _ => true, [], []⟩
  step := sharedStep O

def Explains : σ → List (Effect ι κ ρ ο) → σ → Prop
  | s, [], t => s = t
  | s, .call _ k r :: es, t => ∃ u, O.effect s k = some (u, r) ∧ Explains u es t
  | s, .act o :: es, t => ∃ u, O.act s o = some u ∧ Explains u es t

structure Linearized (s : Shared ι σ κ ρ ο) : Prop where
  explained : Explains O O.start s.order s.state
  once : (s.order.filterMap Effect.caller).Nodup
  effective : ∀ i k r, s.calls i = .answered k r ↔ .call i k r ∈ s.order
  -- nothing takes effect that was not called
  waiting : ∀ i k, s.calls i = .called k → .call i k ∈ s.trace
  made : ∀ i k r, .call i k r ∈ s.order → .call i k ∈ s.trace
  answered : ∀ i r, .answer i r ∈ s.trace → ∃ k, .call i k r ∈ s.order
  -- the object's own steps are those that were seen
  acts : s.order.filterMap Effect.step = s.trace.filterMap Visible.step
  -- what was over before a call began took effect before it
  realTime : ∀ (a b : ℕ) i r j k, s.trace[a]? = some (.answer i r) →
    s.trace[b]? = some (.call j k) → a < b →
    ∀ (p q : ℕ) k' r' k'' r'', s.order[p]? = some (.call i k' r') →
      s.order[q]? = some (.call j k'' r'') → p < q
  -- a call takes effect behind the steps before it began and before those after it was over
  begun : ∀ (b q : ℕ) j k k' r, s.trace[b]? = some (.call j k) → s.order[q]? = some (.call j k' r) →
    (s.trace.take b).filterMap Visible.step <+: (s.order.take q).filterMap Effect.step
  ended : ∀ (a p : ℕ) i r k r', s.trace[a]? = some (.answer i r) →
    s.order[p]? = some (.call i k r') →
    (s.order.take p).filterMap Effect.step <+: (s.trace.take a).filterMap Visible.step

variable {O} {s t : Shared ι σ κ ρ ο} {ev : SharedEvent ι κ ο} {order : List (Effect ι κ ρ ο)}
  {start : σ}

section Snoc

variable {α : Type*} {xs : List α} {x y : α} {n : ℕ}

lemma getElem?_snoc (h : (xs ++ [x])[n]? = some y) :
    xs[n]? = some y ∨ (n = xs.length ∧ y = x) := by
  rcases Nat.lt_or_ge n xs.length with hn | hn
  · rw [List.getElem?_append_left hn] at h
    exact .inl h
  · rw [List.getElem?_append_right hn] at h
    have hz : n - xs.length = 0 := by
      by_contra hne
      rw [List.getElem?_singleton, if_neg hne] at h
      cases h
    rw [hz] at h
    exact .inr ⟨by omega, (Option.some.inj h).symm⟩

lemma getElem?_snoc_ne (h : (xs ++ [x])[n]? = some y) (hne : y ≠ x) : xs[n]? = some y := by
  rcases getElem?_snoc h with h | ⟨-, he⟩
  · exact h
  · exact absurd he hne

lemma take_snoc (h : xs[n]? = some y) : (xs ++ [x]).take n = xs.take n := by
  have hlt := (List.getElem?_eq_some_iff.mp h).1
  exact List.take_append_of_le_length hlt.le

lemma take_filterMap_prefix {β : Type*} (f : α → Option β) (xs : List α) (n : ℕ) :
    (xs.take n).filterMap f <+: xs.filterMap f := (List.take_prefix n xs).filterMap f

lemma filterMap_snoc {β : Type*} {f : α → Option β} (h : f x = none) :
    (xs ++ [x]).filterMap f = xs.filterMap f := by
  rw [List.filterMap_append, List.filterMap_cons_none h, List.filterMap_nil, List.append_nil]

end Snoc

omit [DecidableEq ι] in
lemma Explains.append {x y z : σ} {es fs : List (Effect ι κ ρ ο)} (h : Explains O x es y)
    (h' : Explains O y fs z) : Explains O x (es ++ fs) z := by
  induction es generalizing x with
  | nil =>
    cases h
    exact h'
  | cons e es ih =>
    cases e with
    | call i k r =>
      obtain ⟨u, hu, hes⟩ := h
      exact ⟨u, hu, ih hes⟩
    | act o =>
      obtain ⟨u, hu, hes⟩ := h
      exact ⟨u, hu, ih hes⟩

omit [DecidableEq ι] in
lemma Explains.call {x : σ} {i : ι} {k : κ} {y : σ × ρ} (h : Explains O start order x)
    (hp : O.effect x k = some y) : Explains O start (order ++ [.call i k y.2]) y.1 := by
  apply h.append
  exact ⟨y.1, hp, rfl⟩

omit [DecidableEq ι] in
lemma Explains.act {x y : σ} {o : ο} (h : Explains O start order x) (hp : O.act x o = some y) :
    Explains O start (order ++ [.act o]) y := by
  apply h.append
  exact ⟨y, hp, rfl⟩

namespace Linearized

omit [DecidableEq ι] in
lemma not_ordered (h : Linearized O s) {i : ι} (hi : ∀ k r, s.calls i ≠ .answered k r) (q : ℕ)
    (k : κ) (r : ρ) : s.order[q]? ≠ some (.call i k r) := by
  intro hq
  exact hi k r ((h.effective i k r).mpr (List.mem_of_getElem? hq))

omit [DecidableEq ι] in
lemma not_answered (h : Linearized O s) {i : ι} (hi : ∀ k r, s.calls i ≠ .answered k r) (a : ℕ)
    (r : ρ) : s.trace[a]? ≠ some (.answer i r) := by
  intro ha
  obtain ⟨k, hk⟩ := h.answered i r (List.mem_of_getElem? ha)
  exact hi k r ((h.effective i k r).mpr hk)

omit [DecidableEq ι] in
lemma see (h : Linearized O s) {present : ι → Bool} {v : Visible ι κ ρ ο}
    (hcall : ∀ j k, v ≠ .call j k) (hstep : v.step = none)
    (hans : ∀ i r, v = .answer i r → ∃ k, .call i k r ∈ s.order) :
    Linearized O { s with present := present, trace := s.trace ++ [v] } where
  explained := h.explained
  once := h.once
  effective := h.effective
  waiting i k hi := List.mem_append_left _ (h.waiting i k hi)
  made i k r hi := List.mem_append_left _ (h.made i k r hi)
  answered i r hi := by
    rcases List.mem_append.mp hi with hi | hi
    · exact h.answered i r hi
    · exact hans i r (List.mem_singleton.mp hi).symm
  acts := h.acts.trans (filterMap_snoc hstep).symm
  realTime a b i r j k ha hb hab := by
    have hb' := getElem?_snoc_ne hb (hcall j k).symm
    have hlt := (List.getElem?_eq_some_iff.mp hb').1
    rcases getElem?_snoc ha with ha | ⟨rfl, -⟩
    · exact h.realTime a b i r j k ha hb' hab
    · omega
  begun b q j k k' r hb hq := by
    have hb' := getElem?_snoc_ne hb (hcall j k).symm
    rw [take_snoc hb']
    exact h.begun b q j k k' r hb' hq
  ended a p i r k r' ha hp := by
    rcases getElem?_snoc ha with ha | ⟨rfl, -⟩
    · rw [take_snoc ha]
      exact h.ended a p i r k r' ha hp
    · rw [List.take_left, ← h.acts]
      exact take_filterMap_prefix _ _ _

lemma call (h : Linearized O s) {i : ι} {k : κ} (hi : s.calls i = .idle) :
    Linearized O { s with
      calls := Function.update s.calls i (.called k)
      trace := s.trace ++ [.call i k] } := by
  have hnew : ∀ k' r, s.calls i ≠ .answered k' r := fun k' r => by rw [hi]; simp
  have hkeep : ∀ j k' r, Function.update s.calls i (.called k) j = .answered k' r ↔
      s.calls j = .answered k' r := by
    intro j k' r
    by_cases hj : j = i
    · subst hj
      simp [hi]
    · rw [Function.update_of_ne hj]
  refine ⟨h.explained, h.once, fun j k' r => (hkeep j k' r).trans (h.effective j k' r),
    fun j k' hj => ?_, fun j k' r hj => List.mem_append_left _ (h.made j k' r hj),
    fun j r hj => ?_, ?_, ?_, ?_, ?_⟩
  · dsimp only at hj
    by_cases he : j = i
    · subst he
      rw [Function.update_self] at hj
      cases hj
      exact List.mem_append_right _ List.mem_cons_self
    · rw [Function.update_of_ne he] at hj
      exact List.mem_append_left _ (h.waiting j k' hj)
  · rcases List.mem_append.mp hj with hj | hj
    · exact h.answered j r hj
    · cases List.mem_singleton.mp hj
  · exact h.acts.trans (filterMap_snoc rfl).symm
  · intro a b i' r j k' ha hb hab p q k₁ r₁ k₂ r₂ hp hq
    have ha' := getElem?_snoc_ne ha (by simp)
    rcases getElem?_snoc hb with hb | ⟨-, he⟩
    · exact h.realTime a b i' r j k' ha' hb hab p q k₁ r₁ k₂ r₂ hp hq
    · cases he
      exact absurd hq (h.not_ordered hnew q k₂ r₂)
  · intro b q j k' k₁ r hb hq
    rcases getElem?_snoc hb with hb | ⟨-, he⟩
    · rw [take_snoc hb]
      exact h.begun b q j k' k₁ r hb hq
    · cases he
      exact absurd hq (h.not_ordered hnew q k₁ r)
  · intro a p j r k₁ r₁ ha hp
    have ha' := getElem?_snoc_ne ha (by simp)
    rw [take_snoc ha']
    exact h.ended a p j r k₁ r₁ ha' hp

lemma perform (h : Linearized O s) {i : ι} {k : κ} {y : σ × ρ} (hi : s.calls i = .called k)
    (hp : O.effect s.state k = some y) :
    Linearized O { s with
      state := y.1
      calls := Function.update s.calls i (.answered k y.2)
      order := s.order ++ [.call i k y.2] } := by
  have hnew : ∀ k' r, s.calls i ≠ .answered k' r := fun k' r => by rw [hi]; simp
  refine ⟨h.explained.call hp, ?_, fun j k' r => ?_, fun j k' hj => ?_, fun j k' r hj => ?_,
    fun j r hj => ?_, (filterMap_snoc rfl).trans h.acts, ?_, ?_, ?_⟩
  · rw [List.filterMap_append, List.nodup_append']
    refine ⟨h.once, List.nodup_singleton i, ?_⟩
    rintro j hj hji
    obtain ⟨e, he, hu⟩ := List.mem_filterMap.mp hj
    obtain rfl : j = i := by simpa [Effect.caller] using hji
    cases e with
    | call j' k' r =>
      obtain rfl : j' = j := Option.some.inj hu
      exact hnew k' r ((h.effective j' k' r).mpr he)
    | act o => cases hu
  · by_cases hj : j = i
    · subst hj
      simp only [Function.update_self, Call.answered.injEq, List.mem_append, List.mem_singleton,
        Effect.call.injEq, true_and, ← h.effective]
      constructor
      · rintro ⟨rfl, rfl⟩
        exact .inr ⟨rfl, rfl⟩
      · rintro (ho | ⟨rfl, rfl⟩)
        · exact absurd ho (hnew k' r)
        · exact ⟨rfl, rfl⟩
    · simp [h.effective, hj]
  · dsimp only at hj
    have hne : j ≠ i := by
      rintro rfl
      rw [Function.update_self] at hj
      cases hj
    rw [Function.update_of_ne hne] at hj
    exact h.waiting j k' hj
  · rcases List.mem_append.mp hj with hj | hj
    · exact h.made j k' r hj
    · cases List.mem_singleton.mp hj
      exact h.waiting i k hi
  · obtain ⟨k', hk'⟩ := h.answered j r hj
    exact ⟨k', List.mem_append_left _ hk'⟩
  · intro a b i' r j k' ha hb hab p q k₁ r₁ k₂ r₂ hp' hq
    rcases getElem?_snoc hp' with hp' | ⟨-, he⟩
    · have hlt := (List.getElem?_eq_some_iff.mp hp').1
      rcases getElem?_snoc hq with hq | ⟨rfl, -⟩
      · exact h.realTime a b i' r j k' ha hb hab p q k₁ r₁ k₂ r₂ hp' hq
      · exact hlt
    · cases he
      exact absurd ha (h.not_answered hnew a r)
  · intro b q j k' k₁ r hb hq
    rcases getElem?_snoc hq with hq | ⟨rfl, -⟩
    · rw [take_snoc hq]
      exact h.begun b q j k' k₁ r hb hq
    · -- it takes effect behind all steps so far
      rw [List.take_left, h.acts]
      exact take_filterMap_prefix _ _ _
  · intro a p j r k₁ r₁ ha hp'
    rcases getElem?_snoc hp' with hp' | ⟨-, he⟩
    · rw [take_snoc hp']
      exact h.ended a p j r k₁ r₁ ha hp'
    · cases he
      exact absurd ha (h.not_answered hnew a r)

omit [DecidableEq ι] in
lemma act (h : Linearized O s) {o : ο} {y : σ} (hp : O.act s.state o = some y) :
    Linearized O { s with
      state := y
      order := s.order ++ [.act o]
      trace := s.trace ++ [.act o] } where
  explained := h.explained.act hp
  once := by
    rw [filterMap_snoc rfl]
    exact h.once
  effective i k r := by
    rw [h.effective, List.mem_append]
    simp
  waiting i k hi := List.mem_append_left _ (h.waiting i k hi)
  made i k r hi := by
    rcases List.mem_append.mp hi with hi | hi
    · exact List.mem_append_left _ (h.made i k r hi)
    · cases List.mem_singleton.mp hi
  answered i r hi := by
    rcases List.mem_append.mp hi with hi | hi
    · obtain ⟨k, hk⟩ := h.answered i r hi
      exact ⟨k, List.mem_append_left _ hk⟩
    · cases List.mem_singleton.mp hi
  acts := by
    rw [List.filterMap_append, List.filterMap_append, h.acts]
    rfl
  realTime a b i r j k ha hb hab p q k₁ r₁ k₂ r₂ hp' hq :=
    h.realTime a b i r j k (getElem?_snoc_ne ha (by simp)) (getElem?_snoc_ne hb (by simp)) hab p q
      k₁ r₁ k₂ r₂ (getElem?_snoc_ne hp' (by simp)) (getElem?_snoc_ne hq (by simp))
  begun b q j k k' r hb hq := by
    have hb' := getElem?_snoc_ne hb (by simp)
    have hq' := getElem?_snoc_ne hq (by simp)
    rw [take_snoc hb', take_snoc hq']
    exact h.begun b q j k k' r hb' hq'
  ended a p i r k r' ha hp' := by
    have ha' := getElem?_snoc_ne ha (by simp)
    have hp'' := getElem?_snoc_ne hp' (by simp)
    rw [take_snoc ha', take_snoc hp'']
    exact h.ended a p i r k r' ha' hp''

end Linearized

lemma linearized_step (h : Linearized O s) (hs : sharedStep O s ev = some t) : Linearized O t := by
  cases ev with
  | call i k =>
    simp only [sharedStep] at hs
    split at hs
    · rename_i hi _
      cases hs
      exact h.call hi
    · cases hs
  | perform i =>
    simp only [sharedStep] at hs
    split at hs
    · rename_i k hi
      obtain ⟨y, hy, rfl⟩ := Option.map_eq_some_iff.mp hs
      exact h.perform hi hy
    · cases hs
  | act o =>
    obtain ⟨y, hy, rfl⟩ := Option.map_eq_some_iff.mp hs
    exact h.act hy
  | answer i =>
    simp only [sharedStep] at hs
    split at hs
    · rename_i k r hi _
      cases hs
      refine h.see (by simp) rfl ?_
      rintro j r' he
      cases he
      exact ⟨k, (h.effective i k r).mp hi⟩
    · cases hs
  | leave i =>
    simp only [sharedStep, Option.ite_none_right_eq_some, Option.some.injEq] at hs
    obtain ⟨-, rfl⟩ := hs
    exact h.see (by simp) rfl (by simp)

lemma reachable_linearized (h : (shared ι O).Reachable s) : Linearized O s := by
  refine h.invariant ?_ (fun _ _ _ => linearized_step)
  refine ⟨rfl, List.nodup_nil, by simp [shared], by simp [shared], by simp [shared],
    by simp [shared], rfl, ?_, ?_, ?_⟩
  · intro a b i r j k ha
    cases ha
  · intro b q j k k' r hb
    cases hb
  · intro a p i r k r' ha
    cases ha

section Threads

/-- Threads that make one call after the other: a call is known by its thread and its number, and
those of the past do not matter any more. -/
structure Follows (returns : ι → ℕ) (trace : List (Visible (ι × ℕ) κ ρ ο)) (calls : ι → Call κ ρ)
    (d : Shared (ι × ℕ) σ κ ρ ο) : Prop where
  trace : d.trace = trace
  present : ∀ i k, returns i ≤ k → d.present (i, k) = true
  current : ∀ i, d.calls (i, returns i) = calls i
  next : ∀ i k, returns i < k → d.calls (i, k) = .idle

variable {returns : ι → ℕ} {trace : List (Visible (ι × ℕ) κ ρ ο)} {calls : ι → Call κ ρ}
  {d : Shared (ι × ℕ) σ κ ρ ο} {i : ι} {k : κ} {r : ρ} {x : σ}

omit [DecidableEq ι] in
lemma callId_ne {i j : ι} {a b : ℕ} (h : i = j → a ≠ b) : (i, a) ≠ (j, b) := by
  rintro he
  cases he
  exact h rfl rfl

namespace Follows

omit [DecidableEq ι] in
lemma init : Follows (fun _ => 0) [] (fun _ => .idle)
    (⟨start, fun _ => .idle, fun _ => true, [], []⟩ : Shared (ι × ℕ) σ κ ρ ο) :=
  ⟨rfl, fun _ _ _ => rfl, fun _ => rfl, fun _ _ _ => rfl⟩

lemma update_current (h : Follows returns trace calls d) (c : Call κ ρ) (j : ι) :
    Function.update d.calls (i, returns i) c (j, returns j) = Function.update calls i c j := by
  by_cases hj : j = i
  · subst hj
    rw [Function.update_self, Function.update_self]
  · have hne := callId_ne (a := returns j) (b := returns i) (fun hji => absurd hji hj)
    rw [Function.update_of_ne hne, Function.update_of_ne hj, h.current]

lemma update_next (h : Follows returns trace calls d) (c : Call κ ρ) {j : ι} {a : ℕ}
    (hj : returns j < a) : Function.update d.calls (i, returns i) c (j, a) = .idle := by
  have hne := callId_ne (i := j) (j := i) (a := a) (b := returns i) (by rintro rfl; omega)
  rw [Function.update_of_ne hne, h.next j a hj]

lemma call (O : Object σ κ ρ ο) (h : Follows returns trace calls d) (hi : calls i = .idle) (k : κ) :
    ∃ d', (shared (ι × ℕ) O).step d (.call (i, returns i) k) = some d' ∧
      d'.state = d.state ∧ Follows returns (trace ++ [.call (i, returns i) k])
        (Function.update calls i (.called k)) d' := by
  have hidle : d.calls (i, returns i) = .idle := (h.current i).trans hi
  refine ⟨{ d with
    calls := Function.update d.calls (i, returns i) (.called k)
    trace := d.trace ++ [.call (i, returns i) k] }, ?_, rfl, ?_⟩
  · simp [shared, sharedStep, hidle, h.present i _ le_rfl]
  · exact ⟨by rw [h.trace], h.present, h.update_current _, fun j a => h.update_next _⟩

lemma perform (h : Follows returns trace calls d) (hi : calls i = .called k)
    (hp : O.effect d.state k = some (x, r)) :
    ∃ d', (shared (ι × ℕ) O).step d (.perform (i, returns i)) = some d' ∧
      d'.state = x ∧ Follows returns trace (Function.update calls i (.answered k r)) d' := by
  have hcall : d.calls (i, returns i) = .called k := (h.current i).trans hi
  refine ⟨{ d with
    state := x
    calls := Function.update d.calls (i, returns i) (.answered k r)
    order := d.order ++ [.call (i, returns i) k r] }, ?_, rfl, ?_⟩
  · simp [shared, sharedStep, hcall, hp]
  · exact ⟨h.trace, h.present, h.update_current _, fun j a => h.update_next _⟩

lemma answer (O : Object σ κ ρ ο) (h : Follows returns trace calls d)
    (hi : calls i = .answered k r) :
    ∃ d', (shared (ι × ℕ) O).step d (.answer (i, returns i)) = some d' ∧
      d'.state = d.state ∧ Follows (Function.update returns i (returns i + 1))
        (trace ++ [.answer (i, returns i) r]) (Function.update calls i .idle) d' := by
  have hcall : d.calls (i, returns i) = .answered k r := (h.current i).trans hi
  have hle : ∀ j, returns j ≤ Function.update returns i (returns i + 1) j := by
    intro j
    by_cases hj : j = i
    · rw [hj, Function.update_self]
      exact Nat.le_succ _
    · rw [Function.update_of_ne hj]
  refine ⟨{ d with
    present := Function.update d.present (i, returns i) false
    trace := d.trace ++ [.answer (i, returns i) r] }, ?_, rfl, ?_⟩
  · simp [shared, sharedStep, hcall, h.present i _ le_rfl]
  refine ⟨by rw [h.trace], fun j a ha => ?_, fun j => ?_, fun j a ha => ?_⟩
  · -- the calls that count from now on are not the one that returns
    have hne : (j, a) ≠ (i, returns i) := by
      refine callId_ne ?_
      rintro rfl
      rw [Function.update_self] at ha
      omega
    exact (Function.update_of_ne hne _ _).trans (h.present j a ((hle j).trans ha))
  · by_cases hj : j = i
    · subst hj
      rw [Function.update_self, Function.update_self]
      exact h.next j _ (Nat.lt_succ_self _)
    · rw [Function.update_of_ne hj, Function.update_of_ne hj]
      exact h.current j
  · exact h.next j a ((hle j).trans_lt ha)

end Follows

end Threads

end MessageBroker.Lib
