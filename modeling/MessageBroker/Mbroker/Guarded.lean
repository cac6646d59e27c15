import MessageBroker.Mbroker.Booking
import MessageBroker.Mbroker.Locks

namespace MessageBroker.Mbroker

open MessageBroker.Lib MessageBroker.Protocol

namespace Stage

variable {stage : Stage} {p q : ℕ}

def locks (p : ℕ) (stage : Stage) : Bool := stage.holds == some p

lemma locks_eq_false (h : stage.holds = none) (p : ℕ) : stage.locks p = false := by
  rw [locks, h]
  rfl

lemma uses_eq (h : ∀ p, stage ≠ .departed p) :
    stage.uses = stage.phase.session.map Prod.fst := by
  cases stage with
  | departed msg => exact absurd rfl (h msg)
  | free | asleep | entered | removing | settled | growing | grown | checking | checked
  | unpublishing | unsubscribing => rfl

lemma uses_cases (h : stage.uses = some p) :
    stage = .departed p ∨ ∃ k, stage.phase.session = some (p, k) := by
  cases stage with
  | departed msg =>
    cases h
    exact .inl rfl
  | free | asleep | entered | removing | settled | growing | grown | checking | checked
  | unpublishing | unsubscribing =>
    rw [uses_eq (by simp)] at h
    obtain ⟨⟨q, k⟩, hk, rfl⟩ := Option.map_eq_some_iff.mp h
    exact .inr ⟨k, hk⟩

lemma holds_of_inside (h : stage.inside = true) : stage.holds = none := by
  cases stage <;> first | rfl | cases h

end Stage

section Test

variable {t : Table} {xs : List (ℕ × MessageBox)}

lemma removalTest_cases (hx : t.Lists xs) (pipe : PipeName) (name : BoxName) :
    (∃ p b, removalTest t pipe name = .ok (t, .removing pipe name p, none) ∧
      removable t name = some p ∧ (p, b) ∈ xs ∧ b.name = name ∧ b.publishers = 0 ∧
      b.subscribers = 0) ∨
    ∃ box, removalTest t pipe name = .ok (t, .settled (.removeReply box false 0 0), none) ∧
      removable t name = none := by
  rcases getMsgBox_cases hx name with ⟨hg, -⟩ | ⟨p, b, as, bs, next, hg, rfl, hb, -, hl⟩
  · exact .inr ⟨none, by rw [removalTest, hg]; rfl, by rw [removable, hg]⟩
  · by_cases hc : b.publishers = 0 ∧ b.subscribers = 0
    · refine .inl ⟨p, b, ?_, ?_, by simp, hb, hc⟩
      · simp [removalTest, hg, hl, hc, bind, Except.bind]
      · simp [removable, hg, hl, hc]
    · refine .inr ⟨some p, ?_, ?_⟩
      · simp only [removalTest, hg, hl, hc, bind, Except.bind, if_false]
      · simp only [removable, hg, hl, hc, if_false]

lemma requestBody_eq {env : Env} {request : Request}
    (hr : ∀ pipe name, request ≠ .remove pipe name) :
    requestBody t env request =
      (requestBlock t env request).map (fun r => (r.1, .settled r.2.1, r.2.2)) := by
  cases request with
  | remove pipe name => exact absurd rfl (hr pipe name)
  | registerPub | registerSub | create | list =>
    rw [requestBody]
    · cases requestBlock t env _ <;> rfl
    · intro pipe name he
      cases he

lemma Handled.kept {env : Env} {ys : List (ℕ × MessageBox)} {request : Request}
    {r : Except Fault (Table × WorkerPhase × Option Reply)}
    (hr : ∀ pipe name, request ≠ .remove pipe name) (h : Handled t env xs request r ys) :
    ∀ p ∈ xs.map Prod.fst, p ∈ ys.map Prod.fst := by
  intro p hp
  obtain ⟨⟨q, b⟩, hb, rfl⟩ := List.mem_map.mp hp
  cases h with
  | publish | subscribe => exact List.mem_map.mpr ⟨_, mem_adjust.mpr ⟨b, hb, rfl⟩, rfl⟩
  | create => exact List.mem_map.mpr ⟨_, List.mem_append_left _ hb, rfl⟩
  | remove => exact absurd rfl (hr _ _)
  | publishRefused | subscribeRefused | createRefused | createFailed | removeBusy | removeAbsent
  | list => exact hp

end Test

variable {W : Type} [Fintype W]

structure Guarded (s : LockBroker W) (xs : List (ℕ × MessageBox)) : Prop where
  shelved : Shelved s.table xs
  booked : Booked (Stage.phase ∘ s.stages) xs
  mutexes : ∀ p b, (p, b) ∈ xs → b.waitMutex.toNat = tally (Stage.locks p) s.stages
  lingering : ∀ w p, s.stages w = .departed p → p ∈ xs.map Prod.fst
  holder : ∀ w, (s.stages w).inside = true → s.messagesLock = some w
  removals : ∀ w pipe name p, s.stages w = .removing pipe name p →
    (∃ b, (p, b) ∈ xs ∧ b.name = name ∧ b.publishers = 0 ∧ b.subscribers = 0) ∧
      ∀ u, s.stages u ≠ .departed p
  fault : s.fault = none ∨ s.fault = some .noMemory

namespace Guarded

variable {s t : LockBroker W} {xs ys : List (ℕ × MessageBox)} {w : W} {p : ℕ} {y : Stage}
  {table : Table}

lemma listed (h : Guarded s xs) (hu : (s.stages w).uses = some p) : ∃ b, (p, b) ∈ xs := by
  rcases Stage.uses_cases hu with hd | ⟨k, hk⟩
  · obtain ⟨⟨q, b⟩, hb, rfl⟩ := List.mem_map.mp (h.lingering w p hd)
    exact ⟨b, hb⟩
  · obtain ⟨b, hb, -⟩ := h.booked.sessions w p k hk
    exact ⟨b, hb⟩

lemma alone (h : Guarded s xs) {pipe : PipeName} {name : BoxName}
    (hw : s.stages w = .removing pipe name p) (u : W) : (s.stages u).uses ≠ some p := by
  intro hu
  obtain ⟨⟨b, hb, -, hpub, hsub⟩, hd⟩ := h.removals w pipe name p hw
  rcases Stage.uses_cases hu with he | ⟨k, hk⟩
  · exact hd u he
  · have hpos := h.booked.pos_of_session (w := u) hk hb
    omega

lemma mutex_free (h : Guarded s xs) {b : MessageBox} (hb : (p, b) ∈ xs)
    (hp : ∀ u, (s.stages u).holds ≠ some p) : b.waitMutex = false := by
  have hz : tally (Stage.locks p) s.stages = 0 :=
    tally_eq_zero.mpr (fun u => by simpa [Stage.locks] using hp u)
  have hm := h.mutexes p b hb
  rw [hz] at hm
  exact Bool.toNat_eq_zero.mp hm

lemma removal_unlocked (h : Guarded s xs) {pipe : PipeName} {name : BoxName} {b : MessageBox}
    (hw : s.stages w = .removing pipe name p) (hb : (p, b) ∈ xs) : b.waitMutex = false :=
  h.mutex_free hb (fun u hu => h.alone hw u (Stage.uses_of_holds hu))

lemma undisturbed (h : Guarded s xs) : Undisturbed s := by
  refine ⟨fun w pipe name p hw u => ?_, fun w pipe name p hw => ?_, ?_, ?_⟩
  · exact ⟨fun hu => h.alone hw u (Stage.uses_of_holds hu), h.alone hw u⟩
  · obtain ⟨⟨b, hb, -⟩, -⟩ := h.removals w pipe name p hw
    obtain ⟨next, hc⟩ := Heap.Segment.cell h.shelved.lists hb
    exact ⟨_, load_eq hc, h.removal_unlocked hw hb⟩
  · rcases h.fault with hf | hf <;> rw [hf] <;> decide
  · rcases h.fault with hf | hf <;> rw [hf] <;> decide

variable [DecidableEq W]

lemma touch (h : Guarded s xs) {f : MessageBox → MessageBox}
    (hu : (s.stages w).uses = some p) (hf : ∀ b, (f b).name = b.name ∧ (f b).serial = b.serial)
    (hl : table.Lists (adjust p f xs)) (hc : table.created = s.table.created)
    (hb : Booked (Function.update (Stage.phase ∘ s.stages) w y.phase) (adjust p f xs))
    (hm : ∀ b, (p, b) ∈ xs → (f b).waitMutex.toNat + ((s.stages w).locks p).toNat =
      b.waitMutex.toNat + (y.locks p).toNat)
    (hy : ∀ q, y.holds = some q → q = p) (hi : y.inside = false) :
    Guarded (advance s w (.ok (table, y, none))) (adjust p f xs) := by
  have hx : ∀ q, (s.stages w).holds = some q → q = p := by
    intro q hq
    exact Option.some.inj ((Stage.uses_of_holds hq).symm.trans hu)
  have hother : ∀ {x : Stage} {q : ℕ}, (∀ r, x.holds = some r → r = p) → q ≠ p →
      x.locks q = false := by
    intro x q hr hq
    by_contra hl
    exact hq (hr q (by simpa [Stage.locks] using hl))
  refine ⟨h.shelved.adjust hf hl hc, ?_, ?_, ?_, ?_, ?_, h.fault⟩
  · rw [advance_stages, Function.comp_update]
    exact hb
  · intro q c hq
    obtain ⟨b, hbox, rfl⟩ := mem_adjust.mp hq
    have ht := tally_update (Stage.locks q) s.stages w y
    have hold := h.mutexes q b hbox
    by_cases he : q = p
    · subst he
      have hh := hm b hbox
      rw [if_pos rfl]
      rw [advance_stages]
      omega
    · rw [hother hx he, hother hy he] at ht
      rw [if_neg he]
      rw [advance_stages]
      omega
  · intro v q hv
    have hin : q ∈ xs.map Prod.fst := by
      rcases update_cases hv with ⟨rfl, rfl⟩ | ⟨-, hv⟩
      · obtain ⟨b, hb⟩ := h.listed hu
        rw [hy q rfl]
        exact List.mem_map.mpr ⟨_, hb, rfl⟩
      · exact h.lingering v q hv
    obtain ⟨⟨r, b⟩, hb, rfl⟩ := List.mem_map.mp hin
    exact List.mem_map.mpr ⟨_, mem_adjust.mpr ⟨b, hb, rfl⟩, rfl⟩
  · intro v hv
    by_cases hvw : v = w
    · subst hvw
      rw [advance_stages, Function.update_self, hi] at hv
      cases hv
    · rw [advance_stages, Function.update_of_ne hvw] at hv
      exact h.holder v hv
  · intro v pipe name q hv
    rcases update_cases hv with ⟨rfl, rfl⟩ | ⟨-, hv⟩
    · cases hi
    · -- the box about to be removed is another one
      have hne : q ≠ p := by
        rintro rfl
        exact h.alone hv w hu
      obtain ⟨⟨b, hb, hrest⟩, hd⟩ := h.removals v pipe name q hv
      refine ⟨⟨b, mem_adjust.mpr ⟨b, hb, (if_neg hne).symm⟩, hrest⟩, fun u hu' => ?_⟩
      rcases update_cases hu' with ⟨rfl, rfl⟩ | ⟨-, hu'⟩
      · exact hne (hy q rfl)
      · exact hd u hu'

lemma moved (h : Guarded s xs) (hst : t.stages = Function.update s.stages w y)
    (hx : (s.stages w).holds = none) (hy : y.holds = none) (hs : Shelved t.table ys)
    (hb : Booked (Function.update (Stage.phase ∘ s.stages) w y.phase) ys)
    (hm : ∀ q c, (q, c) ∈ ys → (∃ b, (q, b) ∈ xs ∧ b.waitMutex = c.waitMutex) ∨
      (q ∉ xs.map Prod.fst ∧ c.waitMutex = false))
    (hk : ∀ u q, s.stages u = .departed q → q ∈ ys.map Prod.fst)
    (hl : ∀ v, (t.stages v).inside = true → t.messagesLock = some v)
    (hr : ∀ v pipe name q, t.stages v = .removing pipe name q →
      (∃ b, (q, b) ∈ ys ∧ b.name = name ∧ b.publishers = 0 ∧ b.subscribers = 0) ∧
        ∀ u, s.stages u ≠ .departed q)
    (hf : t.fault = s.fault) : Guarded t ys := by
  have hdep : ∀ v q, t.stages v = .departed q → s.stages v = .departed q := by
    intro v q hv
    rw [hst] at hv
    rcases update_cases hv with ⟨rfl, rfl⟩ | ⟨-, hv⟩
    · cases hy
    · exact hv
  refine ⟨hs, ?_, ?_, ?_, hl, ?_, ?_⟩
  · rw [hst, Function.comp_update]
    exact hb
  · intro q c hc
    have ht := tally_update (Stage.locks q) s.stages w y
    rw [Stage.locks_eq_false hx, Stage.locks_eq_false hy, Nat.add_left_inj] at ht
    rw [hst, ht]
    rcases hm q c hc with ⟨b, hbox, he⟩ | ⟨hnew, hfree⟩
    · rw [← he]
      exact h.mutexes q b hbox
    · rw [hfree]
      refine (tally_eq_zero.mpr (fun u => ?_)).symm
      by_contra hu
      obtain ⟨b, hbox⟩ := h.listed (w := u)
        (Stage.uses_of_holds (by simpa [Stage.locks] using hu))
      exact hnew (List.mem_map.mpr ⟨_, hbox, rfl⟩)
  · intro v q hv
    exact hk v q (hdep v q hv)
  · intro v pipe name q hv
    obtain ⟨hbox, hd⟩ := hr v pipe name q hv
    exact ⟨hbox, fun u hu => hd u (hdep u q hu)⟩
  · rw [hf]
    exact h.fault

lemma turn (h : Guarded s xs) (hst : t.stages = Function.update s.stages w y)
    (ht : t.table = s.table) (hf : t.fault = s.fault)
    (hb : Booked (Function.update (Stage.phase ∘ s.stages) w y.phase) xs)
    (hx : (s.stages w).holds = none) (hy : y.holds = none)
    (hr : ∀ pipe name q, y ≠ .removing pipe name q)
    (hm : ∀ v, v ≠ w → (s.stages v).inside = true → t.messagesLock = some v)
    (hw : y.inside = true → t.messagesLock = some w) : Guarded t xs := by
  refine h.moved hst hx hy (ht ▸ h.shelved) hb (fun q c hc => .inl ⟨c, hc, rfl⟩) h.lingering
    (fun v hv => ?_) (fun v pipe name q hv => ?_) hf
  · rw [hst] at hv
    by_cases hvw : v = w
    · subst hvw
      rw [Function.update_self] at hv
      exact hw hv
    · rw [Function.update_of_ne hvw] at hv
      exact hm v hvw hv
  · rw [hst] at hv
    rcases update_cases hv with ⟨rfl, he⟩ | ⟨-, hv⟩
    · exact absurd he (hr pipe name q)
    · exact h.removals v pipe name q hv

lemma within (h : Guarded s xs) {reply : Option Reply}
    (hx : (s.stages w).inside = true) (hy : y.inside = true) (hs : Shelved table ys)
    (hb : Booked (Function.update (Stage.phase ∘ s.stages) w y.phase) ys)
    (hm : ∀ q c, (q, c) ∈ ys → (∃ b, (q, b) ∈ xs ∧ b.waitMutex = c.waitMutex) ∨
      (q ∉ xs.map Prod.fst ∧ c.waitMutex = false))
    (hk : ∀ u q, s.stages u = .departed q → q ∈ ys.map Prod.fst)
    (hr : ∀ pipe name q, y = .removing pipe name q →
      (∃ b, (q, b) ∈ ys ∧ b.name = name ∧ b.publishers = 0 ∧ b.subscribers = 0) ∧
        ∀ u, s.stages u ≠ .departed q) :
    Guarded (advance s w (.ok (table, y, reply))) ys := by
  have hlock := h.holder w hx
  refine h.moved rfl (Stage.holds_of_inside hx) (Stage.holds_of_inside hy) hs hb hm hk
    (fun v hv => ?_) (fun v pipe name q hv => ?_) rfl
  · by_cases hvw : v = w
    · rw [hvw]
      exact hlock
    · rw [advance_stages, Function.update_of_ne hvw] at hv
      exact h.holder v hv
  · rcases update_cases hv with ⟨rfl, he⟩ | ⟨hvw, hv⟩
    · exact hr pipe name q he
    · -- nobody else is inside
      have hv' := h.holder v (by rw [hv]; rfl)
      rw [hlock] at hv'
      exact absurd (Option.some.inj hv').symm hvw

lemma booked_same (h : Guarded s xs) (he : y.phase = (s.stages w).phase) :
    Booked (Function.update (Stage.phase ∘ s.stages) w y.phase) xs := by
  rw [he]
  show Booked (Function.update (Stage.phase ∘ s.stages) w ((Stage.phase ∘ s.stages) w)) xs
  rw [Function.update_eq_self]
  exact h.booked

omit [DecidableEq W] in
lemma halt (h : Guarded s xs) : Guarded { s with fault := some .noMemory } xs :=
  ⟨h.shelved, h.booked, h.mutexes, h.lingering, h.holder, h.removals, .inr rfl⟩

end Guarded

end MessageBroker.Mbroker
