import MessageBroker.Mbroker.Exclusivity
import MessageBroker.Mbroker.Mutexes

namespace MessageBroker.Mbroker

open MessageBroker.Lib MessageBroker.Protocol

section Tables

variable {t t' : Table} {h : Heap MessageBox} {name : BoxName} {p : ℕ}
  {f : MessageBox → MessageBox}

def Table.unlocked (t : Table) : Table :=
  { t with heap := t.heap.mapValues MessageBox.unlock }

end Tables

variable {W : Type}

/-- What is left of a state when no one looks at the mutexes. -/
def LockBroker.flatten (s : LockBroker W) : Broker W where
  table := s.table.unlocked
  workers := fun w => (s.stages w).phase
  fault := s.fault
  replies := s.replies

section Steps

variable [DecidableEq W] {s t : LockBroker W} {xs : List (ℕ × MessageBox)} {w : W} {p : ℕ}
  {x y : Stage} {f : MessageBox → MessageBox}

lemma flatten_turn (hs : t.stages = Function.update s.stages w y)
    (hy : y.phase = (s.stages w).phase) (ht : t.table.unlocked = s.table.unlocked)
    (hf : t.fault = s.fault) (hr : t.replies = s.replies) : t.flatten = s.flatten := by
  have hworkers : (fun v => (t.stages v).phase) = fun v => (s.stages v).phase := by
    funext v
    rw [hs]
    by_cases hv : v = w
    · rw [hv, Function.update_self, hy]
    · rw [Function.update_of_ne hv]
  rw [LockBroker.flatten, LockBroker.flatten, ht, hworkers, hf, hr]

variable [Fintype W]

omit [Fintype W] in
lemma flatten_step (hf : s.fault = none) {phase : WorkerPhase} (hp : (s.stages w).phase = phase)
    {ev : BrokerEvent W} (hev : brokerStep s.flatten ev =
      if s.flatten.fault ≠ none then none else workerStep s.flatten w (s.flatten.workers w) ev) :
    brokerStep s.flatten ev = workerStep s.flatten w phase ev := by
  have hrun : ¬ s.flatten.fault ≠ none := not_not.mpr hf
  rw [hev, if_neg hrun]
  exact congrArg (fun phase => workerStep s.flatten w phase ev) hp

omit [Fintype W] in
lemma flatten_block (hf : s.fault = none) {request : Request}
    (hp : (s.stages w).phase = .handling request) {env : Env} (ha : env.admissible s.table.heap) :
    brokerStep s.flatten (.block w env) =
      some (settle s.flatten w (requestBlock s.table.unlocked env request)) := by
  have ha' : env.admissible s.flatten.table.heap :=
    fun q hq => Heap.mapValues_eq_none.mpr (ha q hq)
  rw [flatten_step hf hp rfl, workerStep, if_pos ha']
  rfl

end Steps

section Playing

variable [DecidableEq W] {s t : LockBroker W} {w : W} {p : ℕ} {x y : Stage}
  {f : MessageBox → MessageBox} {phase : WorkerPhase}

structure Resting (s : LockBroker W) : Prop where
  free : ∀ w, ∃ phase, s.stages w = .free phase
  unlocked : s.messagesLock = none

omit [DecidableEq W] in
lemma Resting.departed (h : Resting s) (w : W) (p : ℕ) : s.stages w ≠ .departed p := by
  obtain ⟨phase, hw⟩ := h.free w
  rw [hw]
  simp

lemma resting_turn (hs : ∀ v, v ≠ w → ∃ phase, s.stages v = .free phase)
    (ht : t.stages = Function.update s.stages w (.free phase)) (hl : t.messagesLock = none) :
    Resting t := by
  refine ⟨fun v => ?_, hl⟩
  rw [ht]
  by_cases hv : v = w
  · rw [hv, Function.update_self]
    exact ⟨phase, rfl⟩
  · rw [Function.update_of_ne hv]
    exact hs v hv

omit [DecidableEq W] in
lemma cleared_of_not_doomed {ev : LockEvent W} (hd : doomed s ev = none) : Cleared s ev := by
  intro box hb
  rw [hd] at hb
  cases hb

lemma reachable_step {ev : LockEvent W} (h : (lockBroker W).ReachableBy Cleared s)
    (hd : doomed s ev = none) (hst : lockStep s ev = some t) :
    (lockBroker W).ReachableBy Cleared t :=
  h.step (cleared_of_not_doomed hd) hst

lemma unlock_played (h : (lockBroker W).ReachableBy Cleared s) (hf : s.fault = none)
    (hw : s.stages w = .settled phase) (hothers : ∀ v, v ≠ w → ∃ phase, s.stages v = .free phase) :
    ∃ t, (lockBroker W).ReachableBy Cleared t ∧ Resting t ∧ t.flatten = s.flatten := by
  have hst : lockStep s (.unlockMessages w) = some { s with
      messagesLock := none
      stages := Function.update s.stages w (.free phase) } := by
    simp only [lockStep, hf, ne_eq, not_true_eq_false, if_false, messagesStep, hw]
  refine ⟨_, reachable_step h rfl hst, resting_turn (s := s) hothers rfl rfl, ?_⟩
  exact flatten_turn (w := w) rfl (by rw [hw]; rfl) rfl rfl rfl

structure Entered (s t : LockBroker W) (w : W) (request : Request) : Prop where
  reachable : (lockBroker W).ReachableBy Cleared t
  running : t.fault = none
  stage : t.stages w = .entered request
  others : ∀ v, v ≠ w → ∃ phase, t.stages v = .free phase
  table : t.table = s.table
  flatten : t.flatten = s.flatten

namespace Entered

variable {request : Request} {env : Env}

lemma cleared (h : Entered s t w request) : Cleared t (.body w env) := by
  intro box _ v hv
  by_cases hvw : v = w
  · rw [hvw, h.stage] at hv
    cases hv
  · obtain ⟨phase, hfree⟩ := h.others v hvw
    rw [hfree] at hv
    cases hv

lemma body (h : Entered s t w request) (ha : env.admissible s.table.heap) :
    lockStep t (.body w env) = some (advance t w (requestBody t.table env request)) := by
  rw [← h.table] at ha
  simp only [lockStep, h.running, ne_eq, not_true_eq_false, if_false, messagesStep, h.stage, ha,
    if_true]

lemma block (h : Entered s t w request) (ha : env.admissible s.table.heap) :
    brokerStep t.flatten (.block w env) =
      some (settle s.flatten w (requestBlock s.flatten.table env request)) := by
  rw [← h.table] at ha
  rw [flatten_block h.running (by rw [h.stage]; rfl) ha, ← h.flatten]
  rfl

lemma settled (h : Entered s t w request) {table : Table} {reply : Option Reply}
    (hr : (lockBroker W).ReachableBy Cleared (advance t w (.ok (table, .settled phase, reply)))) :
    ∃ u, (lockBroker W).ReachableBy Cleared u ∧ Resting u ∧
      u.flatten = (advance t w (.ok (table, .settled phase, reply))).flatten := by
  have hw : (advance t w (.ok (table, .settled phase, reply))).stages w = .settled phase := by
    rw [advance_stages, Function.update_self]
  refine unlock_played hr h.running hw (fun v hv => ?_)
  rw [advance_stages, Function.update_of_ne hv]
  exact h.others v hv

end Entered

variable [Fintype W]

end Playing

end MessageBroker.Mbroker
