import MessageBroker.Mbroker.Removal

namespace MessageBroker.Mbroker

open MessageBroker.Lib MessageBroker.Protocol

inductive Mutex
  | messages
  | box (msg : ℕ)
  deriving DecidableEq

namespace Stage

def owns (stage : Stage) : Option Mutex :=
  if stage.inside then some .messages else stage.holds.map Mutex.box

def stepsLeft : Stage → ℕ
  | .entered _ => 3
  | .removing _ _ _ | .growing _ _ _ | .checking _ _ | .unpublishing _ _ _
  | .unsubscribing _ _ => 2
  | .settled _ | .grown _ _ _ | .checked _ _ | .departed _ => 1
  | .free _ | .asleep _ _ => 0

variable {stage : Stage} {p : ℕ}

lemma stepsLeft_eq_zero : stage.stepsLeft = 0 ↔ stage.owns = none := by
  cases stage <;> simp [stepsLeft, owns, inside, holds]

end Stage

variable {W : Type}

def LockEvent.worker : LockEvent W → W
  | .accept w _ _ | .lockMessages w | .body w _ | .removeBox w | .unlockMessages w | .reply w
  | .lockWait w | .grow w | .check w _ | .wake w | .leave w | .drop w | .unlockWait w => w

inductive Turn (w : W) (lock lock' : Option W) : Stage → Stage → Prop
  | takeMessages {request} : lock = none → lock' = some w →
      Turn w lock lock' (.free (.handling request)) (.entered request)
  | inside {x y} : x.inside = true → y.inside = true → y.stepsLeft < x.stepsLeft →
      lock' = lock → Turn w lock lock' x y
  | giveMessages {phase} : lock' = none → Turn w lock lock' (.settled phase) (.free phase)
  -- nothing is written to the descriptor of a failed open
  | takeBox {x y p} : x.owns = none → y.owns = some (.box p) → (∀ q k, y ≠ .growing q k (-1)) →
      lock' = lock → Turn w lock lock' x y
  | within {x y p} : x.owns = some (.box p) → y.inside = false → y.stepsLeft < x.stepsLeft →
      lock' = lock → Turn w lock lock' x y
  | outside {x y} : x.owns = none → y.owns = none → lock' = lock → Turn w lock lock' x y

section Turns

variable [DecidableEq W] {s t : LockBroker W} {w : W} {p : ℕ} {y : Stage} {ev : LockEvent W}

end Turns

lemma Turn.stepsLeft {w : W} {lock lock' : Option W} {x y : Stage} (h : Turn w lock lock' x y)
    (hx : 0 < x.stepsLeft) : y.stepsLeft < x.stepsLeft := by
  cases h with
  | takeMessages => exact absurd hx (lt_irrefl 0)
  | giveMessages => exact Nat.one_pos
  | inside _ _ hlt | within _ _ hlt => exact hlt
  | takeBox hn | outside hn =>
    rw [Stage.stepsLeft_eq_zero.mpr hn] at hx
    exact absurd hx (lt_irrefl 0)

lemma Turn.growing {w : W} {lock lock' : Option W} {x y : Stage} (h : Turn w lock lock' x y)
    {p k : ℕ} : y ≠ .growing p k (-1) := by
  rintro rfl
  cases h with
  | inside _ hy => cases hy
  | takeBox _ _ hfd => exact hfd p k rfl
  | within hx _ hlt =>
    cases x <;> simp [Stage.owns, Stage.inside, Stage.holds, Stage.stepsLeft] at hx hlt
  | outside _ hy => cases hy

section Discipline

variable [DecidableEq W] {s t : LockBroker W} {ev : LockEvent W}

inductive Asks (s : LockBroker W) (w : W) (ev : LockEvent W) : Mutex → Prop
  | messages {request} : s.stages w = .free (.handling request) → ev = .lockMessages w →
      Asks s w ev .messages
  | box {p y} : (s.stages w).owns = none → (s.stages w).uses = some p →
      (s.fault = none → lockStep s ev = lockBox s w p y) → Asks s w ev (.box p)

variable [Fintype W] {xs : List (ℕ × MessageBox)}

end Discipline

end MessageBroker.Mbroker
