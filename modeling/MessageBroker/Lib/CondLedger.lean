import Mathlib.Tactic

/-! The account of one condition variable whose waiters each take a unit, and whose
signals are each sent after a unit has been supplied. -/

namespace MessageBroker.Lib

structure Ledger where
  free : ℕ
  awake : ℕ
  asleep : ℕ
  due : ℕ

namespace Ledger

inductive Kind
  | call
  | take
  | wait
  | supply
  | signal
  | idle
  deriving DecidableEq

def Move (l : Ledger) : Kind → Ledger → Prop
  | .call, l' => l'.free = l.free ∧ l'.awake = l.awake + 1 ∧ l'.asleep = l.asleep ∧ l'.due = l.due
  | .take, l' => l'.free + 1 = l.free ∧ l'.awake + 1 = l.awake ∧ l'.asleep = l.asleep ∧
      l'.due = l.due
  | .wait, l' => l'.free = l.free ∧ l'.awake + 1 = l.awake ∧ l'.asleep = l.asleep + 1 ∧
      l'.due = l.due
  | .supply, l' => l'.free = l.free + 1 ∧ l'.awake = l.awake ∧ l'.asleep = l.asleep ∧
      l'.due = l.due + 1
  | .signal, l' => l'.free = l.free ∧ l'.due + 1 = l.due ∧
      l'.awake + l'.asleep = l.awake + l.asleep ∧
      (l'.asleep + 1 = l.asleep ∨ l.asleep = 0 ∧ l'.asleep = 0)
  | .idle, l' => l'.free = l.free ∧ l'.awake = l.awake ∧ l'.asleep = l.asleep ∧ l'.due = l.due

/-- Every sleeper is owed a signal, or every free unit is awaited by a thread that is awake
or by one that a signal will wake. -/
def Kept (l : Ledger) : Prop := l.asleep ≤ l.due ∨ l.free ≤ l.awake + l.due

def MayWait (l : Ledger) : Prop := l.asleep + 1 ≤ l.due ∨ l.free + 1 ≤ l.awake + l.due

instance (l : Ledger) : Decidable l.MayWait := by unfold MayWait; infer_instance

variable {l l' : Ledger} {k : Kind}

lemma wait_kept_iff (h : l.Move .wait l') : l'.Kept ↔ l.MayWait := by
  simp only [Move, Kept, MayWait] at *
  omega

lemma Kept.move (hl : l.Kept) (h : l.Move k l') (hw : k = .wait → l.MayWait) : l'.Kept := by
  cases k with
  | wait => exact (wait_kept_iff h).mpr (hw rfl)
  | call | take | supply | signal | idle =>
    simp only [Move, Kept] at *
    omega

lemma not_kept_move (hl : ¬ l.Kept) (h : l.Move k l') (hc : k ≠ .call) (hs : k ≠ .supply) :
    ¬ l'.Kept := by
  cases k with
  | call => exact (hc rfl).elim
  | supply => exact (hs rfl).elim
  | take | wait | signal | idle =>
    simp only [Move, Kept] at *
    omega

lemma nobody_move (h : l.Move k l') (hc : k ≠ .call) (hn : l.awake + l.asleep = 0) :
    l'.awake + l'.asleep = 0 := by
  cases k with
  | call => exact (hc rfl).elim
  | take | wait | supply | signal | idle =>
    simp only [Move] at h
    omega

lemma kept_at_rest (ha : l.awake = 0) (hd : l.due = 0) : l.Kept ↔ l.asleep = 0 ∨ l.free = 0 := by
  simp only [Kept, ha, hd]
  omega

end Ledger

end MessageBroker.Lib
