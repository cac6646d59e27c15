import MessageBroker.Lib.Buffer

namespace MessageBroker.Lib

structure Pipe where
  bytes : List UInt8
  -- somebody has it open for reading, for writing
  readable : Bool
  writable : Bool

namespace Pipe

def opened : Pipe := ⟨[], true, true⟩

/-- None while the call blocks; no bytes at the end of the file. -/
def read (n : ℕ) (p : Pipe) : Option (List UInt8 × Pipe) :=
  if p.bytes = [] ∧ p.writable = true then none
  else some (p.bytes.take n, { p with bytes := p.bytes.drop n })

/-- None where the call fails for want of a reader. -/
def write (p : Pipe) (xs : List UInt8) : Option Pipe :=
  if p.readable = true then some { p with bytes := p.bytes ++ xs } else none

end Pipe

variable {n : ℕ} {p q : Pipe} {records : List (List UInt8)} {r got : List UInt8}

structure Carries (n : ℕ) (p : Pipe) (records : List (List UInt8)) : Prop where
  width : ∀ r ∈ records, r.length = n
  bytes : p.bytes = records.flatten

namespace Carries

lemma opened : Carries n Pipe.opened [] := ⟨by simp, rfl⟩

lemma ends (h : Carries n p records) (readable writable : Bool) :
    Carries n { p with readable := readable, writable := writable } records := ⟨h.1, h.2⟩

lemma write (h : Carries n p records) (hr : r.length = n) (hw : p.write r = some q) :
    Carries n q (records ++ [r]) := by
  simp only [Pipe.write, Option.ite_none_right_eq_some, Option.some.injEq] at hw
  obtain ⟨-, rfl⟩ := hw
  constructor
  · intro r' hr'
    rcases List.mem_append.mp hr' with hr' | hr'
    · exact h.width r' hr'
    · exact List.mem_singleton.mp hr' ▸ hr
  · simp [h.bytes]

lemma read (h : Carries n p records) (hr : p.read n = some (got, q)) :
    (records = [] ∧ got = [] ∧ p.writable = false ∧ q = p) ∨
      ∃ rest, records = got :: rest ∧ Carries n q rest ∧
        q.readable = p.readable ∧ q.writable = p.writable := by
  simp only [Pipe.read, Option.ite_none_left_eq_some, Option.some.injEq, Prod.mk.injEq] at hr
  obtain ⟨hopen, rfl, rfl⟩ := hr
  cases records with
  | nil =>
    have hb : p.bytes = [] := h.bytes
    refine .inl ⟨rfl, by simp [hb], by simpa [hb] using hopen, ?_⟩
    cases p
    simp only at hb
    simp [hb]
  | cons r rest =>
    have hr : r.length = n := h.width r List.mem_cons_self
    have hb : p.bytes = r ++ rest.flatten := h.bytes
    refine .inr ⟨rest, ?_, ⟨fun r' hr' => h.width r' (List.mem_cons_of_mem _ hr'), ?_⟩, rfl, rfl⟩
    · rw [hb, ← hr, List.take_left]
    · simp only
      rw [hb, ← hr, List.drop_left]

lemma read_none (h : Carries n p records) (hn : 0 < n) (hr : p.read n = none) :
    records = [] ∧ p.writable = true := by
  simp only [Pipe.read, ite_eq_left_iff, reduceCtorEq, imp_false, not_not] at hr
  refine ⟨?_, hr.2⟩
  cases records with
  | nil => rfl
  | cons r rest =>
    have hlen := congrArg List.length (h.bytes.symm.trans hr.1)
    rw [List.flatten_cons, List.length_append, h.width r List.mem_cons_self,
      List.length_nil] at hlen
    omega

end Carries

end MessageBroker.Lib
