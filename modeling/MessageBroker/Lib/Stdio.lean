import Mathlib.Data.List.DropRight
import MessageBroker.Lib.CString

/-! Input streams of stdio and fgets, one character at a time as the C standard has it. -/

namespace MessageBroker.Lib

variable {n : ℕ} {s line rest : List UInt8}

def newline : UInt8 := 10

structure Stream where
  rest : List UInt8
  -- the end-of-file indicator
  eof : Bool

/-- The characters taken, those left, and whether the end was met. -/
def getLine : ℕ → List UInt8 → List UInt8 × List UInt8 × Bool
  | 0, s => ([], s, false)
  | _ + 1, [] => ([], [], true)
  | n + 1, c :: s =>
    if c = newline then ([c], s, false)
    else (c :: (getLine n s).1, (getLine n s).2)

/-- `fgets(mem + off, n, stream)`; false stands for NULL. -/
def fgets (mem : List UInt8) (off n : ℕ) (stream : Stream) : Bool × List UInt8 × Stream :=
  if stream.eof then (false, mem, stream)
  else
    let (line, rest, eof) := getLine (n - 1) stream.rest
    if line = [] ∧ eof then (false, mem, ⟨rest, eof⟩)
    else (true, strcpy mem off line, ⟨rest, eof⟩)

def lastLine (s : List UInt8) : List UInt8 := s.rtakeWhile (fun c => c != newline)

inductive Cut (n : ℕ) : List UInt8 → List UInt8 → List UInt8 → Bool → Prop
  | ended {s : List UInt8} : newline ∉ s → s.length < n → Cut n s s [] true
  | behind {front rest : List UInt8} : newline ∉ front → front.length < n →
      Cut n (front ++ newline :: rest) (front ++ [newline]) rest false
  | full {line rest : List UInt8} : newline ∉ line → line.length = n →
      Cut n (line ++ rest) line rest false

lemma Cut.cons {c : UInt8} {eof : Bool} (h : Cut n s line rest eof) (hc : c ≠ newline) :
    Cut (n + 1) (c :: s) (c :: line) rest eof := by
  have hcons {xs : List UInt8} (hx : newline ∉ xs) : newline ∉ c :: xs := by
    simpa [hx] using hc.symm
  cases h with
  | ended hs hn => exact .ended (hcons hs) (Nat.succ_lt_succ hn)
  | @behind front rest hf hn =>
    show Cut (n + 1) ((c :: front) ++ newline :: rest) ((c :: front) ++ [newline]) rest false
    exact .behind (hcons hf) (Nat.succ_lt_succ hn)
  | @full line rest hl hn =>
    show Cut (n + 1) ((c :: line) ++ rest) (c :: line) rest false
    exact .full (hcons hl) (congrArg (· + 1) hn)

lemma getLine_cut (n : ℕ) (s : List UInt8) :
    Cut n s (getLine n s).1 (getLine n s).2.1 (getLine n s).2.2 := by
  induction n generalizing s with
  | zero =>
    show Cut 0 ([] ++ s) [] s false
    exact .full (by simp) rfl
  | succ n ih =>
    cases s with
    | nil => exact .ended (by simp) (Nat.succ_pos n)
    | cons c s =>
      rw [getLine]
      by_cases hc : c = newline
      · rw [if_pos hc, hc]
        show Cut (n + 1) ([] ++ newline :: s) ([] ++ [newline]) s false
        exact .behind (by simp) (Nat.succ_pos n)
      · rw [if_neg hc]
        exact (ih s).cons hc

lemma Cut.append {eof : Bool} (h : Cut n s line rest eof) : s = line ++ rest := by
  cases h with
  | ended => exact (List.append_nil _).symm
  | behind => rw [List.append_assoc, List.singleton_append]
  | full => rfl

lemma lastLine_eq_self (h : newline ∉ s) : lastLine s = s := by
  apply List.rtakeWhile_eq_self_iff.mpr
  intro c hc
  have hne : c ≠ newline := fun he => h (he ▸ hc)
  simpa using hne

lemma Cut.at_end (h : Cut n s line rest true) : rest = [] ∧ line = s := by
  cases h with
  | ended => exact ⟨rfl, rfl⟩

lemma Cut.lastLine_at_end (h : Cut n s line rest true) : lastLine s = s ∧ s.length < n := by
  cases h with
  | ended hs hn => exact ⟨lastLine_eq_self hs, hn⟩

lemma Cut.length_le {eof : Bool} (h : Cut n s line rest eof) : line.length ≤ n := by
  cases h with
  | ended _ hn => exact hn.le
  | behind _ hn =>
    rw [List.length_append, List.length_singleton]
    exact hn
  | full _ hn => exact hn.le

lemma Cut.ne_nil (h : Cut n s line rest false) (hn : 0 < n) : line ≠ [] := by
  cases h with
  | behind => simp
  | full _ hlen => exact List.ne_nil_of_length_pos (hlen ▸ hn)

lemma fgets_cases {stream : Stream} (h : stream.eof = false) (mem : List UInt8) (off n : ℕ) :
    (∃ read mem', fgets mem off n stream = (read, mem', ⟨[], true⟩) ∧
        Cut (n - 1) stream.rest stream.rest [] true) ∨
      ∃ line rest, fgets mem off n stream = (true, strcpy mem off line, ⟨rest, false⟩) ∧
        Cut (n - 1) stream.rest line rest false := by
  have hcut := getLine_cut (n - 1) stream.rest
  rw [fgets, h]
  generalize getLine (n - 1) stream.rest = taken at hcut ⊢
  obtain ⟨line, rest, eof⟩ := taken
  cases eof with
  | false =>
    refine .inr ⟨line, rest, ?_, hcut⟩
    simp
  | true =>
    obtain ⟨rfl, rfl⟩ : rest = [] ∧ line = stream.rest := hcut.at_end
    left
    by_cases hnil : stream.rest = []
    · exact ⟨false, mem, by simp [hnil], hcut⟩
    · exact ⟨true, strcpy mem off stream.rest, by simp [hnil], hcut⟩

lemma lastLine_append_of_mem (h : newline ∈ rest) : lastLine (line ++ rest) = lastLine rest := by
  induction rest using List.reverseRecOn with
  | nil => cases h
  | append_singleton rest c ih =>
    rw [← List.append_assoc, lastLine, List.rtakeWhile_concat, lastLine, List.rtakeWhile_concat]
    by_cases hc : c = newline
    · simp [hc]
    · have hmem : newline ∈ rest := by
        rcases List.mem_append.mp h with hmem | hmem
        · exact hmem
        · exact (hc (List.mem_singleton.mp hmem).symm).elim
      exact congrArg (fun xs => if (c != newline) = true then xs ++ [c] else []) (ih hmem)

lemma lastLine_concat_newline : lastLine (line ++ newline :: rest) = lastLine rest := by
  induction rest using List.reverseRecOn with
  | nil => exact List.rtakeWhile_concat_neg _ _ _ (by simp)
  | append_singleton rest c ih =>
    have hassoc : line ++ newline :: (rest ++ [c]) = (line ++ newline :: rest) ++ [c] := by simp
    rw [hassoc, lastLine, List.rtakeWhile_concat, lastLine, List.rtakeWhile_concat]
    exact congrArg (fun xs => if (c != newline) = true then xs ++ [c] else []) ih

lemma Cut.lastLine_modEq (h : Cut n s line rest false) :
    (lastLine s).length ≡ (lastLine rest).length [MOD n] := by
  cases h with
  | behind => rw [lastLine_concat_newline]
  | full hl hn =>
    by_cases hmem : newline ∈ rest
    · rw [lastLine_append_of_mem hmem]
    · have hall : newline ∉ line ++ rest := by simp [hl, hmem]
      rw [lastLine_eq_self hall, lastLine_eq_self hmem, List.length_append, hn]
      exact Nat.add_modEq_left

end MessageBroker.Lib
