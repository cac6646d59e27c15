import MessageBroker.Lib.TransitionSystem
import Mathlib.Algebra.BigOperators.Group.Finset.Basic

namespace MessageBroker.Lib

variable {R W : Type*}

structure Dispatcher (R W : Type*) where
  posted : List R
  taken : ℕ
  serving : W → Option R
  -- history: the requests finished, each with its server
  served : List (W × R)

inductive DispatchEvent (R W : Type*)
  | post (r : R)
  | take (w : W)
  | finish (w : W)

variable [DecidableEq W]

def dispatchStep (s : Dispatcher R W) : DispatchEvent R W → Option (Dispatcher R W)
  | .post r => some { s with posted := s.posted ++ [r] }
  | .take w =>
    match s.serving w, s.posted[s.taken]? with
    | none, some r => some { s with
        taken := s.taken + 1
        serving := Function.update s.serving w (some r) }
    | _, _ => none
  | .finish w =>
    match s.serving w with
    | some r => some { s with
        serving := Function.update s.serving w none
        served := s.served ++ [(w, r)] }
    | none => none

def dispatcher (R W : Type*) [DecidableEq W] : System (Dispatcher R W) (DispatchEvent R W) where
  init := ⟨[], 0, fun _ => none, []⟩
  step := dispatchStep

def givenTo (s : Dispatcher R W) (w : W) : List R :=
  (s.served.filter fun x => x.1 = w).map Prod.snd ++ (s.serving w).toList

def inService [Fintype W] (s : Dispatcher R W) : Multiset R :=
  ∑ w, ((s.serving w).toList : Multiset R)

structure Dealt [Fintype W] (s : Dispatcher R W) : Prop where
  bound : s.taken ≤ s.posted.length
  once : (s.posted.take s.taken : Multiset R) = (s.served.map Prod.snd : Multiset R) + inService s
  inOrder : ∀ w, (givenTo s w).Sublist (s.posted.take s.taken)

variable [Fintype W] {s t : Dispatcher R W} {ev : DispatchEvent R W} {w : W} {r : R}

lemma sum_update (g : W → Option R) (w : W) (x : Option R) :
    ∑ v, ((Function.update g w x v).toList : Multiset R) + ((g w).toList : Multiset R) =
      ∑ v, ((g v).toList : Multiset R) + (x.toList : Multiset R) := by
  rw [← Finset.add_sum_erase _ _ (Finset.mem_univ w),
    ← Finset.add_sum_erase _ (fun v => ((g v).toList : Multiset R)) (Finset.mem_univ w),
    Function.update_self]
  have hrest : ∑ v ∈ Finset.univ.erase w, ((Function.update g w x v).toList : Multiset R) =
      ∑ v ∈ Finset.univ.erase w, ((g v).toList : Multiset R) := by
    apply Finset.sum_congr rfl
    intro v hv
    rw [Function.update_of_ne (Finset.ne_of_mem_erase hv)]
  rw [hrest]
  abel

lemma dealt_step (h : Dealt s) (hs : dispatchStep s ev = some t) : Dealt t := by
  obtain ⟨hbound, honce, horder⟩ := h
  cases ev with
  | post r =>
    cases hs
    have htake : (s.posted ++ [r]).take s.taken = s.posted.take s.taken :=
      List.take_append_of_le_length hbound
    refine ⟨?_, ?_, fun w => ?_⟩
    · dsimp only
      rw [List.length_append]
      omega
    · dsimp only
      rw [htake]
      exact honce
    · dsimp only
      rw [htake]
      exact horder w
  | take w =>
    simp only [dispatchStep] at hs
    split at hs
    · rename_i r hidle hnext
      cases hs
      have hlt : s.taken < s.posted.length := (List.getElem?_eq_some_iff.mp hnext).1
      have htake : s.posted.take (s.taken + 1) = s.posted.take s.taken ++ [r] := by
        rw [List.take_add_one, hnext]
        rfl
      refine ⟨hlt, ?_, fun v => ?_⟩
      · dsimp only
        have hsum := sum_update s.serving w (some r)
        rw [hidle, Option.toList_none, Multiset.coe_nil, add_zero] at hsum
        rw [htake, ← Multiset.coe_add, honce, inService, inService, hsum, add_assoc]
        rfl
      · dsimp only
        rw [htake]
        by_cases hv : v = w
        · subst hv
          have hgiven := horder v
          rw [givenTo, hidle, Option.toList_none, List.append_nil] at hgiven
          rw [givenTo]
          simp only [Function.update_self, Option.toList_some]
          exact hgiven.append (List.Sublist.refl _)
        · have hsame : givenTo { s with
              taken := s.taken + 1
              serving := Function.update s.serving w (some r) } v = givenTo s v := by
            simp only [givenTo, Function.update_of_ne hv]
          rw [hsame]
          exact (horder v).trans (List.sublist_append_left _ _)
    · cases hs
  | finish w =>
    simp only [dispatchStep] at hs
    split at hs
    · rename_i r hbusy
      cases hs
      refine ⟨hbound, ?_, fun v => ?_⟩
      · dsimp only
        have hsum := sum_update s.serving w none
        rw [hbusy, Option.toList_none, Multiset.coe_nil, add_zero] at hsum
        rw [honce, inService, inService, List.map_append, ← Multiset.coe_add, ← hsum]
        simp only [Option.toList_some, List.map_cons, List.map_nil]
        abel
      · have hsame : givenTo { s with
            serving := Function.update s.serving w none
            served := s.served ++ [(w, r)] } v = givenTo s v := by
          by_cases hv : v = w
          · subst hv
            simp [givenTo, hbusy]
          · have hne : ¬ w = v := fun he => hv he.symm
            simp [givenTo, Function.update_of_ne hv, hne]
        rw [hsame]
        exact horder v
    · cases hs

lemma reachable_dealt (h : (dispatcher R W).Reachable s) : Dealt s := by
  refine h.invariant ⟨Nat.zero_le _, ?_, fun w => List.nil_sublist _⟩ (fun _ _ _ => dealt_step)
  have hnone : inService (dispatcher R W).init = 0 := Finset.sum_eq_zero (fun _ _ => rfl)
  rw [hnone]
  rfl

end MessageBroker.Lib
