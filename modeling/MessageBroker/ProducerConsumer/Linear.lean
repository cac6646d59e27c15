import MessageBroker.Lib.Linearizable
import MessageBroker.ProducerConsumer.HandOver

namespace MessageBroker.ProducerConsumer

open MessageBroker.Lib

variable {E P C : Type} {n : ℕ}

inductive QueueOp (E : Type)
  | enqueue (e : E)
  | dequeue

inductive QueueResult (E : Type)
  | stored
  | returned (data : Cell E)

abbrev CallId (P C : Type) := (P ⊕ C) × ℕ

structure Calling (E P C : Type) where
  state : State E P C
  -- history: how many calls of a thread have returned, and all calls and returns
  returns : P ⊕ C → ℕ
  trace : List (Visible (CallId P C) (QueueOp E) (QueueResult E) Empty)

variable [DecidableEq P] [DecidableEq C]

def Calling.begin (s : Calling E P C) (t : State E P C) (i : P ⊕ C) (k : QueueOp E) :
    Calling E P C :=
  { s with
    state := t
    trace := s.trace ++ [.call (i, s.returns i) k] }

def Calling.finish (s : Calling E P C) (t : State E P C) (i : P ⊕ C) (r : QueueResult E) :
    Calling E P C where
  state := t
  returns := Function.update s.returns i (s.returns i + 1)
  trace := s.trace ++ [.answer (i, s.returns i) r]

def callingStep (s : Calling E P C) (b : Block E P C) : Option (Calling E P C) :=
  (blockStep s.state b).map fun t =>
    match b with
    | .enqueueCall p e => s.begin t (.inl p) (.enqueue e)
    | .enqueueTransfer p => s.finish t (.inl p) .stored
    | .dequeueCall c => s.begin t (.inr c) .dequeue
    | .dequeueTransfer c => s.finish t (.inr c) (.returned s.state.queue.dequeueData)
    | .enqueueReserve _ | .dequeueReserve _ => { s with state := t }

def calling (E P C : Type) [DecidableEq P] [DecidableEq C] (n : ℕ) :
    System (Calling E P C) (Block E P C) where
  init := ⟨(blocks E P C n).init, fun _ => 0, []⟩
  step := callingStep

def serve (n : ℕ) (xs : List E) : QueueOp E → Option (List E × QueueResult E)
  | .enqueue e => if xs.length < n then some (xs ++ [e], .stored) else none
  | .dequeue =>
    match xs with
    | x :: rest => some (rest, .returned (.elem x))
    | [] => none

def bounded (E : Type) (n : ℕ) : Object (List E) (QueueOp E) (QueueResult E) Empty where
  start := []
  effect := serve n
  act _ o := o.elim

def Producer.call : Producer E → Call (QueueOp E) (QueueResult E)
  | .outside => .idle
  | .reserving e | .storing e => .called (.enqueue e)

def Consumer.call (E : Type) : Consumer → Call (QueueOp E) (QueueResult E)
  | .outside => .idle
  | .reserving | .taking => .called .dequeue

def callOf (s : State E P C) : P ⊕ C → Call (QueueOp E) (QueueResult E)
  | .inl p => (s.producers p).call
  | .inr c => (s.consumers c).call E

def contents (s : State E P C) : List E := s.stored.drop s.returned.length

structure Mirrors (s : Calling E P C)
    (d : Shared (CallId P C) (List E) (QueueOp E) (QueueResult E) Empty) : Prop where
  state : d.state = contents s.state
  follows : Follows s.returns s.trace (callOf s.state) d

section Steps

variable {s t : Calling E P C} {d : Shared (CallId P C) (List E) (QueueOp E) (QueueResult E) Empty}
  {q : State E P C} {i : P ⊕ C} {k : QueueOp E}

lemma callOf_update {c : Call (QueueOp E) (QueueResult E)} (hq : callOf q i = c)
    (hother : ∀ j, j ≠ i → callOf q j = callOf s.state j) :
    callOf q = Function.update (callOf s.state) i c := by
  funext j
  by_cases hj : j = i
  · rw [hj, Function.update_self, hq]
  · rw [Function.update_of_ne hj, hother j hj]

lemma Mirrors.begin (h : Mirrors s d) (hi : callOf s.state i = .idle)
    (hq : callOf q i = .called k) (hother : ∀ j, j ≠ i → callOf q j = callOf s.state j)
    (hc : contents q = contents s.state) :
    ∃ d', (shared (CallId P C) (bounded E n)).run d [.call (i, s.returns i) k] = some d' ∧
      Mirrors (s.begin q i k) d' := by
  obtain ⟨d', hd, hstate, hf⟩ := h.follows.call (bounded E n) hi k
  refine ⟨d', by rw [System.run_cons, hd]; rfl, hstate.trans (h.state.trans hc.symm), ?_⟩
  rw [← callOf_update hq hother] at hf
  exact hf

omit [DecidableEq P] [DecidableEq C] in
lemma Mirrors.reserve (h : Mirrors s d) (hq : ∀ i, callOf q i = callOf s.state i)
    (hc : contents q = contents s.state) : Mirrors { s with state := q } d := by
  refine ⟨h.state.trans hc.symm, ?_⟩
  rw [show callOf q = callOf s.state from funext hq]
  exact h.follows

lemma Mirrors.finish (h : Mirrors s d) (hi : callOf s.state i = .called k)
    {r : QueueResult E} (hp : serve n (contents s.state) k = some (contents q, r))
    (hq : callOf q i = .idle) (hother : ∀ j, j ≠ i → callOf q j = callOf s.state j) :
    ∃ d', (shared (CallId P C) (bounded E n)).run d
        [.perform (i, s.returns i), .answer (i, s.returns i)] = some d' ∧
      Mirrors (s.finish q i r) d' := by
  rw [← h.state] at hp
  obtain ⟨e, he, hstate, hf⟩ := h.follows.perform (O := bounded E n) hi hp
  obtain ⟨d', hd, hstate', hf'⟩ := hf.answer (bounded E n) (Function.update_self _ _ _)
  refine ⟨d', by rw [System.run_cons, he, Option.bind_some, System.run_cons, hd]; rfl,
    hstate'.trans hstate, ?_⟩
  rw [Function.update_idem, ← callOf_update hq hother] at hf'
  exact hf'

end Steps

section Simulation

variable [Fintype P] [Fintype C] {s t : Calling E P C}
  {d : Shared (CallId P C) (List E) (QueueOp E) (QueueResult E) Empty}

omit [Fintype P] [Fintype C] in
lemma mirrors_init : Mirrors (calling E P C n).init (shared (CallId P C) (bounded E n)).init := by
  refine ⟨rfl, ?_⟩
  rw [show callOf (calling E P C n).init.state = fun _ => .idle from
    funext (fun i => by cases i <;> rfl)]
  exact .init

lemma mirrors_step {b : Block E P C} (hn : 0 < n) (ho : Orderly n s.state)
    (ht : Timely s.state b) (h : Mirrors s d) (hs : callingStep s b = some t) :
    Orderly n t.state ∧ ∃ evs d', (shared (CallId P C) (bounded E n)).run d evs = some d' ∧
      Mirrors t d' := by
  obtain ⟨q, hq, rfl⟩ := Option.map_eq_some_iff.mp hs
  have ho' := timely_step hn ho ht hq
  cases b with
  | enqueueCall p e =>
    refine ⟨ho', [.call (.inl p, s.returns (.inl p)) (.enqueue e)], ?_⟩
    obtain ⟨hp, rfl⟩ := enqueueCall_step hq
    refine h.begin ?_ ?_ ?_ rfl
    · rw [callOf, hp]
      rfl
    · simp [callOf, Producer.call]
    · rintro (p' | c) hj
      · have hne : p' ≠ p := fun he => hj (by rw [he])
        simp [callOf, Function.update_of_ne hne]
      · rfl
  | enqueueReserve p =>
    refine ⟨ho', [], d, rfl, ?_⟩
    obtain ⟨e, hp, -, rfl⟩ := enqueueReserve_step hq
    refine h.reserve ?_ rfl
    rintro (p' | c)
    · by_cases he : p' = p
      · subst he
        simp [callOf, hp, Producer.call]
      · simp [callOf, Function.update_of_ne he]
    · rfl
  | enqueueTransfer p =>
    refine ⟨ho', [.perform (.inl p, s.returns (.inl p)), .answer (.inl p, s.returns (.inl p))], ?_⟩
    obtain ⟨e, hp, rfl⟩ := enqueueTransfer_step hq
    have hroom : s.state.stored.length < s.state.returned.length + n := by
      have hpos : 0 < pendingStores s.state := tally_pos.mpr ⟨p, by rw [hp]; rfl⟩
      have hstores := ho.backed.stores
      omega
    have hbelow := ho.window.below
    refine h.finish (k := .enqueue e) ?_ ?_ ?_ ?_
    · rw [callOf, hp]
      rfl
    · rw [serve, if_pos]
      · simp only [contents]
        rw [List.drop_append_of_le_length hbelow]
      · rw [contents, List.length_drop]
        omega
    · simp [callOf, Producer.call]
    · rintro (p' | c) hj
      · have hne : p' ≠ p := fun he => hj (by rw [he])
        simp [callOf, Function.update_of_ne hne]
      · rfl
  | dequeueCall c =>
    refine ⟨ho', [.call (.inr c, s.returns (.inr c)) .dequeue], ?_⟩
    obtain ⟨hc, rfl⟩ := dequeueCall_step hq
    refine h.begin ?_ ?_ ?_ rfl
    · rw [callOf, hc]
      rfl
    · simp [callOf, Consumer.call]
    · rintro (p | c') hj
      · rfl
      · have hne : c' ≠ c := fun he => hj (by rw [he])
        simp [callOf, Function.update_of_ne hne]
  | dequeueReserve c =>
    refine ⟨ho', [], d, rfl, ?_⟩
    obtain ⟨hc, -, rfl⟩ := dequeueReserve_step hq
    refine h.reserve ?_ rfl
    rintro (p | c')
    · rfl
    · by_cases he : c' = c
      · subst he
        simp [callOf, hc, Consumer.call]
      · simp [callOf, Function.update_of_ne he]
  | dequeueTransfer c =>
    refine ⟨ho', [.perform (.inr c, s.returns (.inr c)), .answer (.inr c, s.returns (.inr c))], ?_⟩
    obtain ⟨hc, rfl⟩ := dequeueTransfer_step hq
    have hfull : s.state.returned.length < s.state.stored.length := by
      have hpos : 0 < pendingTakes s.state := tally_pos.mpr ⟨c, by rw [hc]; rfl⟩
      have htakes := ho.backed.takes
      omega
    -- the slot at tail is the oldest element
    have hdata : s.state.queue.dequeueData = .elem s.state.stored[s.state.returned.length] := by
      have hocc := ho.window.occupied _ _ le_rfl (List.getElem?_eq_getElem hfull)
      simp [PcQueue.dequeueData, List.getD, ho.accounting.tail, hocc]
    refine h.finish (k := .dequeue) ?_ ?_ ?_ ?_
    · rw [callOf, hc]
      rfl
    · rw [contents, List.drop_eq_getElem_cons hfull, hdata]
      simp [serve, contents]
    · simp [callOf, Consumer.call]
    · rintro (p | c') hj
      · rfl
      · have hne : c' ≠ c := fun he => hj (by rw [he])
        simp [callOf, Function.update_of_ne hne]

def CallingTimely (s : Calling E P C) (b : Block E P C) : Prop := Timely s.state b

instance (s : Calling E P C) (b : Block E P C) : Decidable (CallingTimely s b) :=
  inferInstanceAs (Decidable (Timely s.state b))

theorem queue_linearizes (hn : 0 < n) (h : (calling E P C n).ReachableBy CallingTimely s) :
    ∃ d, (shared (CallId P C) (bounded E n)).Reachable d ∧ Linearized (bounded E n) d ∧
      d.trace = s.trace ∧ d.state = elems (s.state.queue.buffer.rotate s.state.queue.tail) := by
  have hsim : Orderly n s.state ∧
      ∃ d, (shared (CallId P C) (bounded E n)).Reachable d ∧ Mirrors s d := by
    induction h with
    | init => exact ⟨orderly_initial, _, .init, mirrors_init⟩
    | step _ ht hst ih =>
      obtain ⟨ho, d, hd, hm⟩ := ih
      obtain ⟨ho', evs, d', hrun, hm'⟩ := mirrors_step hn ho ht hm hst
      exact ⟨ho', d', hd.run hrun, hm'⟩
  obtain ⟨ho, d, hd, hm⟩ := hsim
  refine ⟨d, hd, reachable_linearized hd, hm.follows.trace, ?_⟩
  rw [ho.accounting.tail, ← ho.accounting.length, List.rotate_mod,
    ho.window.contents ho.accounting.length]
  exact hm.state

theorem queue_linearizes_run :
    ∃ s, (calling ℕ (Fin 2) (Fin 2) 2).runIf CallingTimely (calling ℕ (Fin 2) (Fin 2) 2).init
        [.dequeueCall 1, .enqueueCall 0 7, .enqueueCall 1 8, .enqueueReserve 1, .enqueueTransfer 1,
          .enqueueReserve 0, .enqueueTransfer 0, .dequeueReserve 1, .dequeueTransfer 1] = some s ∧
      ∃ d, (shared (CallId (Fin 2) (Fin 2)) (bounded ℕ 2)).Reachable d ∧
        Linearized (bounded ℕ 2) d ∧ d.trace = s.trace ∧
        d.state = elems (s.state.queue.buffer.rotate s.state.queue.tail) := by
  obtain ⟨s, hs⟩ : ∃ s, (calling ℕ (Fin 2) (Fin 2) 2).runIf CallingTimely
      (calling ℕ (Fin 2) (Fin 2) 2).init
      [.dequeueCall 1, .enqueueCall 0 7, .enqueueCall 1 8, .enqueueReserve 1, .enqueueTransfer 1,
        .enqueueReserve 0, .enqueueTransfer 0, .dequeueReserve 1, .dequeueTransfer 1] = some s :=
    Option.isSome_iff_exists.mp (by decide +kernel)
  exact ⟨s, hs, queue_linearizes (by decide) (.runIf .init hs)⟩

end Simulation

end MessageBroker.ProducerConsumer
