import MessageBroker.ProducerConsumer.Queue

/-! The queue with its condition variables: a thread tests its wait condition under the
size lock, sleeps in a later step, and is signalled without the lock. -/

namespace MessageBroker.ProducerConsumer

open MessageBroker.Lib

inductive Phase (α β : Type)
  | outside
  | checking (a : α)
  -- holds the size lock, about to call pthread_cond_wait
  | waiting (a : α)
  | asleep (a : α)
  | transferring (a : α)
  | signalling (b : β)
  deriving DecidableEq

namespace Phase

variable {α β : Type}

def isAwake : Phase α β → Bool
  | .checking _ | .waiting _ => true
  | _ => false

def isAsleep : Phase α β → Bool
  | .asleep _ => true
  | _ => false

def owesSignal : Phase α β → Bool
  | .transferring _ | .signalling _ => true
  | _ => false

end Phase

variable {E P C ι α β : Type}

structure Threads (E P C : Type) where
  queue : PcQueue E
  sizeLocked : Bool
  producers : P → Phase E Unit
  consumers : C → Phase Unit (Cell E)

inductive Event (E P C : Type)
  | enqueueCall (p : P) (e : E)
  | enqueueCheck (p : P)
  | enqueueWait (p : P)
  | enqueueTransfer (p : P)
  | enqueueSignal (p : P) (woken : Option C)
  | dequeueCall (c : C)
  | dequeueCheck (c : C)
  | dequeueWait (c : C)
  | dequeueTransfer (c : C)
  | dequeueSignal (c : C) (woken : Option P)

def awake [Fintype ι] (g : ι → Phase α β) : ℕ := tally Phase.isAwake g

def sleepers [Fintype ι] (g : ι → Phase α β) : ℕ := tally Phase.isAsleep g

def signals [Fintype ι] (g : ι → Phase α β) : ℕ := tally Phase.owesSignal g

def condSignal [Fintype ι] [DecidableEq ι] (g : ι → Phase α β) :
    Option ι → Option (ι → Phase α β)
  | none => if sleepers g = 0 then some g else none
  | some i =>
    match g i with
    | .asleep a => some (Function.update g i (.checking a))
    | _ => none

variable [DecidableEq P] [DecidableEq C] [Fintype P] [Fintype C]

def waitStep (s : Threads E P C) : Event E P C → Option (Threads E P C)
  | .enqueueCall p e =>
    match s.producers p with
    | .outside => some { s with producers := Function.update s.producers p (.checking e) }
    | _ => none
  | .enqueueCheck p =>
    match s.producers p with
    | .checking e =>
      if s.sizeLocked then none
      else if s.queue.enqueueWaits then some { s with
        sizeLocked := true
        producers := Function.update s.producers p (.waiting e) }
      else some { s with
        queue := s.queue.enqueueReserve
        producers := Function.update s.producers p (.transferring e) }
    | _ => none
  | .enqueueWait p =>
    match s.producers p with
    | .waiting e => some { s with
        sizeLocked := false
        producers := Function.update s.producers p (.asleep e) }
    | _ => none
  | .enqueueTransfer p =>
    match s.producers p with
    | .transferring e => some { s with
        queue := s.queue.enqueueTransfer e
        producers := Function.update s.producers p (.signalling ()) }
    | _ => none
  | .enqueueSignal p woken =>
    match s.producers p with
    | .signalling _ => (condSignal s.consumers woken).map (fun cs => { s with
        producers := Function.update s.producers p .outside
        consumers := cs })
    | _ => none
  | .dequeueCall c =>
    match s.consumers c with
    | .outside => some { s with consumers := Function.update s.consumers c (.checking ()) }
    | _ => none
  | .dequeueCheck c =>
    match s.consumers c with
    | .checking _ =>
      if s.sizeLocked then none
      else if s.queue.dequeueWaits then some { s with
        sizeLocked := true
        consumers := Function.update s.consumers c (.waiting ()) }
      else some { s with
        queue := s.queue.dequeueReserve
        consumers := Function.update s.consumers c (.transferring ()) }
    | _ => none
  | .dequeueWait c =>
    match s.consumers c with
    | .waiting _ => some { s with
        sizeLocked := false
        consumers := Function.update s.consumers c (.asleep ()) }
    | _ => none
  | .dequeueTransfer c =>
    match s.consumers c with
    | .transferring _ => some { s with
        queue := s.queue.dequeueTransfer
        consumers := Function.update s.consumers c (.signalling s.queue.dequeueData) }
    | _ => none
  | .dequeueSignal c woken =>
    match s.consumers c with
    | .signalling _ => (condSignal s.producers woken).map (fun ps => { s with
        producers := ps
        consumers := Function.update s.consumers c .outside })
    | _ => none

def threads (E P C : Type) [DecidableEq P] [DecidableEq C] [Fintype P] [Fintype C] (n : ℕ) :
    System (Threads E P C) (Event E P C) where
  init := ⟨created E n, false, fun _ => .outside, fun _ => .outside⟩
  step := waitStep

inductive Moves (s : Threads E P C) : Event E P C → Threads E P C → Prop
  | enqueueCall {p e} : s.producers p = .outside → Moves s (.enqueueCall p e)
      { s with producers := Function.update s.producers p (.checking e) }
  | enqueueBlocked {p e} : s.producers p = .checking e → s.queue.enqueueWaits = true →
      Moves s (.enqueueCheck p) { s with
        sizeLocked := true
        producers := Function.update s.producers p (.waiting e) }
  | enqueueReserve {p e} : s.producers p = .checking e → s.queue.enqueueWaits = false →
      Moves s (.enqueueCheck p) { s with
        queue := s.queue.enqueueReserve
        producers := Function.update s.producers p (.transferring e) }
  | enqueueWait {p e} : s.producers p = .waiting e → Moves s (.enqueueWait p) { s with
        sizeLocked := false
        producers := Function.update s.producers p (.asleep e) }
  | enqueueTransfer {p e} : s.producers p = .transferring e → Moves s (.enqueueTransfer p) { s with
        queue := s.queue.enqueueTransfer e
        producers := Function.update s.producers p (.signalling ()) }
  | enqueueSignal {p u woken cs} : s.producers p = .signalling u →
      condSignal s.consumers woken = some cs → Moves s (.enqueueSignal p woken) { s with
        producers := Function.update s.producers p .outside
        consumers := cs }
  | dequeueCall {c} : s.consumers c = .outside → Moves s (.dequeueCall c)
      { s with consumers := Function.update s.consumers c (.checking ()) }
  | dequeueBlocked {c u} : s.consumers c = .checking u → s.queue.dequeueWaits = true →
      Moves s (.dequeueCheck c) { s with
        sizeLocked := true
        consumers := Function.update s.consumers c (.waiting ()) }
  | dequeueReserve {c u} : s.consumers c = .checking u → s.queue.dequeueWaits = false →
      Moves s (.dequeueCheck c) { s with
        queue := s.queue.dequeueReserve
        consumers := Function.update s.consumers c (.transferring ()) }
  | dequeueWait {c u} : s.consumers c = .waiting u → Moves s (.dequeueWait c) { s with
        sizeLocked := false
        consumers := Function.update s.consumers c (.asleep ()) }
  | dequeueTransfer {c u} : s.consumers c = .transferring u → Moves s (.dequeueTransfer c) { s with
        queue := s.queue.dequeueTransfer
        consumers := Function.update s.consumers c (.signalling s.queue.dequeueData) }
  | dequeueSignal {c d woken ps} : s.consumers c = .signalling d →
      condSignal s.producers woken = some ps → Moves s (.dequeueSignal c woken) { s with
        producers := ps
        consumers := Function.update s.consumers c .outside }

lemma waitStep_moves {s t : Threads E P C} {ev : Event E P C} (h : waitStep s ev = some t) :
    Moves s ev t := by
  cases ev with
  | enqueueCall p e =>
    cases hp : s.producers p <;> simp only [waitStep, hp, reduceCtorEq] at h
    exact Option.some.inj h ▸ .enqueueCall hp
  | enqueueCheck p =>
    cases hp : s.producers p <;> simp only [waitStep, hp, reduceCtorEq] at h
    split_ifs at h with _ hw
    · exact Option.some.inj h ▸ .enqueueBlocked hp hw
    · exact Option.some.inj h ▸ .enqueueReserve hp (by simpa using hw)
  | enqueueWait p =>
    cases hp : s.producers p <;> simp only [waitStep, hp, reduceCtorEq] at h
    exact Option.some.inj h ▸ .enqueueWait hp
  | enqueueTransfer p =>
    cases hp : s.producers p <;> simp only [waitStep, hp, reduceCtorEq] at h
    exact Option.some.inj h ▸ .enqueueTransfer hp
  | enqueueSignal p woken =>
    cases hp : s.producers p <;> simp only [waitStep, hp, reduceCtorEq] at h
    obtain ⟨cs, hs, rfl⟩ := Option.map_eq_some_iff.mp h
    exact .enqueueSignal hp hs
  | dequeueCall c =>
    cases hc : s.consumers c <;> simp only [waitStep, hc, reduceCtorEq] at h
    exact Option.some.inj h ▸ .dequeueCall hc
  | dequeueCheck c =>
    cases hc : s.consumers c <;> simp only [waitStep, hc, reduceCtorEq] at h
    split_ifs at h with _ hw
    · exact Option.some.inj h ▸ .dequeueBlocked hc hw
    · exact Option.some.inj h ▸ .dequeueReserve hc (by simpa using hw)
  | dequeueWait c =>
    cases hc : s.consumers c <;> simp only [waitStep, hc, reduceCtorEq] at h
    exact Option.some.inj h ▸ .dequeueWait hc
  | dequeueTransfer c =>
    cases hc : s.consumers c <;> simp only [waitStep, hc, reduceCtorEq] at h
    exact Option.some.inj h ▸ .dequeueTransfer hc
  | dequeueSignal c woken =>
    cases hc : s.consumers c <;> simp only [waitStep, hc, reduceCtorEq] at h
    obtain ⟨ps, hs, rfl⟩ := Option.map_eq_some_iff.mp h
    exact .dequeueSignal hc hs

lemma condSignal_counts [Fintype ι] [DecidableEq ι] {g g' : ι → Phase α β} {w : Option ι}
    (h : condSignal g w = some g') :
    awake g' + sleepers g' = awake g + sleepers g ∧ signals g' = signals g ∧
      (sleepers g' + 1 = sleepers g ∨ sleepers g = 0 ∧ sleepers g' = 0) := by
  cases w with
  | none =>
    simp only [condSignal] at h
    split_ifs at h with hz
    cases Option.some.inj h
    exact ⟨rfl, rfl, Or.inr ⟨hz, hz⟩⟩
  | some i =>
    cases hi : g i <;> simp only [condSignal, hi, reduceCtorEq] at h
    rename_i a
    cases Option.some.inj h
    have h₁ := tally_update Phase.isAwake g i (.checking a)
    have h₂ := tally_update Phase.isAsleep g i (.checking a)
    have h₃ := tally_update Phase.owesSignal g i (.checking a)
    simp only [hi, Phase.isAwake, Phase.isAsleep, Phase.owesSignal, Bool.toNat_true,
      Bool.toNat_false] at h₁ h₂ h₃
    simp only [awake, sleepers, signals]
    omega

def Phase.producer : Phase E Unit → Producer E
  | .outside | .signalling _ => .outside
  | .checking e | .waiting e | .asleep e => .reserving e
  | .transferring e => .storing e

def Phase.consumer : Phase Unit (Cell E) → Consumer
  | .outside | .signalling _ => .outside
  | .checking _ | .waiting _ | .asleep _ => .reserving
  | .transferring _ => .taking

structure Forgets (s : Threads E P C) (t : State E P C) : Prop where
  queue : t.queue = s.queue
  producers : t.producers = fun p => (s.producers p).producer
  consumers : t.consumers = fun c => (s.consumers c).consumer

lemma update_image {γ δ : Type} [DecidableEq ι] (f : γ → δ) (g : ι → γ) (i : ι) (x : γ) :
    (fun j => f (Function.update g i x j)) = Function.update (fun j => f (g j)) i (f x) :=
  Function.comp_update f g i x

lemma update_same {γ : Type} [DecidableEq ι] {g : ι → γ} {i : ι} {x : γ} (h : g i = x) :
    Function.update g i x = g := by
  subst h
  exact Function.update_eq_self i g

lemma condSignal_forgets {γ : Type} [Fintype ι] [DecidableEq ι] {g g' : ι → Phase α β}
    {w : Option ι} {f : Phase α β → γ} (hf : ∀ a, f (.checking a) = f (.asleep a))
    (h : condSignal g w = some g') : (fun i => f (g' i)) = fun i => f (g i) := by
  cases w with
  | none =>
    simp only [condSignal] at h
    split_ifs at h
    cases Option.some.inj h
    rfl
  | some i =>
    cases hi : g i <;> simp only [condSignal, hi, reduceCtorEq] at h
    cases Option.some.inj h
    rw [update_image]
    exact update_same (by rw [hi, hf])

lemma moves_forgets {n : ℕ} {s s' : Threads E P C} {t : State E P C} {ev : Event E P C}
    (hR : Forgets s t) (h : Moves s ev s') :
    ∃ bs t', (blocks E P C n).run t bs = some t' ∧ Forgets s' t' := by
  obtain ⟨hq, hps, hcs⟩ := hR
  have hprod : ∀ p, t.producers p = (s.producers p).producer := fun p => congrFun hps p
  have hcons : ∀ c, t.consumers c = (s.consumers c).consumer := fun c => congrFun hcs c
  cases h with
  | @enqueueCall p e hp =>
    refine ⟨[.enqueueCall p e], { t with
      producers := Function.update t.producers p (.reserving e)
      passed := t.passed ++ [e] }, ?_, hq, ?_, hcs⟩
    · simp [blocks, blockStep, hprod, hp, Phase.producer]
    · rw [update_image, hps]; rfl
  | @enqueueBlocked p e hp _ =>
    refine ⟨[], t, rfl, hq, ?_, hcs⟩
    rw [hps, update_image, update_same (by rw [hp]; rfl)]
  | @enqueueReserve p e hp hw =>
    refine ⟨[.enqueueReserve p], { t with
      queue := t.queue.enqueueReserve
      producers := Function.update t.producers p (.storing e) }, ?_, by rw [← hq], ?_, hcs⟩
    · simp [blocks, blockStep, hprod, hp, Phase.producer, hq, hw]
    · rw [update_image, hps]; rfl
  | @enqueueWait p e hp =>
    refine ⟨[], t, rfl, hq, ?_, hcs⟩
    rw [hps, update_image, update_same (by rw [hp]; rfl)]
  | @enqueueTransfer p e hp =>
    refine ⟨[.enqueueTransfer p], { t with
      queue := t.queue.enqueueTransfer e
      producers := Function.update t.producers p .outside
      stored := t.stored ++ [e]
      overwritten := t.overwritten ++
        (t.queue.buffer.getD t.queue.head .unwritten).stored.toList }, ?_, by rw [← hq], ?_, hcs⟩
    · simp [blocks, blockStep, hprod, hp, Phase.producer]
    · rw [update_image, hps]; rfl
  | @enqueueSignal p u woken cs hp hs =>
    refine ⟨[], t, rfl, hq, ?_, ?_⟩
    · rw [hps, update_image, update_same (by rw [hp]; rfl)]
    · rw [hcs, condSignal_forgets (fun _ => rfl) hs]
  | @dequeueCall c hc =>
    refine ⟨[.dequeueCall c], { t with
      consumers := Function.update t.consumers c .reserving }, ?_, hq, hps, ?_⟩
    · simp [blocks, blockStep, hcons, hc, Phase.consumer]
    · rw [update_image, hcs]; rfl
  | @dequeueBlocked c u hc _ =>
    refine ⟨[], t, rfl, hq, hps, ?_⟩
    rw [hcs, update_image, update_same (by rw [hc]; rfl)]
  | @dequeueReserve c u hc hw =>
    refine ⟨[.dequeueReserve c], { t with
      queue := t.queue.dequeueReserve
      consumers := Function.update t.consumers c .taking }, ?_, by rw [← hq], hps, ?_⟩
    · simp [blocks, blockStep, hcons, hc, Phase.consumer, hq, hw]
    · rw [update_image, hcs]; rfl
  | @dequeueWait c u hc =>
    refine ⟨[], t, rfl, hq, hps, ?_⟩
    rw [hcs, update_image, update_same (by rw [hc]; rfl)]
  | @dequeueTransfer c u hc =>
    refine ⟨[.dequeueTransfer c], { t with
      queue := t.queue.dequeueTransfer
      consumers := Function.update t.consumers c .outside
      returned := t.returned ++ [t.queue.dequeueData] }, ?_, by rw [← hq], hps, ?_⟩
    · simp [blocks, blockStep, hcons, hc, Phase.consumer]
    · rw [update_image, hcs]; rfl
  | @dequeueSignal c d woken ps hc hs =>
    refine ⟨[], t, rfl, hq, ?_, ?_⟩
    · rw [hps, condSignal_forgets (fun _ => rfl) hs]
    · rw [hcs, update_image, update_same (by rw [hc]; rfl)]

theorem threads_refine_blocks {n : ℕ} {s : Threads E P C} (h : (threads E P C n).Reachable s) :
    ∃ t, (blocks E P C n).Reachable t ∧ Forgets s t := by
  have hinit : Forgets (threads E P C n).init (blocks E P C n).init := ⟨rfl, rfl, rfl⟩
  apply System.simulate_reachable hinit _ h
  intro s t ev d hR hs
  exact moves_forgets hR (waitStep_moves hs)

end MessageBroker.ProducerConsumer
