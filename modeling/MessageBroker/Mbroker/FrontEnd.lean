import MessageBroker.Lib.Dispatch
import MessageBroker.Mbroker.Intake
import MessageBroker.Mbroker.WorkerPool

namespace MessageBroker.Mbroker

open MessageBroker.Lib MessageBroker.Protocol MessageBroker.ProducerConsumer

inductive Service
  | looping
  | processing (data : List UInt8)
  | exited
  -- the pointer dequeued was never written
  | crashed
  deriving DecidableEq

structure FrontEnd (m : ℕ) where
  intake : Intake
  queue : ProducerConsumer.State (List UInt8) Unit (Fin m)
  workers : Fin m → Service
  -- history: what process_packet did with the packets, and for which worker
  handled : List (Fin m × Handling)

inductive FrontEvent (m : ℕ)
  | write (r : Request)
  | readId (malloc : Bool)
  | readBody
  | enqueueCall
  | enqueueReserve
  | enqueueTransfer
  | dequeueCall (w : Fin m)
  | dequeueReserve (w : Fin m)
  | dequeueTransfer (w : Fin m)
  | process (w : Fin m)

def dequeued : Cell (List UInt8) → Service
  | .elem data => .processing data
  | .null => .exited
  | .unwritten => .crashed

variable {m : ℕ}

def frontStep (s : FrontEnd m) : FrontEvent m → Option (FrontEnd m)
  | .write r => (intakeStep s.intake (.write r)).map fun i => { s with intake := i }
  | .readId malloc => (intakeStep s.intake (.readId malloc)).map fun i => { s with intake := i }
  | .readBody => (intakeStep s.intake .readBody).map fun i => { s with intake := i }
  | .enqueueCall =>
    match s.intake.reader with
    | .enqueue data =>
      (blockStep s.queue (.enqueueCall () data)).map fun q => { s with queue := q }
    | _ => none
  | .enqueueReserve =>
    (blockStep s.queue (.enqueueReserve ())).map fun q => { s with queue := q }
  -- then pcq_enqueue returns, and main goes back to its read
  | .enqueueTransfer =>
    (blockStep s.queue (.enqueueTransfer ())).bind fun q =>
      (intakeStep s.intake .enqueue).map fun i => { s with intake := i, queue := q }
  | .dequeueCall w =>
    if s.workers w = .looping then
      (blockStep s.queue (.dequeueCall w)).map fun q => { s with queue := q }
    else none
  | .dequeueReserve w =>
    (blockStep s.queue (.dequeueReserve w)).map fun q => { s with queue := q }
  | .dequeueTransfer w =>
    (blockStep s.queue (.dequeueTransfer w)).map fun q => { s with
      queue := q
      workers := Function.update s.workers w (dequeued s.queue.queue.dequeueData) }
  | .process w =>
    match s.workers w with
    | .processing data => some { s with
        workers := Function.update s.workers w .looping
        handled := s.handled ++ [(w, processPacket (unknownPacket data))] }
    | _ => none

def frontEnd (m : ℕ) : System (FrontEnd m) (FrontEvent m) where
  init := ⟨intake.init, initial (created (List UInt8) m), fun _ => .looping, []⟩
  step := frontStep

/-- The guards of the queue rest on no packet not stored yet and on no slot not free yet. -/
def FrontTimely (s : FrontEnd m) : FrontEvent m → Prop
  | .enqueueReserve => Timely s.queue (.enqueueReserve ())
  | .dequeueReserve w => Timely s.queue (.dequeueReserve w)
  | _ => True

instance (s : FrontEnd m) (ev : FrontEvent m) : Decidable (FrontTimely s ev) := by
  cases ev <;> simp only [FrontTimely] <;> infer_instance

structure Joined (m : ℕ) (s : FrontEnd m) : Prop where
  orderly : Orderly m s.queue
  framed : ∃ done todo, Framed s.intake done todo
  enqueued : s.intake.enqueued = s.queue.stored
  producer : ∀ data, s.queue.producers () = .reserving data ∨ s.queue.producers () = .storing data →
    s.intake.reader = .enqueue data
  consumers : ∀ w, s.queue.consumers w ≠ .outside → s.workers w = .looping

structure Serves (s : FrontEnd m) (d : Dispatcher Request (Fin m)) : Prop where
  posted : d.posted = s.intake.written
  taken : d.taken = s.queue.returned.length
  workers : ∀ w, s.workers w =
    match d.serving w with
    | none => .looping
    | some r => .processing r.encode
  handled : s.handled = d.served.map fun x => (x.1, handling x.2)

variable {s t : FrontEnd m} {d : Dispatcher Request (Fin m)} {ev : FrontEvent m}

lemma Joined.next (h : Joined m s) {w : Fin m}
    {q : ProducerConsumer.State (List UInt8) Unit (Fin m)}
    (hq : blockStep s.queue (.dequeueTransfer w) = some q) (ho : Orderly m q) :
    ∃ r, s.intake.written[s.queue.returned.length]? = some r ∧
      s.queue.queue.dequeueData = .elem r.encode := by
  obtain ⟨-, rfl⟩ := dequeueTransfer_step hq
  have hret := ho.window.returned
  have hlast := congrArg (fun xs => xs[s.queue.returned.length]?) hret
  rw [List.getElem?_append_right le_rfl, Nat.sub_self, List.getElem?_cons_zero, List.getElem?_map,
    List.getElem?_take_of_lt (by rw [List.length_append, List.length_singleton]; omega),
    ← h.enqueued] at hlast
  obtain ⟨data, hdata, he⟩ := Option.map_eq_some_iff.mp hlast.symm
  obtain ⟨done, todo, hf⟩ := h.framed
  rw [hf.enqueued, List.getElem?_map] at hdata
  obtain ⟨r, hr, rfl⟩ := Option.map_eq_some_iff.mp hdata
  refine ⟨r, ?_, he.symm⟩
  rw [hf.written, List.getElem?_append_left (List.getElem?_eq_some_iff.mp hr).1]
  exact hr

lemma intakeStep_written {i j : Intake} {a : IntakeEvent} (h : intakeStep i a = some j)
    (ha : a = .readBody ∨ ∃ malloc, a = .readId malloc) :
    j.written = i.written ∧ j.enqueued = i.enqueued ∧ ∀ data, i.reader ≠ .enqueue data := by
  rcases ha with rfl | ⟨malloc, rfl⟩
  · cases hr : i.reader <;> cases hf : i.fifo <;>
      simp only [intakeStep, hr, hf, reduceCtorEq, Option.some.injEq] at h
    subst h
    exact ⟨rfl, rfl, fun data => Reader.noConfusion⟩
  · cases hr : i.reader <;> cases hf : i.fifo <;>
      simp only [intakeStep, hr, hf, reduceCtorEq, Option.some.injEq] at h
    subst h
    exact ⟨rfl, rfl, fun data => Reader.noConfusion⟩

lemma Joined.reads (h : Joined m s) {i : Intake} {a : IntakeEvent}
    (hi : intakeStep s.intake a = some i) (ha : a = .readBody ∨ ∃ malloc, a = .readId malloc) :
    Joined m { s with intake := i } := by
  obtain ⟨-, he, hr⟩ := intakeStep_written hi ha
  obtain ⟨done, todo, hf⟩ := h.framed
  refine ⟨h.orderly, framed_step hf hi, he.trans h.enqueued, fun data hp => ?_, h.consumers⟩
  exact absurd (h.producer data hp) (hr data)

lemma joined_step (hm : 0 < m) (h : Joined m s) (ht : FrontTimely s ev)
    (hs : frontStep s ev = some t) : Joined m t := by
  obtain ⟨done, todo, hf⟩ := h.framed
  cases ev with
  | write r =>
    simp only [frontStep, Option.map_eq_some_iff] at hs
    obtain ⟨i, hi, rfl⟩ := hs
    refine ⟨h.orderly, framed_step hf hi, ?_, fun data hp => ?_, h.consumers⟩
    · cases hi
      exact h.enqueued
    · cases hi
      exact h.producer data hp
  | readId malloc =>
    obtain ⟨i, hi, rfl⟩ := Option.map_eq_some_iff.mp hs
    exact h.reads hi (.inr ⟨malloc, rfl⟩)
  | readBody =>
    obtain ⟨i, hi, rfl⟩ := Option.map_eq_some_iff.mp hs
    exact h.reads hi (.inl rfl)
  | enqueueCall =>
    cases hr : s.intake.reader with
    | enqueue data =>
      simp only [frontStep, hr] at hs
      obtain ⟨q, hq, rfl⟩ := Option.map_eq_some_iff.mp hs
      have ho := timely_step hm (b := .enqueueCall () data) h.orderly trivial hq
      obtain ⟨hout, rfl⟩ := enqueueCall_step hq
      refine ⟨ho, ⟨done, todo, hf⟩, h.enqueued, fun data' hp => ?_, h.consumers⟩
      simp only [Function.update_self, Producer.reserving.injEq, reduceCtorEq, or_false] at hp
      exact hr.trans (by rw [hp])
    | readId | readBody | panicked => simp [frontStep, hr] at hs
  | enqueueReserve =>
    obtain ⟨q, hq, rfl⟩ := Option.map_eq_some_iff.mp hs
    have ho := timely_step hm (b := .enqueueReserve ()) h.orderly ht hq
    obtain ⟨data, hp, -, rfl⟩ := enqueueReserve_step hq
    refine ⟨ho, ⟨done, todo, hf⟩, h.enqueued, fun data' hp' => ?_, h.consumers⟩
    simp only [Function.update_self, Producer.storing.injEq, reduceCtorEq, false_or] at hp'
    exact hp' ▸ h.producer data (.inl hp)
  | enqueueTransfer =>
    simp only [frontStep, Option.bind_eq_some_iff, Option.map_eq_some_iff] at hs
    obtain ⟨q, hq, i, hi, rfl⟩ := hs
    have ho := timely_step hm (b := .enqueueTransfer ()) h.orderly trivial hq
    obtain ⟨data, hp, rfl⟩ := enqueueTransfer_step hq
    have hr := h.producer data (.inr hp)
    refine ⟨ho, framed_step hf hi, ?_, fun data' hp' => ?_, h.consumers⟩
    · simp only [intakeStep, hr, Option.some.injEq] at hi
      subst hi
      simp [h.enqueued]
    · simp at hp'
  | dequeueCall w =>
    simp only [frontStep, Option.ite_none_right_eq_some, Option.map_eq_some_iff] at hs
    obtain ⟨hw, q, hq, rfl⟩ := hs
    have ho := timely_step hm (b := .dequeueCall w) h.orderly trivial hq
    obtain ⟨-, rfl⟩ := dequeueCall_step hq
    refine ⟨ho, ⟨done, todo, hf⟩, h.enqueued, h.producer, fun v hv => ?_⟩
    by_cases he : v = w
    · exact he ▸ hw
    · exact h.consumers v (by simpa [Function.update_of_ne he] using hv)
  | dequeueReserve w =>
    obtain ⟨q, hq, rfl⟩ := Option.map_eq_some_iff.mp hs
    have ho := timely_step hm (b := .dequeueReserve w) h.orderly ht hq
    obtain ⟨hw, -, rfl⟩ := dequeueReserve_step hq
    refine ⟨ho, ⟨done, todo, hf⟩, h.enqueued, h.producer, fun v hv => ?_⟩
    by_cases he : v = w
    · exact he ▸ h.consumers w (by rw [hw]; decide)
    · exact h.consumers v (by simpa [Function.update_of_ne he] using hv)
  | dequeueTransfer w =>
    obtain ⟨q, hq, rfl⟩ := Option.map_eq_some_iff.mp hs
    have ho := timely_step hm (b := .dequeueTransfer w) h.orderly trivial hq
    obtain ⟨-, rfl⟩ := dequeueTransfer_step hq
    refine ⟨ho, ⟨done, todo, hf⟩, h.enqueued, h.producer, fun v hv => ?_⟩
    by_cases he : v = w
    · subst he
      simp at hv
    · dsimp only
      rw [Function.update_of_ne he]
      exact h.consumers v (by simpa [Function.update_of_ne he] using hv)
  | process w =>
    cases hw : s.workers w with
    | processing data =>
      simp only [frontStep, hw, Option.some.injEq] at hs
      subst hs
      refine ⟨h.orderly, ⟨done, todo, hf⟩, h.enqueued, h.producer, fun v hv => ?_⟩
      by_cases he : v = w
      · subst he
        exact Function.update_self _ _ _
      · dsimp only
        rw [Function.update_of_ne he]
        exact h.consumers v hv
    | looping | exited | crashed => simp [frontStep, hw] at hs

lemma joined_init : Joined m (frontEnd m).init := by
  refine ⟨orderly_initial, ⟨[], [], rfl, rfl, rfl⟩, rfl, ?_, fun _ _ => rfl⟩
  rintro data (hp | hp) <;> cases hp

def dealing : FrontEvent m → List (DispatchEvent Request (Fin m))
  | .write r => [.post r]
  | .dequeueTransfer w => [.take w]
  | .process w => [.finish w]
  | _ => []

lemma Serves.frame (h : Serves s d) (hi : t.intake.written = s.intake.written)
    (hq : t.queue.returned = s.queue.returned) (hw : t.workers = s.workers)
    (hh : t.handled = s.handled) : Serves t d :=
  ⟨h.posted.trans hi.symm, h.taken.trans (by rw [hq]), fun w => by rw [hw]; exact h.workers w,
    hh.trans h.handled⟩

lemma serves_step (hm : 0 < m) (hj : Joined m s) (h : Serves s d)
    (hs : frontStep s ev = some t) :
    ∃ d', (dispatcher Request (Fin m)).run d (dealing ev) = some d' ∧ Serves t d' := by
  cases ev with
  | write r =>
    simp only [frontStep, Option.map_eq_some_iff] at hs
    obtain ⟨i, hi, rfl⟩ := hs
    cases hi
    refine ⟨_, rfl, ⟨?_, h.taken, h.workers, h.handled⟩⟩
    dsimp only
    rw [h.posted]
  | readId malloc =>
    obtain ⟨i, hi, rfl⟩ := Option.map_eq_some_iff.mp hs
    exact ⟨d, rfl, h.frame (intakeStep_written hi (.inr ⟨malloc, rfl⟩)).1 rfl rfl rfl⟩
  | readBody =>
    obtain ⟨i, hi, rfl⟩ := Option.map_eq_some_iff.mp hs
    exact ⟨d, rfl, h.frame (intakeStep_written hi (.inl rfl)).1 rfl rfl rfl⟩
  | enqueueCall =>
    cases hr : s.intake.reader with
    | enqueue data =>
      simp only [frontStep, hr] at hs
      obtain ⟨q, hq, rfl⟩ := Option.map_eq_some_iff.mp hs
      obtain ⟨-, rfl⟩ := enqueueCall_step hq
      exact ⟨d, rfl, h.frame rfl rfl rfl rfl⟩
    | readId | readBody | panicked => simp [frontStep, hr] at hs
  | enqueueReserve =>
    obtain ⟨q, hq, rfl⟩ := Option.map_eq_some_iff.mp hs
    obtain ⟨-, -, -, rfl⟩ := enqueueReserve_step hq
    exact ⟨d, rfl, h.frame rfl rfl rfl rfl⟩
  | enqueueTransfer =>
    simp only [frontStep, Option.bind_eq_some_iff, Option.map_eq_some_iff] at hs
    obtain ⟨q, hq, i, hi, rfl⟩ := hs
    obtain ⟨data, hp, rfl⟩ := enqueueTransfer_step hq
    have hr := hj.producer data (.inr hp)
    simp only [intakeStep, hr, Option.some.injEq] at hi
    subst hi
    exact ⟨d, rfl, h.frame rfl rfl rfl rfl⟩
  | dequeueCall w =>
    simp only [frontStep, Option.ite_none_right_eq_some, Option.map_eq_some_iff] at hs
    obtain ⟨-, q, hq, rfl⟩ := hs
    obtain ⟨-, rfl⟩ := dequeueCall_step hq
    exact ⟨d, rfl, h.frame rfl rfl rfl rfl⟩
  | dequeueReserve w =>
    obtain ⟨q, hq, rfl⟩ := Option.map_eq_some_iff.mp hs
    obtain ⟨-, -, rfl⟩ := dequeueReserve_step hq
    exact ⟨d, rfl, h.frame rfl rfl rfl rfl⟩
  | dequeueTransfer w =>
    obtain ⟨q, hq, rfl⟩ := Option.map_eq_some_iff.mp hs
    have ho : Orderly m q := timely_step hm (b := .dequeueTransfer w) hj.orderly trivial hq
    obtain ⟨r, hr, hdata⟩ := hj.next hq ho
    obtain ⟨htaking, rfl⟩ := dequeueTransfer_step hq
    have hidle : d.serving w = none := by
      have hw := hj.consumers w (by rw [htaking]; decide)
      rw [h.workers w] at hw
      cases hd : d.serving w with
      | none => rfl
      | some r => simp [hd] at hw
    refine ⟨{ d with
      taken := d.taken + 1
      serving := Function.update d.serving w (some r) }, ?_, ⟨h.posted, ?_, fun v => ?_, h.handled⟩⟩
    · rw [← h.posted, ← h.taken] at hr
      simp [dealing, System.run, dispatcher, dispatchStep, hidle, hr]
    · simp [h.taken]
    · dsimp only
      by_cases he : v = w
      · subst he
        rw [Function.update_self, Function.update_self, hdata]
        rfl
      · rw [Function.update_of_ne he, Function.update_of_ne he]
        exact h.workers v
  | process w =>
    cases hw : s.workers w with
    | processing data =>
      simp only [frontStep, hw, Option.some.injEq] at hs
      subst hs
      obtain ⟨r, hserving, rfl⟩ : ∃ r, d.serving w = some r ∧ data = r.encode := by
        rw [h.workers w] at hw
        cases hd : d.serving w with
        | none => simp [hd] at hw
        | some r => exact ⟨r, rfl, by simpa [hd] using hw.symm⟩
      refine ⟨{ d with
        serving := Function.update d.serving w none
        served := d.served ++ [(w, r)] }, ?_, ⟨h.posted, h.taken, fun v => ?_, ?_⟩⟩
      · simp [dealing, System.run, dispatcher, dispatchStep, hserving]
      · dsimp only
        by_cases he : v = w
        · subst he
          rw [Function.update_self, Function.update_self]
        · rw [Function.update_of_ne he, Function.update_of_ne he]
          exact h.workers v
      · dsimp only
        rw [h.handled, processPacket_encode, List.map_append]
        rfl
    | looping | exited | crashed => simp [frontStep, hw] at hs

lemma front_serves (hm : 0 < m) (h : (frontEnd m).ReachableBy FrontTimely s) :
    Joined m s ∧ ∃ d, (dispatcher Request (Fin m)).Reachable d ∧ Serves s d := by
  induction h with
  | init => exact ⟨joined_init, _, .init, ⟨rfl, rfl, fun _ => rfl, rfl⟩⟩
  | step _ ht hst ih =>
    obtain ⟨hj, d, hd, hserves⟩ := ih
    obtain ⟨d', hrun, hserves'⟩ := serves_step hm hj hserves hst
    exact ⟨joined_step hm hj ht hst, d', hd.run hrun, hserves'⟩

theorem front_end_deals (hm : 0 < m) (h : (frontEnd m).ReachableBy FrontTimely s) :
    (∃ d, (dispatcher Request (Fin m)).Reachable d ∧ Serves s d ∧ Dealt d) ∧
      ∀ why, s.intake.reader = .panicked why → why = .noMemory := by
  obtain ⟨hj, d, hd, hserves⟩ := front_serves hm h
  refine ⟨⟨d, hd, hserves, reachable_dealt hd⟩, fun why hr => ?_⟩
  obtain ⟨done, todo, hf⟩ := hj.framed
  have hfifo := hf.fifo
  rwa [hr] at hfifo

def createThenList {m : ℕ} (v w : Fin m) (p q : PipeName) (box : BoxName) : List (FrontEvent m) :=
  [.write (.create p box), .write (.list q), .readId true, .readBody, .enqueueCall,
    .enqueueReserve, .enqueueTransfer, .readId true, .readBody, .dequeueCall v, .dequeueCall w,
    .dequeueReserve w, .dequeueTransfer w, .enqueueCall, .enqueueReserve, .enqueueTransfer,
    .dequeueReserve v, .dequeueTransfer v, .process v, .process w]

theorem front_end_deals_run :
    ∃ s, (frontEnd 2).runIf FrontTimely (frontEnd 2).init
        (createThenList 0 1 pipeP pipeQ boxA) = some s ∧
      s.handled = [(0, .listMsgBox [113]), (1, .createMsgBox [112] [97])] ∧
      (∃ d, (dispatcher Request (Fin 2)).Reachable d ∧ Serves s d ∧ Dealt d) ∧
        ∀ why, s.intake.reader = .panicked why → why = .noMemory := by
  have hrun : ((frontEnd 2).runIf FrontTimely (frontEnd 2).init
      (createThenList 0 1 pipeP pipeQ boxA)).map
      (fun s => s.handled) = some [(0, .listMsgBox [113]), (1, .createMsgBox [112] [97])] := by
    decide +kernel
  obtain ⟨s, hs, hhandled⟩ := Option.map_eq_some_iff.mp hrun
  exact ⟨s, hs, hhandled, front_end_deals (by decide) (.runIf .init hs)⟩

end MessageBroker.Mbroker
