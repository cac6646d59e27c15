import MessageBroker.Mbroker.Exclusivity

namespace MessageBroker.Mbroker

open MessageBroker.Lib MessageBroker.Protocol

inductive Reason
  | missing
  | subAndPub
  | sub
  | pub
  deriving DecidableEq

def Reason.text : Reason → String
  | .missing => "YOU CANT REMOVE A MSGBOX THAT DOESNT EXIST!"
  | .subAndPub => "YOU CANT REMOVE A MSGBOX THAT HAS SUB AND PUB"
  | .sub => "YOU CANT REMOVE A MSGBOX THAT HAS SUB"
  | .pub => "YOU CANT REMOVE A MSGBOX THAT HAS PUB"

def Reason.TrueOf : Reason → Option MessageBox → Prop
  | .missing, box => box = none
  | .subAndPub, box => ∃ b, box = some b ∧ 0 < b.subscribers ∧ 0 < b.publishers
  | .sub, box => ∃ b, box = some b ∧ 0 < b.subscribers ∧ b.publishers = 0
  | .pub, box => ∃ b, box = some b ∧ b.subscribers = 0 ∧ 0 < b.publishers

def namedBox (t : Table) (name : BoxName) : Option MessageBox :=
  match getMsgBox t name with
  | .ok (some box) => (load t.heap box).toOption.map Node.value
  | _ => none

def BrokerEvent.worker {W : Type} : BrokerEvent W → W
  | .accept w _ _ | .block w _ | .update w | .leave w | .reply w => w

lemma Reason.text_injective : Function.Injective Reason.text := by
  intro r r' h
  cases r <;> cases r' <;> first | rfl | exact absurd h (by decide)

inductive Refuses (t : Table) (name : BoxName) : Option ℕ → Prop
  | absent : namedBox t name = none → Refuses t name none
  | busy {p b} : namedBox t name = some b → ¬ (b.publishers = 0 ∧ b.subscribers = 0) →
      Refuses t name (some p)

lemma removeBlock_cases {t : Table} {xs : List (ℕ × MessageBox)} (hx : t.Lists xs)
    (hn : ∀ x ∈ xs, x.2.waitMutex = false) (name : BoxName) :
    (∃ box, Refuses t name box ∧ removeBlock t name = .ok (t, .removeReply box false 0 0)) ∨
      ∃ t' p, removeBlock t name = .ok (t', .removeReply (some p) true 0 0) := by
  rcases getMsgBox_cases hx name with ⟨hg, -⟩ | ⟨p, b, as, bs, next, hg, rfl, hb, has, hl⟩
  · refine .inl ⟨none, .absent (by rw [namedBox, hg]), ?_⟩
    simp only [removeBlock, hg, bind, Except.bind]
  · have hnamed : namedBox t name = some b := by
      rw [namedBox, hg]
      simp only [hl, Except.toOption, Option.map_some]
    by_cases hc : b.publishers = 0 ∧ b.subscribers = 0
    · obtain ⟨t', hrm, -⟩ := (removeMsgBox_eq hx has hb).2 (hn (p, b) (by simp))
      refine .inr ⟨t', p, ?_⟩
      simp only [removeBlock, hg, hl, hrm, bind, Except.bind, hc, and_self, if_true]
    · refine .inl ⟨some p, .busy hnamed hc, ?_⟩
      simp only [removeBlock, hg, hl, hc, bind, Except.bind, if_false]

lemma Refuses.carried {t : Table} {name : BoxName} {box : Option ℕ} (h : Refuses t name box) :
    ∃ carried, removeResponse box false 0 0 = .remove (-1) (Reason.text carried) ∧
      (carried.TrueOf (namedBox t name) ↔
        ∀ b, namedBox t name = some b → b.subscribers = 0) := by
  cases h with
  | absent hnone =>
    refine ⟨.missing, rfl, fun _ b hb => ?_, fun _ => hnone⟩
    rw [hnone] at hb
    cases hb
  | @busy p b hb hbusy =>
    -- the copies of the counters are still 0 here, so the last branch speaks
    refine ⟨.pub, rfl, ?_, fun hsub => ⟨b, hb, hsub b hb, ?_⟩⟩
    · rintro ⟨c, hc, hsub, -⟩ b' hb'
      cases hc.symm.trans hb'
      exact hsub
    · have hzero := hsub b hb
      omega

variable {W : Type} [DecidableEq W] {s t u v : Broker W} {w : W} {ev : BrokerEvent W}

lemma workerStep_settles {phase : WorkerPhase} (h : workerStep s w phase ev = some t) :
    t = s ∨ ∃ r, t = settle s w r := by
  cases ev with
  | accept x request connected =>
    cases phase <;> simp only [workerStep, reduceCtorEq] at h
    cases connected <;> cases h
    · exact .inl rfl
    · exact .inr ⟨_, rfl⟩
  | block x env =>
    cases phase <;> simp only [workerStep, reduceCtorEq] at h
    split_ifs at h
    exact .inr ⟨_, (Option.some.inj h).symm⟩
  | update x =>
    cases phase <;> simp only [workerStep, reduceCtorEq] at h
    split_ifs at h
    exact .inr ⟨_, (Option.some.inj h).symm⟩
  | leave x | reply x =>
    cases phase <;> simp only [workerStep, reduceCtorEq] at h
    · exact .inr ⟨_, (Option.some.inj h).symm⟩
    · exact .inr ⟨_, (Option.some.inj h).symm⟩

lemma brokerStep_worker (h : brokerStep s ev = some t) :
    workerStep s ev.worker (s.workers ev.worker) ev = some t := by
  have hf := brokerStep_running h
  simp only [brokerStep, hf, ne_eq, not_true_eq_false, if_false] at h
  cases ev <;> exact h

lemma brokerStep_other (h : brokerStep s ev = some t) (hne : ev.worker ≠ w) :
    t.workers w = s.workers w := by
  rcases workerStep_settles (brokerStep_worker h) with rfl | ⟨r, rfl⟩
  · rfl
  · match r with
    | .ok _ => exact Function.update_of_ne (Ne.symm hne) _ _
    | .error _ => rfl

lemma others_keep (h : (broker W).Continues (fun ev => ev.worker ≠ w) t u) :
    u.workers w = t.workers w := by
  induction h with
  | refl => rfl
  | tail _ hne hst ih => exact (brokerStep_other hst hne).trans ih

lemma reply_removeReply {box : Option ℕ} {removed : Bool} {pub sub : ℕ}
    (hw : s.workers w = .removeReply box removed pub sub)
    (h : brokerStep s (.reply w) = some t) :
    t.replies = s.replies ++ [(w, removeResponse box removed pub sub)] := by
  have hw' := brokerStep_worker h
  simp only [BrokerEvent.worker, hw, workerStep] at hw'
  exact (Option.some.inj hw') ▸ rfl

lemma block_remove {pipe : PipeName} {name : BoxName} {env : Env}
    (hw : s.workers w = .handling (.remove pipe name))
    (h : brokerStep s (.block w env) = some t) :
    t = settle s w ((removeBlock s.table name).map (fun r => (r.1, r.2, none))) := by
  have hw' := brokerStep_worker h
  simp only [BrokerEvent.worker, hw, workerStep] at hw'
  split_ifs at hw'
  rw [← Option.some.inj hw', requestBlock]
  cases removeBlock s.table name <;> rfl

variable [Fintype W]

/-- `v` is the state after the reply to a remove request of `w` that the block from `s` to `t`
decided. -/
theorem refused_remove_reason (hs : (broker W).Reachable s) {pipe : PipeName} {name : BoxName}
    (hw : s.workers w = .handling (.remove pipe name)) {env : Env}
    (ht : brokerStep s (.block w env) = some t)
    (hu : (broker W).Continues (fun ev => ev.worker ≠ w) t u)
    (hv : brokerStep u (.reply w) = some v) {text : String}
    (hr : v.replies = u.replies ++ [(w, .remove (-1) text)]) :
    (∃ reason : Reason, text = reason.text ∧ reason.TrueOf (namedBox s.table name)) ↔
      ∀ b, namedBox s.table name = some b → b.subscribers = 0 := by
  obtain ⟨xs, hsound⟩ := reachable_sound hs
  have hblock := block_remove hw ht
  have hkept := others_keep hu
  rcases removeBlock_cases hsound.shelved.lists hsound.unlocked name with
    ⟨box, hrefused, heq⟩ | ⟨t', p, heq⟩
  · rw [heq] at hblock
    have hphase : u.workers w = .removeReply box false 0 0 := by
      rw [hkept, hblock]
      exact Function.update_self _ _ _
    obtain ⟨carried, hresponse, hiff⟩ := hrefused.carried
    have hsent := reply_removeReply hphase hv
    rw [hr, hresponse] at hsent
    have htext : text = carried.text := by simpa using hsent
    rw [← hiff, htext]
    constructor
    · rintro ⟨reason, hreason, htrue⟩
      exact Reason.text_injective hreason ▸ htrue
    · exact fun htrue => ⟨carried, rfl, htrue⟩
  · -- a granted remove carries no error
    rw [heq] at hblock
    have hphase : u.workers w = .removeReply (some p) true 0 0 := by
      rw [hkept, hblock]
      exact Function.update_self _ _ _
    have hsent := reply_removeReply hphase hv
    rw [hr] at hsent
    simp [removeResponse] at hsent

def watchedBox (v w : W) (p q : PipeName) (box : BoxName) : List (BrokerEvent W) :=
  [.accept v (.create p box) true, .block v ⟨some 0, 3⟩, .reply v,
    .accept v (.registerSub p box) true, .block v ⟨none, 5⟩, .accept w (.remove q box) true]

theorem refused_remove_reason_watched :
    ∃ s t v : Broker (Fin 2), (broker (Fin 2)).run (broker (Fin 2)).init
        (watchedBox 0 1 pipeP pipeQ boxA) = some s ∧
      brokerStep s (.block 1 ⟨none, 0⟩) = some t ∧ brokerStep t (.reply 1) = some v ∧
      ((∃ reason : Reason, "YOU CANT REMOVE A MSGBOX THAT HAS PUB" = reason.text ∧
          reason.TrueOf (namedBox s.table boxA)) ↔
        ∀ b, namedBox s.table boxA = some b → b.subscribers = 0) := by
  obtain ⟨s, hs, t, ht, v, hv, hw, hr⟩ :
      ∃ s : Broker (Fin 2), (broker (Fin 2)).run (broker (Fin 2)).init
        (watchedBox 0 1 pipeP pipeQ boxA) = some s ∧
      ∃ t, brokerStep s (.block 1 ⟨none, 0⟩) = some t ∧ ∃ v, brokerStep t (.reply 1) = some v ∧
        s.workers 1 = .handling (.remove pipeQ boxA) ∧
        v.replies = t.replies ++ [(1, .remove (-1) "YOU CANT REMOVE A MSGBOX THAT HAS PUB")] :=
    ⟨_, rfl, _, rfl, _, rfl, rfl, rfl⟩
  exact ⟨s, t, v, hs, ht, hv,
    refused_remove_reason (System.reachable_of_run hs) hw ht .refl hv hr⟩

theorem watched_remove_misreported :
    ∃ s t v : Broker (Fin 2), (broker (Fin 2)).Reachable s ∧
      s.workers 1 = .handling (.remove pipeQ boxA) ∧
      brokerStep s (.block 1 ⟨none, 0⟩) = some t ∧ brokerStep t (.reply 1) = some v ∧
      v.replies = t.replies ++ [(1, .remove (-1) "YOU CANT REMOVE A MSGBOX THAT HAS PUB")] ∧
      ¬ ∃ reason : Reason, "YOU CANT REMOVE A MSGBOX THAT HAS PUB" = reason.text ∧
        reason.TrueOf (namedBox s.table boxA) := by
  obtain ⟨s, hs, t, ht, v, hv, hw, hr, hb⟩ :
      ∃ s : Broker (Fin 2), (broker (Fin 2)).run (broker (Fin 2)).init
        (watchedBox 0 1 pipeP pipeQ boxA) = some s ∧
      ∃ t, brokerStep s (.block 1 ⟨none, 0⟩) = some t ∧ ∃ v, brokerStep t (.reply 1) = some v ∧
        s.workers 1 = .handling (.remove pipeQ boxA) ∧
        v.replies = t.replies ++ [(1, .remove (-1) "YOU CANT REMOVE A MSGBOX THAT HAS PUB")] ∧
        namedBox s.table boxA = some ⟨boxA, 0, 1, 0, 3, false, 0⟩ :=
    ⟨_, rfl, _, rfl, _, rfl, rfl, rfl, rfl⟩
  refine ⟨s, t, v, System.reachable_of_run hs, hw, ht, hv, hr, ?_⟩
  rintro ⟨reason, htext, htrue⟩
  have hpub : Reason.pub = reason := Reason.text_injective htext
  subst hpub
  obtain ⟨b, hb', -, hpos⟩ := htrue
  rw [hb] at hb'
  cases hb'
  cases hpos

end MessageBroker.Mbroker
