import MessageBroker.EndToEnd.Draining

namespace MessageBroker.EndToEnd

open MessageBroker.Lib MessageBroker.Protocol MessageBroker.Publisher MessageBroker.Subscriber
  MessageBroker.Mbroker

def RelayEvent.isUnprompted {P S : Type} : RelayEvent P S → Bool
  | .session (.subscriberWake _) | .stop _ | .interrupt _ => true
  | _ => false

variable {P S : Type} [DecidableEq P] [DecidableEq S] {s t : Relay P S} {c : Clients P S}
  {old : List UInt8} {p : P} {u : S}

/-- No program or session can go on. -/
def AtRest (s : Relay P S) : Prop :=
  ∀ ev, WholeAppends s ev → ev.isUnprompted = false → relayStep s ev = none

structure AllShown (s : Relay P S) : Prop where
  publisher : ∀ p, (s.publisher p).running = false ∧ s.box.publisherAt p = .outside ∧
    ((s.publisher p).visit = .refused ∨ postsOf s.posted p = (s.publisher p).sender.written)
  subscriber : ∀ u, (s.subscriber u).receiver.phase = .receiving →
    (∃ y, s.box.subscriberAt u = some y ∧ y.phase = .asleep) ∧
      (s.subscriber u).receiver.stdout =
        s.posted.flatMap fun m => messageText m.2 ++ ascii "\n"

lemma AtRest.session (h : AtRest s) {e : SessionEvent P S} (hw : WholeWrites s.box e)
    (hu : RelayEvent.isUnprompted (.session e) = false) {box : Topic P S}
    (hbox : topicStep s.box e = some box) : sessionEffect s e = none := by
  have hnone : relayStep s (.session e) = none := h (.session e) hw hu
  simpa [relayStep, hbox] using hnone

lemma AtRest.publisher_ended (h : AtRest s) (p : P) : (s.publisher p).running = false := by
  have hsend : relayStep s (.send p) = none := h (.send p) trivial rfl
  simpa [relayStep] using hsend

lemma AtRest.publisher_outside [Fintype P] (h : AtRest s) (hm : Measured s.box)
    (hc : Conserved c s) (p : P) : s.box.publisherAt p = .outside := by
  have hok := hc.publisher p
  cases hx : s.box.publisherAt p with
  | outside => rfl
  | reading =>
    exfalso
    have hend := h.publisher_ended p
    cases hread : (s.publisher p).fifo.read (sizeof messagePacket) with
    | none =>
      obtain ⟨queued, hq, -⟩ := hok.carried
      have hopen := (hq.read_none (by decide) hread).2
      rw [hok.writable, hend] at hopen
      cases hopen
    | some got =>
      obtain ⟨bytes, fifo⟩ := got
      have hnone := h.session (e := .publisherRead p (if bytes = [] then none else some bytes))
        trivial rfl (by simp only [topicStep, publisherStep, hx]; rfl)
      simp [sessionEffect, hread] at hnone
  | writing msgPacket =>
    exfalso
    have hlen := hm.writing p msgPacket hx
    have hnone := h.session (e := .publisherWrite p msgPacket.length) hlen rfl
      (by simp only [topicStep, publisherStep, hx, if_true]; rfl)
    simp [sessionEffect, hx] at hnone
  | updating =>
    exfalso
    have hnone := h.session (e := .publisherUpdate p) trivial rfl
      (by simp only [topicStep, publisherStep, hx]; rfl)
    simp [sessionEffect] at hnone
  | leaving =>
    exfalso
    have hnone := h.session (e := .publisherLeave p) trivial rfl
      (by simp only [topicStep, publisherStep, hx]; rfl)
    simp [sessionEffect] at hnone

lemma AtRest.publisher_visited (h : AtRest s) (hx : s.box.publisherAt p = .outside) :
    (s.publisher p).visit ≠ .awaited := by
  intro hv
  by_cases hpos : 0 < s.box.publishers
  · have hnone := h.session (e := .publisherAdmit p) trivial rfl
      (by simp only [topicStep, publisherStep, hx, if_pos hpos]; rfl)
    simp [sessionEffect, hv] at hnone
  · have hnone := h.session (e := .publisherAdmit p) trivial rfl
      (by simp only [topicStep, publisherStep, hx, if_neg hpos]; rfl)
    simp [sessionEffect, hv] at hnone

lemma AtRest.subscriber_visited (h : AtRest s) (hx : s.box.subscriberAt u = none) :
    (s.subscriber u).visit ≠ .awaited := by
  intro hv
  have hnone := h.session (e := .subscriberAdmit u false) trivial rfl
    (by simp only [topicStep, subscriberStep, hx, Bool.false_eq_true, if_false]; rfl)
  simp [sessionEffect, hv] at hnone

lemma AtRest.read_none (h : AtRest s) (hr : (s.subscriber u).receiver.phase = .receiving) :
    (s.subscriber u).fifo.read (sizeof messagePacket) = none := by
  have hreceive : relayStep s (.receive u none) = none := h (.receive u none) trivial rfl
  simpa [relayStep, hr] using hreceive

lemma AtRest.subscriber_asleep (h : AtRest s) (hc : Conserved c s)
    (hr : (s.subscriber u).receiver.phase = .receiving) :
    ∃ y, s.box.subscriberAt u = some y ∧ y.phase = .asleep := by
  obtain ⟨queued, hq, -⟩ := (hc.subscriber u).carried
  obtain ⟨-, hopen⟩ := hq.read_none (by decide) (h.read_none hr)
  cases hx : s.box.subscriberAt u with
  | none =>
    exfalso
    have hv := h.subscriber_visited hx
    have hhang : relayStep s (.hangUpSubscriber u) = none := h (.hangUpSubscriber u) trivial rfl
    simp [relayStep, hv, hx, hopen] at hhang
  | some y =>
    obtain ⟨phase, off, sent⟩ := y
    refine ⟨_, rfl, ?_⟩
    cases phase with
    | asleep => rfl
    | checking =>
      exfalso
      have hbox : ∃ box, topicStep s.box (.subscriberCheck u) = some box := by
        simp only [topicStep, subscriberStep, hx]
        split_ifs <;> exact ⟨_, rfl⟩
      obtain ⟨box, hbox⟩ := hbox
      have hnone := h.session (e := .subscriberCheck u) trivial rfl hbox
      simp [sessionEffect] at hnone
    | reading =>
      exfalso
      have hbox : ∃ box, topicStep s.box (.subscriberRead u) = some box := by
        simp only [topicStep, subscriberStep, hx]
        split_ifs <;> exact ⟨_, rfl⟩
      obtain ⟨box, hbox⟩ := hbox
      have hnone := h.session (e := .subscriberRead u) trivial rfl hbox
      simp [sessionEffect] at hnone
    | sending packet =>
      exfalso
      have hreadable : (s.subscriber u).fifo.readable = true := by
        rw [(hc.subscriber u).readable, hr]
        rfl
      have hnone := h.session (e := .subscriberWrite u true) trivial rfl
        (by simp only [topicStep, subscriberStep, hx, if_true]; rfl)
      simp [sessionEffect, hx, Pipe.write, hreadable] at hnone
    | leaving =>
      exfalso
      have hnone := h.session (e := .subscriberLeave u) trivial rfl
        (by simp only [topicStep, subscriberStep, hx]; rfl)
      simp [sessionEffect] at hnone

lemma AtRest.shown (h : AtRest s) [Fintype P] (hm : Measured s.box) (hc : Conserved c s)
    (hr : (s.subscriber u).receiver.phase = .receiving) :
    (s.subscriber u).receiver.shown = s.posted.map fun m => deliver m.2 := by
  have hok := hc.subscriber u
  obtain ⟨y, hx, hy⟩ := h.subscriber_asleep hc hr
  obtain ⟨queued, hq, hf⟩ := hok.carried
  obtain ⟨rfl, -⟩ := hq.read_none (by decide) (h.read_none hr)
  have hsettled : ∀ p, s.box.publisherAt p ≠ .updating := by
    intro p
    rw [h.publisher_outside hm hc p]
    exact PublisherSession.noConfusion
  have hall := (hm.delivered.settled hsettled).2 u y hx hy
  rw [List.append_nil] at hf
  rw [← hf, ← (hok.session y hx).1, hall, ← hc.log, List.map_map]
  rfl

lemma AtRest.allShown (h : AtRest s) [Fintype P] (hm : Measured s.box) (hc : Conserved c s) :
    AllShown s := by
  refine ⟨fun p => ?_, fun u hr => ⟨h.subscriber_asleep hc hr, ?_⟩⟩
  · have hx := h.publisher_outside hm hc p
    refine ⟨h.publisher_ended p, hx, ?_⟩
    have hv := h.publisher_visited hx
    obtain ⟨queued, -, hw, hend⟩ := (hc.publisher p).carried
    rw [hx] at hw
    cases hvisit : (s.publisher p).visit with
    | awaited => exact absurd hvisit hv
    | refused => exact .inl rfl
    | admitted =>
      obtain ⟨rfl, -⟩ := hend hvisit (.inr hx)
      exact .inr (hw.trans (by simp [inHand])).symm
  · rw [(hc.subscriber u).printed, h.shown hm hc hr, List.flatMap_map, hr]
    simp only [lineShown_deliver, reduceCtorEq, if_false, List.append_nil]

lemma atRest_of_waiting (hp : ∀ p, (s.publisher p).running = false ∧
      s.box.publisherAt p = .outside ∧ (s.publisher p).visit ≠ .awaited ∧
      (s.publisher p).fifo.readable = false)
    (hu : ∀ u, (∃ y, s.box.subscriberAt u = some y ∧ y.phase = .asleep) ∧
      (s.subscriber u).visit ≠ .awaited ∧
      (s.subscriber u).fifo.read (sizeof messagePacket) = none) : AtRest s := by
  intro ev _ hev
  cases ev with
  | send p => simp [relayStep, (hp p).1]
  | stop | interrupt => cases hev
  | hangUpPublisher p => simp [relayStep, (hp p).2.2.2]
  | hangUpSubscriber u =>
    obtain ⟨⟨y, hy, -⟩, -⟩ := hu u
    simp [relayStep, hy]
  | receive u printError => simp [relayStep, (hu u).2.2]
  | session e =>
    cases e with
    | publisherAdmit p => simp [relayStep, sessionEffect, (hp p).2.2.1]
    | publisherRead p | publisherWrite p | publisherUpdate p | publisherLeave p =>
      simp [relayStep, topicStep, publisherStep, (hp p).2.1]
    | subscriberWake u => cases hev
    | subscriberAdmit u | subscriberCheck u | subscriberRead u | subscriberWrite u
    | subscriberLeave u =>
      obtain ⟨⟨⟨phase, off, sent⟩, hy, rfl⟩, -⟩ := hu u
      simp [relayStep, topicStep, subscriberStep, hy]

def Unaided (s : Relay P S) (ev : RelayEvent P S) : Prop :=
  WholeAppends s ev ∧ ev.isUnprompted = false

instance (s : Relay P S) (ev : RelayEvent P S) : Decidable (Unaided s ev) :=
  inferInstanceAs (Decidable (_ ∧ _))

omit [DecidableEq P] [DecidableEq S] in
lemma isWake_of_isUnprompted {ev : RelayEvent P S} (h : ev.isUnprompted = false) :
    ev.isWake = false := by
  revert h
  cases ev with
  | session e => cases e <;> exact fun h => h
  | send | stop | hangUpPublisher | hangUpSubscriber | receive | interrupt => exact fun _ => rfl

section Clients

variable [Fintype P] [Fintype S]

lemma rest_reached (h : (relay P S old c).ReachableBy WholeAppends s) :
    ∃ as t, (relay P S old c).runIf Unaided s as = some t ∧ AtRest t := by
  induction hd : debt s using Nat.strong_induction_on generalizing s with
  | _ d ih =>
    by_cases hrest : AtRest s
    · exact ⟨[], s, rfl, hrest⟩
    · simp only [AtRest, not_forall] at hrest
      obtain ⟨ev, hw, hu, hne⟩ := hrest
      obtain ⟨t, ht⟩ := Option.ne_none_iff_exists'.mp hne
      obtain ⟨hm, hc⟩ := relay_conserved h
      have hlt := relayStep_debt hm hc hw (isWake_of_isUnprompted hu) ht
      obtain ⟨as, v, hrun, hv⟩ := ih (debt t) (hd ▸ hlt) (.step h hw ht) rfl
      refine ⟨ev :: as, v, ?_, hv⟩
      have hstep : (relay P S old c).step s ev = some t := ht
      rw [System.runIf, if_pos ⟨hw, hu⟩, hstep]
      exact hrun

lemma unaided_run {as : List (RelayEvent P S)} (hI : Measured s.box ∧ Conserved c s)
    (hr : (relay P S old c).runIf Unaided s as = some t) :
    (Measured t.box ∧ Conserved c t) ∧ as.length ≤ debt s := by
  have hrun := System.run_length_le (I := fun s => Measured s.box ∧ Conserved c s) (μ := debt) ?_
    hI hr
  · exact ⟨hrun.1, by omega⟩
  · intro s ev t hI hk hs
    exact ⟨relayStep_conserved hI.1 hI.2 hk.1 hs,
      relayStep_debt hI.1 hI.2 hk.1 (isWake_of_isUnprompted hk.2) hs⟩

theorem relay_comes_to_rest (h : (relay P S old c).ReachableBy WholeAppends s) :
    (∃ as t, (relay P S old c).runIf Unaided s as = some t ∧ AtRest t) ∧
      ∀ as t, (relay P S old c).runIf Unaided s as = some t →
        as.length ≤ debt s ∧ (AtRest t → AllShown t) := by
  refine ⟨rest_reached h, fun as t hr => ?_⟩
  obtain ⟨⟨hm, hc⟩, hle⟩ := unaided_run (relay_conserved h) hr
  exact ⟨hle, fun hrest => hrest.allShown hm hc⟩

end Clients

theorem relay_comes_to_rest_two_lines :
    (∃ as t, (relay Unit Unit [] (oneOfEach (ascii "a\nb\n"))).runIf Unaided
      (relay Unit Unit [] (oneOfEach (ascii "a\nb\n"))).init as = some t ∧ AtRest t) ∧
      ∀ as t, (relay Unit Unit [] (oneOfEach (ascii "a\nb\n"))).runIf Unaided
          (relay Unit Unit [] (oneOfEach (ascii "a\nb\n"))).init as = some t →
        as.length ≤ debt (relay Unit Unit [] (oneOfEach (ascii "a\nb\n"))).init ∧
          (AtRest t → AllShown t) :=
  relay_comes_to_rest .init

end MessageBroker.EndToEnd
