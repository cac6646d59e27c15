import MessageBroker.EndToEnd.Links
import MessageBroker.Mbroker.SessionSteps

namespace MessageBroker.EndToEnd

open MessageBroker.Lib MessageBroker.Protocol MessageBroker.Publisher MessageBroker.Subscriber
  MessageBroker.Mbroker

variable {P S : Type} [DecidableEq P] [DecidableEq S] {s t : Relay P S} {ev : RelayEvent P S}
  {c : Clients P S} {old : List UInt8} {p q : P} {u v : S}

def postsOf (posted : List (P × List UInt8)) (p : P) : List (List UInt8) :=
  (posted.filter fun m => m.1 = p).map Prod.snd

lemma postsOf_append (posted new : List (P × List UInt8)) (p : P) :
    postsOf (posted ++ new) p = postsOf posted p ++ postsOf new p := by
  simp [postsOf]

lemma mem_postsOf {posted : List (P × List UInt8)} {m : P × List UInt8} (h : m ∈ posted) :
    m.2 ∈ postsOf posted m.1 :=
  List.mem_map_of_mem (List.mem_filter.mpr ⟨h, by simp⟩)

lemma postsOf_other {new : List (P × List UInt8)} (h : ∀ m ∈ new, m.1 = p) (hq : q ≠ p) :
    postsOf new q = [] := by
  rw [postsOf, List.map_eq_nil_iff, List.filter_eq_nil_iff]
  intro m hm he
  exact hq ((of_decide_eq_true he).symm.trans (h m hm))

structure Conserved (c : Clients P S) (s : Relay P S) : Prop where
  log : s.posted.map Prod.snd = s.box.log
  publisher : ∀ p, PublisherOk (postsOf s.posted p) (s.box.publisherAt p) (s.publisher p)
  subscriber : ∀ u, SubscriberOk (c.errno u) s.box.log (s.box.subscriberAt u) (s.subscriber u)

namespace Conserved

omit [DecidableEq S] in
lemma legible (h : Conserved c s) : ∀ m ∈ s.box.log, Legible m := by
  intro m hm
  rw [← h.log] at hm
  obtain ⟨n, hn, rfl⟩ := List.mem_map.mp hm
  obtain ⟨queued, -, hw, -⟩ := (h.publisher n.1).carried
  apply (h.publisher n.1).legible
  rw [hw]
  simp [mem_postsOf hn]

omit [DecidableEq S] in
lemma publisherMoves (h : Conserved c s) {x : PublisherSession} {l : PublisherLink}
    (new : List (P × List UInt8)) (hx : t.box.publisherAt = Function.update s.box.publisherAt p x)
    (hl : t.publisher = Function.update s.publisher p l) (hp : t.posted = s.posted ++ new)
    (hnew : ∀ m ∈ new, m.1 = p) (hok : PublisherOk (postsOf t.posted p) x l)
    (hlog : t.box.log = s.box.log ++ new.map Prod.snd)
    (hsub : ∀ u, SubscriberOk (c.errno u) t.box.log (t.box.subscriberAt u) (t.subscriber u)) :
    Conserved c t := by
  refine ⟨?_, ?_, hsub⟩
  · rw [hp, hlog, List.map_append, h.log]
  · intro q
    by_cases hq : q = p
    · subst hq
      rw [hx, hl, Function.update_self, Function.update_self]
      exact hok
    · rw [hx, hl, Function.update_of_ne hq, Function.update_of_ne hq, hp, postsOf_append,
        postsOf_other hnew hq, List.append_nil]
      exact h.publisher q

lemma subscriberMoves (h : Conserved c s) {x : Option SubscriberSession} {l : SubscriberLink}
    (hx : t.box.subscriberAt = Function.update s.box.subscriberAt u x)
    (hl : t.subscriber = Function.update s.subscriber u l) (hp : t.posted = s.posted)
    (hbox : t.box.publisherAt = s.box.publisherAt) (hpub : t.publisher = s.publisher)
    (hlog : t.box.log = s.box.log) (hok : SubscriberOk (c.errno u) s.box.log x l) :
    Conserved c t := by
  refine ⟨?_, ?_, ?_⟩
  · rw [hp, hlog, h.log]
  · intro q
    rw [hp, hbox, hpub]
    exact h.publisher q
  · intro v
    rw [hx, hl, hlog]
    by_cases hv : v = u
    · subst hv
      rw [Function.update_self, Function.update_self]
      exact hok
    · rw [Function.update_of_ne hv, Function.update_of_ne hv]
      exact h.subscriber v

omit [DecidableEq S] in
lemma atPublisher (h : Conserved c s) {l : PublisherLink}
    (hok : PublisherOk (postsOf s.posted p) (s.box.publisherAt p) l) :
    Conserved c (setPublisherLink s p l) :=
  h.publisherMoves [] (Function.update_eq_self _ _).symm rfl (List.append_nil _).symm (by simp) hok
    (List.append_nil _).symm h.subscriber

lemma atSubscriber (h : Conserved c s) {l : SubscriberLink}
    (hok : SubscriberOk (c.errno u) s.box.log (s.box.subscriberAt u) l) :
    Conserved c (setSubscriberLink s u l) :=
  h.subscriberMoves (Function.update_eq_self _ _).symm rfl rfl rfl rfl rfl hok

end Conserved

variable [Fintype P]

lemma session_conserved (hm : Measured s.box) (h : Conserved c s) {e : SessionEvent P S}
    (hw : WholeWrites s.box e) {box : Topic P S} (hbox : topicStep s.box e = some box)
    (hs : sessionEffect s e = some t) : Conserved c { t with box := box } := by
  cases e with
  | publisherAdmit p =>
    obtain ⟨hx, rfl⟩ := publisherAdmit_step hbox
    simp only [sessionEffect, Option.ite_none_left_eq_some, Option.some.injEq, not_not] at hs
    obtain ⟨hv, rfl⟩ := hs
    have hok := h.publisher p
    by_cases hpos : 0 < s.box.publishers
    · simp only [if_pos hpos]
      exact h.atPublisher (hok.refuse hv)
    · simp only [if_neg hpos]
      exact h.publisherMoves [] rfl rfl (List.append_nil _).symm (by simp) (hok.enter hv)
        (List.append_nil _).symm h.subscriber
  | publisherRead p received =>
    obtain ⟨hx, rfl⟩ := publisherRead_step hbox
    simp only [sessionEffect, Option.bind_eq_some_iff, Prod.exists] at hs
    obtain ⟨bytes, fifo, hread, hs⟩ := hs
    simp only [Option.ite_none_right_eq_some, Option.some.injEq] at hs
    obtain ⟨rfl, rfl⟩ := hs
    have hok := h.publisher p
    rw [hx] at hok
    exact h.publisherMoves [] rfl rfl (List.append_nil _).symm (by simp) (hok.take hread)
      (List.append_nil _).symm h.subscriber
  | publisherWrite p written =>
    obtain ⟨msgPacket, hx, hbox⟩ := publisherWrite_step hbox
    have hlen := hm.writing p msgPacket hx
    have hall : written = msgPacket.length := by
      rw [hlen]
      exact hw
    rcases hbox with ⟨-, rfl⟩ | ⟨hlt, -⟩
    · simp only [sessionEffect, hx, if_pos hall, Option.some.injEq] at hs
      subst hs
      have hok := h.publisher p
      rw [hx] at hok
      refine h.publisherMoves [(p, msgPacket)] (x := .updating) rfl
        (Function.update_eq_self _ _).symm rfl (by simp) ?_ rfl (fun u => (h.subscriber u).append _)
      simpa [postsOf_append, postsOf] using hok.store
    · omega
  | publisherUpdate p =>
    obtain ⟨hx, rfl⟩ := publisherUpdate_step hbox
    cases hs
    have hok := h.publisher p
    rw [hx] at hok
    exact h.publisherMoves [] rfl (Function.update_eq_self _ _).symm (List.append_nil _).symm
      (by simp) hok.update (List.append_nil _).symm (fun u => (h.subscriber u).woken)
  | publisherLeave p =>
    obtain ⟨hx, rfl⟩ := publisherLeave_step hbox
    cases hs
    have hok := h.publisher p
    rw [hx] at hok
    exact h.publisherMoves [] rfl (Function.update_eq_self _ _).symm (List.append_nil _).symm
      (by simp) hok.leave (List.append_nil _).symm h.subscriber
  | subscriberAdmit u opened =>
    obtain ⟨hx, rfl⟩ := subscriberAdmit_step hbox
    simp only [sessionEffect, Option.ite_none_left_eq_some, Option.some.injEq, not_not] at hs
    obtain ⟨hv, rfl⟩ := hs
    have hok := h.subscriber u
    rw [hx] at hok
    cases opened with
    | true => exact h.subscriberMoves rfl rfl rfl rfl rfl rfl (hok.enter hv)
    | false =>
      refine h.atSubscriber ?_
      rw [hx]
      exact hok.refuse
  | subscriberCheck u =>
    obtain ⟨off, sent, hx, rfl⟩ := subscriberCheck_step hbox
    cases hs
    exact h.subscriberMoves rfl (Function.update_eq_self _ _).symm rfl rfl rfl rfl
      ((h.subscriber u).session_eq hx rfl)
  | subscriberWake u =>
    obtain ⟨off, sent, hx, rfl⟩ := subscriberWake_step hbox
    cases hs
    exact h.subscriberMoves rfl (Function.update_eq_self _ _).symm rfl rfl rfl rfl
      ((h.subscriber u).session_eq hx rfl)
  | subscriberRead u =>
    obtain ⟨off, sent, hx, x, rfl, hsent, -⟩ := subscriberRead_step hbox
    cases hs
    exact h.subscriberMoves rfl (Function.update_eq_self _ _).symm rfl rfl rfl rfl
      ((h.subscriber u).session_eq hx hsent)
  | subscriberWrite u whole =>
    obtain ⟨packet, off, sent, hx, rfl⟩ := subscriberWrite_step hbox
    have hnext := (hm.subscribers u _ hx).position.2.2
    have hok := h.subscriber u
    rw [hx] at hok
    cases hfifo : (s.subscriber u).fifo.write packet with
    | none =>
      cases whole with
      | true => simp [sessionEffect, hx, hfifo] at hs
      | false =>
        simp only [sessionEffect, hx, hfifo] at hs
        cases hs
        exact h.subscriberMoves rfl (Function.update_eq_self _ _).symm rfl rfl rfl rfl
          ((h.subscriber u).session_eq hx rfl)
    | some fifo =>
      cases whole with
      | false => simp [sessionEffect, hx, hfifo] at hs
      | true =>
        simp only [sessionEffect, hx, hfifo] at hs
        cases hs
        have hlen : packet.length = sizeof messagePacket := by
          obtain ⟨m, hmem, rfl⟩ := List.mem_map.mp
            (hnext.subset (List.mem_append_right _ (List.mem_singleton_self packet)))
          exact (deliver_length m).trans (h.legible m hmem).whole
        exact h.subscriberMoves rfl rfl rfl rfl rfl rfl (hok.forward hnext hlen hfifo)
  | subscriberLeave u =>
    obtain ⟨off, sent, hx, rfl⟩ := subscriberLeave_step hbox
    cases hs
    have hok := h.subscriber u
    rw [hx] at hok
    exact h.subscriberMoves rfl (Function.update_eq_self _ _).symm rfl rfl rfl rfl hok.leave

lemma relayStep_conserved (hm : Measured s.box) (h : Conserved c s) (hw : WholeAppends s ev)
    (hs : relayStep s ev = some t) : Measured t.box ∧ Conserved c t := by
  cases ev with
  | send p =>
    simp only [relayStep, Option.ite_none_right_eq_some, Option.some.injEq] at hs
    obtain ⟨hr, rfl⟩ := hs
    exact ⟨hm, h.atPublisher ((h.publisher p).send hr)⟩
  | stop p =>
    simp only [relayStep, Option.ite_none_right_eq_some, Option.some.injEq] at hs
    obtain ⟨-, rfl⟩ := hs
    exact ⟨hm, h.atPublisher (h.publisher p).exit⟩
  | session e =>
    simp only [relayStep, Option.bind_eq_some_iff, Option.map_eq_some_iff] at hs
    obtain ⟨box, hbox, t, ht, rfl⟩ := hs
    exact ⟨topicStep_measured hm hw hbox, session_conserved hm h hw hbox ht⟩
  | hangUpPublisher p =>
    simp only [relayStep, Option.ite_none_right_eq_some, Option.some.injEq] at hs
    obtain ⟨⟨hv, hx, -⟩, rfl⟩ := hs
    have hok := h.publisher p
    rw [hx] at hok
    refine ⟨hm, h.atPublisher ?_⟩
    rw [hx]
    exact hok.hangUp hv
  | hangUpSubscriber u =>
    simp only [relayStep, Option.ite_none_right_eq_some, Option.some.injEq] at hs
    obtain ⟨⟨hv, hx, -⟩, rfl⟩ := hs
    have hok := h.subscriber u
    rw [hx] at hok
    refine ⟨hm, h.atSubscriber ?_⟩
    rw [hx]
    exact hok.hangUp hv
  | receive u printError =>
    simp only [relayStep, Option.ite_none_left_eq_some, Option.map_eq_some_iff, Prod.exists,
      not_not] at hs
    obtain ⟨hr, bytes, fifo, hread, rfl⟩ := hs
    exact ⟨hm, h.atSubscriber ((h.subscriber u).receive h.legible hr hread printError)⟩
  | interrupt u =>
    simp only [relayStep, Option.ite_none_left_eq_some, Option.some.injEq, not_not] at hs
    obtain ⟨hr, rfl⟩ := hs
    exact ⟨hm, h.atSubscriber ((h.subscriber u).interrupt hr)⟩

omit [Fintype P] in
lemma init_conserved : Conserved c (relay P S old c).init := by
  refine ⟨rfl, fun p => ?_, fun u => ?_⟩
  · refine ⟨⟨[], .opened, rfl, fun hv => by cases hv⟩, ?_, ?_, fun _ => rfl, rfl, fun _ => rfl⟩
    · intro m hm
      cases hm
    · exact fun _ => entered_armed (c.whole p) (c.input p)
  · refine ⟨?_, fun _ => ⟨rfl, rfl⟩, List.nil_prefix, ⟨[], .opened, rfl⟩, rfl, rfl, rfl,
      fun _ => rfl, .inl rfl⟩
    intro y hy
    cases hy

lemma relay_conserved (h : (relay P S old c).ReachableBy WholeAppends s) :
    Measured s.box ∧ Conserved c s := by
  apply h.invariant (I := fun s => Measured s.box ∧ Conserved c s)
  · exact ⟨whole_measured (.init : (topic P S old).ReachableBy WholeWrites _), init_conserved⟩
  · intro s ev t hs hw hst
    exact relayStep_conserved hs.1 hs.2 hw hst

def Faithful (input : List UInt8) (l : PublisherLink) : Prop :=
  ∃ rest, input = sentText l.sender ++ rest ∧
    (l.running = true → rest = l.sender.stdin.rest ∧ Running l.sender ∧
      (lastLine input).length ≡ (lastLine rest).length [MOD 1023])

namespace Faithful

variable {input : List UInt8} {l l' : PublisherLink}

lemma exit (h : Faithful input l) : Faithful input l.exit := by
  obtain ⟨rest, hrest, -⟩ := h
  refine ⟨rest, hrest, ?_⟩
  intro hr
  cases hr

lemma send (h : Faithful input l) (hr : l.running = true) : Faithful input l.send := by
  obtain ⟨rest, hrest, hrun⟩ := h
  obtain ⟨rfl, hrunning, hlast⟩ := hrun hr
  rcases sendStep_cases hrunning with ⟨t, ht, hw, -⟩ | ⟨t, line, ht, hrun', htext, hcut, -⟩
  · simp only [PublisherLink.send, ht]
    refine ⟨l.sender.stdin.rest, ?_, fun he => by cases he⟩
    rw [sentText, PublisherLink.exit, hw]
    exact hrest
  · cases hfifo : l.fifo.write t.packet with
    | none =>
      simp only [PublisherLink.send, ht, hfifo]
      exact ⟨_, hrest, fun he => by cases he⟩
    | some fifo =>
      simp only [PublisherLink.send, ht, hfifo]
      refine ⟨t.stdin.rest, ?_, fun _ => ⟨rfl, hrun', hlast.trans hcut.lastLine_modEq⟩⟩
      rw [htext, List.append_assoc, ← hcut.append]
      exact hrest

lemma congr (h : Faithful input l) (hs : l'.sender = l.sender) (hr : l'.running = l.running) :
    Faithful input l' := by
  rw [Faithful, hs, hr]
  exact h

end Faithful

omit [Fintype P] in
lemma sessionEffect_process {e : SessionEvent P S} (hs : sessionEffect s e = some t) (p : P) :
    (t.publisher p).sender = (s.publisher p).sender ∧
      (t.publisher p).running = (s.publisher p).running ∧
        ((t.publisher p).visit ≠ .refused → (s.publisher p).visit ≠ .refused) := by
  cases e with
  | publisherAdmit q =>
    simp only [sessionEffect, Option.ite_none_left_eq_some, Option.some.injEq, not_not] at hs
    obtain ⟨hv, rfl⟩ := hs
    rw [setPublisherLink_publisher]
    by_cases hq : p = q
    · subst hq
      rw [if_pos rfl]
      exact ⟨rfl, rfl, fun _ => by rw [hv]; decide⟩
    · rw [if_neg hq]
      exact ⟨rfl, rfl, id⟩
  | publisherRead q received =>
    simp only [sessionEffect, Option.bind_eq_some_iff, Prod.exists] at hs
    obtain ⟨bytes, fifo, -, hs⟩ := hs
    simp only [Option.ite_none_right_eq_some, Option.some.injEq] at hs
    obtain ⟨-, rfl⟩ := hs
    rw [setPublisherLink_publisher]
    split_ifs with hq
    · exact hq ▸ ⟨rfl, rfl, id⟩
    · exact ⟨rfl, rfl, id⟩
  | publisherWrite q written =>
    simp only [sessionEffect] at hs
    split at hs
    · split_ifs at hs <;> cases hs <;> exact ⟨rfl, rfl, id⟩
    · cases hs
  | subscriberAdmit u opened =>
    simp only [sessionEffect, Option.ite_none_left_eq_some, Option.some.injEq] at hs
    obtain ⟨-, rfl⟩ := hs
    exact ⟨rfl, rfl, id⟩
  | subscriberWrite u whole =>
    simp only [sessionEffect] at hs
    split at hs
    · split at hs
      · split_ifs at hs
        cases hs
        exact ⟨rfl, rfl, id⟩
      · split_ifs at hs
        cases hs
        exact ⟨rfl, rfl, id⟩
    · cases hs
  | publisherUpdate | publisherLeave | subscriberCheck | subscriberWake | subscriberRead
  | subscriberLeave =>
    cases hs
    exact ⟨rfl, rfl, id⟩

omit [Fintype P] in
lemma relayStep_faithful (h : ∀ p, Faithful (c.input p) (s.publisher p))
    (hs : relayStep s ev = some t) : ∀ p, Faithful (c.input p) (t.publisher p) := by
  intro p
  cases ev with
  | send q =>
    simp only [relayStep, Option.ite_none_right_eq_some, Option.some.injEq] at hs
    obtain ⟨hr, rfl⟩ := hs
    rw [setPublisherLink_publisher]
    split_ifs with hq
    · subst hq
      exact (h p).send hr
    · exact h p
  | stop q =>
    simp only [relayStep, Option.ite_none_right_eq_some, Option.some.injEq] at hs
    obtain ⟨-, rfl⟩ := hs
    rw [setPublisherLink_publisher]
    split_ifs with hq
    · subst hq
      exact (h p).exit
    · exact h p
  | session e =>
    simp only [relayStep, Option.bind_eq_some_iff, Option.map_eq_some_iff] at hs
    obtain ⟨box, -, t, ht, rfl⟩ := hs
    obtain ⟨hsender, hrunning, -⟩ := sessionEffect_process ht p
    exact (h p).congr hsender hrunning
  | hangUpPublisher q =>
    simp only [relayStep, Option.ite_none_right_eq_some, Option.some.injEq] at hs
    obtain ⟨-, rfl⟩ := hs
    rw [setPublisherLink_publisher]
    split_ifs with hq
    · subst hq
      exact (h p).congr rfl rfl
    · exact h p
  | hangUpSubscriber u =>
    simp only [relayStep, Option.ite_none_right_eq_some, Option.some.injEq] at hs
    obtain ⟨-, rfl⟩ := hs
    exact h p
  | receive u printError =>
    simp only [relayStep, Option.ite_none_left_eq_some, Option.map_eq_some_iff] at hs
    obtain ⟨-, -, -, rfl⟩ := hs
    exact h p
  | interrupt u =>
    simp only [relayStep, Option.ite_none_left_eq_some, Option.some.injEq] at hs
    obtain ⟨-, rfl⟩ := hs
    exact h p

omit [Fintype P] in
lemma relay_faithful (h : (relay P S old c).ReachableBy WholeAppends s)
    (hn : ∀ p, 0 ∉ c.input p) : ∀ p, Faithful (c.input p) (s.publisher p) := by
  apply h.invariant (I := fun s => ∀ p, Faithful (c.input p) (s.publisher p))
  · intro p
    exact ⟨c.input p, rfl, fun _ =>
      ⟨rfl, ⟨(entered_armed (c.whole p) _).whole, rfl, hn p⟩, rfl⟩⟩
  · intro s ev t hf _ hst
    exact relayStep_faithful hf hst

lemma lineShown_deliver (m : List UInt8) : lineShown (deliver m) = messageText m ++ ascii "\n" := by
  rw [lineShown, readString, deliver_drop]
  rfl

omit [Fintype P] [DecidableEq S] in
lemma Conserved.shown_eq (h : Conserved c s) (u : S) :
    let r := (s.subscriber u).receiver
    r.messagesReceived ≤ s.posted.length ∧
      r.shown = (s.posted.take r.messagesReceived).map fun m => deliver m.2 := by
  have hok := h.subscriber u
  obtain ⟨queued, -, hf⟩ := hok.carried
  have hprefix : (s.subscriber u).receiver.shown <+: s.posted.map fun m => deliver m.2 := by
    have hlog : s.posted.map (fun m => deliver m.2) = s.box.log.map deliver := by
      rw [← h.log, List.map_map]
      rfl
    rw [hlog]
    exact (hf ▸ List.prefix_append _ _ : _ <+: (s.subscriber u).forwarded).trans hok.inOrder
  constructor
  · rw [hok.counted]
    simpa using hprefix.length_le
  · rw [hok.counted, List.map_take]
    exact List.prefix_iff_eq_take.mp hprefix

structure Accounted (c : Clients P S) (s : Relay P S) : Prop where
  log : s.posted.map Prod.snd = s.box.log
  publisher : ∀ p, ∃ queued, (s.publisher p).fifo.bytes = queued.flatten ∧
    (s.publisher p).sender.written =
      postsOf s.posted p ++ inHand (s.box.publisherAt p) ++ queued
  -- a session over has stored all that its publisher sent
  complete : ∀ p, (s.publisher p).visit = .admitted → s.box.publisherAt p = .outside →
    postsOf s.posted p = (s.publisher p).sender.written ∧ (s.publisher p).running = false
  subscriber : ∀ u, ∃ queued, (s.subscriber u).fifo.bytes = queued.flatten ∧
    (s.subscriber u).forwarded = (s.subscriber u).receiver.shown ++ queued
  inOrder : ∀ u, (s.subscriber u).forwarded <+: s.box.log.map deliver
  -- no packet is taken for invalid, and none is printed beyond its end
  calm : ∀ u, (s.subscriber u).receiver.phase = .receiving ∨
    (s.subscriber u).receiver.phase = .finished ∨
    (s.subscriber u).receiver.phase = .panicked "UNKNOWN ERROR!" ∧
      errnoAfter (c.errno u) (s.subscriber u).receiver.printErrors ≠ 0 ∧
      errnoAfter (c.errno u) (s.subscriber u).receiver.printErrors ≠ eintr

theorem packets_accounted (h : (relay P S old c).ReachableBy WholeAppends s) : Accounted c s := by
  obtain ⟨-, hc⟩ := relay_conserved h
  refine ⟨hc.log, fun p => ?_, fun p hv hx => ?_, fun u => ?_, fun u => (hc.subscriber u).inOrder,
    fun u => (hc.subscriber u).calm⟩
  · obtain ⟨queued, hq, hw, -⟩ := (hc.publisher p).carried
    exact ⟨queued, hq.bytes, hw⟩
  · obtain ⟨queued, -, hw, hend⟩ := (hc.publisher p).carried
    obtain ⟨rfl, hr⟩ := hend hv (.inr hx)
    rw [hx] at hw
    exact ⟨(hw.trans (by simp [inHand])).symm, hr⟩
  · obtain ⟨queued, hq, hf⟩ := (hc.subscriber u).carried
    exact ⟨queued, hq.bytes, hf⟩

def oneOfEach (input : List UInt8) : Clients Unit Unit where
  memory _ := List.replicate (sizeof messagePacket) 7
  whole _ := List.length_replicate
  input _ := input
  errno _ := 0

def hiPacket : List UInt8 := 9 :: 104 :: 105 :: 10 :: 0 :: List.replicate 1020 7

theorem packets_accounted_halfway :
    ∃ s, (relay Unit Unit [7] (oneOfEach (ascii "hi\n"))).ReachableBy WholeAppends s ∧
      s.box.log = [hiPacket] ∧ Accounted (oneOfEach (ascii "hi\n")) s := by
  have hrun : ((relay Unit Unit [7] (oneOfEach (ascii "hi\n"))).runIf WholeAppends
      (relay Unit Unit [7] (oneOfEach (ascii "hi\n"))).init
        [.session (.subscriberAdmit () true), .session (.publisherAdmit ()), .send (),
          .session (.publisherRead () (some hiPacket)), .session (.publisherWrite () 1025),
          .session (.publisherUpdate ()), .session (.subscriberCheck ()),
          .session (.subscriberRead ())]).map (fun s => s.box.log) = some [hiPacket] := by
    decide +kernel
  obtain ⟨s, hs, hlog⟩ := Option.map_eq_some_iff.mp hrun
  have hreach := System.ReachableBy.init.runIf hs
  exact ⟨s, hreach, hlog, packets_accounted hreach⟩

structure ShownInOrder (c : Clients P S) (s : Relay P S) : Prop where
  stored : ∀ p, (postsOf s.posted p).flatMap messageText <+: c.input p
  count : ∀ u, (s.subscriber u).receiver.messagesReceived ≤ s.posted.length
  shown : ∀ u, let r := (s.subscriber u).receiver
    r.stdout =
      ((s.posted.take r.messagesReceived).flatMap fun m => messageText m.2 ++ ascii "\n") ++
        if r.phase = .finished then farewell r.messagesReceived else []

theorem shown_in_order (h : (relay P S old c).ReachableBy WholeAppends s)
    (hn : ∀ p, 0 ∉ c.input p) : ShownInOrder c s := by
  obtain ⟨-, hc⟩ := relay_conserved h
  refine ⟨fun p => ?_, fun u => (hc.shown_eq u).1, fun u => ?_⟩
  · obtain ⟨queued, -, hw, -⟩ := (hc.publisher p).carried
    obtain ⟨rest, hrest, -⟩ := relay_faithful h hn p
    refine ⟨(inHand (s.box.publisherAt p) ++ queued).flatMap messageText ++ rest, ?_⟩
    rw [hrest, sentText, hw, ← List.append_assoc, ← List.flatMap_append, ← List.append_assoc,
      List.flatMap_def]
  · dsimp only
    rw [(hc.subscriber u).printed, (hc.shown_eq u).2, List.flatMap_map]
    simp only [lineShown_deliver]

theorem shown_in_order_line :
    ∃ s, (relay Unit Unit [7] (oneOfEach (ascii "hi\n"))).ReachableBy WholeAppends s ∧
      (s.subscriber ()).receiver.stdout = ascii "hi\n\nReceived 1 messages!\n" ∧
        ShownInOrder (oneOfEach (ascii "hi\n")) s := by
  have hrun : ((relay Unit Unit [7] (oneOfEach (ascii "hi\n"))).runIf WholeAppends
      (relay Unit Unit [7] (oneOfEach (ascii "hi\n"))).init
        [.session (.subscriberAdmit () true), .session (.publisherAdmit ()), .send (),
          .session (.publisherRead () (some hiPacket)), .session (.publisherWrite () 1025),
          .session (.publisherUpdate ()), .session (.subscriberCheck ()),
          .session (.subscriberRead ()), .session (.subscriberWrite () true), .receive () none,
          .interrupt ()]).map (fun s => (s.subscriber ()).receiver.stdout) =
      some (ascii "hi\n\nReceived 1 messages!\n") := by
    decide +kernel
  have hnul : 0 ∉ ascii "hi\n" := by decide
  obtain ⟨s, hs, hout⟩ := Option.map_eq_some_iff.mp hrun
  have hreach := System.ReachableBy.init.runIf hs
  exact ⟨s, hreach, hout, shown_in_order hreach (fun _ => hnul)⟩

end MessageBroker.EndToEnd
