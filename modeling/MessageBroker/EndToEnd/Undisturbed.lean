import MessageBroker.EndToEnd.Rest

namespace MessageBroker.EndToEnd

open MessageBroker.Lib MessageBroker.Protocol MessageBroker.Publisher MessageBroker.Subscriber
  MessageBroker.Mbroker

variable {P S : Type} [DecidableEq P] [DecidableEq S] {s t : Relay P S} {c : Clients P S}
  {old : List UInt8} {p : P} {u : S}

def Sent (input : List UInt8) (l : PublisherLink) : Prop :=
  l.visit ≠ .refused → l.running = false → ∃ unsent, input = sentText l.sender ++ unsent ∧
    unsent.length = (lastLine input).length % 1023

lemma send_sent {posts : List (List UInt8)} {x : PublisherSession} {l : PublisherLink}
    {input : List UInt8} (h : PublisherOk posts x l) (hf : Faithful input l)
    (hr : l.running = true) : Sent input l.send := by
  obtain ⟨rest, hrest, hrun⟩ := hf
  obtain ⟨rfl, hrunning, hlast⟩ := hrun hr
  rcases sendStep_cases hrunning with ⟨t, ht, hw, hcut⟩ | ⟨t, line, ht, hrun', -, -, -⟩
  · intro _ _
    simp only [PublisherLink.send, ht, PublisherLink.exit]
    obtain ⟨hline, hlen⟩ := hcut.lastLine_at_end
    refine ⟨l.sender.stdin.rest, ?_, ?_⟩
    · rw [sentText, hw]
      exact hrest
    · rw [hlast, hline, Nat.mod_eq_of_lt hlen]
  · cases hfifo : l.fifo.write t.packet with
    | none =>
      intro hv
      exfalso
      have hv : l.visit ≠ .refused := by
        simpa only [PublisherLink.send, ht, hfifo, PublisherLink.exit] using hv
      -- the FIFO of a running publisher is read until the session has met its end
      have hreadable : l.fifo.readable = true := by
        cases hvisit : l.visit with
        | awaited => exact h.readable (.inr hvisit)
        | refused => exact absurd hvisit hv
        | admitted =>
          refine h.readable (.inl ?_)
          intro hx
          obtain ⟨queued, -, -, hend⟩ := h.carried
          have hdead := (hend hvisit (.inr hx)).2
          rw [hr] at hdead
          cases hdead
      simp [Pipe.write, hreadable] at hfifo
    | some fifo =>
      intro _ he
      simp only [PublisherLink.send, ht, hfifo] at he
      rw [hr] at he
      cases he

def Served (x : Option SubscriberSession) (l : SubscriberLink) : Prop :=
  l.visit ≠ .refused → l.receiver.phase = .receiving ∧ l.fifo.writable = true ∧
    (l.visit = .admitted → ∃ y, x = some y ∧ y.phase ≠ .leaving)

lemma Served.session {x : Option SubscriberSession} {l : SubscriberLink} (h : Served x l)
    {y : SubscriberSession} (hy : y.phase ≠ .leaving) : Served (some y) l := by
  intro hv
  obtain ⟨hr, hw, -⟩ := h hv
  exact ⟨hr, hw, fun _ => ⟨y, rfl, hy⟩⟩

lemma Served.woken {x : Option SubscriberSession} {l : SubscriberLink} (h : Served x l) :
    Served (x.map SubscriberSession.woken) l := by
  intro hv
  obtain ⟨hr, hw, hs⟩ := h hv
  refine ⟨hr, hw, fun ha => ?_⟩
  obtain ⟨y, rfl, hy⟩ := hs ha
  refine ⟨y.woken, rfl, ?_⟩
  obtain ⟨phase, off, sent⟩ := y
  cases phase <;> simp_all [SubscriberSession.woken]

lemma Served.receive {errno : ℕ} {log : List (List UInt8)} {x : Option SubscriberSession}
    {l : SubscriberLink} (h : Served x l) (hok : SubscriberOk errno log x l)
    (hlog : ∀ m ∈ log, Legible m) {bytes : List UInt8} {fifo : Pipe}
    (hread : l.fifo.read (sizeof messagePacket) = some (bytes, fifo)) (printError : Option ℕ) :
    Served x (l.receive fifo (.ok bytes) printError) := by
  intro hv
  obtain ⟨hr, hw, hs⟩ := h hv
  obtain ⟨queued, hc, hf⟩ := hok.carried
  rcases hc.read hread with ⟨-, -, hend, -⟩ | ⟨rest, rfl, -, -, hsame⟩
  · rw [hw] at hend
    cases hend
  · have hmem : bytes ∈ log.map deliver := by
      apply hok.inOrder.subset
      rw [hf]
      simp
    obtain ⟨m, hm, rfl⟩ := List.mem_map.mp hmem
    simp only [SubscriberLink.receive, receiveStep_shows (hlog m hm).deliver]
    exact ⟨hr, hsame.trans hw, hs⟩

lemma session_served [Fintype P] (hm : Measured s.box) (hc : Conserved c s)
    (h : ∀ u, Served (s.box.subscriberAt u) (s.subscriber u)) {e : SessionEvent P S}
    {box : Topic P S} (hbox : topicStep s.box e = some box) (hs : sessionEffect s e = some t)
    (v : S) : Served (box.subscriberAt v) (t.subscriber v) := by
  cases e with
  | publisherAdmit p =>
    obtain ⟨-, rfl⟩ := publisherAdmit_step hbox
    simp only [sessionEffect, Option.ite_none_left_eq_some, Option.some.injEq] at hs
    obtain ⟨-, rfl⟩ := hs
    split_ifs <;> exact h v
  | publisherRead p received =>
    obtain ⟨-, rfl⟩ := publisherRead_step hbox
    simp only [sessionEffect, Option.bind_eq_some_iff, Prod.exists] at hs
    obtain ⟨bytes, fifo, -, hs⟩ := hs
    simp only [Option.ite_none_right_eq_some, Option.some.injEq] at hs
    obtain ⟨-, rfl⟩ := hs
    exact h v
  | publisherWrite p written =>
    obtain ⟨msgPacket, hx, hbox⟩ := publisherWrite_step hbox
    have hsame : t.subscriber = s.subscriber := by
      simp only [sessionEffect, hx] at hs
      split_ifs at hs <;> cases hs <;> rfl
    rw [hsame]
    rcases hbox with ⟨-, rfl⟩ | ⟨-, rfl⟩ <;> exact h v
  | publisherUpdate p =>
    obtain ⟨-, rfl⟩ := publisherUpdate_step hbox
    cases hs
    exact (h v).woken
  | publisherLeave p =>
    obtain ⟨-, rfl⟩ := publisherLeave_step hbox
    cases hs
    exact h v
  | subscriberAdmit u opened =>
    obtain ⟨hx, rfl⟩ := subscriberAdmit_step hbox
    simp only [sessionEffect, Option.ite_none_left_eq_some, Option.some.injEq, not_not] at hs
    obtain ⟨hv, rfl⟩ := hs
    have hu := h u (by rw [hv]; decide)
    cases opened with
    | true =>
      rw [setSubscriberLink_subscriber, if_pos rfl, setSubscriber_at]
      by_cases he : v = u
      · rw [if_pos he, if_pos he]
        exact fun _ => ⟨hu.1, hu.2.1, fun _ => ⟨_, rfl, SubscriberPhase.noConfusion⟩⟩
      · rw [if_neg he, if_neg he]
        exact h v
    | false =>
      rw [setSubscriberLink_subscriber, if_neg Bool.false_ne_true]
      by_cases he : v = u
      · rw [if_pos he]
        exact fun hne => absurd rfl hne
      · rw [if_neg he]
        exact h v
  | subscriberCheck u =>
    obtain ⟨off, sent, hx, rfl⟩ := subscriberCheck_step hbox
    cases hs
    rw [setSubscriber_at]
    by_cases he : v = u
    · subst he
      rw [if_pos rfl]
      refine (h v).session ?_
      dsimp only
      split_ifs <;> exact SubscriberPhase.noConfusion
    · rw [if_neg he]
      exact h v
  | subscriberWake u =>
    obtain ⟨off, sent, hx, rfl⟩ := subscriberWake_step hbox
    cases hs
    rw [setSubscriber_at]
    split_ifs with he
    · subst he
      exact (h v).session SubscriberPhase.noConfusion
    · exact h v
  | subscriberRead u =>
    obtain ⟨off, sent, hx, x, rfl, -, hwhole⟩ := subscriberRead_step hbox
    cases hs
    obtain ⟨hoff, hle⟩ := (hm.subscribers u _ hx).position
    dsimp only at hoff hle
    subst hoff
    obtain ⟨packet, -, hread, hlen⟩ := hm.read hle
    have hx' := hwhole (by rw [sizeof_messagePacket, hread, hlen])
    rw [setSubscriber_at]
    split_ifs with he
    · subst he hx'
      exact (h v).session SubscriberPhase.noConfusion
    · exact h v
  | subscriberWrite u whole =>
    obtain ⟨packet, off, sent, hx, rfl⟩ := subscriberWrite_step hbox
    have hv : (s.subscriber u).visit = .admitted := ((hc.subscriber u).session _ hx).2.1
    obtain ⟨hr, hw, -⟩ := h u (by rw [hv]; decide)
    have hreadable : (s.subscriber u).fifo.readable = true := by
      rw [(hc.subscriber u).readable, hr]
      rfl
    simp only [sessionEffect, hx, Pipe.write, hreadable, if_true,
      Option.ite_none_right_eq_some, Option.some.injEq] at hs
    obtain ⟨rfl, rfl⟩ := hs
    rw [setSubscriberLink_subscriber, setSubscriber_at]
    by_cases he : v = u
    · rw [if_pos he, if_pos he]
      exact fun _ => ⟨hr, hw, fun _ => ⟨_, rfl, SubscriberPhase.noConfusion⟩⟩
    · rw [if_neg he, if_neg he]
      exact h v
  | subscriberLeave u =>
    obtain ⟨off, sent, hx, rfl⟩ := subscriberLeave_step hbox
    have hv : (s.subscriber u).visit = .admitted := ((hc.subscriber u).session _ hx).2.1
    obtain ⟨-, -, hlive⟩ := h u (by rw [hv]; decide)
    obtain ⟨y, hy, hne⟩ := hlive hv
    rw [hx] at hy
    cases hy
    exact absurd rfl hne

lemma relayStep_served [Fintype P] (hm : Measured s.box) (hc : Conserved c s)
    (h : ∀ u, Served (s.box.subscriberAt u) (s.subscriber u)) {ev : RelayEvent P S}
    (hu : ev.isUnprompted = false) (hs : relayStep s ev = some t) (v : S) :
    Served (t.box.subscriberAt v) (t.subscriber v) := by
  cases ev with
  | send p =>
    simp only [relayStep, Option.ite_none_right_eq_some, Option.some.injEq] at hs
    obtain ⟨-, rfl⟩ := hs
    exact h v
  | stop p => cases hu
  | session e =>
    simp only [relayStep, Option.bind_eq_some_iff, Option.map_eq_some_iff] at hs
    obtain ⟨box, hbox, t, ht, rfl⟩ := hs
    exact session_served hm hc h hbox ht v
  | hangUpPublisher p =>
    simp only [relayStep, Option.ite_none_right_eq_some, Option.some.injEq] at hs
    obtain ⟨-, rfl⟩ := hs
    exact h v
  | hangUpSubscriber u =>
    simp only [relayStep, Option.ite_none_right_eq_some, Option.some.injEq] at hs
    obtain ⟨⟨hv, hx, -⟩, rfl⟩ := hs
    rw [setSubscriberLink_subscriber]
    split_ifs with he
    · intro hne
      obtain ⟨-, -, hlive⟩ := h u hne
      have hadmitted : (s.subscriber u).visit = .admitted := by
        cases hvisit : (s.subscriber u).visit with
        | awaited => exact absurd hvisit hv
        | refused => exact absurd hvisit hne
        | admitted => rfl
      obtain ⟨y, hy, -⟩ := hlive hadmitted
      rw [hx] at hy
      cases hy
    · exact h v
  | receive u printError =>
    simp only [relayStep, Option.ite_none_left_eq_some, Option.map_eq_some_iff, Prod.exists,
      not_not] at hs
    obtain ⟨-, bytes, fifo, hread, rfl⟩ := hs
    rw [setSubscriberLink_subscriber]
    split_ifs with he
    · subst he
      exact (h v).receive (hc.subscriber v) hc.legible hread printError
    · exact h v
  | interrupt u => cases hu

lemma relayStep_sent [Fintype P] (hc : Conserved c s)
    (hf : ∀ p, Faithful (c.input p) (s.publisher p))
    (h : ∀ p, Sent (c.input p) (s.publisher p)) {ev : RelayEvent P S}
    (hu : ev.isUnprompted = false) (hs : relayStep s ev = some t) (p : P) :
    Sent (c.input p) (t.publisher p) := by
  cases ev with
  | send q =>
    simp only [relayStep, Option.ite_none_right_eq_some, Option.some.injEq] at hs
    obtain ⟨hr, rfl⟩ := hs
    rw [setPublisherLink_publisher]
    split_ifs with hq
    · subst hq
      exact send_sent (hc.publisher p) (hf p) hr
    · exact h p
  | stop q => cases hu
  | session e =>
    simp only [relayStep, Option.bind_eq_some_iff, Option.map_eq_some_iff] at hs
    obtain ⟨box, -, t, ht, rfl⟩ := hs
    obtain ⟨hsender, hrunning, hvisit⟩ := sessionEffect_process ht p
    intro hv hr
    rw [hsender]
    exact h p (hvisit hv) (hrunning.symm.trans hr)
  | hangUpPublisher q =>
    simp only [relayStep, Option.ite_none_right_eq_some, Option.some.injEq] at hs
    obtain ⟨-, rfl⟩ := hs
    rw [setPublisherLink_publisher]
    split_ifs with hq
    · subst hq
      exact h p
    · exact h p
  | hangUpSubscriber u =>
    simp only [relayStep, Option.ite_none_right_eq_some, Option.some.injEq] at hs
    obtain ⟨-, rfl⟩ := hs
    exact h p
  | receive u printError =>
    simp only [relayStep, Option.ite_none_left_eq_some, Option.map_eq_some_iff] at hs
    obtain ⟨-, -, -, rfl⟩ := hs
    exact h p
  | interrupt u => cases hu

structure InputShown (c : Clients P S) (s : Relay P S) : Prop where
  stored : ∀ p, (s.publisher p).visit = .admitted → ∃ unsent,
    c.input p = (postsOf s.posted p).flatMap messageText ++ unsent ∧
      unsent.length = (lastLine (c.input p)).length % 1023
  shown : ∀ u, (s.subscriber u).visit = .admitted → (s.subscriber u).receiver.phase = .receiving ∧
    (∃ y, s.box.subscriberAt u = some y ∧ y.phase = .asleep) ∧
    (s.subscriber u).receiver.stdout = s.posted.flatMap fun m => messageText m.2 ++ ascii "\n"

theorem input_shown [Fintype P] (h : (relay P S old c).ReachableBy Unaided s) (hrest : AtRest s)
    (hn : ∀ p, 0 ∉ c.input p) : InputShown c s := by
  have hwhole := h.mono fun s ev hu => hu.1
  obtain ⟨hm, hc⟩ := relay_conserved hwhole
  have hall := hrest.allShown hm hc
  have hkept : (∀ p, Sent (c.input p) (s.publisher p)) ∧
      ∀ u, Served (s.box.subscriberAt u) (s.subscriber u) := by
    clear hwhole hm hc hall hrest
    induction h with
    | init =>
      refine ⟨fun p _ hr => ?_, fun u _ => ⟨rfl, rfl, fun ha => ?_⟩⟩
      · cases hr
      · cases ha
    | step hr hu hst ih =>
      have hwhole := hr.mono fun s ev hu => hu.1
      obtain ⟨hm, hc⟩ := relay_conserved hwhole
      exact ⟨relayStep_sent hc (relay_faithful hwhole hn) ih.1 hu.2 hst,
        relayStep_served hm hc ih.2 hu.2 hst⟩
  refine ⟨fun p hv => ?_, fun u hv => ?_⟩
  · obtain ⟨hend, -, hposts⟩ := hall.publisher p
    have hne : (s.publisher p).visit ≠ .refused := by
      rw [hv]
      decide
    obtain ⟨unsent, hinput, hlen⟩ := hkept.1 p hne hend
    refine ⟨unsent, ?_, hlen⟩
    rw [hposts.resolve_left hne, List.flatMap_def]
    exact hinput
  · have hne : (s.subscriber u).visit ≠ .refused := by
      rw [hv]
      decide
    have hr := (hkept.2 u hne).1
    exact ⟨hr, hall.subscriber u hr⟩

def linePacket (b : UInt8) : List UInt8 := 9 :: b :: 10 :: 0 :: List.replicate 1021 7

def twoLines : List (RelayEvent Unit Unit) :=
  [.session (.subscriberAdmit () true), .session (.publisherAdmit ()), .send (), .send (), .send (),
    .session (.publisherRead () (some (linePacket 97))), .session (.publisherWrite () 1025),
    .session (.publisherUpdate ()), .session (.subscriberCheck ()), .session (.subscriberRead ()),
    .session (.subscriberWrite () true), .receive () none, .session (.subscriberCheck ()),
    .session (.publisherRead () (some (linePacket 98))), .session (.publisherWrite () 1025),
    .session (.publisherUpdate ()), .session (.subscriberCheck ()), .session (.subscriberRead ()),
    .session (.subscriberWrite () true), .session (.publisherRead () none),
    .session (.publisherLeave ()), .session (.subscriberCheck ()), .receive () (some 28),
    .hangUpPublisher ()]

theorem input_shown_two_lines :
    ∃ s, (relay Unit Unit [] (oneOfEach (ascii "a\nb\nc"))).runIf Unaided
        (relay Unit Unit [] (oneOfEach (ascii "a\nb\nc"))).init twoLines = some s ∧ AtRest s ∧
      (s.publisher ()).visit = .admitted ∧ (s.subscriber ()).visit = .admitted ∧
      (s.subscriber ()).receiver.stdout = ascii "a\n\nb\n\n" ∧
      InputShown (oneOfEach (ascii "a\nb\nc")) s := by
  have hrun : ((relay Unit Unit [] (oneOfEach (ascii "a\nb\nc"))).runIf Unaided
      (relay Unit Unit [] (oneOfEach (ascii "a\nb\nc"))).init twoLines).map (fun s => decide (
        ((s.publisher ()).running = false ∧ s.box.publisherAt () = .outside ∧
          (s.publisher ()).visit = .admitted ∧ (s.publisher ()).fifo.readable = false) ∧
        ((s.box.subscriberAt ()).map (fun y => y.phase) = some .asleep ∧
          (s.subscriber ()).visit = .admitted ∧
          ((s.subscriber ()).fifo.read (sizeof messagePacket)).isNone = true) ∧
        (s.subscriber ()).receiver.stdout = ascii "a\n\nb\n\n")) = some true := by
    decide +kernel
  obtain ⟨s, hs, hout⟩ := Option.map_eq_some_iff.mp hrun
  obtain ⟨⟨hended, houtside, hvisit, hclosed⟩, ⟨hasleep, hadmitted, hempty⟩, hstdout⟩ :=
    of_decide_eq_true hout
  have hrest : AtRest s := by
    refine atRest_of_waiting (fun _ => ⟨hended, houtside, ?_, hclosed⟩)
      (fun _ => ⟨?_, ?_, Option.isNone_iff_eq_none.mp hempty⟩)
    · simp [hvisit]
    · exact Option.map_eq_some_iff.mp hasleep
    · simp [hadmitted]
  have hnul : 0 ∉ ascii "a\nb\nc" := by decide
  exact ⟨s, hs, hrest, hvisit, hadmitted, hstdout,
    input_shown (.runIf .init hs) hrest (fun _ => hnul)⟩

end MessageBroker.EndToEnd
