import MessageBroker.Lib.Tally
import MessageBroker.EndToEnd.Conserved

namespace MessageBroker.EndToEnd

open MessageBroker.Lib MessageBroker.Protocol MessageBroker.Publisher MessageBroker.Subscriber
  MessageBroker.Mbroker

def RelayEvent.isWake {P S : Type} : RelayEvent P S → Bool
  | .session (.subscriberWake _) => true
  | _ => false

def sessionDebt (n : ℕ) (x : PublisherSession) (l : PublisherLink) : ℕ :=
  match x with
  | .outside => if l.visit = .awaited then 5 else if l.fifo.readable then 1 else 0
  | .reading => 3
  | .writing _ => 2
  | .updating => n + 4
  | .leaving => 2

def publisherDebt (n posts : ℕ) (x : PublisherSession) (l : PublisherLink) : ℕ :=
  (if l.running then 1 + (5 * n + 4) * l.sender.stdin.rest.length else 0) +
    (5 * n + 3) * (l.sender.written.length - posts) + sessionDebt n x l

def phaseDebt (unsent : ℕ) : SubscriberPhase → ℕ
  | .checking => 4 * unsent + 4
  | .asleep => 4 * unsent + 3
  | .reading => 4 * unsent + 3
  | .sending _ => 4 * unsent + 2
  | .leaving => 2

def subscriberDebt (log : ℕ) (x : Option SubscriberSession) (l : SubscriberLink) : ℕ :=
  (if l.receiver.phase = .receiving then 1 + (l.forwarded.length - l.receiver.shown.length)
    else 0) +
    match x with
    | none => if l.visit = .awaited then 4 * log + 5 else if l.fifo.writable then 1 else 0
    | some y => phaseDebt (log - y.sent.length) y.phase

section Links

variable {n : ℕ} {posts : List (List UInt8)} {x : PublisherSession} {l : PublisherLink}

lemma sessionDebt_congr {l' : PublisherLink} (hv : l'.visit = l.visit)
    (hf : l'.fifo.readable = l.fifo.readable) : sessionDebt n x l' = sessionDebt n x l := by
  cases x <;> simp only [sessionDebt, hv, hf]

lemma exit_debt (hr : l.running = true) (k : ℕ) :
    publisherDebt n k x l.exit < publisherDebt n k x l := by
  have hs : sessionDebt n x l.exit = sessionDebt n x l := sessionDebt_congr rfl rfl
  have hw : l.exit.sender = l.sender := rfl
  have hf : l.exit.running = false := rfl
  rw [publisherDebt, publisherDebt, hs, hw, hf, hr, if_pos rfl, if_neg Bool.false_ne_true]
  omega

lemma send_debt (h : PublisherOk posts x l) (hr : l.running = true) :
    publisherDebt n posts.length x l.send < publisherDebt n posts.length x l := by
  rcases sendStep_armed (h.armed hr) with ⟨t, ht, hwritten⟩ | ⟨t, ht, -, -, hwritten, hrest⟩
  · have hsend : l.send = { l with sender := t }.exit := by simp only [PublisherLink.send, ht]
    have hs : sessionDebt n x l.send = sessionDebt n x l := by
      rw [hsend]
      exact sessionDebt_congr rfl rfl
    have hrun : l.send.running = false := by rw [hsend]; rfl
    have hsame : l.send.sender.written = l.sender.written := by rw [hsend]; exact hwritten
    rw [publisherDebt, publisherDebt, hs, hrun, hsame, hr, if_pos rfl, if_neg Bool.false_ne_true]
    omega
  · cases hfifo : l.fifo.write t.packet with
    | none =>
      have hsend : l.send = l.exit := by simp only [PublisherLink.send, ht, hfifo]
      rw [hsend]
      exact exit_debt hr _
    | some fifo =>
      have hsend : l.send = { l with sender := t, fifo := fifo } := by
        simp only [PublisherLink.send, ht, hfifo]
      have hs : sessionDebt n x l.send = sessionDebt n x l := by
        rw [hsend]
        simp only [Pipe.write, Option.ite_none_right_eq_some, Option.some.injEq] at hfifo
        obtain ⟨-, rfl⟩ := hfifo
        exact sessionDebt_congr rfl rfl
      have hrun : l.send.running = true := by rw [hsend]; exact hr
      have hsender : l.send.sender = t := by rw [hsend]
      rw [publisherDebt, publisherDebt, hs, hrun, hsender, hr, if_pos rfl, if_pos rfl, hwritten,
        List.length_append, List.length_singleton]
      have hread : (5 * n + 4) * t.stdin.rest.length + (5 * n + 4) ≤
          (5 * n + 4) * l.sender.stdin.rest.length := by
        rw [← Nat.mul_succ]
        exact Nat.mul_le_mul_left _ hrest
      have hunposted : (5 * n + 3) * (l.sender.written.length + 1 - posts.length) ≤
          (5 * n + 3) * (l.sender.written.length - posts.length) + (5 * n + 3) := by
        rw [← Nat.mul_succ]
        exact Nat.mul_le_mul_left _ (by omega)
      omega

lemma publisherDebt_lt {x' : PublisherSession} {l' : PublisherLink} {j k : ℕ}
    (hs : l'.sender = l.sender) (hr : l'.running = l.running)
    (hd : sessionDebt n x' l' + j < sessionDebt n x l) :
    publisherDebt n k x' l' + j < publisherDebt n k x l := by
  rw [publisherDebt, publisherDebt, hs, hr]
  omega

lemma accepted_debt (received : Option (List UInt8)) : sessionDebt n (accepted received) l = 2 := by
  cases received with
  | none => rfl
  | some bytes =>
    simp only [accepted]
    split_ifs <;> rfl

/-- The message in hand is stored: its subscribers follow. -/
lemma store_debt {msgPacket : List UInt8} (h : PublisherOk posts (.writing msgPacket) l) :
    publisherDebt n (posts.length + 1) .updating l + 4 * n <
      publisherDebt n posts.length (.writing msgPacket) l := by
  obtain ⟨queued, -, hw, -⟩ := h.carried
  have hlen := congrArg List.length hw
  simp only [inHand, List.length_append, List.length_singleton] at hlen
  have hsucc : l.sender.written.length - posts.length =
      l.sender.written.length - (posts.length + 1) + 1 := by omega
  rw [publisherDebt, publisherDebt, hsucc, Nat.mul_succ, sessionDebt, sessionDebt]
  omega

lemma receive_debt {errno : ℕ} {log : List (List UInt8)} {y : Option SubscriberSession}
    {m : SubscriberLink} (h : SubscriberOk errno log y m) (hlog : ∀ r ∈ log, Legible r)
    (hr : m.receiver.phase = .receiving) {bytes : List UInt8} {fifo : Pipe}
    (hread : m.fifo.read (sizeof messagePacket) = some (bytes, fifo)) (printError : Option ℕ) :
    subscriberDebt log.length y (m.receive fifo (.ok bytes) printError) <
      subscriberDebt log.length y m := by
  have hsame : fifo.writable = m.fifo.writable := by
    simp only [Pipe.read, Option.ite_none_left_eq_some, Option.some.injEq, Prod.mk.injEq] at hread
    obtain ⟨-, -, rfl⟩ := hread
    rfl
  have hfirst : (if (receiveStep m.receiver (.ok bytes) printError).phase = .receiving then
        1 + (m.forwarded.length - (receiveStep m.receiver (.ok bytes) printError).shown.length)
        else 0) <
      1 + (m.forwarded.length - m.receiver.shown.length) := by
    rcases h.receive_cases hlog hread printError with hp | ⟨hmore, hlt⟩
    · rw [if_neg hp]
      omega
    · split_ifs <;> omega
  simp only [subscriberDebt, hr, if_true]
  cases y with
  | none =>
    simp only [SubscriberLink.receive, hsame]
    exact Nat.add_lt_add_right hfirst _
  | some z => exact Nat.add_lt_add_right hfirst _

lemma woken_debt (log : ℕ) (y : Option SubscriberSession) (m : SubscriberLink) :
    subscriberDebt log (y.map SubscriberSession.woken) m ≤ subscriberDebt log y m + 1 := by
  cases y with
  | none => exact Nat.le_add_right _ _
  | some z =>
    obtain ⟨phase, off, sent⟩ := z
    cases phase <;>
      simp only [subscriberDebt, Option.map_some, SubscriberSession.woken, phaseDebt] <;> omega

lemma append_debt (log : ℕ) (y : Option SubscriberSession) (m : SubscriberLink) :
    subscriberDebt (log + 1) y m ≤ subscriberDebt log y m + 4 := by
  cases y with
  | none =>
    simp only [subscriberDebt]
    split_ifs <;> omega
  | some z =>
    obtain ⟨phase, off, sent⟩ := z
    cases phase <;> simp only [subscriberDebt, phaseDebt] <;> omega

end Links

section Debt

variable {P S : Type} [DecidableEq P] [DecidableEq S] {s t : Relay P S} {ev : RelayEvent P S}
  {c : Clients P S} {old : List UInt8} {p q : P} {u v : S} [Fintype S]

def publisherDue (s : Relay P S) (p : P) : ℕ :=
  publisherDebt (Fintype.card S) (postsOf s.posted p).length (s.box.publisherAt p) (s.publisher p)

def subscriberDue (s : Relay P S) (u : S) : ℕ :=
  subscriberDebt s.box.log.length (s.box.subscriberAt u) (s.subscriber u)

variable [Fintype P]

def debt (s : Relay P S) : ℕ := ∑ p, publisherDue s p + ∑ u, subscriberDue s u

omit [DecidableEq S] in
lemma debt_lt_of_publisher (k : ℕ) (hp : publisherDue t p + k * Fintype.card S < publisherDue s p)
    (hq : ∀ q, q ≠ p → publisherDue t q ≤ publisherDue s q)
    (hu : ∀ u, subscriberDue t u ≤ subscriberDue s u + k) : debt t < debt s := by
  have hpub := sum_add_le_of_single (k := k * Fintype.card S + 1) p (by omega) hq
  have hsub := sum_le_add_card hu
  rw [debt, debt]
  omega

omit [DecidableEq S] in
lemma debt_lt_of_subscriber (hu : subscriberDue t u < subscriberDue s u)
    (hv : ∀ v, v ≠ u → subscriberDue t v ≤ subscriberDue s v)
    (hp : ∀ p, publisherDue t p ≤ publisherDue s p) : debt t < debt s := by
  have hsub := sum_add_le_of_single (k := 1) u hu hv
  have hpub : ∑ p, publisherDue t p ≤ ∑ p, publisherDue s p := Finset.sum_le_sum (fun p _ => hp p)
  rw [debt, debt]
  omega

omit [DecidableEq S] in
lemma publisherMoves_debt {x : PublisherSession} {l : PublisherLink}
    (new : List (P × List UInt8)) (k : ℕ)
    (hx : t.box.publisherAt = Function.update s.box.publisherAt p x)
    (hl : t.publisher = Function.update s.publisher p l) (hp : t.posted = s.posted ++ new)
    (hd : publisherDebt (Fintype.card S) (postsOf (s.posted ++ new) p).length x l +
      k * Fintype.card S < publisherDue s p) (hnew : ∀ m ∈ new, m.1 = p)
    (hu : ∀ u, subscriberDue t u ≤ subscriberDue s u + k) : debt t < debt s := by
  apply debt_lt_of_publisher (p := p) k _ _ hu
  · rw [publisherDue, hx, hl, hp, Function.update_self, Function.update_self]
    exact hd
  · intro q hq
    rw [publisherDue, hx, hl, hp, Function.update_of_ne hq, Function.update_of_ne hq,
      postsOf_append, postsOf_other hnew hq, List.append_nil]
    exact le_rfl

lemma subscriberMoves_debt {x : Option SubscriberSession} {l : SubscriberLink}
    (hx : t.box.subscriberAt = Function.update s.box.subscriberAt u x)
    (hl : t.subscriber = Function.update s.subscriber u l) (hp : t.posted = s.posted)
    (hbox : t.box.publisherAt = s.box.publisherAt) (hpub : t.publisher = s.publisher)
    (hlog : t.box.log = s.box.log)
    (hd : subscriberDebt s.box.log.length x l < subscriberDue s u) : debt t < debt s := by
  apply debt_lt_of_subscriber (u := u)
  · rw [subscriberDue, hx, hl, hlog, Function.update_self, Function.update_self]
    exact hd
  · intro v hv
    rw [subscriberDue, hx, hl, hlog, Function.update_of_ne hv, Function.update_of_ne hv]
    exact le_rfl
  · intro q
    rw [publisherDue, hp, hbox, hpub]
    exact le_rfl

omit [DecidableEq S] in
lemma atPublisher_debt {l : PublisherLink} (hd : publisherDebt (Fintype.card S)
    (postsOf s.posted p).length (s.box.publisherAt p) l < publisherDue s p) :
    debt (setPublisherLink s p l) < debt s := by
  refine publisherMoves_debt [] 0 (Function.update_eq_self p _).symm rfl (List.append_nil _).symm
    ?_ (by simp) (fun _ => le_rfl)
  rw [List.append_nil, Nat.zero_mul, Nat.add_zero]
  exact hd

lemma atSubscriber_debt {l : SubscriberLink}
    (hd : subscriberDebt s.box.log.length (s.box.subscriberAt u) l < subscriberDue s u) :
    debt (setSubscriberLink s u l) < debt s :=
  subscriberMoves_debt (Function.update_eq_self u _).symm rfl rfl rfl rfl rfl hd

lemma session_debt (hm : Measured s.box) (h : Conserved c s) {e : SessionEvent P S}
    (hw : WholeWrites s.box e) (hwake : RelayEvent.isWake (.session e) = false)
    {box : Topic P S} (hbox : topicStep s.box e = some box) (hs : sessionEffect s e = some t) :
    debt { t with box := box } < debt s := by
  cases e with
  | publisherAdmit p =>
    obtain ⟨hx, rfl⟩ := publisherAdmit_step hbox
    simp only [sessionEffect, Option.ite_none_left_eq_some, Option.some.injEq, not_not] at hs
    obtain ⟨hv, rfl⟩ := hs
    by_cases hpos : 0 < s.box.publishers
    · simp only [if_pos hpos]
      refine publisherMoves_debt [] 0 (Function.update_eq_self p _).symm rfl
        (List.append_nil _).symm ?_ (by simp) (fun _ => le_rfl)
      rw [publisherDue, List.append_nil]
      refine publisherDebt_lt rfl rfl ?_
      simp only [hx, sessionDebt, hv, reduceCtorEq, if_false, if_true]
      split_ifs <;> omega
    · simp only [if_neg hpos]
      refine publisherMoves_debt [] 0 rfl rfl (List.append_nil _).symm ?_
        (by simp) (fun _ => le_rfl)
      rw [publisherDue, List.append_nil, hx]
      refine publisherDebt_lt rfl rfl ?_
      simp only [sessionDebt, hv, if_true]
      omega
  | publisherRead p received =>
    obtain ⟨hx, rfl⟩ := publisherRead_step hbox
    simp only [sessionEffect, Option.bind_eq_some_iff, Prod.exists] at hs
    obtain ⟨bytes, fifo, hread, hs⟩ := hs
    simp only [Option.ite_none_right_eq_some, Option.some.injEq] at hs
    obtain ⟨rfl, rfl⟩ := hs
    refine publisherMoves_debt [] 0 rfl rfl (List.append_nil _).symm ?_
      (by simp) (fun _ => le_rfl)
    rw [publisherDue, List.append_nil, hx]
    refine publisherDebt_lt rfl rfl ?_
    rw [accepted_debt, sessionDebt]
    omega
  | publisherWrite p written =>
    obtain ⟨msgPacket, hx, hbox⟩ := publisherWrite_step hbox
    have hall : written = msgPacket.length := (hm.writing p msgPacket hx).symm ▸ hw
    rcases hbox with ⟨-, rfl⟩ | ⟨hlt, -⟩
    · simp only [sessionEffect, hx, if_pos hall, Option.some.injEq] at hs
      subst hs
      have hok := h.publisher p
      rw [hx] at hok
      refine publisherMoves_debt [(p, msgPacket)] 4 rfl
        (Function.update_eq_self p _).symm rfl ?_ (by simp) ?_
      · have hlen : (postsOf (s.posted ++ [(p, msgPacket)]) p).length =
            (postsOf s.posted p).length + 1 := by
          simp [postsOf]
        rw [publisherDue, hlen, hx]
        exact store_debt hok
      · intro u
        have hd := append_debt s.box.log.length (s.box.subscriberAt u) (s.subscriber u)
        simpa [subscriberDue, setPublisher] using hd
    · omega
  | publisherUpdate p =>
    obtain ⟨hx, rfl⟩ := publisherUpdate_step hbox
    cases hs
    refine publisherMoves_debt [] 1 rfl
      (Function.update_eq_self p _).symm (List.append_nil _).symm ?_ (by simp)
      (fun u => woken_debt _ _ _)
    rw [publisherDue, List.append_nil, hx]
    refine publisherDebt_lt rfl rfl ?_
    rw [sessionDebt, sessionDebt]
    omega
  | publisherLeave p =>
    obtain ⟨hx, rfl⟩ := publisherLeave_step hbox
    cases hs
    have hv : (s.publisher p).visit = .admitted := by
      by_contra hne
      have hout := (h.publisher p).outside hne
      rw [hx] at hout
      cases hout
    refine publisherMoves_debt [] 0 rfl
      (Function.update_eq_self p _).symm (List.append_nil _).symm ?_ (by simp) (fun _ => le_rfl)
    rw [publisherDue, List.append_nil, hx]
    refine publisherDebt_lt rfl rfl ?_
    simp only [sessionDebt, hv, reduceCtorEq, if_false]
    split_ifs <;> omega
  | subscriberAdmit u opened =>
    obtain ⟨hx, rfl⟩ := subscriberAdmit_step hbox
    simp only [sessionEffect, Option.ite_none_left_eq_some, Option.some.injEq, not_not] at hs
    obtain ⟨hv, rfl⟩ := hs
    cases opened with
    | true =>
      refine subscriberMoves_debt rfl rfl rfl rfl rfl rfl ?_
      simp [subscriberDue, hx, subscriberDebt, hv, phaseDebt]
    | false =>
      refine subscriberMoves_debt (Function.update_eq_self u _).symm rfl rfl rfl rfl rfl ?_
      simp only [subscriberDue, hx, subscriberDebt, hv, Bool.false_eq_true, if_false, if_true,
        reduceCtorEq]
      split_ifs <;> omega
  | subscriberCheck u =>
    obtain ⟨off, sent, hx, rfl⟩ := subscriberCheck_step hbox
    cases hs
    refine subscriberMoves_debt rfl (Function.update_eq_self u _).symm rfl rfl rfl rfl ?_
    simp only [subscriberDue, hx, subscriberDebt]
    by_cases he : s.box.size = off
    · rw [if_pos he, phaseDebt, phaseDebt]
      omega
    · rw [if_neg he, phaseDebt, phaseDebt]
      omega
  | subscriberWake u => cases hwake
  | subscriberRead u =>
    obtain ⟨off, sent, hx, x, rfl, -, hwhole⟩ := subscriberRead_step hbox
    cases hs
    obtain ⟨hoff, hle⟩ := (hm.subscribers u _ hx).position
    dsimp only at hoff hle
    subst hoff
    obtain ⟨packet, -, hread, hlen⟩ := hm.read hle
    have hx' := hwhole (by rw [sizeof_messagePacket, hread, hlen])
    refine subscriberMoves_debt rfl (Function.update_eq_self u _).symm rfl rfl rfl rfl ?_
    simp only [hx', subscriberDue, hx, subscriberDebt, phaseDebt]
    omega
  | subscriberWrite u whole =>
    obtain ⟨packet, off, sent, hx, rfl⟩ := subscriberWrite_step hbox
    have hnext := (hm.subscribers u _ hx).position.2.2.length_le
    rw [List.length_append, List.length_singleton, List.length_map] at hnext
    dsimp only at hnext
    cases hfifo : (s.subscriber u).fifo.write packet with
    | none =>
      cases whole with
      | true => simp [sessionEffect, hx, hfifo] at hs
      | false =>
        simp only [sessionEffect, hx, hfifo] at hs
        cases hs
        refine subscriberMoves_debt rfl (Function.update_eq_self u _).symm rfl rfl rfl rfl ?_
        simp only [Bool.false_eq_true, if_false, subscriberDue, hx, subscriberDebt, phaseDebt]
        omega
    | some fifo =>
      cases whole with
      | false => simp [sessionEffect, hx, hfifo] at hs
      | true =>
        simp only [sessionEffect, hx, hfifo] at hs
        cases hs
        have hreceiving : (s.subscriber u).receiver.phase = .receiving := by
          have hr := (h.subscriber u).readable
          simp only [Pipe.write, Option.ite_none_right_eq_some] at hfifo
          exact of_decide_eq_true (hr.symm.trans hfifo.1)
        refine subscriberMoves_debt rfl rfl rfl rfl rfl rfl ?_
        simp only [subscriberDue, hx, subscriberDebt, phaseDebt, hreceiving, if_true,
          List.length_append, List.length_singleton]
        omega
  | subscriberLeave u =>
    obtain ⟨off, sent, hx, rfl⟩ := subscriberLeave_step hbox
    cases hs
    obtain ⟨-, hv, -⟩ := (h.subscriber u).session _ hx
    refine subscriberMoves_debt rfl (Function.update_eq_self u _).symm rfl rfl rfl rfl ?_
    simp only [subscriberDue, hx, subscriberDebt, phaseDebt, hv, reduceCtorEq, if_false]
    split_ifs <;> omega

lemma relayStep_debt (hm : Measured s.box) (h : Conserved c s) (hw : WholeAppends s ev)
    (hwake : ev.isWake = false) (hs : relayStep s ev = some t) : debt t < debt s := by
  cases ev with
  | send p =>
    simp only [relayStep, Option.ite_none_right_eq_some, Option.some.injEq] at hs
    obtain ⟨hr, rfl⟩ := hs
    exact atPublisher_debt (send_debt (h.publisher p) hr)
  | stop p =>
    simp only [relayStep, Option.ite_none_right_eq_some, Option.some.injEq] at hs
    obtain ⟨hr, rfl⟩ := hs
    exact atPublisher_debt (exit_debt hr _)
  | session e =>
    simp only [relayStep, Option.bind_eq_some_iff, Option.map_eq_some_iff] at hs
    obtain ⟨box, hbox, t, ht, rfl⟩ := hs
    exact session_debt hm h hw hwake hbox ht
  | hangUpPublisher p =>
    simp only [relayStep, Option.ite_none_right_eq_some, Option.some.injEq] at hs
    obtain ⟨⟨hv, hx, hr⟩, rfl⟩ := hs
    refine atPublisher_debt (publisherDebt_lt (j := 0) rfl rfl ?_)
    simp [hx, sessionDebt, hv, hr]
  | hangUpSubscriber u =>
    simp only [relayStep, Option.ite_none_right_eq_some, Option.some.injEq] at hs
    obtain ⟨⟨hv, hx, hr⟩, rfl⟩ := hs
    refine atSubscriber_debt ?_
    simp [subscriberDue, hx, subscriberDebt, hv, hr]
  | receive u printError =>
    simp only [relayStep, Option.ite_none_left_eq_some, Option.map_eq_some_iff, Prod.exists,
      not_not] at hs
    obtain ⟨hr, bytes, fifo, hread, rfl⟩ := hs
    exact atSubscriber_debt <| receive_debt (h.subscriber u) h.legible hr hread printError
  | interrupt u =>
    simp only [relayStep, Option.ite_none_left_eq_some, Option.some.injEq, not_not] at hs
    obtain ⟨hr, rfl⟩ := hs
    refine atSubscriber_debt ?_
    have hphase : receiveStep (s.subscriber u).receiver (.error eintr) none =
        { (s.subscriber u).receiver with errno := eintr }.finish := receiveStep_interrupted none
    simp only [subscriberDue, subscriberDebt, SubscriberLink.receive, hphase, Receiver.finish, hr,
      if_true, reduceCtorEq, if_false]
    omega

def Unwoken (s : Relay P S) (ev : RelayEvent P S) : Prop :=
  WholeAppends s ev ∧ ev.isWake = false

instance (s : Relay P S) (ev : RelayEvent P S) : Decidable (Unwoken s ev) :=
  inferInstanceAs (Decidable (_ ∧ _))

lemma relay_run_bounded {as : List (RelayEvent P S)}
    (h : (relay P S old c).ReachableBy WholeAppends s)
    (hr : (relay P S old c).runIf Unwoken s as = some t) : as.length + debt t ≤ debt s := by
  refine (System.run_length_le (I := fun s => Measured s.box ∧ Conserved c s) ?_
    (relay_conserved h) hr).2
  intro s ev t hI hk hs
  exact ⟨relayStep_conserved hI.1 hI.2 hk.1 hs, relayStep_debt hI.1 hI.2 hk.1 hk.2 hs⟩

omit [DecidableEq S] in
lemma init_debt [DecidableEq S] : debt (relay P S old c).init =
    (5 * Fintype.card S + 4) * ∑ p, (c.input p).length +
      6 * (Fintype.card P + Fintype.card S) := by
  have hp : ∀ p, publisherDue (relay P S old c).init p =
      (5 * Fintype.card S + 4) * (c.input p).length + 6 := by
    intro p
    show 1 + (5 * Fintype.card S + 4) * (c.input p).length + _ * (0 - 0) + 5 = _
    omega
  have hs : ∀ u, subscriberDue (relay P S old c).init u = 6 := fun _ => rfl
  simp only [debt, hp, hs, Finset.sum_add_distrib, ← Finset.mul_sum, Finset.sum_const,
    Finset.card_univ, smul_eq_mul]
  ring

theorem run_bounded {as : List (RelayEvent P S)}
    (hr : (relay P S old c).runIf Unwoken (relay P S old c).init as = some t) :
    as.length ≤ (5 * Fintype.card S + 4) * ∑ p, (c.input p).length +
      6 * (Fintype.card P + Fintype.card S) := by
  have hle := relay_run_bounded .init hr
  rw [init_debt] at hle
  omega

end Debt

theorem run_bounded_two_lines :
    ∃ t, (relay Unit Unit [] (oneOfEach (ascii "a\nb\n"))).runIf Unwoken
        (relay Unit Unit [] (oneOfEach (ascii "a\nb\n"))).init
        [.send (), .session (.publisherAdmit ()), .stop (), .interrupt ()] = some t ∧
      4 ≤ (5 * Fintype.card Unit + 4) * ∑ _p : Unit, (ascii "a\nb\n").length +
        6 * (Fintype.card Unit + Fintype.card Unit) := by
  have hrun : ((relay Unit Unit [] (oneOfEach (ascii "a\nb\n"))).runIf Unwoken
      (relay Unit Unit [] (oneOfEach (ascii "a\nb\n"))).init
      [.send (), .session (.publisherAdmit ()), .stop (), .interrupt ()]).isSome = true := by
    decide +kernel
  obtain ⟨t, ht⟩ := Option.isSome_iff_exists.mp hrun
  exact ⟨t, ht, run_bounded ht⟩

end MessageBroker.EndToEnd
