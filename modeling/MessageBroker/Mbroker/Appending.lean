import MessageBroker.Mbroker.Delivery

/-! The append position of a box against its size field, when a write to the file may be cut
short: the two stay equal as long as every write stores the whole packet or nothing. -/

namespace MessageBroker.Mbroker

open MessageBroker.Lib MessageBroker.Protocol

variable {P S : Type}

def AllOrNothing (_ : Topic P S) : SessionEvent P S → Prop
  | .publisherWrite _ written => written = 0 ∨ written = sizeof messagePacket
  | _ => True

instance (s : Topic P S) (ev : SessionEvent P S) : Decidable (AllOrNothing s ev) :=
  match ev with
  | .publisherWrite _ written =>
    inferInstanceAs (Decidable (written = 0 ∨ written = sizeof messagePacket))
  | .publisherAdmit _ | .publisherRead _ _ | .publisherUpdate _ | .publisherLeave _
  | .subscriberAdmit _ _ | .subscriberCheck _ | .subscriberWake _ | .subscriberRead _
  | .subscriberWrite _ _ | .subscriberLeave _ => inferInstanceAs (Decidable True)

def IsMessage (packet : List UInt8) : Prop := accepted (some packet) = .writing packet

structure Readable (s : Topic P S) : Prop where
  aligned : (∀ p, s.publisherAt p ≠ .updating) → s.fdOffset = s.size
  records : ∀ u off sent, s.subscriberAt u = some ⟨.reading, off, sent⟩ →
    (s.file.drop off).take (sizeof messagePacket) ∈ s.log
  sent : ∀ u x, s.subscriberAt u = some x → x.sent <+: s.log.map deliver
  messages : ∀ m ∈ s.log, IsMessage m

def PublisherSession.isOpen : PublisherSession → Bool
  | .outside => false
  | _ => true

lemma accepted_isMessage {received : Option (List UInt8)} {msgPacket : List UInt8}
    (h : accepted received = .writing msgPacket) : IsMessage msgPacket := by
  cases received with
  | none => cases h
  | some bytes =>
    have hb : bytes = msgPacket := by
      simp only [accepted] at h
      split_ifs at h
      exact PublisherSession.writing.inj h
    exact hb ▸ hb ▸ h

lemma accepted_isOpen (received : Option (List UInt8)) : (accepted received).isOpen = true := by
  cases received with
  | none => rfl
  | some bytes =>
    simp only [accepted]
    split_ifs <;> rfl

structure Admitted [Fintype P] (s : Topic P S) : Prop where
  publishers : tally PublisherSession.isOpen s.publisherAt = s.publishers
  single : s.publishers ≤ 1
  writing : ∀ p m, s.publisherAt p = .writing m → IsMessage m
  log : ∀ m ∈ s.log, IsMessage m

variable [Fintype P] [DecidableEq P] [DecidableEq S] {s t : Topic P S} {ev : SessionEvent P S}
  {old : List UInt8}

omit [DecidableEq S] in
lemma Admitted.setPublisher (h : Admitted s) {p : P} {x : PublisherSession}
    (he : (s.publisherAt p).isOpen = x.isOpen) (hw : ∀ m, x = .writing m → IsMessage m) :
    Admitted (setPublisher s p x) := by
  have ht := tally_update PublisherSession.isOpen s.publisherAt p x
  refine ⟨?_, h.single, ?_, h.log⟩
  · have hp := h.publishers
    simp only [Mbroker.setPublisher]
    rw [he] at ht
    omega
  · intro q m hq
    rw [setPublisher_at] at hq
    split_ifs at hq
    · exact hw m hq
    · exact h.writing q m hq

omit [DecidableEq S] in
lemma publisherStep_admitted (h : Admitted s) {p : P}
    (hs : publisherStep s p (s.publisherAt p) ev = some t) : Admitted t := by
  cases hp : s.publisherAt p with
  | outside =>
    cases ev <;> simp only [publisherStep, hp, reduceCtorEq] at hs
    have ht := tally_update PublisherSession.isOpen s.publisherAt p .reading
    rw [hp] at ht
    simp only [PublisherSession.isOpen, Bool.toNat_true, Bool.toNat_false] at ht
    have hn := h.publishers
    split_ifs at hs with hc
    · cases hs
      exact h
    · cases hs
      refine ⟨?_, le_rfl, ?_, h.log⟩
      · simp only [setPublisher]
        omega
      · intro q m hq
        rw [setPublisher_at] at hq
        split_ifs at hq
        exact h.writing q m hq
  | reading =>
    cases ev <;> simp only [publisherStep, hp, reduceCtorEq, Option.some.injEq] at hs
    subst hs
    apply h.setPublisher
    · rw [hp, accepted_isOpen]
      rfl
    · intro m hm
      exact accepted_isMessage hm
  | writing msgPacket =>
    cases ev <;> simp only [publisherStep, hp, reduceCtorEq] at hs
    rename_i q written
    have hm := h.writing p msgPacket hp
    split_ifs at hs
    · cases hs
      have h' : Admitted { s with
          file := writeAt s.file s.fdOffset msgPacket
          fdOffset := s.fdOffset + written
          log := s.log ++ [msgPacket] } := by
        refine ⟨h.publishers, h.single, h.writing, ?_⟩
        intro m hmem
        rcases List.mem_append.mp hmem with hmem | hmem
        · exact h.log m hmem
        · exact List.mem_singleton.mp hmem ▸ hm
      exact h'.setPublisher (by simp only [hp]; rfl) (fun m hx => by cases hx)
    · cases hs
      have h' : Admitted { s with
          file := writeAt s.file s.fdOffset (msgPacket.take written)
          fdOffset := s.fdOffset + written } := ⟨h.1, h.2, h.3, h.4⟩
      exact h'.setPublisher (by simp only [hp]; rfl) (fun m hx => by cases hx)
  | updating =>
    cases ev <;> simp only [publisherStep, hp, reduceCtorEq, Option.some.injEq] at hs
    subst hs
    have h' : Admitted { s with
        size := s.size + sizeof messagePacket
        subscriberAt := fun u => (s.subscriberAt u).map SubscriberSession.woken } :=
      ⟨h.1, h.2, h.3, h.4⟩
    exact h'.setPublisher (by simp only [hp]; rfl) (fun m hx => by cases hx)
  | leaving =>
    cases ev <;> simp only [publisherStep, hp, reduceCtorEq, Option.some.injEq] at hs
    subst hs
    have ht := tally_update PublisherSession.isOpen s.publisherAt p .outside
    rw [hp] at ht
    simp only [PublisherSession.isOpen, Bool.toNat_true, Bool.toNat_false] at ht
    have hn := h.publishers
    have hle := h.single
    refine ⟨?_, ?_, ?_, h.log⟩
    · simp only [setPublisher]
      omega
    · simp only [setPublisher]
      omega
    · intro q m hq
      rw [setPublisher_at] at hq
      split_ifs at hq
      exact h.writing q m hq

omit [Fintype P] [DecidableEq P] in
lemma subscriberStep_publisherSide {u : S}
    (hs : subscriberStep s u (s.subscriberAt u) ev = some t) :
    t.publisherAt = s.publisherAt ∧ t.publishers = s.publishers ∧ t.log = s.log := by
  cases hu : s.subscriberAt u with
  | none =>
    cases ev <;> simp only [subscriberStep, hu, reduceCtorEq] at hs
    split_ifs at hs <;> cases hs <;> exact ⟨rfl, rfl, rfl⟩
  | some x =>
    obtain ⟨phase, off, sent⟩ := x
    cases phase <;> cases ev <;> simp only [subscriberStep, hu, reduceCtorEq] at hs <;>
      first
        | (split_ifs at hs <;> cases hs <;> exact ⟨rfl, rfl, rfl⟩)
        | (cases hs; exact ⟨rfl, rfl, rfl⟩)

lemma topicStep_admitted (h : Admitted s) (hs : topicStep s ev = some t) : Admitted t := by
  cases ev with
  | publisherAdmit | publisherRead | publisherWrite | publisherUpdate | publisherLeave =>
    exact publisherStep_admitted h hs
  | subscriberAdmit | subscriberCheck | subscriberWake | subscriberRead | subscriberWrite
  | subscriberLeave =>
    obtain ⟨ha, hn, hl⟩ := subscriberStep_publisherSide hs
    exact ⟨by rw [ha, hn]; exact h.publishers, by rw [hn]; exact h.single,
      by rw [ha]; exact h.writing, by rw [hl]; exact h.log⟩

omit [DecidableEq S] in
lemma Measured.cutWrite (h : Measured s) {p : P} {msgPacket : List UInt8}
    (hp : s.publisherAt p = .writing msgPacket) :
    Measured (Mbroker.setPublisher { s with
      file := writeAt s.file s.fdOffset (msgPacket.take 0)
      fdOffset := s.fdOffset + 0 } p .leaving) := by
  have hf : writeAt s.file s.fdOffset (msgPacket.take 0) = s.file := by simp [writeAt]
  rw [hf]
  exact h.setPublisher (by rw [hp]; rfl) rfl (fun m hm => by cases hm)

lemma topicStep_measured_allOrNothing (h : Measured s) (ha : AllOrNothing s ev)
    (hs : topicStep s ev = some t) : Measured t := by
  by_cases hw : WholeWrites s ev
  · exact topicStep_measured h hw hs
  · cases ev with
    | publisherWrite p written =>
      have hz : written = 0 := ha.resolve_right hw
      subst hz
      cases hp : s.publisherAt p <;>
        simp only [topicStep, publisherStep, hp, reduceCtorEq] at hs
      rename_i msgPacket
      have hlen := h.writing p msgPacket hp
      rw [if_neg (by omega), if_pos (by omega)] at hs
      cases hs
      exact h.cutWrite hp
    | publisherAdmit | publisherRead | publisherUpdate | publisherLeave | subscriberAdmit
    | subscriberCheck | subscriberWake | subscriberRead | subscriberWrite | subscriberLeave =>
      exact (hw trivial).elim

omit [DecidableEq P] [DecidableEq S] in
lemma Measured.readable (h : Measured s) (ha : Admitted s) : Readable s := by
  have hd := h.delivered
  refine ⟨?_, ?_, hd.sent, ha.log⟩
  · intro hq
    rw [h.appendAt, (hd.settled hq).1, sizeof_messagePacket]
  · intro u off sent hu
    obtain ⟨hoff, hle⟩ := (h.subscribers u _ hu).position
    dsimp only at hoff hle
    obtain ⟨packet, hk, hread, hlen⟩ := h.read (hoff ▸ hle)
    rw [hoff, sizeof_messagePacket, hread]
    exact List.mem_of_getElem? hk

lemma allOrNothing_invariant (h : (topic P S old).ReachableBy AllOrNothing s) :
    Measured s ∧ Admitted s := by
  have hi : Measured (topic P S old).init ∧ Admitted (topic P S old).init := by
    refine ⟨whole_measured .init, tally_const rfl, Nat.zero_le _, ?_, ?_⟩
    · intro p m hp
      cases hp
    · intro m hm
      cases hm
  apply h.invariant hi
  · intro s ev t hi ha hs
    exact ⟨topicStep_measured_allOrNothing hi.1 ha hs, topicStep_admitted hi.2 hs⟩

omit [DecidableEq S] in
lemma Admitted.alone (h : Admitted s) {p q : P} (hp : (s.publisherAt p).isOpen = true)
    (hq : (s.publisherAt q).isOpen = true) : p = q := by
  by_contra hne
  -- closing one of the two would leave a positive count below one
  have ht := tally_update PublisherSession.isOpen s.publisherAt p .outside
  have hpos : 0 < tally PublisherSession.isOpen (Function.update s.publisherAt p .outside) := by
    apply tally_pos.mpr
    exact ⟨q, by rw [Function.update_of_ne (fun he => hne he.symm)]; exact hq⟩
  rw [hp] at ht
  simp only [PublisherSession.isOpen, Bool.toNat_true, Bool.toNat_false] at ht
  have hn := h.publishers
  have hle := h.single
  omega

lemma cut_misaligned (hm : Measured s) (ha : Admitted s) (hc : ¬ AllOrNothing s ev)
    (hs : topicStep s ev = some t) : ¬ Readable t := by
  intro hr
  cases ev with
  | publisherWrite p written =>
    cases hp : s.publisherAt p <;> simp only [topicStep, publisherStep, hp, reduceCtorEq] at hs
    rename_i msgPacket
    have hlen := hm.writing p msgPacket hp
    simp only [AllOrNothing, sizeof_messagePacket, not_or] at hc
    obtain ⟨hpos, hwhole⟩ := hc
    have hnone : ∀ q, s.publisherAt q ≠ .updating := by
      intro q hq
      have he := ha.alone (p := p) (q := q) (by rw [hp]; rfl) (by rw [hq]; rfl)
      rw [he, hq] at hp
      cases hp
    have halign := (hm.readable ha).aligned hnone
    split_ifs at hs with h₁ h₂
    · omega
    · cases hs
      have ht := hr.aligned (fun q hq => by
        rw [setPublisher_at] at hq
        split_ifs at hq
        exact hnone q hq)
      simp only [setPublisher] at ht
      omega
  | publisherAdmit | publisherRead | publisherUpdate | publisherLeave | subscriberAdmit
  | subscriberCheck | subscriberWake | subscriberRead | subscriberWrite | subscriberLeave =>
    exact hc trivial

theorem readable_iff_allOrNothing (h : (topic P S old).ReachableBy AllOrNothing s) :
    Readable s ∧ ∀ ev t, topicStep s ev = some t → (Readable t ↔ AllOrNothing s ev) := by
  obtain ⟨hm, ha⟩ := allOrNothing_invariant h
  refine ⟨hm.readable ha, ?_⟩
  intro ev t hs
  constructor
  · intro hr
    by_contra hc
    exact cut_misaligned hm ha hc hs hr
  · intro hc
    exact (topicStep_measured_allOrNothing hm hc hs).readable (topicStep_admitted ha hs)

set_option maxRecDepth 16384 in
theorem readable_iff_allOrNothing_run :
    ∃ s, (topic Unit Unit []).runIf AllOrNothing (topic Unit Unit []).init
        [.publisherAdmit (), .publisherRead () (some (9 :: List.replicate 1024 1)),
          .publisherWrite () 0, .publisherLeave (), .publisherAdmit (),
          .publisherRead () (some (9 :: List.replicate 1024 2)), .publisherWrite () 1025,
          .publisherUpdate (), .subscriberAdmit () true, .subscriberCheck ()] = some s ∧
      Readable s := by
  obtain ⟨s, hs⟩ : ∃ s, (topic Unit Unit []).runIf AllOrNothing (topic Unit Unit []).init
      [.publisherAdmit (), .publisherRead () (some (9 :: List.replicate 1024 1)),
        .publisherWrite () 0, .publisherLeave (), .publisherAdmit (),
        .publisherRead () (some (9 :: List.replicate 1024 2)), .publisherWrite () 1025,
        .publisherUpdate (), .subscriberAdmit () true, .subscriberCheck ()] = some s := ⟨_, rfl⟩
  exact ⟨s, hs, (readable_iff_allOrNothing (.runIf .init hs)).1⟩

set_option maxRecDepth 16384 in
theorem cut_write_misframes :
    ∃ s x, (topic Unit Unit []).Reachable s ∧ (∀ p, s.publisherAt p ≠ .updating) ∧
      s.fdOffset ≠ s.size ∧ s.subscriberAt () = some x ∧ s.log = [9 :: List.replicate 1024 2] ∧
      x.sent = [10 :: 9 :: List.replicate 1023 2] := by
  obtain ⟨s, hs⟩ : ∃ s, (topic Unit Unit []).run (topic Unit Unit []).init
      [.publisherAdmit (), .publisherRead () (some (9 :: List.replicate 1024 1)),
        .publisherWrite () 1, .publisherLeave (), .publisherAdmit (),
        .publisherRead () (some (9 :: List.replicate 1024 2)), .publisherWrite () 1025,
        .publisherUpdate (), .subscriberAdmit () true, .subscriberCheck (),
        .subscriberRead (), .subscriberWrite () true] = some s := ⟨_, rfl⟩
  cases Option.some.inj hs
  refine ⟨_, _, System.reachable_of_run hs, ?_, ?_, rfl, rfl, rfl⟩
  · intro p hp
    cases hp
  · intro he
    cases he

end MessageBroker.Mbroker
