import MessageBroker.Mbroker.Sessions

namespace MessageBroker.Mbroker

open MessageBroker.Lib MessageBroker.Protocol

variable {P S : Type} [DecidableEq P] [DecidableEq S] {s t : Topic P S} {p : P} {u : S}

lemma publisherAdmit_step (h : topicStep s (.publisherAdmit p) = some t) :
    s.publisherAt p = .outside ∧
      t = if 0 < s.publishers then s else setPublisher { s with publishers := 1 } p .reading := by
  cases hp : s.publisherAt p <;>
    simp only [topicStep, publisherStep, hp, reduceCtorEq] at h
  refine ⟨rfl, ?_⟩
  split_ifs at h ⊢ <;> exact (Option.some.inj h).symm

lemma publisherRead_step {received : Option (List UInt8)}
    (h : topicStep s (.publisherRead p received) = some t) :
    s.publisherAt p = .reading ∧ t = setPublisher s p (accepted received) := by
  cases hp : s.publisherAt p <;>
    simp only [topicStep, publisherStep, hp, reduceCtorEq, Option.some.injEq] at h
  exact ⟨rfl, h.symm⟩

lemma publisherWrite_step {written : ℕ} (h : topicStep s (.publisherWrite p written) = some t) :
    ∃ msgPacket, s.publisherAt p = .writing msgPacket ∧
      ((written = msgPacket.length ∧ t = setPublisher { s with
          file := writeAt s.file s.fdOffset msgPacket
          fdOffset := s.fdOffset + written
          log := s.log ++ [msgPacket] } p .updating) ∨
        (written < msgPacket.length ∧ t = setPublisher { s with
          file := writeAt s.file s.fdOffset (msgPacket.take written)
          fdOffset := s.fdOffset + written } p .leaving)) := by
  cases hp : s.publisherAt p <;>
    simp only [topicStep, publisherStep, hp, reduceCtorEq] at h
  rename_i msgPacket
  refine ⟨msgPacket, rfl, ?_⟩
  split_ifs at h with h₁ h₂
  · exact .inl ⟨h₁, (Option.some.inj h).symm⟩
  · exact .inr ⟨h₂, (Option.some.inj h).symm⟩

lemma publisherUpdate_step (h : topicStep s (.publisherUpdate p) = some t) :
    s.publisherAt p = .updating ∧ t = setPublisher { s with
      size := s.size + sizeof messagePacket
      subscriberAt := fun u => (s.subscriberAt u).map SubscriberSession.woken } p .reading := by
  cases hp : s.publisherAt p <;>
    simp only [topicStep, publisherStep, hp, reduceCtorEq, Option.some.injEq] at h
  exact ⟨rfl, h.symm⟩

lemma publisherLeave_step (h : topicStep s (.publisherLeave p) = some t) :
    s.publisherAt p = .leaving ∧
      t = setPublisher { s with publishers := s.publishers - 1 } p .outside := by
  cases hp : s.publisherAt p <;>
    simp only [topicStep, publisherStep, hp, reduceCtorEq, Option.some.injEq] at h
  exact ⟨rfl, h.symm⟩

lemma subscriberAdmit_step {opened : Bool} (h : topicStep s (.subscriberAdmit u opened) = some t) :
    s.subscriberAt u = none ∧ t = if opened then
      setSubscriber { s with subscribers := s.subscribers + 1 } u (some ⟨.checking, 0, []⟩)
    else s := by
  cases hu : s.subscriberAt u with
  | none =>
    simp only [topicStep, subscriberStep, hu] at h
    refine ⟨rfl, ?_⟩
    split_ifs at h ⊢ <;> exact (Option.some.inj h).symm
  | some x =>
    obtain ⟨phase, off, sent⟩ := x
    cases phase <;> simp only [topicStep, subscriberStep, hu, reduceCtorEq] at h

lemma subscriberCheck_step (h : topicStep s (.subscriberCheck u) = some t) :
    ∃ off sent, s.subscriberAt u = some ⟨.checking, off, sent⟩ ∧
      t = setSubscriber s u
        (some ⟨if s.size = off then .asleep else .reading, off, sent⟩) := by
  cases hu : s.subscriberAt u with
  | none => simp only [topicStep, subscriberStep, hu, reduceCtorEq] at h
  | some x =>
    obtain ⟨phase, off, sent⟩ := x
    cases phase <;> simp only [topicStep, subscriberStep, hu, reduceCtorEq] at h
    refine ⟨off, sent, rfl, ?_⟩
    split_ifs at h ⊢ <;> exact (Option.some.inj h).symm

lemma subscriberWake_step (h : topicStep s (.subscriberWake u) = some t) :
    ∃ off sent, s.subscriberAt u = some ⟨.asleep, off, sent⟩ ∧
      t = setSubscriber s u (some ⟨.checking, off, sent⟩) := by
  cases hu : s.subscriberAt u with
  | none => simp only [topicStep, subscriberStep, hu, reduceCtorEq] at h
  | some x =>
    obtain ⟨phase, off, sent⟩ := x
    cases phase <;>
      simp only [topicStep, subscriberStep, hu, reduceCtorEq, Option.some.injEq] at h
    exact ⟨off, sent, rfl, h.symm⟩

lemma subscriberRead_step (h : topicStep s (.subscriberRead u) = some t) :
    ∃ off sent, s.subscriberAt u = some ⟨.reading, off, sent⟩ ∧
      ∃ x : SubscriberSession, t = setSubscriber s u (some x) ∧ x.sent = sent ∧
        (((s.file.drop off).take (sizeof messagePacket)).length = sizeof messagePacket →
          x = ⟨.sending (deliver ((s.file.drop off).take (sizeof messagePacket))),
            off + sizeof messagePacket, sent⟩) := by
  cases hu : s.subscriberAt u with
  | none => simp only [topicStep, subscriberStep, hu, reduceCtorEq] at h
  | some x =>
    obtain ⟨phase, off, sent⟩ := x
    cases phase <;> simp only [topicStep, subscriberStep, hu, reduceCtorEq] at h
    refine ⟨off, sent, rfl, ?_⟩
    split_ifs at h with h₁ h₂
    · refine ⟨_, (Option.some.inj h).symm, rfl, fun hlen => ?_⟩
      rw [h₁] at hlen
      cases hlen
    · exact ⟨_, (Option.some.inj h).symm, rfl, fun hlen => absurd hlen h₂⟩
    · refine ⟨_, (Option.some.inj h).symm, rfl, fun hlen => ?_⟩
      rw [hlen]

lemma subscriberWrite_step {whole : Bool} (h : topicStep s (.subscriberWrite u whole) = some t) :
    ∃ packet off sent, s.subscriberAt u = some ⟨.sending packet, off, sent⟩ ∧
      t = setSubscriber s u
        (some (if whole then ⟨.checking, off, sent ++ [packet]⟩ else ⟨.leaving, off, sent⟩)) := by
  cases hu : s.subscriberAt u with
  | none => simp only [topicStep, subscriberStep, hu, reduceCtorEq] at h
  | some x =>
    obtain ⟨phase, off, sent⟩ := x
    cases phase <;> simp only [topicStep, subscriberStep, hu, reduceCtorEq] at h
    rename_i packet
    refine ⟨packet, off, sent, rfl, ?_⟩
    split_ifs at h ⊢ <;> exact (Option.some.inj h).symm

lemma subscriberLeave_step (h : topicStep s (.subscriberLeave u) = some t) :
    ∃ off sent, s.subscriberAt u = some ⟨.leaving, off, sent⟩ ∧
      t = setSubscriber { s with subscribers := s.subscribers - 1 } u none := by
  cases hu : s.subscriberAt u with
  | none => simp only [topicStep, subscriberStep, hu, reduceCtorEq] at h
  | some x =>
    obtain ⟨phase, off, sent⟩ := x
    cases phase <;>
      simp only [topicStep, subscriberStep, hu, reduceCtorEq, Option.some.injEq] at h
    exact ⟨off, sent, rfl, h.symm⟩

end MessageBroker.Mbroker
