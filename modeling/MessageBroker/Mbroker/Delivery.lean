import MessageBroker.Mbroker.Sessions

namespace MessageBroker.Mbroker

open MessageBroker.Lib MessageBroker.Protocol

variable {P S : Type}

def PublisherSession.isUpdating : PublisherSession → Bool
  | .updating => true
  | _ => false

lemma sizeof_messagePacket : sizeof messagePacket = 1025 := rfl

lemma accepted_length {received : Option (List UInt8)} {msgPacket : List UInt8}
    (h : accepted received = .writing msgPacket) : msgPacket.length = 1025 := by
  cases received with
  | none => cases h
  | some bytes =>
    simp only [accepted] at h
    split_ifs at h with hc
    cases h
    rw [not_or, not_not] at hc
    exact hc.1

lemma accepted_not_updating (received : Option (List UInt8)) :
    (accepted received).isUpdating = false := by
  cases received with
  | none => rfl
  | some bytes =>
    simp only [accepted]
    split_ifs <;> rfl

structure UpToDate (size : ℕ) (log : List (List UInt8)) (x : SubscriberSession) : Prop where
  sent : x.sent <+: log.map deliver
  position : match x.phase with
    | .checking => x.fdOffset = 1025 * x.sent.length ∧ x.fdOffset ≤ size
    | .asleep => x.fdOffset = 1025 * x.sent.length ∧ x.fdOffset = size
    | .reading => x.fdOffset = 1025 * x.sent.length ∧ x.fdOffset + 1025 ≤ size
    | .sending packet => x.fdOffset = 1025 * (x.sent.length + 1) ∧ x.fdOffset ≤ size ∧
        x.sent ++ [packet] <+: log.map deliver
    | .leaving => True

lemma UpToDate.log_append {size : ℕ} {log : List (List UInt8)} {x : SubscriberSession}
    (h : UpToDate size log x) (packet : List UInt8) : UpToDate size (log ++ [packet]) x := by
  obtain ⟨hs, hp⟩ := h
  have hlog : log.map deliver <+: (log ++ [packet]).map deliver := by
    rw [List.map_append]
    exact List.prefix_append _ _
  refine ⟨hs.trans hlog, ?_⟩
  cases hx : x.phase with
  | sending p =>
    rw [hx] at hp
    exact ⟨hp.1, hp.2.1, hp.2.2.trans hlog⟩
  | checking | asleep | reading | leaving =>
    rw [hx] at hp
    exact hp

lemma UpToDate.woken {size size' : ℕ} {log : List (List UInt8)} {x : SubscriberSession}
    (h : UpToDate size log x) (hsize : size ≤ size') : UpToDate size' log x.woken := by
  obtain ⟨phase, off, sent⟩ := x
  obtain ⟨hs, hp⟩ := h
  cases phase with
  | asleep =>
    refine ⟨hs, hp.1, ?_⟩
    exact hp.2.le.trans hsize
  | checking => exact ⟨hs, hp.1, hp.2.trans hsize⟩
  | reading => exact ⟨hs, hp.1, hp.2.trans hsize⟩
  | sending packet => exact ⟨hs, hp.1, hp.2.1.trans hsize, hp.2.2⟩
  | leaving => exact ⟨hs, trivial⟩

variable [Fintype P]

structure Measured (s : Topic P S) : Prop where
  file : Holds 1025 s.file s.log
  appendAt : s.fdOffset = 1025 * s.log.length
  size : s.size + 1025 * tally PublisherSession.isUpdating s.publisherAt = 1025 * s.log.length
  writing : ∀ p msgPacket, s.publisherAt p = .writing msgPacket → msgPacket.length = 1025
  subscribers : ∀ u x, s.subscriberAt u = some x → UpToDate s.size s.log x

variable [DecidableEq P] [DecidableEq S] {s t : Topic P S} {ev : SessionEvent P S}
  {old : List UInt8}

omit [DecidableEq S] in
lemma Measured.setPublisher (h : Measured s) {p : P} {x : PublisherSession}
    (hold : (s.publisherAt p).isUpdating = false) (hnew : x.isUpdating = false)
    (hw : ∀ m, x = .writing m → m.length = 1025) : Measured (setPublisher s p x) := by
  obtain ⟨h₁, h₂, h₃, h₄, h₅⟩ := h
  have ht := tally_update PublisherSession.isUpdating s.publisherAt p x
  rw [hold, hnew] at ht
  refine ⟨h₁, h₂, ?_, ?_, h₅⟩
  · simp only [Mbroker.setPublisher]
    omega
  · intro q m hq
    rw [setPublisher_at] at hq
    split_ifs at hq
    · exact hw m hq
    · exact h₄ q m hq

omit [DecidableEq P] in
lemma Measured.setSubscriber (h : Measured s) {u : S} {x : Option SubscriberSession}
    (hx : ∀ y, x = some y → UpToDate s.size s.log y) : Measured (setSubscriber s u x) := by
  obtain ⟨h₁, h₂, h₃, h₄, h₅⟩ := h
  refine ⟨h₁, h₂, h₃, h₄, ?_⟩
  intro v y hv
  rw [setSubscriber_at] at hv
  split_ifs at hv
  · exact hx y hv
  · exact h₅ v y hv

omit [DecidableEq S] in
lemma Measured.store (h : Measured s) {p : P} {msgPacket : List UInt8}
    (hp : s.publisherAt p = .writing msgPacket) : Measured (Mbroker.setPublisher { s with
      file := writeAt s.file s.fdOffset msgPacket
      fdOffset := s.fdOffset + msgPacket.length
      log := s.log ++ [msgPacket] } p .updating) := by
  obtain ⟨h₁, h₂, h₃, h₄, h₅⟩ := h
  have hlen := h₄ p msgPacket hp
  have ht := tally_update PublisherSession.isUpdating s.publisherAt p .updating
  rw [hp] at ht
  simp only [PublisherSession.isUpdating, Bool.toNat_true, Bool.toNat_false] at ht
  constructor
  · simp only [Mbroker.setPublisher, h₂]
    exact h₁.append hlen
  · simp only [Mbroker.setPublisher, List.length_append, List.length_singleton]
    omega
  · simp only [Mbroker.setPublisher, List.length_append, List.length_singleton]
    omega
  · intro q m hq
    rw [setPublisher_at] at hq
    split_ifs at hq
    exact h₄ q m hq
  · intro u x hu
    exact (h₅ u x hu).log_append msgPacket

omit [DecidableEq S] in
lemma Measured.update (h : Measured s) {p : P} (hp : s.publisherAt p = .updating) :
    Measured (Mbroker.setPublisher { s with
      size := s.size + sizeof messagePacket
      subscriberAt := fun u => (s.subscriberAt u).map SubscriberSession.woken } p .reading) := by
  obtain ⟨h₁, h₂, h₃, h₄, h₅⟩ := h
  have ht := tally_update PublisherSession.isUpdating s.publisherAt p .reading
  rw [hp] at ht
  simp only [PublisherSession.isUpdating, Bool.toNat_true, Bool.toNat_false] at ht
  refine ⟨h₁, h₂, ?_, ?_, ?_⟩
  · simp only [Mbroker.setPublisher, sizeof_messagePacket]
    omega
  · intro q m hq
    rw [setPublisher_at] at hq
    split_ifs at hq
    exact h₄ q m hq
  · intro u x hu
    obtain ⟨y, hy, rfl⟩ := Option.map_eq_some_iff.mp hu
    exact (h₅ u y hy).woken (Nat.le_add_right _ _)

omit [DecidableEq S] in
lemma publisherStep_measured (h : Measured s) {p : P} (hw : WholeWrites s ev)
    (hs : publisherStep s p (s.publisherAt p) ev = some t) : Measured t := by
  cases hp : s.publisherAt p with
  | outside =>
    cases ev <;> simp only [publisherStep, hp, reduceCtorEq] at hs
    split_ifs at hs
    · cases hs
      exact h
    · cases hs
      have h' : Measured { s with publishers := 1 } := ⟨h.1, h.2, h.3, h.4, h.5⟩
      exact h'.setPublisher (by simp only [hp]; rfl) rfl (fun m hm => by cases hm)
  | reading =>
    cases ev <;> simp only [publisherStep, hp, reduceCtorEq, Option.some.injEq] at hs
    subst hs
    exact h.setPublisher (by rw [hp]; rfl) (accepted_not_updating _) (fun m => accepted_length)
  | writing msgPacket =>
    cases ev <;> simp only [publisherStep, hp, reduceCtorEq] at hs
    rename_i q written
    have hlen := h.writing p msgPacket hp
    have hall : written = msgPacket.length := by
      rw [hlen]
      exact hw
    rw [if_pos hall, hall] at hs
    cases hs
    exact h.store hp
  | updating =>
    cases ev <;> simp only [publisherStep, hp, reduceCtorEq, Option.some.injEq] at hs
    subst hs
    exact h.update hp
  | leaving =>
    cases ev <;> simp only [publisherStep, hp, reduceCtorEq, Option.some.injEq] at hs
    subst hs
    have h' : Measured { s with publishers := s.publishers - 1 } := ⟨h.1, h.2, h.3, h.4, h.5⟩
    exact h'.setPublisher (by simp only [hp]; rfl) rfl (fun m hm => by cases hm)

omit [DecidableEq P] [DecidableEq S] in
lemma Measured.read (h : Measured s) {k : ℕ} (hk : 1025 * k + 1025 ≤ s.size) :
    ∃ packet, s.log[k]? = some packet ∧ (s.file.drop (1025 * k)).take 1025 = packet ∧
      packet.length = 1025 := by
  have hsize := h.size
  have hlt : k < s.log.length := by omega
  refine ⟨s.log[k], List.getElem?_eq_getElem hlt, ?_, ?_⟩
  · exact h.file.read (List.getElem?_eq_getElem hlt)
  · exact h.file.width _ (List.getElem_mem hlt)

omit [Fintype P] [DecidableEq P] [DecidableEq S] in
lemma sent_next {sent : List (List UInt8)} {packet : List UInt8}
    (hs : sent <+: s.log.map deliver) (hk : s.log[sent.length]? = some packet) :
    sent ++ [deliver packet] <+: s.log.map deliver := by
  obtain ⟨rest, hrest⟩ := hs
  have hhead : rest[0]? = some (deliver packet) := by
    have hk' : (s.log.map deliver)[sent.length]? = some (deliver packet) := by
      rw [List.getElem?_map, hk]
      rfl
    rwa [← hrest, List.getElem?_append_right le_rfl, Nat.sub_self] at hk'
  cases rest with
  | nil => cases hhead
  | cons x rest =>
    cases Option.some.inj hhead
    exact ⟨rest, by rw [List.append_assoc]; exact hrest⟩

omit [DecidableEq P] in
lemma subscriberStep_measured (h : Measured s) {u : S}
    (hs : subscriberStep s u (s.subscriberAt u) ev = some t) : Measured t := by
  cases hu : s.subscriberAt u with
  | none =>
    cases ev <;> simp only [subscriberStep, hu, reduceCtorEq] at hs
    split_ifs at hs
    · cases hs
      have h' : Measured { s with subscribers := s.subscribers + 1 } := ⟨h.1, h.2, h.3, h.4, h.5⟩
      apply h'.setSubscriber
      intro y hy
      cases hy
      exact ⟨List.nil_prefix, rfl, Nat.zero_le _⟩
    · cases hs
      exact h
  | some x =>
    obtain ⟨phase, off, sent⟩ := x
    obtain ⟨hsent, hpos⟩ := h.subscribers u _ hu
    cases phase with
    | checking =>
      cases ev <;> simp only [subscriberStep, hu, reduceCtorEq] at hs
      obtain ⟨hoff, hle⟩ := hpos
      dsimp only at hoff hle
      have hsize := h.size
      split_ifs at hs with he
      · cases hs
        apply h.setSubscriber
        intro y hy
        cases hy
        exact ⟨hsent, hoff, he.symm⟩
      · cases hs
        apply h.setSubscriber
        intro y hy
        cases hy
        refine ⟨hsent, hoff, ?_⟩
        dsimp only
        omega
    | asleep =>
      cases ev <;> simp only [subscriberStep, hu, reduceCtorEq, Option.some.injEq] at hs
      subst hs
      apply h.setSubscriber
      intro y hy
      cases hy
      exact ⟨hsent, hpos.1, hpos.2.le⟩
    | reading =>
      cases ev <;> simp only [subscriberStep, hu, reduceCtorEq] at hs
      obtain ⟨hoff, hle⟩ := hpos
      dsimp only at hoff hle hsent
      subst hoff
      obtain ⟨packet, hk, hread, hlen⟩ := h.read hle
      rw [sizeof_messagePacket, hread, hlen, if_neg (by decide), if_neg (by decide)] at hs
      cases hs
      apply h.setSubscriber
      intro y hy
      cases hy
      refine ⟨hsent, ?_, hle, sent_next hsent hk⟩
      dsimp only
      omega
    | sending packet =>
      cases ev <;> simp only [subscriberStep, hu, reduceCtorEq] at hs
      obtain ⟨hoff, hle, hnext⟩ := hpos
      split_ifs at hs
      · cases hs
        apply h.setSubscriber
        intro y hy
        cases hy
        refine ⟨hnext, ?_, hle⟩
        dsimp only
        rw [List.length_append, List.length_singleton]
        exact hoff
      · cases hs
        apply h.setSubscriber
        intro y hy
        cases hy
        exact ⟨hsent, trivial⟩
    | leaving =>
      cases ev <;> simp only [subscriberStep, hu, reduceCtorEq, Option.some.injEq] at hs
      subst hs
      have h' : Measured { s with subscribers := s.subscribers - 1 } := ⟨h.1, h.2, h.3, h.4, h.5⟩
      exact h'.setSubscriber (fun y hy => by cases hy)

lemma topicStep_measured (h : Measured s) (hw : WholeWrites s ev) (hs : topicStep s ev = some t) :
    Measured t := by
  cases ev with
  | publisherAdmit | publisherRead | publisherWrite | publisherUpdate | publisherLeave =>
    exact publisherStep_measured h hw hs
  | subscriberAdmit | subscriberCheck | subscriberWake | subscriberRead | subscriberWrite
  | subscriberLeave => exact subscriberStep_measured h hs

lemma whole_measured (h : (topic P S old).ReachableBy WholeWrites s) : Measured s := by
  refine h.invariant ⟨Holds.nil, rfl, ?_, ?_, ?_⟩
    (fun _ _ _ hm hw hs => topicStep_measured hm hw hs)
  · have hz : tally PublisherSession.isUpdating (fun _ : P => .outside) = 0 := tally_const rfl
    simp [topic, hz]
  · intro p m hp
    cases hp
  · intro u x hu
    cases hu

structure Delivered (s : Topic P S) : Prop where
  sent : ∀ u x, s.subscriberAt u = some x → x.sent <+: s.log.map deliver
  size_le : s.size ≤ sizeof messagePacket * s.log.length
  settled : (∀ p, s.publisherAt p ≠ .updating) →
    s.size = sizeof messagePacket * s.log.length ∧
      ∀ u x, s.subscriberAt u = some x → x.phase = .asleep → x.sent = s.log.map deliver

omit [DecidableEq P] [DecidableEq S] in
lemma Measured.delivered (h : Measured s) : Delivered s := by
  have hsize := h.size
  have hle : s.size ≤ sizeof messagePacket * s.log.length := by
    rw [sizeof_messagePacket]
    omega
  refine ⟨fun u x hu => (h.subscribers u x hu).sent, hle, fun hq => ?_⟩
  have hz : tally PublisherSession.isUpdating s.publisherAt = 0 := by
    apply tally_eq_zero.mpr
    intro p
    cases hp : s.publisherAt p with
    | updating => exact (hq p hp).elim
    | outside | reading | writing | leaving => rfl
  rw [hz, Nat.mul_zero, Nat.add_zero] at hsize
  refine ⟨hsize, fun u x hu hx => ?_⟩
  obtain ⟨hs, hp⟩ := h.subscribers u x hu
  rw [hx] at hp
  obtain ⟨hoff, hend⟩ := hp
  exact hs.eq_of_length (by rw [List.length_map]; omega)

end MessageBroker.Mbroker
