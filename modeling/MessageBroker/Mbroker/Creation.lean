import MessageBroker.Mbroker.Broker
import MessageBroker.Mbroker.Paths

namespace MessageBroker.Mbroker.Paths

open MessageBroker.Lib MessageBroker.Protocol

variable {D P S : Type} [DecidableEq D] [DecidableEq P] [DecidableEq S]

section Model

variable (resolve : BoxName → D)

/-- The reply looks at the box the lookup found, never at the one add_msg_box made. -/
def handlePacketCreateMsgBox (s : Store D P S) (name : BoxName) (opened : Bool) :
    Option (Store D P S × Reply) :=
  (storeStep resolve s (.create name opened)).map
    (fun t => (t, createResponse ((getMsgBox s.msgBoxes name).map (fun _ => 0))))

def Removes (name : BoxName) (s : Store D P S) (ev : StoreEvent P S) : Prop :=
  ev = .remove name ∧ ∃ box, getMsgBox s.msgBoxes name = some box ∧
    box.topic.publishers = 0 ∧ box.topic.subscribers = 0

def Later (name : BoxName) (t u : Store D P S) : Prop :=
  (System.mk t (storeStep resolve)).ReachableBy (fun s ev => ¬ Removes name s ev) u

def Store.publisher (s : Store D P S) (name : BoxName) (p : P) : Option PublisherSession :=
  (getMsgBox s.msgBoxes name).map (fun box => box.topic.publisherAt p)

def Store.size (s : Store D P S) (name : BoxName) : Option ℕ :=
  (getMsgBox s.msgBoxes name).map (fun box => box.topic.size)

def Store.subscriber (s : Store D P S) (name : BoxName) (x : S) : Option SubscriberSession :=
  (getMsgBox s.msgBoxes name).bind (fun box => box.topic.subscriberAt x)

structure Publishes (s : Store D P S) (name : BoxName) (box : Box P S) : Prop where
  admits : box.topic.publishers = 0 → ∀ p, box.topic.publisherAt p = .outside →
    ∃ t, storeStep resolve s (.session name (.publisherAdmit p)) = some t ∧
      t.publisher name p = some .reading
  receives : ∀ p msgPacket, box.topic.publisherAt p = .reading →
    accepted (some msgPacket) = .writing msgPacket →
    ∃ t, storeStep resolve s (.session name (.publisherRead p (some msgPacket))) = some t ∧
      t.publisher name p = some (.writing msgPacket)
  stores : ∀ p msgPacket, box.topic.publisherAt p = .writing msgPacket →
    ∃ t f, storeStep resolve s (.session name (.publisherWrite p msgPacket.length)) = some t ∧
      t.publisher name p = some .updating ∧ box.fdInternalW = some f ∧
      slice ((t.files (resolve name)).contents f) box.topic.fdOffset msgPacket.length = msgPacket
  counts : ∀ p, box.topic.publisherAt p = .updating →
    ∃ t, storeStep resolve s (.session name (.publisherUpdate p)) = some t ∧
      t.publisher name p = some .reading ∧ t.size name = some (box.topic.size + 1025)

def Admits (s : Store D P S) (name : BoxName) (box : Box P S) : Prop :=
  ∀ x, box.topic.subscriberAt x = none →
    ∃ t, storeStep resolve s (.session name (.subscriberAdmit x true)) = some t ∧
      (t.subscriber name x).isSome

structure CreateLaw (s t u : Store D P S) (name : BoxName) (opened : Bool) (reply : Reply) :
    Prop where
  descriptor : reply = .create 0 "" → ∃ box f, getMsgBox t.msgBoxes name = some box ∧
    box.fdInternalW = some f ∧ (t.files (resolve name)).linked = some f
  usable : reply = .create 0 "" → ∃ box, getMsgBox u.msgBoxes name = some box ∧
    Publishes resolve u name box ∧ Admits resolve u name box
  failure : opened = false → (∃ text, reply = .create (-1) text) ∧ t.msgBoxes = s.msgBoxes

def Findable (s : Store D P S) (name : BoxName) : Prop :=
  ∀ box x, getMsgBox s.msgBoxes name = some box → box.topic.subscriberAt x = none →
    (s.files (resolve name)).linked ≠ none

end Model

section Lists

variable {boxes : Boxes P S} {name other : BoxName} {box : Box P S}

omit [DecidableEq P] [DecidableEq S] in
lemma getMsgBox_cons (b : BoxName × Box P S) :
    getMsgBox (b :: boxes) name = if b.1 = name then some b.2 else getMsgBox boxes name := by
  by_cases hb : b.1 = name <;> simp [getMsgBox, hb]

lemma getMsgBox_addMsgBox (fd : Option ℕ) :
    getMsgBox (addMsgBox boxes other fd) name =
      (getMsgBox boxes name).or
        (if other = name then some ⟨fd, (topic P S []).init, fun _ => 0⟩ else none) := by
  induction boxes with
  | nil => simp [addMsgBox, getMsgBox]
  | cons b boxes ih =>
    rw [addMsgBox, List.cons_append, getMsgBox_cons, getMsgBox_cons]
    by_cases hb : b.1 = name
    · rw [if_pos hb, if_pos hb, Option.some_or]
    · rw [if_neg hb, if_neg hb]
      exact ih

omit [DecidableEq P] [DecidableEq S] in
lemma getMsgBox_removeMsgBox (hne : other ≠ name) :
    getMsgBox (removeMsgBox boxes other) name = getMsgBox boxes name := by
  induction boxes with
  | nil => rfl
  | cons b boxes ih =>
    by_cases ho : b.1 = other
    · have hb : b.1 ≠ name := fun hb => hne (ho.symm.trans hb)
      rw [removeMsgBox, List.eraseP_cons_of_pos (by simpa using ho), getMsgBox_cons, if_neg hb]
    · rw [removeMsgBox, List.eraseP_cons_of_neg (by simpa using ho), getMsgBox_cons,
        getMsgBox_cons]
      exact congrArg _ ih

omit [DecidableEq P] [DecidableEq S] in
lemma getMsgBox_setMsgBox :
    getMsgBox (setMsgBox boxes other box) name =
      if other = name then (getMsgBox boxes name).map (fun _ => box) else getMsgBox boxes name := by
  induction boxes with
  | nil => simp [setMsgBox, getMsgBox]
  | cons b boxes ih =>
    simp only [setMsgBox] at ih
    rw [setMsgBox, List.map_cons, getMsgBox_cons, getMsgBox_cons, ih]
    by_cases ho : b.1 = other
    · subst ho
      by_cases hn : b.1 = name <;> simp [hn]
    · by_cases hn : other = name
      · subst hn
        simp [ho]
      · simp [ho, hn]

end Lists

section Descriptors

variable {s t : Topic P S} {ev : SessionEvent P S}

lemma topicStep_fdOffset (h : topicStep s ev = some t)
    (hw : ∀ p written, ev ≠ .publisherWrite p written) : t.fdOffset = s.fdOffset := by
  cases ev with
  | publisherWrite p written => exact (hw p written rfl).elim
  | publisherAdmit p | publisherRead p | publisherUpdate p | publisherLeave p =>
    cases hp : s.publisherAt p <;> simp only [topicStep, publisherStep, hp, reduceCtorEq] at h
    all_goals
      try split_ifs at h
      all_goals exact (Option.some.inj h) ▸ rfl
  | subscriberAdmit u | subscriberCheck u | subscriberWake u | subscriberRead u
  | subscriberWrite u | subscriberLeave u =>
    simp only [topicStep] at h
    cases hu : s.subscriberAt u with
    | none =>
      simp only [hu, subscriberStep, reduceCtorEq] at h
      try (split_ifs at h <;> exact (Option.some.inj h) ▸ rfl)
    | some x =>
      obtain ⟨phase, off, sent⟩ := x
      cases phase <;> simp only [hu, subscriberStep, reduceCtorEq] at h
      all_goals
        try split_ifs at h
        all_goals exact (Option.some.inj h) ▸ rfl

lemma topicStep_write {p : P} {written : ℕ}
    (h : topicStep s (.publisherWrite p written) = some t) :
    ∃ msgPacket, s.publisherAt p = .writing msgPacket ∧ written ≤ msgPacket.length ∧
      t.file = writeAt s.file s.fdOffset (msgPacket.take written) ∧
      t.fdOffset = s.fdOffset + written := by
  cases hp : s.publisherAt p <;> simp only [topicStep, publisherStep, hp, reduceCtorEq] at h
  rename_i msgPacket
  split_ifs at h with hwhole hpart
  · cases Option.some.inj h
    exact ⟨msgPacket, rfl, hwhole.le, by rw [hwhole, List.take_length]; rfl, rfl⟩
  · cases Option.some.inj h
    exact ⟨msgPacket, rfl, hpart.le, rfl, rfl⟩

structure Opens (e : Entry) (box : Box P S) (f : ℕ) : Prop where
  descriptor : box.fdInternalW = some f
  made : f < e.made
  within : box.topic.fdOffset ≤ (e.contents f).length

def Entry.Numbered (e : Entry) : Prop := ∀ f, e.linked = some f → f < e.made

structure Grows (e e' : Entry) : Prop where
  made : e.made ≤ e'.made
  longer : ∀ f, f < e.made → (e.contents f).length ≤ (e'.contents f).length
  numbered : e.Numbered → e'.Numbered

@[simp] lemma store_self (e : Entry) (f : ℕ) (bytes : List UInt8) :
    (e.store f bytes).contents f = bytes := Function.update_self _ _ _

@[simp] lemma store_other (e : Entry) {f g : ℕ} (h : f ≠ g) (bytes : List UInt8) :
    (e.store g bytes).contents f = e.contents f := Function.update_of_ne h _ _

lemma Grows.refl (e : Entry) : Grows e e := ⟨le_rfl, fun _ _ => le_rfl, id⟩

lemma create_grows (e : Entry) : Grows e e.create.1 := by
  rw [Entry.create]
  split
  · exact .refl e
  · refine ⟨Nat.le_succ _, fun f hf => ?_, fun _ f hf => ?_⟩
    · exact (congrArg List.length (Function.update_of_ne hf.ne _ _)).ge
    · cases hf
      exact Nat.lt_succ_self _

lemma unlink_grows (e : Entry) : Grows e e.unlink :=
  ⟨le_rfl, fun _ _ => le_rfl, fun _ _ hf => by cases hf⟩

lemma create_opens (e : Entry) (he : e.Numbered) :
    e.create.1.linked = some e.create.2 ∧ e.create.2 < e.create.1.made := by
  rw [Entry.create]
  split
  · rename_i f hf
    exact ⟨hf, he f hf⟩
  · exact ⟨rfl, Nat.lt_succ_self _⟩

variable {e e' : Entry} {box box' : Box P S} {f : ℕ}

omit [DecidableEq P] [DecidableEq S] in
lemma Opens.grows (h : Opens e box f) (hg : Grows e e') : Opens e' box f :=
  ⟨h.descriptor, h.made.trans_le hg.made, h.within.trans (hg.longer f h.made)⟩

lemma sessionStep_cases (h : sessionStep e box ev = some (e', box')) :
    box'.fdInternalW = box.fdInternalW ∧ Grows e e' ∧ ∀ f, Opens e box f → Opens e' box' f := by
  have quiet {x : Topic P S} {ev} (hx : topicStep x ev = some box'.topic)
      (hw : ∀ p written, ev ≠ .publisherWrite p written) (ho : x.fdOffset = box.topic.fdOffset)
      (hfd : box'.fdInternalW = box.fdInternalW) :
      box'.fdInternalW = box.fdInternalW ∧ Grows e e ∧ ∀ f, Opens e box f → Opens e box' f := by
    refine ⟨hfd, .refl e, fun f hf => ⟨hfd.trans hf.descriptor, hf.made, ?_⟩⟩
    rw [topicStep_fdOffset hx hw, ho]
    exact hf.within
  cases ev with
  | publisherWrite p written =>
    simp only [sessionStep] at h
    split at h
    · rename_i g hg
      obtain ⟨y, hy, hxy⟩ := Option.map_eq_some_iff.mp h
      cases hxy
      obtain ⟨msgPacket, -, hle, hfile, hoff⟩ := topicStep_write hy
      have hlen (f : ℕ) : (e.contents f).length ≤ ((e.store g y.file).contents f).length := by
        by_cases hf : f = g
        · subst hf
          rw [store_self, hfile]
          exact writeAt_length_le _ _ _
        · rw [store_other _ hf]
      refine ⟨rfl, ⟨le_rfl, fun f _ => hlen f, id⟩, fun f hf => ⟨hf.descriptor, hf.made, ?_⟩⟩
      cases hg.symm.trans hf.descriptor
      have hend := writeAt_reaches (msgPacket.take written) hf.within
      rw [List.length_take, Nat.min_eq_left hle] at hend
      show y.fdOffset ≤ ((e.store g y.file).contents g).length
      rw [store_self, hfile, hoff]
      exact hend
    · rename_i hnone
      obtain ⟨y, hy, hxy⟩ := Option.map_eq_some_iff.mp h
      cases hxy
      refine ⟨rfl, .refl e, fun f hf => ?_⟩
      cases hnone.symm.trans hf.descriptor
  | subscriberAdmit u opened =>
    simp only [sessionStep] at h
    split at h
    · obtain ⟨y, hy, hxy⟩ := Option.map_eq_some_iff.mp h
      cases hxy
      exact quiet hy (fun _ _ => by simp) rfl rfl
    · obtain ⟨y, hy, hxy⟩ := Option.map_eq_some_iff.mp h
      cases hxy
      exact quiet hy (fun _ _ => by simp) rfl rfl
  | subscriberRead u =>
    obtain ⟨y, hy, hxy⟩ := Option.map_eq_some_iff.mp h
    cases hxy
    exact quiet hy (fun _ _ => by simp) rfl rfl
  | publisherAdmit | publisherRead | publisherUpdate | publisherLeave | subscriberCheck
  | subscriberWake | subscriberWrite | subscriberLeave =>
    obtain ⟨y, hy, hxy⟩ := Option.map_eq_some_iff.mp h
    cases hxy
    exact quiet hy (fun _ _ => by simp) rfl rfl

end Descriptors

section Later

variable {resolve : BoxName → D} {s t u : Store D P S} {ev : StoreEvent P S} {name : BoxName}
  {box : Box P S} {f : ℕ}

omit [DecidableEq P] [DecidableEq S] in
lemma update_grows {r d : D} {e : Entry} (hg : Grows (s.files d) e) :
    Grows (s.files r) (Function.update s.files d e r) := by
  by_cases hr : r = d
  · subst hr
    rwa [Function.update_self]
  · rw [Function.update_of_ne hr]
    exact .refl _

lemma storeStep_grows (h : storeStep resolve s ev = some t) (r : D) :
    Grows (s.files r) (t.files r) := by
  cases ev with
  | create other opened =>
    simp only [storeStep] at h
    split at h
    · cases h
      exact .refl _
    · split_ifs at h
      · cases h
        exact update_grows (create_grows _)
      · cases h
        exact .refl _
  | remove other =>
    simp only [storeStep] at h
    split at h
    · cases h
      exact .refl _
    · split_ifs at h
      · cases h
        exact update_grows (unlink_grows _)
      · cases h
        exact .refl _
  | session other ev =>
    simp only [storeStep] at h
    split at h
    · cases h
    · obtain ⟨x, hx, rfl⟩ := Option.map_eq_some_iff.mp h
      exact update_grows (sessionStep_cases hx).2.1

lemma storeStep_opens (hbox : getMsgBox s.msgBoxes name = some box)
    (ho : Opens (s.files (resolve name)) box f) (hr : ¬ Removes name s ev)
    (h : storeStep resolve s ev = some t) :
    ∃ box', getMsgBox t.msgBoxes name = some box' ∧ Opens (t.files (resolve name)) box' f := by
  have hgrown := ho.grows (storeStep_grows h (resolve name))
  cases ev with
  | create other opened =>
    have hkept (fd : Option ℕ) : getMsgBox (addMsgBox s.msgBoxes other fd) name = some box := by
      rw [getMsgBox_addMsgBox, hbox, Option.some_or]
    refine ⟨box, ?_, hgrown⟩
    simp only [storeStep] at h
    split at h
    · cases h
      exact hbox
    · split_ifs at h <;> cases h <;> exact hkept _
  | remove other =>
    refine ⟨box, ?_, hgrown⟩
    simp only [storeStep] at h
    split at h
    · cases h
      exact hbox
    · rename_i b hb
      split_ifs at h with hidle
      · cases h
        have hne : other ≠ name := by
          rintro rfl
          exact hr ⟨rfl, b, hb, hidle⟩
        rw [getMsgBox_removeMsgBox hne, hbox]
      · cases h
        exact hbox
  | session other ev =>
    simp only [storeStep] at h
    split at h
    · cases h
    · rename_i b hb
      obtain ⟨⟨e, b'⟩, hx, rfl⟩ := Option.map_eq_some_iff.mp h
      by_cases hn : other = name
      · subst hn
        cases hb.symm.trans hbox
        refine ⟨b', by rw [getMsgBox_setMsgBox, if_pos rfl, hbox]; rfl, ?_⟩
        show Opens (Function.update s.files (resolve other) e (resolve other)) b' f
        rw [Function.update_self]
        exact (sessionStep_cases hx).2.2 f ho
      · exact ⟨box, by rw [getMsgBox_setMsgBox, if_neg hn, hbox], hgrown⟩

lemma later_opens (hbox : getMsgBox t.msgBoxes name = some box)
    (ho : Opens (t.files (resolve name)) box f) (h : Later resolve name t u) :
    ∃ box', getMsgBox u.msgBoxes name = some box' ∧ Opens (u.files (resolve name)) box' f := by
  apply System.ReachableBy.invariant h ⟨box, hbox, ho⟩
  rintro s ev t ⟨b, hb, hs⟩ hr hst
  exact storeStep_opens hb hs hr hst

end Later

section Uses

variable {resolve : BoxName → D} {s : Store D P S} {name : BoxName} {box box' : Box P S} {f : ℕ}
  {ev : SessionEvent P S} {e : Entry}

lemma session_step (hbox : getMsgBox s.msgBoxes name = some box)
    (h : sessionStep (s.files (resolve name)) box ev = some (e, box')) :
    ∃ t, storeStep resolve s (.session name ev) = some t ∧
      getMsgBox t.msgBoxes name = some box' ∧ t.files (resolve name) = e := by
  refine ⟨⟨setMsgBox s.msgBoxes name box', Function.update s.files (resolve name) e⟩, ?_, ?_,
    Function.update_self _ _ _⟩
  · simp only [storeStep, hbox, h, Option.map_some]
  · rw [getMsgBox_setMsgBox, if_pos rfl, hbox]
    rfl

lemma topic_step {x : Topic P S} (hbox : getMsgBox s.msgBoxes name = some box)
    (hev : sessionStep (s.files (resolve name)) box ev =
      (topicStep box.topic ev).map (fun t => (s.files (resolve name), { box with topic := t })))
    (h : topicStep box.topic ev = some x) :
    ∃ t, storeStep resolve s (.session name ev) = some t ∧
      getMsgBox t.msgBoxes name = some { box with topic := x } := by
  rw [h] at hev
  obtain ⟨t, ht, hb, -⟩ := session_step hbox hev
  exact ⟨t, ht, hb⟩

omit [DecidableEq S] in
lemma setPublisher_self (x : Topic P S) (p : P) (y : PublisherSession) :
    (setPublisher x p y).publisherAt p = y := Function.update_self _ _ _

lemma Opens.publishes (hbox : getMsgBox s.msgBoxes name = some box)
    (ho : Opens (s.files (resolve name)) box f) : Publishes resolve s name box where
  admits := by
    intro hpub p hp
    have hstep : topicStep box.topic (.publisherAdmit p) =
        some (setPublisher { box.topic with publishers := 1 } p .reading) := by
      simp only [topicStep, hp, publisherStep, hpub, lt_irrefl, if_false]
    obtain ⟨t, ht, hb⟩ := topic_step hbox rfl hstep
    exact ⟨t, ht, by rw [Store.publisher, hb, Option.map_some, setPublisher_self]⟩
  receives := by
    intro p msgPacket hp hm
    have hstep : topicStep box.topic (.publisherRead p (some msgPacket)) =
        some (setPublisher box.topic p (.writing msgPacket)) := by
      simp only [topicStep, hp, publisherStep, hm]
    obtain ⟨t, ht, hb⟩ := topic_step hbox rfl hstep
    exact ⟨t, ht, by rw [Store.publisher, hb, Option.map_some, setPublisher_self]⟩
  stores := by
    intro p msgPacket hp
    let e := s.files (resolve name)
    let file := writeAt (e.contents f) box.topic.fdOffset msgPacket
    have hstep : sessionStep e box (.publisherWrite p msgPacket.length) =
        some (e.store f file, { box with topic := setPublisher { box.topic with
          file := file
          fdOffset := box.topic.fdOffset + msgPacket.length
          log := box.topic.log ++ [msgPacket] } p .updating }) := by
      simp only [sessionStep, ho.descriptor, topicStep, hp, publisherStep, if_true,
        Option.map_some]
      rfl
    obtain ⟨t, ht, hb, he⟩ := session_step hbox hstep
    refine ⟨t, f, ht, ?_, ho.descriptor, ?_⟩
    · rw [Store.publisher, hb, Option.map_some, setPublisher_self]
    · rw [he, store_self]
      exact slice_writeAt msgPacket ho.within
  counts := by
    intro p hp
    have hstep : topicStep box.topic (.publisherUpdate p) = some (setPublisher { box.topic with
        size := box.topic.size + sizeof messagePacket
        subscriberAt := fun u => (box.topic.subscriberAt u).map SubscriberSession.woken }
        p .reading) := by
      simp only [topicStep, hp, publisherStep]
    obtain ⟨t, ht, hb⟩ := topic_step hbox rfl hstep
    refine ⟨t, ht, ?_, ?_⟩
    · rw [Store.publisher, hb, Option.map_some, setPublisher_self]
    · rw [Store.size, hb]
      rfl

lemma admits_iff (hbox : getMsgBox s.msgBoxes name = some box) :
    Admits resolve s name box ↔ Findable resolve s name := by
  have open_step (x : S) (hx : box.topic.subscriberAt x = none) :
      (∃ t, storeStep resolve s (.session name (.subscriberAdmit x true)) = some t ∧
        (t.subscriber name x).isSome) ↔ (s.files (resolve name)).linked ≠ none := by
    cases hl : (s.files (resolve name)).linked with
    | some g =>
      let y : Topic P S := setSubscriber
        { box.topic with subscribers := box.topic.subscribers + 1 } x (some ⟨.checking, 0, []⟩)
      have hstep : sessionStep (s.files (resolve name)) box (.subscriberAdmit x true) =
          some (s.files (resolve name), ⟨box.fdInternalW, y,
            Function.update box.subscriberFd x g⟩) := by
        simp only [sessionStep, hl, topicStep, hx, subscriberStep, if_true, Option.map_some]
        rfl
      obtain ⟨t, ht, hb, -⟩ := session_step hbox hstep
      refine iff_of_true ⟨t, ht, ?_⟩ (Option.some_ne_none g)
      rw [Store.subscriber, hb, Option.bind_some]
      exact Option.isSome_iff_exists.mpr ⟨_, Function.update_self _ _ _⟩
    | none =>
      have hstep : sessionStep (s.files (resolve name)) box (.subscriberAdmit x true) =
          some (s.files (resolve name), box) := by
        simp only [sessionStep, hl, topicStep, hx, subscriberStep, Bool.false_eq_true, if_false,
          Option.map_some]
      obtain ⟨t, ht, hb, -⟩ := session_step hbox hstep
      refine iff_of_false ?_ (fun h => h rfl)
      rintro ⟨t', ht', hs⟩
      cases ht.symm.trans ht'
      rw [Store.subscriber, hb, Option.bind_some, hx] at hs
      cases hs
  constructor
  · intro h box' x hb hx
    cases hbox.symm.trans hb
    exact (open_step x hx).mp (h x hx)
  · intro h x hx
    exact (open_step x hx).mpr (h box x hbox hx)

end Uses

section Law

variable {resolve : BoxName → D} {old : D → Option (List UInt8)} {s t u : Store D P S}
  {name : BoxName} {opened : Bool} {reply : Reply}

lemma reachable_numbered (hs : (directory resolve P S old).Reachable s) (r : D) :
    (s.files r).Numbered := by
  apply System.Reachable.invariant (I := fun s : Store D P S => (s.files r).Numbered) hs
  · intro f hf
    obtain ⟨bytes, -, rfl⟩ := Option.map_eq_some_iff.mp hf
    exact Nat.zero_lt_one
  · intro s ev t hn hst
    exact (storeStep_grows hst r).numbered hn

lemma create_cases (ht : handlePacketCreateMsgBox resolve s name opened = some (t, reply)) :
    ((getMsgBox s.msgBoxes name).isSome ∧ t = s ∧
        reply = .create (-1) "YOU CANT ADD A MSGBOX THAT ALREADY EXIST!") ∨
      (getMsgBox s.msgBoxes name = none ∧ reply = .create 0 "" ∧
        ((opened = true ∧ t = s.created resolve name) ∨
          (opened = false ∧ t.msgBoxes = addMsgBox s.msgBoxes name none))) := by
  obtain ⟨t', hstep, he⟩ := Option.map_eq_some_iff.mp ht
  cases he
  simp only [storeStep] at hstep
  cases hb : getMsgBox s.msgBoxes name with
  | some box =>
    rw [hb] at hstep
    cases hstep
    exact .inl ⟨rfl, rfl, rfl⟩
  | none =>
    rw [hb] at hstep
    refine .inr ⟨rfl, rfl, ?_⟩
    cases opened with
    | true =>
      cases hstep
      exact .inl ⟨rfl, rfl⟩
    | false =>
      cases hstep
      exact .inr ⟨rfl, rfl⟩

lemma created_opens (hs : (directory resolve P S old).Reachable s)
    (hnone : getMsgBox s.msgBoxes name = none) :
    ∃ box f, getMsgBox (s.created resolve name).msgBoxes name = some box ∧
      Opens ((s.created resolve name).files (resolve name)) box f ∧
      ((s.created resolve name).files (resolve name)).linked = some f := by
  have he : (s.created resolve name).files (resolve name) =
      (s.files (resolve name)).create.1 := Function.update_self _ _ _
  obtain ⟨hlinked, hmade⟩ := create_opens _ (reachable_numbered hs (resolve name))
  refine ⟨⟨some (s.files (resolve name)).create.2, (topic P S []).init, fun _ => 0⟩,
    (s.files (resolve name)).create.2, ?_, ⟨rfl, ?_, Nat.zero_le _⟩, ?_⟩
  · rw [Store.created, getMsgBox_addMsgBox, hnone, Option.none_or, if_pos rfl]
  · rw [he]
    exact hmade
  · rw [he]
    exact hlinked

theorem create_law_iff (hs : (directory resolve P S old).Reachable s)
    (ht : handlePacketCreateMsgBox resolve s name opened = some (t, reply))
    (hu : Later resolve name t u) :
    CreateLaw resolve s t u name opened reply ↔
      (getMsgBox s.msgBoxes name).isSome ∨ (opened = true ∧ Findable resolve u name) := by
  rcases create_cases ht with ⟨hbox, rfl, rfl⟩ | ⟨hnone, rfl, ⟨rfl, rfl⟩ | ⟨rfl, hadded⟩⟩
  · -- refused
    have hno : ∀ text, Reply.create (-1) text ≠ .create 0 "" := fun _ h => by cases h
    refine iff_of_true ⟨?_, ?_, ?_⟩ (.inl hbox)
    · exact fun h => (hno _ h).elim
    · exact fun h => (hno _ h).elim
    · exact fun _ => ⟨⟨_, rfl⟩, rfl⟩
  · -- created with its file open
    obtain ⟨box, f, hbox, hopens, hlinked⟩ := created_opens hs hnone
    obtain ⟨later, hlater, hstill⟩ := later_opens hbox hopens hu
    rw [hnone]
    constructor
    · intro hlaw
      obtain ⟨box', hb', -, hadmits⟩ := hlaw.usable rfl
      cases hlater.symm.trans hb'
      exact .inr ⟨rfl, (admits_iff hlater).mp hadmits⟩
    · rintro (hfalse | ⟨-, hfindable⟩)
      · cases hfalse
      · refine ⟨fun _ => ⟨box, f, hbox, hopens.descriptor, hlinked⟩, fun _ => ?_, ?_⟩
        · exact ⟨later, hlater, hstill.publishes hlater, (admits_iff hlater).mpr hfindable⟩
        · intro hfalse
          cases hfalse
  · -- created without one
    rw [hnone]
    refine iff_of_false ?_ ?_
    · intro hlaw
      obtain ⟨⟨text, htext⟩, -⟩ := hlaw.failure rfl
      cases htext
    · rintro (hfalse | ⟨hfalse, -⟩) <;> cases hfalse

theorem create_law_iff_admitted : ∃ t u reply,
    handlePacketCreateMsgBox posixPath newBroker.init boxA true = some (t, reply) ∧
      storeStep posixPath t (.session boxA (.publisherAdmit ())) = some u ∧
      (CreateLaw posixPath newBroker.init t u boxA true reply ↔
        (getMsgBox newBroker.init.msgBoxes boxA).isSome ∨
          (true = true ∧ Findable posixPath u boxA)) := by
  obtain ⟨t, reply, ht, u, hu⟩ : ∃ t reply,
      handlePacketCreateMsgBox posixPath newBroker.init boxA true = some (t, reply) ∧
        ∃ u, storeStep posixPath t (.session boxA (.publisherAdmit ())) = some u :=
    ⟨_, _, rfl, _, rfl⟩
  have hlater : Later posixPath boxA t u := by
    have hinit : Later posixPath boxA t t := .init
    have hkeeps : ¬ Removes boxA t (.session boxA (.publisherAdmit ())) := by
      rintro ⟨hremove, -⟩
      cases hremove
    exact System.ReachableBy.step hinit hkeeps hu
  have hs : newBroker.Reachable newBroker.init := .init
  exact ⟨t, u, reply, ht, hu, create_law_iff hs ht hlater⟩

def boxInDir : BoxName := ⟨[100, 47, 97], by decide, by decide⟩

theorem unopened_box_swallows : ∃ t box,
    handlePacketCreateMsgBox posixPath newBroker.init boxInDir false = some (t, .create 0 "") ∧
      getMsgBox t.msgBoxes boxInDir = some box ∧ box.fdInternalW = none ∧
      (newBroker.attempts t (publish boxInDir 1)).size boxInDir = some 0 ∧
      (newBroker.attempts t (publish boxInDir 1)).stored posixPath boxInDir = none ∧
      ¬ CreateLaw posixPath newBroker.init t t boxInDir false (.create 0 "") := by
  refine ⟨_, _, rfl, rfl, rfl, by decide +kernel, by decide +kernel, ?_⟩
  intro hlaw
  obtain ⟨⟨text, htext⟩, -⟩ := hlaw.failure rfl
  cases htext

end Law

end MessageBroker.Mbroker.Paths
