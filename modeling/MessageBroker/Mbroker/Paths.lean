import MessageBroker.Mbroker.Sessions

/-! The boxes of the broker over the directory their files are in: a box is found by its name, its
file by the path the name resolves to. Every block under a lock is one step. -/

namespace MessageBroker.Mbroker.Paths

open MessageBroker.Lib MessageBroker.Protocol

/-- The files that were at a path, by number, and the one that is there now. -/
structure Entry where
  linked : Option ℕ
  made : ℕ
  contents : ℕ → List UInt8

namespace Entry

def before (old : Option (List UInt8)) : Entry := ⟨old.map (fun _ => 0), 1, fun _ => old.getD []⟩

/-- `open(path, O_WRONLY | O_CREAT)` -/
def create (e : Entry) : Entry × ℕ :=
  match e.linked with
  | some f => (e, f)
  | none => (⟨some e.made, e.made + 1, Function.update e.contents e.made []⟩, e.made)

def store (e : Entry) (f : ℕ) (bytes : List UInt8) : Entry :=
  { e with contents := Function.update e.contents f bytes }

def unlink (e : Entry) : Entry := { e with linked := none }

end Entry

structure Box (P S : Type) where
  -- the file fd_internal_w has open, none for -1
  fdInternalW : Option ℕ
  -- the sessions, over the file of the descriptor used last
  topic : Topic P S
  subscriberFd : S → ℕ

abbrev Boxes (P S : Type) := List (BoxName × Box P S)

structure Store (D P S : Type) where
  msgBoxes : Boxes P S
  files : D → Entry

inductive StoreEvent (P S : Type)
  | create (name : BoxName) (opened : Bool)
  | remove (name : BoxName)
  | session (name : BoxName) (ev : SessionEvent P S)

def StoreEvent.name {P S : Type} : StoreEvent P S → BoxName
  | .create name _ | .remove name | .session name _ => name

section Model

variable {D P S : Type} [DecidableEq D] [DecidableEq P] [DecidableEq S]

def getMsgBox (boxes : Boxes P S) (name : BoxName) : Option (Box P S) :=
  (boxes.find? (fun b => b.1 = name)).map Prod.snd

def addMsgBox (boxes : Boxes P S) (name : BoxName) (fd : Option ℕ) : Boxes P S :=
  boxes ++ [(name, ⟨fd, (topic P S []).init, fun _ => 0⟩)]

def removeMsgBox (boxes : Boxes P S) (name : BoxName) : Boxes P S :=
  boxes.eraseP (fun b => b.1 = name)

def setMsgBox (boxes : Boxes P S) (name : BoxName) (box : Box P S) : Boxes P S :=
  boxes.map (fun b => if b.1 = name then (name, box) else b)

def sessionStep (e : Entry) (box : Box P S) : SessionEvent P S → Option (Entry × Box P S)
  | .subscriberAdmit u opened =>
    -- a descriptor of its own, opened by name
    match e.linked with
    | some f => (topicStep box.topic (.subscriberAdmit u opened)).map
        (fun t => (e, { box with
          topic := t
          subscriberFd := Function.update box.subscriberFd u f }))
    | none => (topicStep box.topic (.subscriberAdmit u false)).map
        (fun t => (e, { box with topic := t }))
  | .subscriberRead u =>
    (topicStep { box.topic with file := e.contents (box.subscriberFd u) } (.subscriberRead u)).map
      (fun t => (e, { box with topic := t }))
  | .publisherWrite p written =>
    match box.fdInternalW with
    | some f => (topicStep { box.topic with file := e.contents f } (.publisherWrite p written)).map
        (fun t => (e.store f t.file, { box with topic := t }))
    | none =>
      (topicStep box.topic (.publisherWrite p 0)).map (fun t => (e, { box with topic := t }))
  | ev => (topicStep box.topic ev).map (fun t => (e, { box with topic := t }))

variable (resolve : BoxName → D)

def storeStep (s : Store D P S) : StoreEvent P S → Option (Store D P S)
  | .create name opened =>
    match getMsgBox s.msgBoxes name with
    | some _ => some s
    | none =>
      if opened then
        let (e, f) := (s.files (resolve name)).create
        some ⟨addMsgBox s.msgBoxes name (some f), Function.update s.files (resolve name) e⟩
      else some { s with msgBoxes := addMsgBox s.msgBoxes name none }
  | .remove name =>
    match getMsgBox s.msgBoxes name with
    | none => some s
    | some box =>
      if box.topic.publishers = 0 ∧ box.topic.subscribers = 0 then
        some ⟨removeMsgBox s.msgBoxes name,
          Function.update s.files (resolve name) (s.files (resolve name)).unlink⟩
      else some s
  | .session name ev =>
    match getMsgBox s.msgBoxes name with
    | none => none
    | some box => (sessionStep (s.files (resolve name)) box ev).map (fun x =>
        ⟨setMsgBox s.msgBoxes name x.2, Function.update s.files (resolve name) x.1⟩)

def directory (P S : Type) [DecidableEq P] [DecidableEq S] (old : D → Option (List UInt8)) :
    System (Store D P S) (StoreEvent P S) where
  init := ⟨[], fun d => .before (old d)⟩
  step := storeStep resolve

def Touches (a : BoxName) : StoreEvent P S → Bool
  | .remove name | .session name (.publisherAdmit _) | .session name (.publisherRead _ _)
  | .session name (.publisherWrite _ _) | .session name (.publisherUpdate _)
  | .session name (.publisherLeave _) => name = a
  | _ => false

namespace Store

def stored (s : Store D P S) (b : BoxName) : Option (List UInt8) :=
  (s.files (resolve b)).linked.map (s.files (resolve b)).contents

def sentTo (s : Store D P S) (b : BoxName) (u : S) : Option (List (List UInt8)) :=
  ((getMsgBox s.msgBoxes b).bind (fun box => box.topic.subscriberAt u)).map SubscriberSession.sent

end Store

structure Unaffected (b : BoxName) (s t : Store D P S) : Prop where
  stored : s.stored resolve b = t.stored resolve b
  sent : ∀ u, s.sentTo b u = t.sentTo b u

/-- Whatever happens from here, `b` is as if nobody had published to `a` or removed it. -/
def Isolated (old : D → Option (List UInt8)) (s : Store D P S) (a b : BoxName) : Prop :=
  ∀ evs, Unaffected resolve b ((directory resolve P S old).attempts s evs)
    ((directory resolve P S old).attempts s (evs.filter (fun ev => !Touches a ev)))

end Model

section Lists

variable {D P S : Type} [DecidableEq D] {resolve : BoxName → D} {name : BoxName} {r : D}
  {boxes : Boxes P S} {box : Box P S} {fd : Option ℕ}

def atPath (resolve : BoxName → D) (r : D) (boxes : Boxes P S) : Boxes P S :=
  boxes.filter (fun b => resolve b.1 = r)

lemma getMsgBox_atPath (hn : resolve name = r) :
    getMsgBox (atPath resolve r boxes) name = getMsgBox boxes name := by
  rw [getMsgBox, atPath, List.find?_filter, getMsgBox]
  congr 2
  funext b
  by_cases hb : b.1 = name
  · simp [hb, hn]
  · simp [hb]

lemma addMsgBox_atPath [DecidableEq P] [DecidableEq S] :
    atPath resolve r (addMsgBox boxes name fd) =
      if resolve name = r then addMsgBox (atPath resolve r boxes) name fd
      else atPath resolve r boxes := by
  by_cases hn : resolve name = r <;> simp [atPath, addMsgBox, List.filter_append, hn]

lemma removeMsgBox_atPath : atPath resolve r (removeMsgBox boxes name) =
    if resolve name = r then removeMsgBox (atPath resolve r boxes) name
    else atPath resolve r boxes := by
  induction boxes with
  | nil => simp [atPath, removeMsgBox]
  | cons b boxes ih =>
    simp only [atPath, removeMsgBox] at *
    by_cases hb : b.1 = name
    · by_cases hn : resolve name = r <;> simp [hb, hn]
    · by_cases hr : resolve b.1 = r
      · by_cases hn : resolve name = r <;> simp [hb, hr, hn] at * <;> exact ih
      · simp [hb, hr, ih]

lemma setMsgBox_atPath : atPath resolve r (setMsgBox boxes name box) =
    if resolve name = r then setMsgBox (atPath resolve r boxes) name box
    else atPath resolve r boxes := by
  induction boxes with
  | nil => simp [atPath, setMsgBox]
  | cons b boxes ih =>
    simp only [atPath, setMsgBox] at *
    by_cases hb : b.1 = name
    · by_cases hn : resolve name = r <;> simp [hb, hn] at * <;> exact ih
    · by_cases hr : resolve b.1 = r
      · by_cases hn : resolve name = r <;> simp [hb, hr, hn] at * <;> exact ih
      · simp [hb, hr, ih]

end Lists

section Agreement

variable {D P S : Type} [DecidableEq D] {resolve : BoxName → D} {s t s' : Store D P S}
  {boxes boxes' : Boxes P S} {e : Entry} {name b : BoxName} {r : D}

structure Agree (resolve : BoxName → D) (r : D) (s t : Store D P S) : Prop where
  files : s.files r = t.files r
  boxes : atPath resolve r s.msgBoxes = atPath resolve r t.msgBoxes

lemma Agree.refl (s : Store D P S) : Agree resolve r s s := ⟨rfl, rfl⟩

lemma Agree.getMsgBox (h : Agree resolve r s t) (hn : resolve b = r) :
    getMsgBox s.msgBoxes b = getMsgBox t.msgBoxes b := by
  rw [← getMsgBox_atPath hn, h.boxes, getMsgBox_atPath hn]

lemma Agree.unaffected (h : Agree resolve (resolve b) s t) : Unaffected resolve b s t := by
  constructor
  · rw [Store.stored, h.files, Store.stored]
  · intro u
    rw [Store.sentTo, h.getMsgBox rfl, Store.sentTo]

lemma agree_elsewhere (hn : resolve name ≠ r)
    (hb : atPath resolve r boxes = atPath resolve r s.msgBoxes) :
    Agree resolve r ⟨boxes, Function.update s.files (resolve name) e⟩ s :=
  ⟨Function.update_of_ne (Ne.symm hn) _ _, hb⟩

lemma agree_here (hb : atPath resolve r boxes = atPath resolve r boxes') :
    Agree resolve r ⟨boxes, Function.update s.files r e⟩ ⟨boxes', Function.update t.files r e⟩ := by
  refine ⟨?_, hb⟩
  show Function.update s.files r e r = Function.update t.files r e r
  rw [Function.update_self, Function.update_self]

variable [DecidableEq P] [DecidableEq S] {ev : StoreEvent P S}

lemma storeStep_frame (h : storeStep resolve s ev = some s') (hn : resolve ev.name ≠ r) :
    Agree resolve r s' s := by
  cases ev with
  | create name opened =>
    simp only [storeStep, StoreEvent.name] at h hn
    split at h
    · cases h
      exact .refl s
    · split_ifs at h
      · cases h
        apply agree_elsewhere hn
        rw [addMsgBox_atPath, if_neg hn]
      · cases h
        refine ⟨rfl, ?_⟩
        rw [addMsgBox_atPath, if_neg hn]
  | remove name =>
    simp only [storeStep, StoreEvent.name] at h hn
    split at h
    · cases h
      exact .refl s
    · split_ifs at h
      · cases h
        apply agree_elsewhere hn
        rw [removeMsgBox_atPath, if_neg hn]
      · cases h
        exact .refl s
  | session name ev =>
    simp only [storeStep, StoreEvent.name] at h hn
    split at h
    · cases h
    · obtain ⟨x, -, rfl⟩ := Option.map_eq_some_iff.mp h
      apply agree_elsewhere hn
      rw [setMsgBox_atPath, if_neg hn]

variable {old : D → Option (List UInt8)}

lemma attempt_frame (h : Agree resolve r s t) (hn : resolve ev.name ≠ r) :
    Agree resolve r ((directory resolve P S old).attempt s ev) t := by
  rw [System.attempt]
  cases hs : (directory resolve P S old).step s ev with
  | none => exact h
  | some s' =>
    have hf := storeStep_frame hs hn
    exact ⟨hf.files.trans h.files, hf.boxes.trans h.boxes⟩

lemma attempt_here (h : Agree resolve (resolve ev.name) s t) :
    Agree resolve (resolve ev.name) ((directory resolve P S old).attempt s ev)
      ((directory resolve P S old).attempt t ev) := by
  have hbox := h.getMsgBox rfl
  obtain ⟨hfiles, hboxes⟩ := h
  simp only [System.attempt, directory]
  cases ev with
  | create name opened =>
    simp only [StoreEvent.name] at *
    simp only [storeStep, hbox, hfiles]
    cases getMsgBox t.msgBoxes name with
    | some box => exact ⟨hfiles, hboxes⟩
    | none =>
      cases opened with
      | true =>
        apply agree_here
        rw [addMsgBox_atPath, addMsgBox_atPath, hboxes]
      | false =>
        refine ⟨hfiles, ?_⟩
        show atPath resolve _ (addMsgBox _ name none) = atPath resolve _ (addMsgBox _ name none)
        rw [addMsgBox_atPath, addMsgBox_atPath, hboxes]
  | remove name =>
    simp only [StoreEvent.name] at *
    simp only [storeStep, hbox, hfiles]
    cases getMsgBox t.msgBoxes name with
    | none => exact ⟨hfiles, hboxes⟩
    | some box =>
      by_cases hc : box.topic.publishers = 0 ∧ box.topic.subscribers = 0
      · simp only [hc, and_self, if_true]
        apply agree_here
        rw [removeMsgBox_atPath, removeMsgBox_atPath, hboxes]
      · simp only [hc, if_false]
        exact ⟨hfiles, hboxes⟩
  | session name ev =>
    simp only [StoreEvent.name] at *
    simp only [storeStep, hbox, hfiles]
    cases getMsgBox t.msgBoxes name with
    | none => exact ⟨hfiles, hboxes⟩
    | some box =>
      simp only
      cases sessionStep (t.files (resolve name)) box ev with
      | none => exact ⟨hfiles, hboxes⟩
      | some x =>
        apply agree_here
        rw [setMsgBox_atPath, setMsgBox_atPath, hboxes]

lemma attempt_agree (h : Agree resolve r s t) (ev : StoreEvent P S) :
    Agree resolve r ((directory resolve P S old).attempt s ev)
      ((directory resolve P S old).attempt t ev) := by
  by_cases hn : resolve ev.name = r
  · subst hn
    exact attempt_here h
  · have ht : Agree resolve r ((directory resolve P S old).attempt t ev) t :=
      attempt_frame (.refl t) hn
    have hs : Agree resolve r ((directory resolve P S old).attempt s ev) t := attempt_frame h hn
    exact ⟨hs.files.trans ht.files.symm, hs.boxes.trans ht.boxes.symm⟩

omit [DecidableEq P] [DecidableEq S] in
lemma touches_name {a : BoxName} (h : Touches a ev = true) : ev.name = a := by
  cases ev with
  | create => cases h
  | remove => exact of_decide_eq_true h
  | session name ev =>
    cases ev with
    | publisherAdmit | publisherRead | publisherWrite | publisherUpdate | publisherLeave =>
      exact of_decide_eq_true h
    | _ => cases h

lemma isolated_of_ne {a : BoxName} (hn : resolve a ≠ resolve b) : Isolated resolve old s a b := by
  intro evs
  apply Agree.unaffected
  apply System.attempts_filter _ _ (.refl s)
  · intro s t h ev
    exact attempt_agree h ev
  · intro s t h ev hev
    have htouch : Touches a ev = true := by simpa using hev
    apply attempt_frame h
    rw [touches_name htouch]
    exact hn

end Agreement

section Aliases

variable {D P S : Type} [DecidableEq D] {resolve : BoxName → D} {a b : BoxName}

lemma getMsgBox_two {x y : Box P S} (hab : a ≠ b) :
    getMsgBox [(a, x), (b, y)] a = some x ∧ getMsgBox [(a, x), (b, y)] b = some y := by
  simp [getMsgBox, hab]

lemma create_linked (e : Entry) : ∃ f, e.create.1.linked = some f := by
  rw [Entry.create]
  split
  · exact ⟨_, ‹_›⟩
  · exact ⟨_, rfl⟩

variable [DecidableEq P] [DecidableEq S]

def Store.created (resolve : BoxName → D) (s : Store D P S) (name : BoxName) : Store D P S :=
  ⟨addMsgBox s.msgBoxes name (some (s.files (resolve name)).create.2),
    Function.update s.files (resolve name) (s.files (resolve name)).create.1⟩

lemma created_linked (s : Store D P S) :
    ∃ f, ((s.created resolve b).files (resolve b)).linked = some f := by
  have he : (s.created resolve b).files (resolve b) = (s.files (resolve b)).create.1 :=
    Function.update_self _ _ _
  rw [he]
  exact create_linked _

variable (old : D → Option (List UInt8))

lemma step_create {s : Store D P S} (h : getMsgBox s.msgBoxes a = none) :
    (directory resolve P S old).step s (.create a true) = some (s.created resolve a) := by
  simp [directory, storeStep, h, Store.created]

lemma two_created (hab : a ≠ b) : ∃ (s : Store D P S) (x y : Box P S),
    (directory resolve P S old).Reachable s ∧ s.msgBoxes = [(a, x), (b, y)] ∧
      (x.topic.publishers = 0 ∧ x.topic.subscribers = 0) ∧
      ∃ f, (s.files (resolve b)).linked = some f := by
  have hnone :
      getMsgBox ((directory resolve P S old).init.created resolve a).msgBoxes b = none := by
    simp [getMsgBox, Store.created, addMsgBox, directory, hab]
  have hfirst : (directory resolve P S old).Reachable (Store.created resolve _ a) :=
    System.Reachable.init.step (step_create old rfl)
  exact ⟨_, _, _, hfirst.step (step_create old hnone), rfl, ⟨rfl, rfl⟩, created_linked _⟩

lemma not_isolated (hab : a ≠ b) (hr : resolve a = resolve b) :
    ∃ s, (directory resolve P S old).Reachable s ∧ (getMsgBox s.msgBoxes a).isSome ∧
      (getMsgBox s.msgBoxes b).isSome ∧ ¬ Isolated resolve old s a b := by
  obtain ⟨s, x, y, hs, hboxes, hx, f, hf⟩ := two_created (P := P) (S := S) old hab
  obtain ⟨ha, hb⟩ := getMsgBox_two (x := x) (y := y) hab
  rw [← hboxes] at ha hb
  refine ⟨s, hs, by rw [ha]; rfl, by rw [hb]; rfl, ?_⟩
  intro hi
  have hstored := (hi [.remove a]).stored
  have hgone : ((directory resolve P S old).attempts s [.remove a]).stored resolve b = none := by
    simp [System.attempts, System.attempt, directory, storeStep, ha, hx, Store.stored, hr,
      Entry.unlink]
  have hskip : [StoreEvent.remove a].filter (fun ev : StoreEvent P S => !Touches a ev) = [] := by
    simp [Touches]
  rw [hgone, hskip, System.attempts, Store.stored, hf] at hstored
  cases hstored

theorem isolated_iff_apart (hab : a ≠ b) :
    (∀ s, (directory resolve P S old).Reachable s → (getMsgBox s.msgBoxes a).isSome →
      (getMsgBox s.msgBoxes b).isSome → Isolated resolve old s a b) ↔ resolve a ≠ resolve b := by
  constructor
  · intro h hr
    obtain ⟨s, hs, ha, hb, hn⟩ := not_isolated (P := P) (S := S) old hab hr
    exact hn (h s hs ha hb)
  · intro hn s _ _ _
    exact isolated_of_ne hn

/-- The path relative to the directory of the broker, or to the root: '.' components and repeated
slashes do not count. -/
def posixPath (name : BoxName) : Bool × List (List UInt8) :=
  (name.bytes.head? == some 47, (name.bytes.splitOn 47).filter (fun c => c != [] && c != [46]))

def dotBoxA : BoxName := ⟨[46, 47, 97], by decide, by decide⟩

def newBroker : System (Store (Bool × List (List UInt8)) Unit Unit) (StoreEvent Unit Unit) :=
  directory posixPath Unit Unit (fun _ => none)

def publish (name : BoxName) (c : UInt8) : List (StoreEvent Unit Unit) :=
  [.session name (.publisherAdmit ()),
    .session name (.publisherRead () (some (9 :: List.replicate 1024 c))),
    .session name (.publisherWrite () 1025), .session name (.publisherUpdate ())]

theorem isolated_iff_apart_published : ∃ s,
    newBroker.run newBroker.init ([.create boxA true, .create boxB true] ++ publish boxA 1) =
      some s ∧
    Isolated posixPath (fun _ => none) s boxA boxB := by
  have hrun : (newBroker.run newBroker.init
      ([.create boxA true, .create boxB true] ++ publish boxA 1)).map
      (fun s => (getMsgBox s.msgBoxes boxA).isSome && (getMsgBox s.msgBoxes boxB).isSome) =
      some true := by
    decide +kernel
  obtain ⟨s, hs, hboxes⟩ := Option.map_eq_some_iff.mp hrun
  obtain ⟨ha, hb⟩ := Bool.and_eq_true_iff.mp hboxes
  refine ⟨s, hs, ?_⟩
  exact (isolated_iff_apart _ (show boxA ≠ boxB by decide)).mpr (by decide) s
    (System.reachable_of_run hs) ha hb

theorem alias_overwrites : ∃ s,
    newBroker.run newBroker.init ([.create boxA true, .create dotBoxA true] ++ publish boxA 1) =
      some s ∧ (getMsgBox s.msgBoxes boxA).isSome ∧ (getMsgBox s.msgBoxes dotBoxA).isSome ∧
    s.stored posixPath boxA = some (9 :: List.replicate 1024 1) ∧
    (newBroker.attempts s (publish dotBoxA 2)).stored posixPath boxA =
      some (9 :: List.replicate 1024 2) ∧
    ¬ Isolated posixPath (fun _ => none) s dotBoxA boxA := by
  have hrun : (newBroker.run newBroker.init
      ([.create boxA true, .create dotBoxA true] ++ publish boxA 1)).map
      (fun s => (decide (s.stored posixPath boxA = some (9 :: List.replicate 1024 1)) &&
          (getMsgBox s.msgBoxes boxA).isSome && (getMsgBox s.msgBoxes dotBoxA).isSome,
        (newBroker.attempts s (publish dotBoxA 2)).stored posixPath boxA)) =
      some (true, some (9 :: List.replicate 1024 2)) := by
    decide +kernel
  obtain ⟨s, hs, hat⟩ := Option.map_eq_some_iff.mp hrun
  obtain ⟨hbefore, hafter⟩ := Prod.mk.inj hat
  rw [Bool.and_eq_true_iff, Bool.and_eq_true_iff] at hbefore
  obtain ⟨⟨hstored, ha⟩, hd⟩ := hbefore
  refine ⟨s, hs, ha, hd, of_decide_eq_true hstored, hafter, ?_⟩
  intro hi
  have hsame := (hi (publish dotBoxA 2)).stored
  have hnone : (publish dotBoxA 2).filter (fun ev => !Touches dotBoxA ev) = [] := by decide
  rw [hnone] at hsame
  have hchanged := hafter.symm.trans (hsame.trans (of_decide_eq_true hstored))
  exact absurd hchanged (by decide +kernel)

end Aliases

end MessageBroker.Mbroker.Paths
