import MessageBroker.Mbroker.Guarded

namespace MessageBroker.Mbroker

open MessageBroker.Lib MessageBroker.Protocol

variable {W : Type} [Fintype W]

section Steps

variable [DecidableEq W] {s t : LockBroker W} {xs : List (ℕ × MessageBox)} {w : W} {p : ℕ}
  {y : Stage}

lemma accept_guarded (h : Guarded s xs) {request : Request} {connected : Bool}
    (hst : messagesStep s w (s.stages w) (.accept w request connected) = some t) :
    Guarded t xs := by
  cases hw : s.stages w with
  | free phase =>
    cases phase <;> simp only [messagesStep, hw, reduceCtorEq] at hst
    cases connected <;> cases hst
    · exact h
    · refine h.turn rfl rfl rfl (h.booked.quiet ?_ rfl) (by rw [hw]; rfl) rfl (by simp) ?_
        (by simp [Stage.inside])
      · rw [Function.comp_apply, hw]
        rfl
      · exact fun v _ hv => h.holder v hv
  | _ => simp only [messagesStep, hw, reduceCtorEq] at hst

lemma lockMessages_guarded (h : Guarded s xs)
    (hst : messagesStep s w (s.stages w) (.lockMessages w) = some t) : Guarded t xs := by
  cases hw : s.stages w with
  | free phase =>
    cases phase <;> simp only [messagesStep, hw, reduceCtorEq] at hst
    split_ifs at hst with hm
    cases hst
    refine h.turn rfl rfl rfl (h.booked_same (by rw [hw]; rfl)) (by rw [hw]; rfl) rfl (by simp) ?_
      (fun _ => rfl)
    intro v _ hv
    rw [h.holder v hv] at hm
    cases hm
  | _ => simp only [messagesStep, hw, reduceCtorEq] at hst

lemma unlockMessages_guarded (h : Guarded s xs)
    (hst : messagesStep s w (s.stages w) (.unlockMessages w) = some t) : Guarded t xs := by
  cases hw : s.stages w with
  | settled phase =>
    simp only [messagesStep, hw] at hst
    cases hst
    refine h.turn rfl rfl rfl (h.booked_same (by rw [hw]; rfl)) (by rw [hw]; rfl) rfl (by simp) ?_
      (by simp [Stage.inside])
    intro v hvw hv
    have hin := h.holder w (by rw [hw]; rfl)
    rw [h.holder v hv] at hin
    exact absurd (Option.some.inj hin) hvw
  | free phase => cases phase <;> simp only [messagesStep, hw, reduceCtorEq] at hst
  | _ => simp only [messagesStep, hw, reduceCtorEq] at hst

lemma reply_guarded (h : Guarded s xs)
    (hst : messagesStep s w (s.stages w) (.reply w) = some t) : Guarded t xs := by
  cases hw : s.stages w with
  | free phase =>
    cases phase <;> simp only [messagesStep, hw, reduceCtorEq] at hst
    all_goals
      cases hst
      refine h.turn rfl rfl rfl (h.booked.quiet ?_ rfl) (by rw [hw]; rfl) rfl (by simp)
        (fun v _ hv => h.holder v hv) (by simp [Stage.inside])
      rw [Function.comp_apply, hw]
      rfl
  | _ => simp only [messagesStep, hw, reduceCtorEq] at hst

lemma body_guarded (h : Guarded s xs) {env : Env} (hc : Cleared s (.body w env))
    (hst : messagesStep s w (s.stages w) (.body w env) = some t) : ∃ ys, Guarded t ys := by
  cases hw : s.stages w with
  | entered request =>
    simp only [messagesStep, hw] at hst
    split_ifs at hst with ha
    cases hst
    have hin : (s.stages w).inside = true := by rw [hw]; rfl
    have hquiet : ((Stage.phase ∘ s.stages) w).session = none := by
      rw [Function.comp_apply, hw]
      rfl
    by_cases hr : ∃ pipe name, request = .remove pipe name
    · obtain ⟨pipe, name, rfl⟩ := hr
      rw [requestBody]
      have hsame : ∀ q c, (q, c) ∈ xs → (∃ b, (q, b) ∈ xs ∧ b.waitMutex = c.waitMutex) ∨
          (q ∉ xs.map Prod.fst ∧ c.waitMutex = false) := fun q c hq => .inl ⟨c, hq, rfl⟩
      obtain ⟨p, b, htest, hrem, hb, hname, hpub, hsub⟩ | ⟨box, htest, -⟩ :=
        removalTest_cases h.shelved.lists pipe name
      · rw [htest]
        refine ⟨xs, h.within hin rfl h.shelved (h.booked_same (by rw [hw]; rfl)) hsame h.lingering
          (fun pipe' name' q he => ?_)⟩
        cases he
        refine ⟨⟨b, hb, hname, hpub, hsub⟩, hc p ?_⟩
        rw [doomed, hw]
        exact hrem
      · rw [htest]
        exact ⟨xs, h.within hin rfl h.shelved (h.booked.quiet hquiet rfl) hsame h.lingering
          (by simp)⟩
    · have hne : ∀ pipe name, request ≠ .remove pipe name := fun pipe name he => hr ⟨pipe, name, he⟩
      obtain ⟨ys, hh⟩ := requestBlock_handled h.shelved.lists h.shelved.names ha request
        (fun pipe name he => absurd he (hne pipe name))
      rw [requestBody_eq hne]
      cases hres : requestBlock s.table env request with
      | ok result =>
        obtain ⟨table, phase, reply⟩ := result
        rw [hres] at hh
        refine ⟨ys, h.within hin rfl (hh.shelved h.shelved) (hh.booked h.shelved h.booked hquiet)
          (fun q c hq => hh.mutexes h.shelved.lists hq) (fun u q hu => ?_) (by simp)⟩
        exact hh.kept hne q (h.lingering u q hu)
      | error fault =>
        rw [hres] at hh
        cases hh
        exact ⟨xs, h.halt⟩
  | free phase => cases phase <;> simp only [messagesStep, hw, reduceCtorEq] at hst
  | _ => simp only [messagesStep, hw, reduceCtorEq] at hst

omit [DecidableEq W] in
lemma removal_eq (h : Guarded s xs) {pipe : PipeName} {name : BoxName}
    (hw : s.stages w = .removing pipe name p) : ∃ as b bs table next, xs = as ++ (p, b) :: bs ∧
      s.table.heap.cells p = some ⟨b, next⟩ ∧ b.publishers = 0 ∧ b.subscribers = 0 ∧
      removeMsgBox s.table name = .ok table ∧ table.Lists (as ++ bs) ∧
      table.created = s.table.created := by
  obtain ⟨⟨b, hb, hname, hpub, hsub⟩, -⟩ := h.removals w pipe name p hw
  have hu := h.removal_unlocked hw hb
  obtain ⟨next, hcell⟩ := Heap.Segment.cell h.shelved.lists hb
  obtain ⟨as, bs, rfl⟩ := List.append_of_mem hb
  have has : ∀ x ∈ as, x.2.name ≠ name := by
    intro x hx he
    have hn := h.shelved.names
    rw [List.map_append, List.nodup_append'] at hn
    refine hn.2.2 (List.mem_map.mpr ⟨x, hx, he⟩) ?_
    rw [List.map_cons, hname]
    exact List.mem_cons_self
  obtain ⟨table, hrm, hl, -, hcr⟩ := (removeMsgBox_eq h.shelved.lists has hname).2 hu
  exact ⟨as, b, bs, table, next, rfl, hcell, hpub, hsub, hrm, hl, hcr⟩

lemma removeBox_guarded (h : Guarded s xs)
    (hst : messagesStep s w (s.stages w) (.removeBox w) = some t) : ∃ ys, Guarded t ys := by
  cases hw : s.stages w with
  | removing pipe name p =>
    simp only [messagesStep, hw] at hst
    cases hst
    obtain ⟨-, hd⟩ := h.removals w pipe name p hw
    obtain ⟨as, b, bs, table, next, rfl, hcell, hpub, hsub, hrm, hl, hcr⟩ := removal_eq h hw
    have hquiet : ((Stage.phase ∘ s.stages) w).session = none := by
      rw [Function.comp_apply, hw]
      rfl
    simp only [load_eq hcell, hrm, bind, Except.bind]
    refine ⟨as ++ bs, h.within (by rw [hw]; rfl) rfl (h.shelved.remove hl hcr)
      (h.booked.remove rfl hquiet rfl hpub hsub) (fun q c hq => .inl ⟨c, ?_, rfl⟩)
      (fun u q hq => ?_) (by simp)⟩
    · exact ((List.sublist_cons_self _ _).append_left as).subset hq
    · have hne : q ≠ p := by
        rintro rfl
        exact hd u hq
      have hin := h.lingering u q hq
      rw [List.map_append, List.map_cons, List.mem_append, List.mem_cons] at hin
      rw [List.map_append, List.mem_append]
      tauto
  | free phase => cases phase <;> simp only [messagesStep, hw, reduceCtorEq] at hst
  | _ => simp only [messagesStep, hw, reduceCtorEq] at hst

lemma advanceBox_eq (h : Guarded s xs) (hu : (s.stages w).uses = some p)
    (f : MessageBox → MessageBox) (y : Stage) : ∃ table, table.Lists (adjust p f xs) ∧
      table.created = s.table.created ∧
      advanceBox s w p f y = advance s w (.ok (table, y, none)) := by
  obtain ⟨b, hb⟩ := h.listed hu
  obtain ⟨table, hm, hl, hc⟩ := modifyBox_eq h.shelved.lists hb f
  refine ⟨table, hl, hc, ?_⟩
  rw [advanceBox, hm]
  rfl

lemma advanceBox_guarded (h : Guarded s xs) {f : MessageBox → MessageBox}
    (hu : (s.stages w).uses = some p) (hp : y.phase = (s.stages w).phase)
    (hf : ∀ b, (f b).name = b.name ∧ (f b).publishers = b.publishers ∧
      (f b).subscribers = b.subscribers ∧ (f b).serial = b.serial)
    (hm : ∀ b, (p, b) ∈ xs → (f b).waitMutex.toNat + ((s.stages w).locks p).toNat =
      b.waitMutex.toNat + (y.locks p).toNat)
    (hy : ∀ q, y.holds = some q → q = p) (hi : y.inside = false) :
    ∃ ys, Guarded (advanceBox s w p f y) ys := by
  obtain ⟨table, hl, hc, he⟩ := advanceBox_eq h hu f y
  rw [he]
  exact ⟨_, h.touch hu (fun b => ⟨(hf b).1, (hf b).2.2.2⟩) hl hc
    ((h.booked_same hp).keep (fun b => (hf b).2)) hm hy hi⟩

lemma lockBox_guarded (h : Guarded s xs) (hu : (s.stages w).uses = some p)
    (hx : (s.stages w).holds = none) (hp : y.phase = (s.stages w).phase)
    (hy : y.holds = some p) (hi : y.inside = false) (hst : lockBox s w p y = some t) :
    ∃ ys, Guarded t ys := by
  obtain ⟨b, hb⟩ := h.listed hu
  obtain ⟨next, hcell⟩ := Heap.Segment.cell h.shelved.lists hb
  simp only [lockBox, load_eq hcell] at hst
  split_ifs at hst with hfree
  cases hst
  refine advanceBox_guarded h hu hp (fun _ => ⟨rfl, rfl, rfl, rfl⟩) (fun c hc => ?_)
    (fun q hq => ?_) hi
  · cases h.shelved.lists.value_unique hb hc
    rw [Stage.locks_eq_false hx, Stage.locks, hy]
    simp [MessageBox.lock, hfree]
  · rw [hy] at hq
    exact (Option.some.inj hq).symm

lemma unlockBox_guarded (h : Guarded s xs) (hx : (s.stages w).holds = some p)
    (hp : y.phase = (s.stages w).phase) (hy : y.holds = none) (hi : y.inside = false) :
    ∃ ys, Guarded (advanceBox s w p MessageBox.unlock y) ys := by
  have hlocks : (s.stages w).locks p = true := by simp [Stage.locks, hx]
  refine advanceBox_guarded h (Stage.uses_of_holds hx) hp (fun _ => ⟨rfl, rfl, rfl, rfl⟩)
    (fun b hb => ?_) (fun q hq => ?_) hi
  · have hpos : 0 < tally (Stage.locks p) s.stages := tally_pos.mpr ⟨w, hlocks⟩
    rw [← h.mutexes p b hb] at hpos
    have hb' : b.waitMutex = true := by
      by_contra hn
      simp [Bool.eq_false_of_not_eq_true hn] at hpos
    rw [Stage.locks_eq_false hy, hlocks, hb']
    rfl
  · rw [hy] at hq
    cases hq

lemma dropBox_guarded (h : Guarded s xs) {f : MessageBox → MessageBox}
    (hx : (s.stages w).holds = some p)
    (hf : ∀ b, (f b).name = b.name ∧ (f b).waitMutex = b.waitMutex ∧ (f b).serial = b.serial)
    (hb : Booked (Function.update (Stage.phase ∘ s.stages) w .idle) (adjust p f xs)) :
    ∃ ys, Guarded (advanceBox s w p f (.departed p)) ys := by
  have hu := Stage.uses_of_holds hx
  obtain ⟨table, hl, hc, he⟩ := advanceBox_eq h hu f (.departed p)
  rw [he]
  refine ⟨_, h.touch hu (fun b => ⟨(hf b).1, (hf b).2.2⟩) hl hc hb (fun b _ => ?_)
    (fun q hq => (Option.some.inj hq).symm) rfl⟩
  rw [(hf b).2.1, Stage.locks, Stage.locks, hx]
  rfl

lemma waitStep_guarded (h : Guarded s xs) {ev : LockEvent W}
    (hst : waitStep s w (s.stages w) ev = some t) : ∃ ys, Guarded t ys := by
  cases hw : s.stages w with
  | free phase =>
    cases phase with
    | publishing p k fd =>
      cases ev <;> simp only [waitStep, hw, reduceCtorEq] at hst
      case lockWait =>
        split_ifs at hst
        exact lockBox_guarded h (by rw [hw]; rfl) (by rw [hw]; rfl) (by rw [hw]; rfl) rfl rfl hst
      case leave =>
        exact lockBox_guarded h (by rw [hw]; rfl) (by rw [hw]; rfl) (by rw [hw]; rfl) rfl rfl hst
    | subscribed p k =>
      cases ev <;> simp only [waitStep, hw, reduceCtorEq] at hst
      case lockWait =>
        exact lockBox_guarded h (by rw [hw]; rfl) (by rw [hw]; rfl) (by rw [hw]; rfl) rfl rfl hst
      case leave =>
        exact lockBox_guarded h (by rw [hw]; rfl) (by rw [hw]; rfl) (by rw [hw]; rfl) rfl rfl hst
    | idle | handling | createReply | removeReply =>
      cases ev <;> simp only [waitStep, hw, reduceCtorEq] at hst
  | asleep p k =>
    cases ev <;> simp only [waitStep, hw, reduceCtorEq] at hst
    exact lockBox_guarded h (by rw [hw]; rfl) (by rw [hw]; rfl) (by rw [hw]; rfl) rfl rfl hst
  | growing p k fd =>
    cases ev <;> simp only [waitStep, hw, reduceCtorEq] at hst
    cases hst
    have hu : (s.stages w).uses = some p := by rw [hw]; rfl
    refine advanceBox_guarded h hu (by rw [hw]; rfl) (fun _ => ⟨rfl, rfl, rfl, rfl⟩) (fun b _ => ?_)
      (fun q hq => (Option.some.inj hq).symm) rfl
    rw [hw]
    rfl
  | checking p k =>
    cases ev <;> simp only [waitStep, hw, reduceCtorEq] at hst
    obtain ⟨b, hb⟩ := h.listed (w := w) (p := p) (by rw [hw]; rfl)
    obtain ⟨next, hcell⟩ := Heap.Segment.cell h.shelved.lists hb
    simp only [load_eq hcell] at hst
    split_ifs at hst
    · cases hst
      exact unlockBox_guarded h (by rw [hw]; rfl) (by rw [hw]; rfl) rfl rfl
    · cases hst
      have hid : adjust p (fun b => b) xs = xs := by simp [adjust]
      have hb := h.booked_same (w := w) (y := .checked p k) (by rw [hw]; rfl)
      have ht := h.touch (w := w) (p := p) (y := .checked p k) (f := fun b => b) (by rw [hw]; rfl)
        (fun _ => ⟨rfl, rfl⟩) (by rw [hid]; exact h.shelved.lists) rfl (by rw [hid]; exact hb)
        (fun b _ => by rw [hw]; rfl) (fun q hq => (Option.some.inj hq).symm) rfl
      exact ⟨_, ht⟩
  | grown p k fd =>
    cases ev <;> simp only [waitStep, hw, reduceCtorEq] at hst
    cases hst
    exact unlockBox_guarded h (by rw [hw]; rfl) (by rw [hw]; rfl) rfl rfl
  | checked p k =>
    cases ev <;> simp only [waitStep, hw, reduceCtorEq] at hst
    cases hst
    exact unlockBox_guarded h (by rw [hw]; rfl) (by rw [hw]; rfl) rfl rfl
  | unpublishing p k fd =>
    cases ev <;> simp only [waitStep, hw, reduceCtorEq] at hst
    cases hst
    exact dropBox_guarded h (by rw [hw]; rfl) (fun _ => ⟨rfl, rfl, rfl⟩)
      (h.booked.unpublish (by rw [Function.comp_apply, hw]; rfl))
  | unsubscribing p k =>
    cases ev <;> simp only [waitStep, hw, reduceCtorEq] at hst
    cases hst
    exact dropBox_guarded h (by rw [hw]; rfl) (fun _ => ⟨rfl, rfl, rfl⟩)
      (h.booked.unsubscribe (by rw [Function.comp_apply, hw]; rfl))
  | departed p =>
    cases ev <;> simp only [waitStep, hw, reduceCtorEq] at hst
    cases hst
    exact unlockBox_guarded h (by rw [hw]; rfl) (by rw [hw]; rfl) rfl rfl
  | entered | removing | settled => cases ev <;> simp only [waitStep, hw, reduceCtorEq] at hst

omit [Fintype W] in
lemma lockStep_running {ev : LockEvent W} (h : lockStep s ev = some t) : s.fault = none := by
  simp only [lockStep] at h
  split_ifs at h with hf
  exact not_not.mp hf

lemma lockStep_guarded (h : Guarded s xs) {ev : LockEvent W} (hc : Cleared s ev)
    (hst : lockStep s ev = some t) : ∃ ys, Guarded t ys := by
  have hf := lockStep_running hst
  simp only [lockStep, hf, ne_eq, not_true_eq_false, if_false] at hst
  cases ev with
  | accept w request connected => exact ⟨xs, accept_guarded h hst⟩
  | lockMessages w => exact ⟨xs, lockMessages_guarded h hst⟩
  | body w env => exact body_guarded h hc hst
  | removeBox w => exact removeBox_guarded h hst
  | unlockMessages w => exact ⟨xs, unlockMessages_guarded h hst⟩
  | reply w => exact ⟨xs, reply_guarded h hst⟩
  | lockWait | grow | check | wake | leave | drop | unlockWait => exact waitStep_guarded h hst

lemma guarded_init : Guarded (lockBroker W).init [] := by
  refine ⟨⟨rfl, List.nodup_nil, List.nodup_nil, by simp⟩, ⟨by simp, by simp, ?_⟩, by simp, ?_, ?_,
    ?_, .inl rfl⟩
  · intro w p k hk
    cases hk
  · intro w p hw
    cases hw
  · intro w hw
    cases hw
  · intro w pipe name p hw
    cases hw

lemma cleared_guarded (h : (lockBroker W).ReachableBy Cleared s) : ∃ xs, Guarded s xs := by
  induction h with
  | init => exact ⟨[], guarded_init⟩
  | step _ hc hst ih =>
    obtain ⟨xs, hs⟩ := ih
    exact lockStep_guarded hs hc hst

lemma undisturbed_cleared (h : Guarded s xs) {ev : LockEvent W} (hst : lockStep s ev = some t)
    (ht : Undisturbed t) : Cleared s ev := by
  intro p hp u hu
  cases ev with
  | body w env =>
    have hf := lockStep_running hst
    simp only [lockStep, hf, ne_eq, not_true_eq_false, if_false] at hst
    match hw : s.stages w with
    | .entered (.remove pipe name) =>
      rw [doomed, hw] at hp
      have hrem : removable s.table name = some p := hp
      simp only [messagesStep, hw] at hst
      split_ifs at hst
      cases hst
      rcases removalTest_cases h.shelved.lists pipe name with ⟨q, b, htest, hq, -⟩ | ⟨box, -, hq⟩
      · rw [hrem] at hq
        cases hq
        have huw : u ≠ w := by
          rintro rfl
          rw [hu] at hw
          cases hw
        have ha := ht.alone w pipe name p (by
          rw [requestBody, htest, advance_stages, Function.update_self]) u
        rw [requestBody, htest, advance_stages, Function.update_of_ne huw, hu] at ha
        exact ha.1 rfl
      · rw [hrem] at hq
        cases hq
    | .entered (.registerPub _ _) | .entered (.registerSub _ _) | .entered (.create _ _)
    | .entered (.list _) | .free _ | .asleep _ _ | .removing _ _ _ | .settled _ | .growing _ _ _
    | .grown _ _ _ | .checking _ _ | .checked _ _ | .unpublishing _ _ _ | .unsubscribing _ _
    | .departed _ =>
      rw [doomed, hw] at hp
      cases hp
  | _ => cases hp

theorem removal_undisturbed (h : (lockBroker W).ReachableBy Cleared s) :
    Undisturbed s ∧ ∀ ev t, lockStep s ev = some t → (Undisturbed t ↔ Cleared s ev) := by
  obtain ⟨xs, hs⟩ := cleared_guarded h
  refine ⟨hs.undisturbed, fun ev t hst => ⟨undisturbed_cleared hs hst, fun hc => ?_⟩⟩
  obtain ⟨ys, ht⟩ := lockStep_guarded hs hc hst
  exact ht.undisturbed

end Steps

section Schedules

variable (pipe : PipeName) (boxName : BoxName)

def departure : List (LockEvent Bool) :=
  [.accept true (.create pipe boxName) true, .lockMessages true, .body true ⟨some 0, 3⟩,
    .unlockMessages true, .reply true, .accept false (.registerPub pipe boxName) true,
    .lockMessages false, .body false ⟨none, 0⟩, .unlockMessages false, .leave false, .drop false]

def removal : List (LockEvent Bool) :=
  [.accept true (.remove pipe boxName) true, .lockMessages true, .body true ⟨none, 0⟩]

end Schedules

theorem removal_undisturbed_run :
    ∃ s, (lockBroker Bool).runIf Cleared (lockBroker Bool).init
        (departure pipeP boxA ++ [.unlockWait false] ++ removal pipeP boxA) = some s ∧
      (∃ pipe, s.stages true = .removing pipe boxA 0) ∧
      Undisturbed s ∧ ∀ ev t, lockStep s ev = some t → (Undisturbed t ↔ Cleared s ev) := by
  have hrun : ((lockBroker Bool).runIf Cleared (lockBroker Bool).init
      (departure pipeP boxA ++ [.unlockWait false] ++ removal pipeP boxA)).map
      (fun s => s.stages true) = some (.removing pipeP boxA 0) := by
    decide +kernel
  obtain ⟨s, hs, hw⟩ := Option.map_eq_some_iff.mp hrun
  exact ⟨s, hs, ⟨_, hw⟩, removal_undisturbed (.runIf .init hs)⟩

theorem departure_disturbs :
    (∃ s t, (lockBroker Bool).run (lockBroker Bool).init
        (departure pipeP boxA ++ removal pipeP boxA) = some s ∧
      (s.stages false).holds = some 0 ∧ lockStep s (.removeBox true) = some t ∧
      t.fault = some .mutexBusy) ∧
    ¬ ∀ s, (lockBroker Bool).Reachable s → Undisturbed s := by
  have hrun : ((lockBroker Bool).run (lockBroker Bool).init
      (departure pipeP boxA ++ removal pipeP boxA)).map
      (fun s => ((s.stages false).holds, (lockStep s (.removeBox true)).map LockBroker.fault)) =
        some (some 0, some (some .mutexBusy)) := by
    decide +kernel
  obtain ⟨s, hs, hat⟩ := Option.map_eq_some_iff.mp hrun
  obtain ⟨hheld, hstep⟩ := Prod.mk.inj hat
  obtain ⟨t, ht, hf⟩ := Option.map_eq_some_iff.mp hstep
  refine ⟨⟨s, t, hs, hheld, ht, hf⟩, fun h => ?_⟩
  have hst : (lockBroker Bool).step s (.removeBox true) = some t := ht
  exact (h t ((System.reachable_of_run hs).step hst)).destroyed hf

end MessageBroker.Mbroker
