import MessageBroker.Mbroker.Broker

namespace MessageBroker.Mbroker

open MessageBroker.Lib MessageBroker.Protocol

namespace WorkerPhase

def publishes (p : ℕ) : WorkerPhase → Bool
  | .publishing msg _ _ => msg == p
  | _ => false

def subscribes (p : ℕ) : WorkerPhase → Bool
  | .subscribed msg _ => msg == p
  | _ => false

variable {x : WorkerPhase} {p : ℕ}

lemma session_of_publishes (h : x.publishes p = true) : ∃ k, x.session = some (p, k) := by
  cases x with
  | publishing msg serial fd =>
    cases beq_iff_eq.mp h
    exact ⟨serial, rfl⟩
  | idle | handling | subscribed | createReply | removeReply => cases h

lemma session_of_subscribes (h : x.subscribes p = true) : ∃ k, x.session = some (p, k) := by
  cases x with
  | subscribed msg serial =>
    cases beq_iff_eq.mp h
    exact ⟨serial, rfl⟩
  | idle | handling | publishing | createReply | removeReply => cases h

lemma quiet_publishes (h : x.session = none) (p : ℕ) : x.publishes p = false := by
  cases x <;> first | rfl | cases h

lemma quiet_subscribes (h : x.session = none) (p : ℕ) : x.subscribes p = false := by
  cases x <;> first | rfl | cases h

lemma session_counts {k : ℕ} (h : x.session = some (p, k)) :
    x.publishes p = true ∨ x.subscribes p = true := by
  cases x with
  | publishing msg serial fd =>
    cases h
    exact .inl (beq_self_eq_true _)
  | subscribed msg serial =>
    cases h
    exact .inr (beq_self_eq_true _)
  | idle | handling | createReply | removeReply => cases h

end WorkerPhase

section Lists

variable {xs : List (ℕ × MessageBox)} {p q : ℕ} {b c : MessageBox} {f : MessageBox → MessageBox}

lemma mem_adjust : (q, c) ∈ adjust p f xs ↔ ∃ b, (q, b) ∈ xs ∧ c = if q = p then f b else b := by
  rw [adjust, List.mem_map]
  constructor
  · rintro ⟨⟨r, b⟩, hb, he⟩
    dsimp only at he
    split_ifs at he with hr <;> cases he
    · exact ⟨b, hb, (if_pos hr).symm⟩
    · exact ⟨c, hb, (if_neg hr).symm⟩
  · rintro ⟨b, hb, rfl⟩
    refine ⟨(q, b), hb, ?_⟩
    dsimp only
    split_ifs <;> rfl

lemma adjust_names (hf : ∀ b, (f b).name = b.name) :
    (adjust p f xs).map (fun x => x.2.name) = xs.map fun x => x.2.name := by
  rw [adjust, List.map_map]
  apply List.map_congr_left
  intro x _
  dsimp only [Function.comp_apply]
  split_ifs
  · exact hf x.2
  · rfl

lemma mem_of_used {as bs : List (ℕ × MessageBox)} (hc : (q, c) ∈ as ++ (p, b) :: bs)
    (hused : 0 < c.publishers + c.subscribers) (hpub : b.publishers = 0)
    (hsub : b.subscribers = 0) : (q, c) ∈ as ++ bs := by
  rcases List.mem_append.mp hc with h | h
  · exact List.mem_append_left _ h
  · rcases List.mem_cons.mp h with h | h
    · cases h
      omega
    · exact List.mem_append_right _ h

end Lists

variable {W : Type} [Fintype W]

structure Booked (workers : W → WorkerPhase) (xs : List (ℕ × MessageBox)) : Prop where
  publishers : ∀ p b, (p, b) ∈ xs →
    b.publishers = tally (WorkerPhase.publishes p) workers ∧ b.publishers ≤ 1
  subscribers : ∀ p b, (p, b) ∈ xs → b.subscribers = tally (WorkerPhase.subscribes p) workers
  sessions : ∀ w p k, (workers w).session = some (p, k) → ∃ b, (p, b) ∈ xs ∧ b.serial = k

namespace Booked

variable {workers : W → WorkerPhase} {xs ys : List (ℕ × MessageBox)} {p : ℕ}

lemma nobody (h : Booked workers xs) (hp : p ∉ xs.map Prod.fst) :
    tally (WorkerPhase.publishes p) workers = 0 ∧ tally (WorkerPhase.subscribes p) workers = 0 := by
  have hnone : ∀ w k, (workers w).session ≠ some (p, k) := by
    intro w k hs
    obtain ⟨b, hb, _⟩ := h.sessions w p k hs
    exact hp (List.mem_map.mpr ⟨_, hb, rfl⟩)
  constructor
  · apply tally_eq_zero.mpr
    intro w
    by_contra hw
    obtain ⟨k, hk⟩ := WorkerPhase.session_of_publishes (by simpa using hw)
    exact hnone w k hk
  · apply tally_eq_zero.mpr
    intro w
    by_contra hw
    obtain ⟨k, hk⟩ := WorkerPhase.session_of_subscribes (by simpa using hw)
    exact hnone w k hk

lemma pos_of_session (h : Booked workers xs) {w : W} {k : ℕ} {b : MessageBox}
    (hs : (workers w).session = some (p, k)) (hb : (p, b) ∈ xs) :
    0 < b.publishers + b.subscribers := by
  rw [(h.publishers p b hb).1, h.subscribers p b hb]
  rcases WorkerPhase.session_counts hs with hw | hw
  · exact Nat.add_pos_left (tally_pos.mpr ⟨w, hw⟩) _
  · exact Nat.add_pos_right _ (tally_pos.mpr ⟨w, hw⟩)

lemma keep (h : Booked workers xs) {f : MessageBox → MessageBox}
    (hf : ∀ b, (f b).publishers = b.publishers ∧ (f b).subscribers = b.subscribers ∧
      (f b).serial = b.serial) : Booked workers (adjust p f xs) := by
  have hback : ∀ q c, (q, c) ∈ Mbroker.adjust p f xs → ∃ b, (q, b) ∈ xs ∧
      c.publishers = b.publishers ∧ c.subscribers = b.subscribers := by
    intro q c hc
    obtain ⟨b, hb, rfl⟩ := mem_adjust.mp hc
    refine ⟨b, hb, ?_⟩
    split_ifs
    · exact ⟨(hf b).1, (hf b).2.1⟩
    · exact ⟨rfl, rfl⟩
  constructor
  · intro q c hc
    obtain ⟨b, hb, hpub, -⟩ := hback q c hc
    rw [hpub]
    exact h.publishers q b hb
  · intro q c hc
    obtain ⟨b, hb, -, hsub⟩ := hback q c hc
    rw [hsub]
    exact h.subscribers q b hb
  · intro w q k hw
    obtain ⟨b, hb, rfl⟩ := h.sessions w q k hw
    refine ⟨_, mem_adjust.mpr ⟨b, hb, rfl⟩, ?_⟩
    split_ifs
    · exact (hf b).2.2
    · rfl

variable [DecidableEq W]

lemma change (h : Booked workers xs) {w : W} {y : WorkerPhase}
    (hys : ∀ q c, (q, c) ∈ ys → ∃ b, (q, b) ∈ xs ∧ c.publishers ≤ 1 ∧
      c.publishers + ((workers w).publishes q).toNat = b.publishers + (y.publishes q).toNat ∧
      c.subscribers + ((workers w).subscribes q).toNat = b.subscribers + (y.subscribes q).toNat)
    (hxs : ∀ q b, (q, b) ∈ xs → 0 < b.publishers + b.subscribers →
      ∃ c, (q, c) ∈ ys ∧ c.serial = b.serial)
    (hy : ∀ q k, y.session = some (q, k) → ∃ c, (q, c) ∈ ys ∧ c.serial = k) :
    Booked (Function.update workers w y) ys := by
  constructor
  · intro q c hc
    obtain ⟨b, hb, hle, hpub, -⟩ := hys q c hc
    have ht := tally_update (WorkerPhase.publishes q) workers w y
    have he := (h.publishers q b hb).1
    exact ⟨by omega, hle⟩
  · intro q c hc
    obtain ⟨b, hb, -, -, hsub⟩ := hys q c hc
    have ht := tally_update (WorkerPhase.subscribes q) workers w y
    have he := h.subscribers q b hb
    omega
  · intro v q k hv
    by_cases hvw : v = w
    · subst hvw
      rw [Function.update_self] at hv
      exact hy q k hv
    · rw [Function.update_of_ne hvw] at hv
      obtain ⟨b, hb, rfl⟩ := h.sessions v q k hv
      exact hxs q b hb (h.pos_of_session hv hb)

lemma quiet (h : Booked workers xs) {w : W} {y : WorkerPhase} (hw : (workers w).session = none)
    (hy : y.session = none) : Booked (Function.update workers w y) xs := by
  refine h.change (fun q c hc => ⟨c, hc, (h.publishers q c hc).2, ?_, ?_⟩)
    (fun q b hb _ => ⟨b, hb, rfl⟩) (fun q k hk => ?_)
  · rw [WorkerPhase.quiet_publishes hw, WorkerPhase.quiet_publishes hy]
  · rw [WorkerPhase.quiet_subscribes hw, WorkerPhase.quiet_subscribes hy]
  · rw [hy] at hk
    cases hk

lemma append (h : Booked workers xs) {w : W} {y : WorkerPhase} {b : MessageBox}
    (hw : (workers w).session = none) (hy : y.session = none) (hp : p ∉ xs.map Prod.fst)
    (hpub : b.publishers = 0) (hsub : b.subscribers = 0) :
    Booked (Function.update workers w y) (xs ++ [(p, b)]) := by
  have hq := h.quiet hw hy
  obtain ⟨hz, hz'⟩ := hq.nobody hp
  constructor
  · intro q c hc
    rcases List.mem_append.mp hc with hc | hc
    · exact hq.publishers q c hc
    · cases List.mem_singleton.mp hc
      rw [hz, hpub]
      exact ⟨rfl, Nat.zero_le _⟩
  · intro q c hc
    rcases List.mem_append.mp hc with hc | hc
    · exact hq.subscribers q c hc
    · cases List.mem_singleton.mp hc
      rw [hz', hsub]
  · intro v q k hv
    obtain ⟨c, hc, hk⟩ := hq.sessions v q k hv
    exact ⟨c, List.mem_append_left _ hc, hk⟩

lemma adjust (h : Booked workers xs) {w : W} {y : WorkerPhase} {f : MessageBox → MessageBox}
    (hf : ∀ b, (f b).serial = b.serial)
    (hself : ∀ b, (p, b) ∈ xs → (f b).publishers ≤ 1 ∧
      (f b).publishers + ((workers w).publishes p).toNat = b.publishers + (y.publishes p).toNat ∧
      (f b).subscribers + ((workers w).subscribes p).toNat =
        b.subscribers + (y.subscribes p).toNat)
    (hother : ∀ q, q ≠ p → (workers w).publishes q = y.publishes q ∧
      (workers w).subscribes q = y.subscribes q)
    (hy : ∀ q k, y.session = some (q, k) → ∃ b, (q, b) ∈ xs ∧ b.serial = k) :
    Booked (Function.update workers w y) (Mbroker.adjust p f xs) := by
  have hin : ∀ q b, (q, b) ∈ xs → ∃ c, (q, c) ∈ Mbroker.adjust p f xs ∧ c.serial = b.serial := by
    intro q b hb
    refine ⟨_, mem_adjust.mpr ⟨b, hb, rfl⟩, ?_⟩
    split_ifs
    · exact hf b
    · rfl
  refine h.change (fun q c hc => ?_) (fun q b hb _ => hin q b hb) (fun q k hk => ?_)
  · obtain ⟨b, hb, rfl⟩ := mem_adjust.mp hc
    refine ⟨b, hb, ?_⟩
    by_cases hq : q = p
    · subst hq
      rw [if_pos rfl]
      exact hself b hb
    · obtain ⟨hpub, hsub⟩ := hother q hq
      rw [if_neg hq, hpub, hsub]
      exact ⟨(h.publishers q b hb).2, rfl, rfl⟩
  · obtain ⟨b, hb, rfl⟩ := hy q k hk
    exact hin q b hb

lemma publish (h : Booked workers xs) {w : W} {b : MessageBox} {fd : ℤ}
    (hx : (xs.map Prod.fst).Nodup) (hw : (workers w).session = none) (hb : (p, b) ∈ xs)
    (hpub : b.publishers = 0) :
    Booked (Function.update workers w (.publishing p b.serial fd))
      (Mbroker.adjust p MessageBox.admitPublisher xs) := by
  refine h.adjust (fun _ => rfl) (fun c hc => ?_) (fun q hq => ?_) (fun q k hk => ?_)
  · have he : (p, c) = (p, b) := List.inj_on_of_nodup_map hx hc hb rfl
    cases he
    rw [WorkerPhase.quiet_publishes hw, WorkerPhase.quiet_subscribes hw]
    simp [WorkerPhase.publishes, WorkerPhase.subscribes, MessageBox.admitPublisher, hpub]
  · rw [WorkerPhase.quiet_publishes hw, WorkerPhase.quiet_subscribes hw]
    simp [WorkerPhase.publishes, WorkerPhase.subscribes, hq.symm]
  · cases hk
    exact ⟨b, hb, rfl⟩

lemma subscribe (h : Booked workers xs) {w : W} {b : MessageBox}
    (hw : (workers w).session = none) (hb : (p, b) ∈ xs) :
    Booked (Function.update workers w (.subscribed p b.serial))
      (Mbroker.adjust p MessageBox.admitSubscriber xs) := by
  refine h.adjust (fun _ => rfl) (fun c hc => ?_) (fun q hq => ?_) (fun q k hk => ?_)
  · have hle := (h.publishers p c hc).2
    rw [WorkerPhase.quiet_publishes hw, WorkerPhase.quiet_subscribes hw]
    simp [WorkerPhase.publishes, WorkerPhase.subscribes, MessageBox.admitSubscriber, hle]
  · rw [WorkerPhase.quiet_publishes hw, WorkerPhase.quiet_subscribes hw]
    simp [WorkerPhase.publishes, WorkerPhase.subscribes, hq.symm]
  · cases hk
    exact ⟨b, hb, rfl⟩

lemma unpublish (h : Booked workers xs) {w : W} {k : ℕ} {fd : ℤ}
    (hw : workers w = .publishing p k fd) :
    Booked (Function.update workers w .idle) (Mbroker.adjust p MessageBox.dropPublisher xs) := by
  refine h.adjust (fun _ => rfl) (fun b hb => ?_) (fun q hq => ?_) (fun q k' hk => by cases hk)
  · obtain ⟨he, hle⟩ := h.publishers p b hb
    have hpos : 0 < tally (WorkerPhase.publishes p) workers :=
      tally_pos.mpr ⟨w, by rw [hw]; exact beq_self_eq_true _⟩
    rw [hw]
    simp only [WorkerPhase.publishes, WorkerPhase.subscribes, MessageBox.dropPublisher, BEq.rfl,
      Bool.toNat_true, Bool.toNat_false, Nat.add_zero, and_true]
    omega
  · rw [hw]
    simp [WorkerPhase.publishes, WorkerPhase.subscribes, hq.symm]

lemma unsubscribe (h : Booked workers xs) {w : W} {k : ℕ} (hw : workers w = .subscribed p k) :
    Booked (Function.update workers w .idle) (Mbroker.adjust p MessageBox.dropSubscriber xs) := by
  refine h.adjust (fun _ => rfl) (fun b hb => ?_) (fun q hq => ?_) (fun q k' hk => by cases hk)
  · have hle := (h.publishers p b hb).2
    have he := h.subscribers p b hb
    have hpos : 0 < tally (WorkerPhase.subscribes p) workers :=
      tally_pos.mpr ⟨w, by rw [hw]; exact beq_self_eq_true _⟩
    rw [hw]
    simp only [WorkerPhase.publishes, WorkerPhase.subscribes, MessageBox.dropSubscriber, BEq.rfl,
      Bool.toNat_true, Bool.toNat_false, Nat.add_zero, true_and]
    omega
  · rw [hw]
    simp [WorkerPhase.publishes, WorkerPhase.subscribes, hq.symm]

lemma remove (h : Booked workers xs) {w : W} {y : WorkerPhase} {b : MessageBox}
    {as bs : List (ℕ × MessageBox)} (hx : xs = as ++ (p, b) :: bs)
    (hw : (workers w).session = none) (hy : y.session = none) (hpub : b.publishers = 0)
    (hsub : b.subscribers = 0) : Booked (Function.update workers w y) (as ++ bs) := by
  have hq := h.quiet hw hy
  subst hx
  refine ⟨fun q c hc => hq.publishers q c ?_, fun q c hc => hq.subscribers q c ?_,
    fun v q k hv => ?_⟩
  · exact ((List.sublist_cons_self _ _).append_left as).subset hc
  · exact ((List.sublist_cons_self _ _).append_left as).subset hc
  · obtain ⟨c, hc, hk⟩ := hq.sessions v q k hv
    exact ⟨c, mem_of_used hc (hq.pos_of_session hv hc) hpub hsub, hk⟩

end Booked

structure Shelved (t : Table) (xs : List (ℕ × MessageBox)) : Prop where
  lists : t.Lists xs
  names : (xs.map fun x => x.2.name).Nodup
  serials : (xs.map fun x => x.2.serial).Nodup ∧ ∀ x ∈ xs, x.2.serial < t.created

namespace Shelved

variable {t t' : Table} {xs : List (ℕ × MessageBox)} {p : ℕ} {b : MessageBox}

lemma adjust (h : Shelved t xs) {f : MessageBox → MessageBox}
    (hf : ∀ b, (f b).name = b.name ∧ (f b).serial = b.serial)
    (hl : t'.Lists (Mbroker.adjust p f xs)) (hc : t'.created = t.created) :
    Shelved t' (Mbroker.adjust p f xs) := by
  have hserials : (Mbroker.adjust p f xs).map (fun x => x.2.serial) =
      xs.map fun x => x.2.serial := by
    rw [Mbroker.adjust, List.map_map]
    apply List.map_congr_left
    intro x _
    dsimp only [Function.comp_apply]
    split_ifs
    · exact (hf x.2).2
    · rfl
  refine ⟨hl, ?_, ?_, ?_⟩
  · rw [adjust_names (fun b => (hf b).1)]
    exact h.names
  · rw [hserials]
    exact h.serials.1
  · intro x hx
    have hk : x.2.serial ∈ (Mbroker.adjust p f xs).map fun x => x.2.serial :=
      List.mem_map.mpr ⟨x, hx, rfl⟩
    rw [hserials] at hk
    obtain ⟨y, hy, he⟩ := List.mem_map.mp hk
    rw [← he, hc]
    exact h.serials.2 y hy

lemma append (h : Shelved t xs) (hname : Absent b.name xs)
    (hk : b.serial = t.created) (hl : t'.Lists (xs ++ [(p, b)]))
    (hc : t'.created = t.created + 1) : Shelved t' (xs ++ [(p, b)]) := by
  refine ⟨hl, ?_, ?_, ?_⟩
  · rw [List.map_append, List.nodup_append']
    refine ⟨h.names, List.nodup_singleton _, ?_⟩
    intro n hn hn'
    obtain ⟨x, hx, rfl⟩ := List.mem_map.mp hn
    exact hname x hx (List.mem_singleton.mp hn')
  · rw [List.map_append, List.nodup_append']
    refine ⟨h.serials.1, List.nodup_singleton _, ?_⟩
    intro k hk₁ hk₂
    obtain ⟨x, hx, rfl⟩ := List.mem_map.mp hk₁
    have hlt := h.serials.2 x hx
    have he : x.2.serial = b.serial := List.mem_singleton.mp hk₂
    omega
  · intro x hx
    rw [hc]
    rcases List.mem_append.mp hx with hx | hx
    · exact Nat.lt_succ_of_lt (h.serials.2 x hx)
    · cases List.mem_singleton.mp hx
      rw [hk]
      exact Nat.lt_succ_self _

lemma remove {as bs : List (ℕ × MessageBox)} (h : Shelved t (as ++ (p, b) :: bs))
    (hl : t'.Lists (as ++ bs)) (hc : t'.created = t.created) : Shelved t' (as ++ bs) := by
  have hsub : (as ++ bs).Sublist (as ++ (p, b) :: bs) :=
    (List.sublist_cons_self _ _).append_left as
  refine ⟨hl, h.names.sublist (hsub.map _), h.serials.1.sublist (hsub.map _), fun x hx => ?_⟩
  rw [hc]
  exact h.serials.2 x (hsub.subset hx)

end Shelved

namespace Handled

variable {t t' : Table} {env : Env} {xs ys : List (ℕ × MessageBox)} {request : Request}
  {worker : WorkerPhase} {reply : Option Reply}

lemma shelved (h : Handled t env xs request (.ok (t', worker, reply)) ys) (hs : Shelved t xs) :
    Shelved t' ys := by
  cases h with
  | publish _ _ _ hl hc => exact hs.adjust (fun _ => ⟨rfl, rfl⟩) hl hc
  | subscribe _ _ _ hl hc => exact hs.adjust (fun _ => ⟨rfl, rfl⟩) hl hc
  | create habs _ _ hl hc => exact hs.append habs rfl hl hc
  | remove hx _ _ _ hl hc =>
    subst hx
    exact hs.remove hl hc
  | publishRefused | subscribeRefused | createRefused | removeBusy | removeAbsent | list => exact hs

lemma booked [DecidableEq W] {workers : W → WorkerPhase} {w : W}
    (h : Handled t env xs request (.ok (t', worker, reply)) ys) (hs : Shelved t xs)
    (hb : Booked workers xs) (hw : (workers w).session = none) :
    Booked (Function.update workers w worker) ys := by
  cases h with
  | publish hp _ hpub => exact hb.publish hs.lists.nodup hw hp hpub
  | subscribe hp => exact hb.subscribe hw hp
  | create _ _ hp => exact hb.append hw rfl (hs.lists.not_mem hp) rfl rfl
  | remove hx _ hpub hsub => exact hb.remove hx hw rfl hpub hsub
  | publishRefused | subscribeRefused | createRefused | removeBusy | removeAbsent | list =>
    exact hb.quiet hw rfl

lemma mutexes {r : Except Fault (Table × WorkerPhase × Option Reply)}
    (h : Handled t env xs request r ys) (hx : t.Lists xs) {p : ℕ} {b : MessageBox}
    (hb : (p, b) ∈ ys) : (∃ c, (p, c) ∈ xs ∧ c.waitMutex = b.waitMutex) ∨
      (p ∉ xs.map Prod.fst ∧ b.waitMutex = false) := by
  cases h with
  | publish | subscribe =>
    obtain ⟨c, hc, rfl⟩ := mem_adjust.mp hb
    refine .inl ⟨c, hc, ?_⟩
    split_ifs <;> rfl
  | create _ _ hp =>
    rcases List.mem_append.mp hb with hb | hb
    · exact .inl ⟨b, hb, rfl⟩
    · cases List.mem_singleton.mp hb
      exact .inr ⟨hx.not_mem hp, rfl⟩
  | remove he =>
    subst he
    exact .inl ⟨b, ((List.sublist_cons_self _ _).append_left _).subset hb, rfl⟩
  | publishRefused | subscribeRefused | createRefused | createFailed | removeBusy | removeAbsent
  | list => exact .inl ⟨b, hb, rfl⟩

end Handled

end MessageBroker.Mbroker
