import MessageBroker.Mbroker.Booking

namespace MessageBroker.Mbroker

open MessageBroker.Lib MessageBroker.Protocol

variable {W : Type} [Fintype W]

structure Sound (s : Broker W) (xs : List (ℕ × MessageBox)) : Prop where
  shelved : Shelved s.table xs
  unlocked : ∀ x ∈ xs, x.2.waitMutex = false
  booked : Booked s.workers xs
  fault : s.fault = none ∨ s.fault = some .noMemory

variable [DecidableEq W]

inductive Moves (s : Broker W) (xs : List (ℕ × MessageBox)) :
    BrokerEvent W → Broker W → List (ℕ × MessageBox) → Prop
  | accept {w request} : s.workers w = .idle → Moves s xs (.accept w request true)
      (settle s w (.ok (s.table, .handling request, none))) xs
  | refuse {w request} : s.workers w = .idle → Moves s xs (.accept w request false) s xs
  | block {w env request r ys} : s.workers w = .handling request →
      Handled s.table env xs request r ys → Moves s xs (.block w env) (settle s w r) ys
  | update {w p k fd t} : s.workers w = .publishing p k fd →
      t.Lists (adjust p MessageBox.grow xs) →
      t.created = s.table.created →
      Moves s xs (.update w) (settle s w (.ok (t, .publishing p k fd, none)))
        (adjust p MessageBox.grow xs)
  | unpublish {w p k fd t} : s.workers w = .publishing p k fd →
      t.Lists (adjust p MessageBox.dropPublisher xs) →
      t.created = s.table.created →
      Moves s xs (.leave w) (settle s w (.ok (t, .idle, none)))
        (adjust p MessageBox.dropPublisher xs)
  | unsubscribe {w p k t} : s.workers w = .subscribed p k →
      t.Lists (adjust p MessageBox.dropSubscriber xs) →
      t.created = s.table.created →
      Moves s xs (.leave w) (settle s w (.ok (t, .idle, none)))
        (adjust p MessageBox.dropSubscriber xs)
  | createReply {w box} : s.workers w = .createReply box → Moves s xs (.reply w)
      (settle s w (.ok (s.table, .idle, some (createResponse box)))) xs
  | removeReply {w box removed pub sub} : s.workers w = .removeReply box removed pub sub →
      Moves s xs (.reply w)
        (settle s w (.ok (s.table, .idle, some (removeResponse box removed pub sub)))) xs

variable {s t : Broker W} {xs ys : List (ℕ × MessageBox)} {ev : BrokerEvent W}

omit [DecidableEq W] in
lemma session_box (h : Sound s xs) {w : W} {p k : ℕ} (hw : (s.workers w).session = some (p, k))
    (f : MessageBox → MessageBox) : ∃ t', modifyBox s.table p f = .ok t' ∧
      t'.Lists (adjust p f xs) ∧ t'.created = s.table.created := by
  obtain ⟨b, hb, _⟩ := h.booked.sessions w p k hw
  exact modifyBox_eq h.shelved.lists hb f

omit [Fintype W] in
lemma brokerStep_running (h : brokerStep s ev = some t) : s.fault = none := by
  simp only [brokerStep] at h
  split_ifs at h with hf
  exact not_not.mp hf

lemma brokerStep_moves (hs : Sound s xs) (h : brokerStep s ev = some t) :
    ∃ ys, Moves s xs ev t ys := by
  have hf := brokerStep_running h
  simp only [brokerStep, hf, ne_eq, not_true_eq_false, if_false] at h
  cases ev with
  | accept w request connected =>
    cases hw : s.workers w <;> simp only [workerStep, hw, reduceCtorEq] at h
    cases connected <;> cases h
    · exact ⟨xs, .refuse hw⟩
    · exact ⟨xs, .accept hw⟩
  | block w env =>
    cases hw : s.workers w <;> simp only [workerStep, hw, reduceCtorEq] at h
    split_ifs at h with ha
    cases h
    obtain ⟨ys, hys⟩ := requestBlock_handled hs.shelved.lists hs.shelved.names ha _
      (fun _ _ _ => hs.unlocked)
    exact ⟨ys, .block hw hys⟩
  | update w =>
    cases hw : s.workers w <;> simp only [workerStep, hw, reduceCtorEq] at h
    split_ifs at h
    cases h
    obtain ⟨t', hm, hl, hc⟩ := session_box hs (w := w) (by rw [hw]; rfl)
      MessageBox.grow
    rw [hm]
    exact ⟨_, .update hw hl hc⟩
  | leave w =>
    cases hw : s.workers w <;> simp only [workerStep, hw, reduceCtorEq] at h
    · cases h
      obtain ⟨t', hm, hl, hc⟩ := session_box hs (w := w) (by rw [hw]; rfl)
        MessageBox.dropPublisher
      rw [hm]
      exact ⟨_, .unpublish hw hl hc⟩
    · cases h
      obtain ⟨t', hm, hl, hc⟩ := session_box hs (w := w) (by rw [hw]; rfl)
        MessageBox.dropSubscriber
      rw [hm]
      exact ⟨_, .unsubscribe hw hl hc⟩
  | reply w =>
    cases hw : s.workers w <;> simp only [workerStep, hw, reduceCtorEq] at h
    · cases h
      exact ⟨xs, .createReply hw⟩
    · cases h
      exact ⟨xs, .removeReply hw⟩

omit [Fintype W] in
@[simp] lemma settle_ok (w : W) (t : Table) (worker : WorkerPhase) (reply : Option Reply) :
    settle s w (.ok (t, worker, reply)) = { s with
      table := t
      workers := Function.update s.workers w worker
      replies := s.replies ++ reply.toList.map (fun r => (w, r)) } := rfl

lemma handled_sound {w : W} {env : Env} {request : Request}
    {r : Except Fault (Table × WorkerPhase × Option Reply)} (hs : Sound s xs)
    (hw : s.workers w = .handling request) (h : Handled s.table env xs request r ys) :
    Sound (settle s w r) ys := by
  have hunlocked : ∀ x ∈ ys, x.2.waitMutex = false := by
    intro x hx
    rcases h.mutexes hs.shelved.lists hx with ⟨c, hc, he⟩ | ⟨-, hu⟩
    · rw [← he]
      exact hs.unlocked _ hc
    · exact hu
  match r with
  | .ok (t, worker, reply) =>
    refine ⟨h.shelved hs.shelved, hunlocked, ?_, hs.fault⟩
    exact h.booked hs.shelved hs.booked (by rw [hw]; rfl)
  | .error fault =>
    cases h
    exact ⟨hs.shelved, hs.unlocked, hs.booked, .inr rfl⟩

omit [DecidableEq W] in
lemma adjust_unlocked (hs : Sound s xs) {p : ℕ} {f : MessageBox → MessageBox}
    (hf : ∀ b, (f b).waitMutex = b.waitMutex) : ∀ x ∈ adjust p f xs, x.2.waitMutex = false := by
  rintro ⟨q, c⟩ hx
  obtain ⟨b, hb, rfl⟩ := mem_adjust.mp hx
  dsimp only
  split_ifs
  · rw [hf]
    exact hs.unlocked _ hb
  · exact hs.unlocked _ hb

lemma moves_sound (hs : Sound s xs) (h : Moves s xs ev t ys) : Sound t ys := by
  have hquiet : ∀ w worker, (s.workers w).session = none → worker.session = none →
      ∀ reply, Sound (settle s w (.ok (s.table, worker, reply))) xs :=
    fun w worker hw hy _ => ⟨hs.shelved, hs.unlocked, hs.booked.quiet hw hy, hs.fault⟩
  cases h with
  | accept hw => exact hquiet _ _ (by rw [hw]; rfl) rfl _
  | refuse => exact hs
  | block hw hh => exact handled_sound hs hw hh
  | @update w p k fd t' hw hl hc =>
    refine ⟨hs.shelved.adjust (fun _ => ⟨rfl, rfl⟩) hl hc, adjust_unlocked hs (fun _ => rfl), ?_,
      hs.fault⟩
    have hsame : Function.update s.workers w (.publishing p k fd) = s.workers := by
      rw [← hw, Function.update_eq_self]
    rw [settle_ok, hsame]
    exact hs.booked.keep (fun _ => ⟨rfl, rfl, rfl⟩)
  | unpublish hw hl hc =>
    exact ⟨hs.shelved.adjust (fun _ => ⟨rfl, rfl⟩) hl hc, adjust_unlocked hs (fun _ => rfl),
      hs.booked.unpublish hw, hs.fault⟩
  | unsubscribe hw hl hc =>
    exact ⟨hs.shelved.adjust (fun _ => ⟨rfl, rfl⟩) hl hc, adjust_unlocked hs (fun _ => rfl),
      hs.booked.unsubscribe hw, hs.fault⟩
  | createReply hw => exact hquiet _ _ (by rw [hw]; rfl) rfl _
  | removeReply hw => exact hquiet _ _ (by rw [hw]; rfl) rfl _

lemma sound_init : Sound (broker W).init [] := by
  refine ⟨⟨rfl, List.nodup_nil, List.nodup_nil, by simp⟩, by simp, ⟨by simp, by simp, ?_⟩, .inl rfl⟩
  intro w p k hk
  cases hk

lemma reachable_sound (h : (broker W).Reachable s) : ∃ xs, Sound s xs := by
  induction h with
  | init => exact ⟨[], sound_init⟩
  | step _ _ hst ih =>
    obtain ⟨xs, hs⟩ := ih
    obtain ⟨ys, hm⟩ := brokerStep_moves hs hst
    exact ⟨ys, moves_sound hs hm⟩

def WorkerPhase.publisherOf (p k : ℕ) : WorkerPhase → Bool
  | .publishing msg serial _ => msg == p && serial == k
  | _ => false

def WorkerPhase.subscriberOf (p k : ℕ) : WorkerPhase → Bool
  | .subscribed msg serial => msg == p && serial == k
  | _ => false

structure Exclusive (s : Broker W) (xs : List (ℕ × MessageBox)) : Prop where
  single : ∀ p b, (p, b) ∈ xs → tally (WorkerPhase.publisherOf p b.serial) s.workers ≤ 1
  publishers : ∀ p b, (p, b) ∈ xs →
    b.publishers = tally (WorkerPhase.publisherOf p b.serial) s.workers
  subscribers : ∀ p b, (p, b) ∈ xs →
    b.subscribers = tally (WorkerPhase.subscriberOf p b.serial) s.workers
  serials : (xs.map fun x => x.2.serial).Nodup
  lifetime : ∀ w p k, (s.workers w).session = some (p, k) → ∃ b, (p, b) ∈ xs ∧ b.serial = k
  fault : s.fault ≠ some .wildPointer

omit [DecidableEq W] in
lemma Sound.exclusive (hs : Sound s xs) : Exclusive s xs := by
  obtain ⟨hshelved, -, hbooked, hfault⟩ := hs
  have hserial : ∀ {w p k b}, (s.workers w).session = some (p, k) → (p, b) ∈ xs → k = b.serial := by
    intro w p k b hw hb
    obtain ⟨c, hc, rfl⟩ := hbooked.sessions w p k hw
    rw [hshelved.lists.value_unique hb hc]
  have hpub : ∀ p b, (p, b) ∈ xs → tally (WorkerPhase.publishes p) s.workers =
      tally (WorkerPhase.publisherOf p b.serial) s.workers := by
    intro p b hb
    apply tally_congr
    intro w
    cases hw : s.workers w with
    | publishing q k fd =>
      by_cases hq : q = p
      · subst hq
        have hk : k = b.serial := hserial (w := w) (by rw [hw]; rfl) hb
        simp [WorkerPhase.publishes, WorkerPhase.publisherOf, hk]
      · simp [WorkerPhase.publishes, WorkerPhase.publisherOf, hq]
    | idle | handling | subscribed | createReply | removeReply => rfl
  have hsub : ∀ p b, (p, b) ∈ xs → tally (WorkerPhase.subscribes p) s.workers =
      tally (WorkerPhase.subscriberOf p b.serial) s.workers := by
    intro p b hb
    apply tally_congr
    intro w
    cases hw : s.workers w with
    | subscribed q k =>
      by_cases hq : q = p
      · subst hq
        have hk : k = b.serial := hserial (w := w) (by rw [hw]; rfl) hb
        simp [WorkerPhase.subscribes, WorkerPhase.subscriberOf, hk]
      · simp [WorkerPhase.subscribes, WorkerPhase.subscriberOf, hq]
    | idle | handling | publishing | createReply | removeReply => rfl
  refine ⟨fun p b hb => ?_, fun p b hb => ?_, fun p b hb => ?_, hshelved.serials.1,
    hbooked.sessions, ?_⟩
  · rw [← hpub p b hb, ← (hbooked.publishers p b hb).1]
    exact (hbooked.publishers p b hb).2
  · rw [← hpub p b hb]
    exact (hbooked.publishers p b hb).1
  · rw [← hsub p b hb]
    exact hbooked.subscribers p b hb
  · rcases hfault with hf | hf <;> rw [hf] <;> decide

theorem sessions_exclusive (h : (broker W).Reachable s) :
    ∃ xs, s.table.Lists xs ∧ Exclusive s xs := by
  obtain ⟨xs, hs⟩ := reachable_sound h
  exact ⟨xs, hs.shelved.lists, hs.exclusive⟩

def recreation (box : BoxName) : List (BrokerEvent Unit) :=
  [.accept () (.create pipeP box) true, .block () ⟨some 0, 3⟩, .reply (),
    .accept () (.remove pipeP box) true, .block () ⟨none, 0⟩, .reply (),
    .accept () (.create pipeP box) true, .block () ⟨some 0, 3⟩, .reply (),
    .accept () (.registerPub pipeP box) true, .block () ⟨none, 0⟩]

theorem sessions_exclusive_recreation :
    ∃ s, (broker Unit).run (broker Unit).init (recreation boxA) = some s ∧
      s.workers () = .publishing 0 1 3 ∧ ∃ xs, s.table.Lists xs ∧ Exclusive s xs := by
  obtain ⟨s, hs, hw⟩ : ∃ s, (broker Unit).run (broker Unit).init (recreation boxA) = some s ∧
      s.workers () = .publishing 0 1 3 := ⟨_, rfl, rfl⟩
  exact ⟨s, hs, hw, sessions_exclusive (System.reachable_of_run hs)⟩

end MessageBroker.Mbroker
