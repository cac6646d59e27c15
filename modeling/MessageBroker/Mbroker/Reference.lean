import MessageBroker.Mbroker.Exclusivity

/-! What the broker's table is for: an ordered list of names, with sessions known by name. Every
run of the broker is a run of this reference over the same events. -/

namespace MessageBroker.Mbroker

open MessageBroker.Lib MessageBroker.Protocol

inductive Answer
  | create (ok : Bool)
  | remove (ok : Bool)
  | list (rows : List (BoxName × Bool))
  deriving DecidableEq

inductive Party
  | idle
  | handling (request : Request)
  | publishing (box : BoxName)
  | subscribed (box : BoxName)
  | replying (answer : Answer)
  deriving DecidableEq

structure Reference (W : Type) where
  names : List BoxName
  parties : W → Party
  halted : Bool
  replies : List (W × Answer)

def Party.publishesTo (box : BoxName) : Party → Bool
  | .publishing b => b == box
  | _ => false

def Party.subscribesTo (box : BoxName) : Party → Bool
  | .subscribed b => b == box
  | _ => false

def rows : List BoxName → List (BoxName × Bool)
  | [] => []
  | name :: names => (name, names.isEmpty) :: rows names

def listing (names : List BoxName) : List (BoxName × Bool) :=
  if names = [] then [(emptyName, true)] else rows names

variable {W : Type} [DecidableEq W]

def Reference.set (r : Reference W) (w : W) (party : Party) : Reference W :=
  { r with parties := Function.update r.parties w party }

def Reference.answer (r : Reference W) (w : W) (answer : Answer) : Reference W :=
  { r with replies := r.replies ++ [(w, answer)] }

variable [Fintype W]

/-- The order of requests is the order of their blocks. -/
def referenceRequest (r : Reference W) (w : W) (env : Env) : Request → Reference W
  | .registerPub _ box =>
    if box ∈ r.names ∧ tally (Party.publishesTo box) r.parties = 0 then r.set w (.publishing box)
    else r.set w .idle
  | .registerSub _ box =>
    if box ∈ r.names ∧ env.fd ≠ -1 then r.set w (.subscribed box) else r.set w .idle
  | .create _ box =>
    if box ∈ r.names then r.set w (.replying (.create false))
    else if env.malloc = none then { r with halted := true }
    else { r.set w (.replying (.create true)) with names := r.names ++ [box] }
  | .remove _ box =>
    if box ∈ r.names ∧ tally (Party.publishesTo box) r.parties = 0 ∧
        tally (Party.subscribesTo box) r.parties = 0 then
      { r.set w (.replying (.remove true)) with names := r.names.erase box }
    else r.set w (.replying (.remove false))
  | .list _ => (r.set w .idle).answer w (.list (listing r.names))

def partyStep (r : Reference W) (w : W) : Party → BrokerEvent W → Option (Reference W)
  | .idle, .accept _ request connected =>
    if connected then some (r.set w (.handling request)) else some r
  | .handling request, .block _ env => some (referenceRequest r w env request)
  | .publishing _, .update _ => some r
  | .publishing _, .leave _ => some (r.set w .idle)
  | .subscribed _, .leave _ => some (r.set w .idle)
  | .replying answer, .reply _ => some ((r.set w .idle).answer w answer)
  | _, _ => none

def referenceStep (r : Reference W) (ev : BrokerEvent W) : Option (Reference W) :=
  if r.halted then none
  else match ev with
    | .accept w _ _ | .block w _ | .update w | .leave w | .reply w =>
      partyStep r w (r.parties w) ev

def reference (W : Type) [DecidableEq W] [Fintype W] : System (Reference W) (BrokerEvent W) where
  init := ⟨[], fun _ => .idle, false, []⟩
  step := referenceStep

def Reply.answer : Reply → Answer
  | .create errorCode _ => .create (errorCode == 0)
  | .remove errorCode _ => .remove (errorCode == 0)
  | .list packets => .list (packets.map fun packet => (packet.boxName, packet.isLast))

inductive Plays (xs : List (ℕ × MessageBox)) : WorkerPhase → Party → Prop
  | idle : Plays xs .idle .idle
  | handling {request} : Plays xs (.handling request) (.handling request)
  | publishing {p k fd b} : (p, b) ∈ xs → Plays xs (.publishing p k fd) (.publishing b.name)
  | subscribed {p k b} : (p, b) ∈ xs → Plays xs (.subscribed p k) (.subscribed b.name)
  | createReply {box} : Plays xs (.createReply box) (.replying (.create box.isNone))
  | removeReply {box removed pub sub} :
      Plays xs (.removeReply box removed pub sub) (.replying (.remove removed))

structure Matches (s : Broker W) (xs : List (ℕ × MessageBox)) (r : Reference W) : Prop where
  names : r.names = xs.map fun x => x.2.name
  plays : ∀ w, Plays xs (s.workers w) (r.parties w)
  halted : r.halted = s.fault.isSome
  replies : r.replies = s.replies.map fun x => (x.1, x.2.answer)

omit [DecidableEq W] [Fintype W] in
lemma rows_packets (xs : List (ℕ × MessageBox)) :
    (packets xs).map (fun packet => (packet.boxName, packet.isLast)) =
      rows (xs.map fun x => x.2.name) := by
  induction xs with
  | nil => rfl
  | cons x xs ih =>
    rw [packets, List.map_cons, List.map_cons, rows, ih]
    cases xs <;> rfl

lemma listing_packets (xs : List (ℕ × MessageBox)) :
    (Reply.list (if xs = [] then [⟨true, emptyName, none⟩] else packets xs)).answer =
      .list (listing (xs.map fun x => x.2.name)) := by
  rw [Reply.answer, listing]
  by_cases hx : xs = []
  · subst hx
    rfl
  · rw [if_neg hx, if_neg (by simpa using hx), rows_packets]

lemma createResponse_answer (box : Option ℕ) :
    (createResponse box).answer = .create box.isNone := by
  cases box <;> rfl

lemma removeResponse_answer (box : Option ℕ) (removed : Bool) (pub sub : ℕ) :
    (removeResponse box removed pub sub).answer = .remove removed := by
  cases removed with
  | true => rfl
  | false =>
    rw [removeResponse, if_neg (by decide)]
    split_ifs <;> rfl

section Counts

variable {workers : W → WorkerPhase} {parties : W → Party} {xs : List (ℕ × MessageBox)} {p : ℕ}
  {b : MessageBox}

lemma named_once (hn : (xs.map fun x => x.2.name).Nodup) {q : ℕ} {c : MessageBox}
    (hb : (p, b) ∈ xs) (hc : (q, c) ∈ xs) (he : c.name = b.name) : q = p ∧ c = b := by
  have h := List.inj_on_of_nodup_map hn hc hb he
  cases h
  exact ⟨rfl, rfl⟩

lemma Plays.counts {t : Table} {x : WorkerPhase} {y : Party} (hp : Plays xs x y)
    (h : Shelved t xs) (hb : (p, b) ∈ xs) :
    y.publishesTo b.name = x.publishes p ∧ y.subscribesTo b.name = x.subscribes p := by
  have hsame : ∀ {q c}, (q, c) ∈ xs → (c.name == b.name) = (q == p) := by
    intro q c hc
    by_cases he : q = p
    · subst he
      rw [h.lists.value_unique hc hb, BEq.rfl, BEq.rfl]
    · have hne : c.name ≠ b.name := fun hn => he (named_once h.names hb hc hn).1
      rw [beq_eq_false_iff_ne.mpr hne, beq_eq_false_iff_ne.mpr he]
  cases hp with
  | publishing hc => exact ⟨hsame hc, rfl⟩
  | subscribed hc => exact ⟨rfl, hsame hc⟩
  | idle | handling | createReply | removeReply => exact ⟨rfl, rfl⟩

lemma Plays.keep {ys : List (ℕ × MessageBox)} {x : WorkerPhase} {y : Party} (hp : Plays xs x y)
    (hk : ∀ q k, x.session = some (q, k) → ∀ b, (q, b) ∈ xs →
      ∃ c, (q, c) ∈ ys ∧ c.name = b.name) : Plays ys x y := by
  cases hp with
  | publishing hc =>
    obtain ⟨c, hc, hn⟩ := hk _ _ rfl _ hc
    exact hn ▸ .publishing hc
  | subscribed hc =>
    obtain ⟨c, hc, hn⟩ := hk _ _ rfl _ hc
    exact hn ▸ .subscribed hc
  | idle => exact .idle
  | handling => exact .handling
  | createReply => exact .createReply
  | removeReply => exact .removeReply

end Counts

section Simulation

variable {s t : Broker W} {xs ys : List (ℕ × MessageBox)} {r : Reference W}

omit [DecidableEq W] in
lemma Matches.counters (hs : Sound s xs) (hm : Matches s xs r) {p : ℕ} {b : MessageBox}
    (hb : (p, b) ∈ xs) : tally (Party.publishesTo b.name) r.parties = b.publishers ∧
      tally (Party.subscribesTo b.name) r.parties = b.subscribers := by
  rw [(hs.booked.publishers p b hb).1, hs.booked.subscribers p b hb]
  exact ⟨tally_congr (fun w => ((hm.plays w).counts hs.shelved hb).1),
    tally_congr (fun w => ((hm.plays w).counts hs.shelved hb).2)⟩

lemma Matches.set (hs : Sound s xs) (hm : Matches s xs r) (w : W) (t' : Table)
    (reply : Option Reply) {x : WorkerPhase} {y : Party}
    (hkeep : ∀ q b, (q, b) ∈ xs → 0 < b.publishers + b.subscribers →
      ∃ c, (q, c) ∈ ys ∧ c.name = b.name)
    (hxy : Plays ys x y) :
    Matches (settle s w (.ok (t', x, reply))) ys { r.set w y with
      names := ys.map fun x => x.2.name
      replies := r.replies ++ reply.toList.map fun reply => (w, reply.answer) } := by
  refine ⟨rfl, fun v => ?_, hm.halted, ?_⟩
  · simp only [settle_ok, Reference.set, Function.update_apply]
    split_ifs with hv
    · exact hxy
    · exact (hm.plays v).keep (fun q k hq b hb => hkeep q b hb (hs.booked.pos_of_session hq hb))
  · simp only [settle_ok, List.map_append, List.map_map, hm.replies]
    rfl

lemma Matches.same (hs : Sound s xs) (hm : Matches s xs r) (w : W) (t' : Table)
    (reply : Option Reply) {x : WorkerPhase} {y : Party} (hxy : Plays xs x y) :
    Matches (settle s w (.ok (t', x, reply))) xs { r.set w y with
      replies := r.replies ++ reply.toList.map fun reply => (w, reply.answer) } := by
  have h := hm.set hs w t' reply (fun q b hb _ => ⟨b, hb, rfl⟩) hxy
  rw [← hm.names] at h
  exact h

lemma Matches.adjust (hs : Sound s xs) (hm : Matches s xs r) (w : W) (t' : Table)
    {x : WorkerPhase} {y : Party} {p : ℕ} {f : MessageBox → MessageBox}
    (hf : ∀ b, (f b).name = b.name) (hxy : Plays (Mbroker.adjust p f xs) x y) :
    Matches (settle s w (.ok (t', x, none))) (Mbroker.adjust p f xs) (r.set w y) := by
  have hkeep : ∀ q b, (q, b) ∈ xs → ∃ c, (q, c) ∈ Mbroker.adjust p f xs ∧ c.name = b.name := by
    intro q b hb
    refine ⟨_, mem_adjust.mpr ⟨b, hb, rfl⟩, ?_⟩
    split_ifs
    · exact hf b
    · rfl
  have h := hm.set hs w t' none (fun q b hb _ => hkeep q b hb) hxy
  rw [adjust_names hf, ← hm.names] at h
  simpa [Reference.set] using h

omit [DecidableEq W] [Fintype W] in
lemma Matches.mem_names (hm : Matches s xs r) {p : ℕ} {b : MessageBox} (hb : (p, b) ∈ xs) :
    b.name ∈ r.names := by
  rw [hm.names]
  exact List.mem_map.mpr ⟨_, hb, rfl⟩

omit [DecidableEq W] [Fintype W] in
lemma Matches.absent (hm : Matches s xs r) {name : BoxName} (h : Absent name xs) :
    name ∉ r.names := by
  rw [hm.names]
  intro hn
  obtain ⟨x, hx, he⟩ := List.mem_map.mp hn
  exact h x hx he

lemma erase_name {as bs : List (ℕ × MessageBox)} {p : ℕ} {b : MessageBox}
    (hn : ((as ++ (p, b) :: bs).map fun x => x.2.name).Nodup) :
    ((as ++ (p, b) :: bs).map fun x => x.2.name).erase b.name =
      (as ++ bs).map fun x => x.2.name := by
  rw [List.map_append, List.map_cons, List.nodup_append'] at hn
  have hnot : b.name ∉ as.map fun x => x.2.name := fun hm => hn.2.2 hm List.mem_cons_self
  rw [List.map_append, List.map_cons, List.erase_append_right _ hnot, List.erase_cons_head,
    List.map_append]

lemma handled_matches {w : W} {env : Env} {request : Request}
    {res : Except Fault (Table × WorkerPhase × Option Reply)} (hs : Sound s xs)
    (hm : Matches s xs r) (hw : s.workers w = .handling request)
    (h : Handled s.table env xs request res ys) :
    Matches (settle s w res) ys (referenceRequest r w env request) := by
  have hplain : ∀ {x y}, Plays xs x y →
      Matches (settle s w (.ok (s.table, x, none))) xs (r.set w y) := by
    intro x y hxy
    have h := hm.same hs w s.table none hxy
    simpa [Reference.set] using h
  cases h with
  | @publish _ name p b t' hb hname hpub hl hc =>
    subst hname
    have hc := (hm.counters hs hb).1
    rw [referenceRequest, if_pos ⟨hm.mem_names hb, hc.trans hpub⟩]
    have hin : (p, b.admitPublisher) ∈
        adjust p MessageBox.admitPublisher xs :=
      mem_adjust.mpr ⟨b, hb, (if_pos rfl).symm⟩
    have hplay := @Plays.publishing _ p b.serial b.fdInternalW _ hin
    exact hm.adjust hs w t' (fun _ => rfl) hplay
  | @publishRefused _ name hall =>
    have hno : ¬ (name ∈ r.names ∧ tally (Party.publishesTo name) r.parties = 0) := by
      rintro ⟨hn, hz⟩
      rw [hm.names] at hn
      obtain ⟨⟨p, b⟩, hb, rfl⟩ := List.mem_map.mp hn
      have hpos := hall _ hb rfl
      rw [(hm.counters hs hb).1] at hz
      dsimp only at hpos
      omega
    rw [referenceRequest, if_neg hno]
    exact hplain .idle
  | @subscribe _ name p b t' hb hname hfd hl hc =>
    subst hname
    rw [referenceRequest, if_pos ⟨hm.mem_names hb, hfd⟩]
    have hin : (p, b.admitSubscriber) ∈
        adjust p MessageBox.admitSubscriber xs :=
      mem_adjust.mpr ⟨b, hb, (if_pos rfl).symm⟩
    have hplay := @Plays.subscribed _ p b.serial _ hin
    exact hm.adjust hs w t' (fun _ => rfl) hplay
  | @subscribeRefused _ name hor =>
    have hno : ¬ (name ∈ r.names ∧ env.fd ≠ -1) := by
      rintro ⟨hn, hfd⟩
      rcases hor with h | h
      · exact hfd h
      · exact hm.absent h hn
    rw [referenceRequest, if_neg hno]
    exact hplain .idle
  | @create _ name p t' habs hmal hp hl hc =>
    rw [referenceRequest, if_neg (hm.absent habs), if_neg (by rw [hmal]; simp), hm.names]
    have hkeep : ∀ q b, (q, b) ∈ xs → 0 < b.publishers + b.subscribers →
        ∃ c, (q, c) ∈ xs ++ [(p, ⟨name, 0, 0, 0, env.fd, false, s.table.created⟩)] ∧
          c.name = b.name := fun q b hb _ => ⟨b, List.mem_append_left _ hb, rfl⟩
    have h := hm.set hs w t' none hkeep (@Plays.createReply _ none)
    simpa [Reference.set] using h
  | createFailed habs hmal =>
    rw [referenceRequest, if_neg (hm.absent habs), if_pos hmal]
    exact ⟨hm.names, hm.plays, rfl, hm.replies⟩
  | createRefused hb hname =>
    subst hname
    rw [referenceRequest, if_pos (hm.mem_names hb)]
    exact hplain .createReply
  | @remove _ name p b as bs t' hx hname hpub hsub hl hc =>
    subst hx hname
    have hb : (p, b) ∈ as ++ (p, b) :: bs := by simp
    obtain ⟨h₁, h₂⟩ := hm.counters hs hb
    rw [referenceRequest, if_pos ⟨hm.mem_names hb, h₁.trans hpub, h₂.trans hsub⟩]
    have hkeep : ∀ q c, (q, c) ∈ as ++ (p, b) :: bs → 0 < c.publishers + c.subscribers →
        ∃ d, (q, d) ∈ as ++ bs ∧ d.name = c.name :=
      fun q c hc hpos => ⟨c, mem_of_used hc hpos hpub hsub, rfl⟩
    have h := hm.set hs w t' none hkeep (@Plays.removeReply _ (some p) true 0 0)
    rw [← erase_name hs.shelved.names, ← hm.names] at h
    simpa [Reference.set] using h
  | @removeBusy _ name p b hb hname hbusy =>
    subst hname
    have hno : ¬ (b.name ∈ r.names ∧ tally (Party.publishesTo b.name) r.parties = 0 ∧
        tally (Party.subscribesTo b.name) r.parties = 0) := by
      rintro ⟨-, h₁, h₂⟩
      rw [(hm.counters hs hb).1] at h₁
      rw [(hm.counters hs hb).2] at h₂
      exact hbusy ⟨h₁, h₂⟩
    rw [referenceRequest, if_neg hno]
    exact hplain .removeReply
  | removeAbsent habs =>
    rw [referenceRequest, if_neg (fun h => hm.absent habs h.1)]
    exact hplain .removeReply
  | list =>
    have h := hm.same hs w s.table (some (.list (if xs = [] then [⟨true, emptyName, none⟩]
      else packets xs))) .idle
    simpa [referenceRequest, Reference.answer, Reference.set, listing_packets, hm.names] using h

lemma moves_matches {ev : BrokerEvent W} (hs : Sound s xs) (hf : s.fault = none)
    (hm : Matches s xs r) (h : Moves s xs ev t ys) :
    ∃ r', referenceStep r ev = some r' ∧ Matches t ys r' := by
  have hh : ¬ r.halted = true := by
    rw [hm.halted, hf]
    decide
  have hparty : ∀ {w x}, s.workers w = x → Plays xs x (r.parties w) := fun he => he ▸ hm.plays _
  have hrefl : ∀ {w : W} {y : Party}, r.parties w = y → r.set w y = r := by
    intro w y hy
    rw [Reference.set, ← hy, Function.update_eq_self]
  cases h with
  | @accept w request hw =>
    have hp := hparty hw
    cases hr : r.parties w <;> rw [hr] at hp <;> cases hp
    refine ⟨r.set w (.handling request), by simp [referenceStep, hh, partyStep, hr], ?_⟩
    simpa [Reference.set] using hm.same hs w s.table none .handling
  | @refuse w request hw =>
    have hp := hparty hw
    cases hr : r.parties w <;> rw [hr] at hp <;> cases hp
    exact ⟨r, by simp [referenceStep, hh, partyStep, hr], hm⟩
  | @block w env request res _ hw hb =>
    have hp := hparty hw
    cases hr : r.parties w <;> rw [hr] at hp <;> cases hp
    exact ⟨_, by simp [referenceStep, hh, partyStep, hr], handled_matches hs hm hw hb⟩
  | @update w p k fd t' hw hl hc =>
    have hp := hparty hw
    cases hr : r.parties w <;> rw [hr] at hp <;> cases hp
    rename_i b hb
    refine ⟨r, by simp [referenceStep, hh, partyStep, hr], ?_⟩
    have hin : (p, b.grow) ∈
        adjust p MessageBox.grow xs :=
      mem_adjust.mpr ⟨b, hb, (if_pos rfl).symm⟩
    have hplay := @Plays.publishing _ p k fd _ hin
    have h := hm.adjust (f := MessageBox.grow) hs w t' (fun _ => rfl) hplay
    rw [show b.grow.name = b.name from rfl, hrefl hr] at h
    exact h
  | @unpublish w p k fd t' hw hl hc =>
    have hp := hparty hw
    cases hr : r.parties w <;> rw [hr] at hp <;> cases hp
    refine ⟨r.set w .idle, by simp [referenceStep, hh, partyStep, hr], ?_⟩
    exact hm.adjust hs w t' (fun _ => rfl) .idle
  | @unsubscribe w p k t' hw hl hc =>
    have hp := hparty hw
    cases hr : r.parties w <;> rw [hr] at hp <;> cases hp
    refine ⟨r.set w .idle, by simp [referenceStep, hh, partyStep, hr], ?_⟩
    exact hm.adjust hs w t' (fun _ => rfl) .idle
  | @createReply w box hw =>
    have hp := hparty hw
    cases hr : r.parties w <;> rw [hr] at hp <;> cases hp
    refine ⟨_, by simp [referenceStep, hh, partyStep, hr]; rfl, ?_⟩
    have h := hm.same hs w s.table (some (createResponse box)) .idle
    simpa [Reference.answer, Reference.set, createResponse_answer] using h
  | @removeReply w box removed pub sub hw =>
    have hp := hparty hw
    cases hr : r.parties w <;> rw [hr] at hp <;> cases hp
    refine ⟨_, by simp [referenceStep, hh, partyStep, hr]; rfl, ?_⟩
    have h := hm.same hs w s.table (some (removeResponse box removed pub sub)) .idle
    simpa [Reference.answer, Reference.set, removeResponse_answer] using h

end Simulation

variable {s : Broker W}

theorem table_refines {as : List (BrokerEvent W)}
    (h : (broker W).run (broker W).init as = some s) :
    ∃ r xs, (reference W).run (reference W).init as = some r ∧ s.table.Lists xs ∧
      r.names = xs.map (fun x => x.2.name) ∧ r.names.Nodup ∧
      r.replies = s.replies.map (fun x => (x.1, x.2.answer)) ∧ r.halted = s.fault.isSome := by
  have hsim : ∃ r, (reference W).run (reference W).init (as.flatMap fun a => [a]) = some r ∧
      ∃ xs, Sound s xs ∧ Matches s xs r := by
    have hinit : ∃ xs, Sound (broker W).init xs ∧ Matches (broker W).init xs (reference W).init :=
      ⟨[], sound_init, ⟨rfl, fun _ => .idle, rfl, rfl⟩⟩
    refine System.simulate_run (R := fun s r => ∃ xs, Sound s xs ∧ Matches s xs r)
      (fun s r ev t hR hst => ?_) hinit h
    obtain ⟨xs, hs, hm⟩ := hR
    obtain ⟨ys, hmv⟩ := brokerStep_moves hs hst
    obtain ⟨r', hr, hm'⟩ := moves_matches hs (brokerStep_running hst) hm hmv
    exact ⟨r', by simp [reference, hr], ys, moves_sound hs hmv, hm'⟩
  obtain ⟨r, hr, xs, hs, hm⟩ := hsim
  refine ⟨r, xs, by simpa using hr, hs.shelved.lists, hm.names, ?_, hm.replies, hm.halted⟩
  rw [hm.names]
  exact hs.shelved.names

def twoBoxes (pipe : PipeName) (a b : BoxName) : List (BrokerEvent (Fin 2)) :=
  [.accept 0 (.create pipe a) true, .accept 1 (.create pipe b) true, .block 1 ⟨some 4, 3⟩,
    .block 0 ⟨some 2, 5⟩, .reply 0, .reply 1, .accept 0 (.registerSub pipe a) true,
    .block 0 ⟨none, 6⟩, .accept 1 (.remove pipe a) true, .block 1 ⟨none, 0⟩, .reply 1,
    .accept 1 (.remove pipe b) true, .block 1 ⟨none, 0⟩, .reply 1,
    .accept 1 (.list pipe) true, .block 1 ⟨none, 0⟩]

theorem table_refines_twoBoxes : ∃ s r xs,
    (broker (Fin 2)).run (broker (Fin 2)).init (twoBoxes pipeP boxA boxB) = some s ∧
    (reference (Fin 2)).run (reference (Fin 2)).init (twoBoxes pipeP boxA boxB) = some r ∧
    s.table.Lists xs ∧ r.names = xs.map (fun x => x.2.name) ∧ r.names.Nodup ∧
    r.replies = s.replies.map (fun x => (x.1, x.2.answer)) ∧ r.halted = s.fault.isSome := by
  obtain ⟨s, hs⟩ : ∃ s, (broker (Fin 2)).run (broker (Fin 2)).init
      (twoBoxes pipeP boxA boxB) = some s := ⟨_, rfl⟩
  obtain ⟨r, xs, hr, h⟩ := table_refines hs
  exact ⟨s, r, xs, hs, hr, h⟩

end MessageBroker.Mbroker
