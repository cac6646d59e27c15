import MessageBroker.EndToEnd.Administration
import MessageBroker.Mbroker.Reference

namespace MessageBroker.EndToEnd

open MessageBroker.Lib MessageBroker.Protocol MessageBroker.Mbroker MessageBroker.Manager
open MessageBroker.Subscriber (ascii)

section Ledger

variable {t : Table} {xs as bs : List (ℕ × MessageBox)} {q : ℕ} {b : MessageBox} {name : BoxName}

def row (b : MessageBox) : Row := ⟨b.name, b.size, b.publishers, b.subscribers⟩

@[simp] lemma row_name (b : MessageBox) : (row b).name = b.name := rfl

def ledger (xs : List (ℕ × MessageBox)) : List Row := xs.map fun x => row x.2

lemma rowOf_absent (h : Absent name xs) : rowOf (ledger xs) name = none := by
  rw [rowOf, List.find?_eq_none]
  intro r hr
  obtain ⟨x, hx, rfl⟩ := List.mem_map.mp hr
  exact fun hd => h x hx (of_decide_eq_true hd)

lemma rowOf_listed (hn : (xs.map fun x => x.2.name).Nodup) (hb : (q, b) ∈ xs) :
    rowOf (ledger xs) b.name = some (row b) := by
  cases hf : rowOf (ledger xs) b.name with
  | none =>
    have h := List.find?_eq_none.mp hf (row b) (List.mem_map.mpr ⟨(q, b), hb, rfl⟩)
    simp at h
  | some r =>
    obtain ⟨⟨u, c⟩, hc, rfl⟩ := List.mem_map.mp (List.mem_of_find?_eq_some hf)
    have hname : c.name = b.name :=
      of_decide_eq_true (List.find?_some (p := fun r : Row => decide (r.name = b.name)) hf)
    rw [(named_once hn hb hc hname).2]

lemma nameAt_listed (hx : t.Lists xs) (hb : (q, b) ∈ xs) : nameAt t q = some b.name := by
  obtain ⟨next, hc⟩ := Heap.Segment.cell hx hb
  rw [nameAt, hc, Option.map_some]

lemma adjustRow_listed (hs : Shelved t xs) (hb : (q, b) ∈ xs) {allowed : Row → Bool}
    {f : MessageBox → MessageBox} {g : Row → Row} (ha : allowed (row b) = true)
    (hfg : ∀ c, row (f c) = g (row c)) :
    adjustRow (ledger xs) b.name allowed g = some (ledger (adjust q f xs)) := by
  have hmap : ledger (adjust q f xs) =
      (ledger xs).map fun r => if r.name = b.name then g r else r := by
    rw [ledger, ledger, adjust, List.map_map, List.map_map]
    apply List.map_congr_left
    rintro ⟨u, c⟩ hc
    dsimp only [Function.comp_apply]
    by_cases hu : u = q
    · subst hu
      rw [if_pos rfl, hs.lists.value_unique hc hb, if_pos (show (row b).name = b.name from rfl)]
      exact hfg b
    · have hne : (row c).name ≠ b.name := fun he => hu (named_once hs.names hb hc he).1
      rw [if_neg hu, if_neg hne]
  rw [adjustRow, rowOf_listed hs.names hb, hmap]
  simp only [ha, if_true]

lemma filter_removed (hn : ((as ++ (q, b) :: bs).map fun x => x.2.name).Nodup) :
    ((ledger (as ++ (q, b) :: bs)).filter fun r => r.name ≠ b.name) = ledger (as ++ bs) := by
  have hkeep : ∀ x ∈ as ++ bs, x.2.name ≠ b.name := by
    intro x hx he
    rw [List.map_append, List.map_cons, List.nodup_append'] at hn
    obtain ⟨-, hcons, hdisj⟩ := hn
    rcases List.mem_append.mp hx with hx | hx
    · refine hdisj (List.mem_map.mpr ⟨x, hx, rfl⟩) ?_
      rw [he]
      exact List.mem_cons_self
    · exact (List.nodup_cons.mp hcons).1 (he ▸ List.mem_map.mpr ⟨x, hx, rfl⟩)
  have hself : ∀ {ys : List (ℕ × MessageBox)}, (∀ x ∈ ys, x.2.name ≠ b.name) →
      (ledger ys).filter (fun r => r.name ≠ b.name) = ledger ys := by
    intro ys hys
    apply List.filter_eq_self.mpr
    intro r hr
    obtain ⟨x, hx, rfl⟩ := List.mem_map.mp hr
    exact decide_eq_true (hys x hx)
  have hsplit : ∀ ys zs : List (ℕ × MessageBox), ledger (ys ++ zs) = ledger ys ++ ledger zs :=
    fun ys zs => List.map_append
  have hdrop : (ledger ((q, b) :: bs)).filter (fun r => r.name ≠ b.name) =
      (ledger bs).filter fun r => r.name ≠ b.name := by
    apply List.filter_cons_of_neg
    simp
  rw [hsplit, hsplit, List.filter_append, hdrop,
    hself (fun x hx => hkeep x (List.mem_append_left _ hx)),
    hself (fun x hx => hkeep x (List.mem_append_right _ hx))]

end Ledger

inductive Answers : Command → Reply → Outcome → Prop
  | created {box} : Answers (.create box) (createResponse none) .done
  | existing {box q} : Answers (.create box) (createResponse (some q))
      (.refused "YOU CANT ADD A MSGBOX THAT ALREADY EXIST!")
  | removed {box q} : Answers (.remove box) (removeResponse (some q) true 0 0) .done
  | unknown {box} : Answers (.remove box) (removeResponse none false 0 0)
      (.refused "YOU CANT REMOVE A MSGBOX THAT DOESNT EXIST!")
  | busy {box q} : Answers (.remove box) (removeResponse (some q) false 0 0)
      (.refused "YOU CANT REMOVE A MSGBOX THAT HAS PUB")
  | listed {xs : List (ℕ × MessageBox)} : (xs.map fun x => x.2.name).Nodup →
      Answers .list (.list (if xs = [] then [⟨true, emptyName, none⟩] else packets xs))
        (.rows (ledger xs))

section Printing

variable {qsort : (ℕ → ℕ → ℤ) → List ℕ → List ℕ} {garbage : ℕ → UInt8} {c : Command}
  {reply : Reply} {o : Outcome} {xs : List (ℕ × MessageBox)}

lemma executeCommandReply_response (garbage : ℕ → UInt8) (id : PacketId) {errorCode : ℤ}
    {errorMessage : String} (hm : Worded errorMessage) (hcode : errorCode = 0 ∨ errorCode = -1) :
    executeCommandReply (fillResponse (stack garbage responseCreateMsgBoxPacket) id errorCode
      errorMessage) = .ok (if errorCode = 0 then ascii "OK\n"
        else ascii "ERROR " ++ ascii errorMessage ++ ascii "\n") := by
  apply executeCommandReply_fill (stack_length _ _) hm
  rcases hcode with rfl | rfl <;> decide

lemma getLast?_ledger (xs : List (ℕ × MessageBox)) :
    (ledger xs).getLast? = xs.getLast?.map fun x => row x.2 := List.getLast?_map

lemma listed_finish (hq : Sorts qsort) (hn : (xs.map fun x => x.2.name).Nodup) :
    (∃ text, Command.list.finish qsort (responseBytes garbage
        (.list (if xs = [] then [⟨true, emptyName, none⟩] else packets xs))) = .ok text ∧
      Prints .list (.rows (ledger xs)) (Command.list.heading ++ text)) ∨
      Command.list.finish qsort (responseBytes garbage
        (.list (if xs = [] then [⟨true, emptyName, none⟩] else packets xs))) =
        .error .capacityExceeded := by
  have hb : ((stack garbage listMsgBoxResponsePacket).set (offset listMsgBoxResponsePacket 0)
      PacketId.responseListMsgBox.code).length = 58 := by
    rw [List.length_set, stack_length]
    rfl
  simp only [responseBytes, Command.finish]
  generalize (stack garbage listMsgBoxResponsePacket).set (offset listMsgBoxResponsePacket 0)
    PacketId.responseListMsgBox.code = buf at hb
  by_cases hx : xs = []
  · subst hx
    rw [if_pos rfl, reply_none hb]
    refine .inl ⟨_, rfl, .noBoxes ?_⟩
    intro r hr
    cases hr
  · rw [if_neg hx]
    have hreply := listReply_cases hq hb hx hn
    rw [sent] at hreply
    rcases hreply with ⟨he, -⟩ | ⟨he, hl⟩ | ⟨ls, he, hl, hperm, hsorted⟩ <;> rw [he]
    · exact .inr rfl
    · refine .inl ⟨_, rfl, .noBoxes ?_⟩
      intro r hr
      by_contra hne
      refine hl (fun x hlast => ?_)
      rw [getLast?_ledger, hlast] at hr
      cases hr
      exact hne
    · have hlast := List.getLast?_eq_some_getLast hx
      refine .inl ⟨_, rfl, .lines ⟨row (xs.getLast hx).2, ?_, hl _ hlast⟩ ?_ hsorted⟩
      · rw [getLast?_ledger, hlast]
        rfl
      · rw [ledger, List.map_map]
        exact hperm

lemma Answers.finish (hq : Sorts qsort) (h : Answers c reply o) (garbage : ℕ → UInt8) :
    (∃ text, c.finish qsort (responseBytes garbage reply) = .ok text ∧
      Prints c o (c.heading ++ text)) ∨
      c.finish qsort (responseBytes garbage reply) = .error .capacityExceeded := by
  cases h with
  | created =>
    simp only [createResponse, responseBytes, Command.finish]
    rw [executeCommandReply_response garbage _ (by decide +kernel) (.inl rfl)]
    exact .inl ⟨_, rfl, .done⟩
  | existing =>
    simp only [createResponse, responseBytes, Command.finish]
    rw [executeCommandReply_response garbage _ (by decide +kernel) (.inr rfl)]
    exact .inl ⟨_, rfl, .refused⟩
  | removed =>
    simp only [removeResponse, if_true, responseBytes, responseRemoveMsgBoxPacket, Command.finish]
    rw [executeCommandReply_response garbage _ (by decide +kernel) (.inl rfl)]
    exact .inl ⟨_, rfl, .done⟩
  | unknown | busy =>
    simp only [removeResponse, responseBytes, responseRemoveMsgBoxPacket, Command.finish, ne_eq,
      not_true_eq_false, false_and, reduceCtorEq, Bool.false_eq_true, if_true, if_false]
    rw [executeCommandReply_response garbage _ (by decide +kernel) (.inr rfl)]
    exact .inl ⟨_, rfl, .refused⟩
  | listed hn => exact listed_finish hq hn

end Printing

section Simulation

variable {M C W : Type} [DecidableEq M] [DecidableEq W] {p : Parties M C}
  {qsort : (ℕ → ℕ → ℤ) → List ℕ → List ℕ}

abbrev Desk (M : Type) := Shared M (List Row) Command Outcome Change

inductive Queued (p : Parties M C) (calls : M → Call Command Outcome) : Request → Prop
  | registering {r} : registers r = true → (∀ m, pipeOf r ≠ p.pipeName m) → Queued p calls r
  | asked {m} : calls m = .called (p.command m) →
      Queued p calls ((p.command m).request (p.pipeName m))

def pendingReply : WorkerPhase → Option Reply
  | .createReply box => some (createResponse box)
  | .removeReply box removed pub sub => some (removeResponse box removed pub sub)
  | _ => none

lemma session_of_pending {phase : WorkerPhase} {reply : Reply}
    (h : pendingReply phase = some reply) : phase.session = none := by
  cases phase <;> first | rfl | cases h

inductive Stage (p : Parties M C) (calls : M → Call Command Outcome) :
    WorkerPhase → Option PipeName → Prop
  | idle : Stage p calls .idle none
  | registering {r} : registers r = true → (∀ m, pipeOf r ≠ p.pipeName m) →
      Stage p calls (.handling r) (some (pipeOf r))
  | asked {m} : calls m = .called (p.command m) →
      Stage p calls (.handling ((p.command m).request (p.pipeName m))) (some (p.pipeName m))
  | told {m phase reply o} : pendingReply phase = some reply → calls m = .answered (p.command m) o →
      Answers (p.command m) reply o → Stage p calls phase (some (p.pipeName m))
  | session {phase k pipe} : phase.session = some k → (∀ m, pipe ≠ p.pipeName m) →
      Stage p calls phase (some pipe)

def Told (p : Parties M C) (calls : M → Call Command Outcome) (m : M) (fifo : List UInt8) : Prop :=
  ∃ garbage reply o, fifo = responseBytes garbage reply ∧ Answers (p.command m) reply o ∧
    calls m = .answered (p.command m) o

structure Kept [Fintype W] (p : Parties M C) (s : Administration M W)
    (xs : List (ℕ × MessageBox)) (d : Desk M) : Prop where
  sound : Sound s.broker xs
  state : d.state = ledger xs
  queued : ∀ r ∈ s.register, Queued p d.calls r
  once : s.register.Pairwise fun r r' => ∀ m, pipeOf r = p.pipeName m → pipeOf r' ≠ p.pipeName m
  apart : ∀ r ∈ s.register, ∀ m w, pipeOf r = p.pipeName m →
    s.connections w ≠ some (p.pipeName m)
  single : ∀ w v m, s.connections w = some (p.pipeName m) →
    s.connections v = some (p.pipeName m) → w = v
  stages : ∀ w, Stage p d.calls (s.broker.workers w) (s.connections w)
  replied : ∀ m fifo, s.replied (p.pipeName m) = some fifo → Told p d.calls m fifo
  starting : ∀ m, s.managers m = .starting → d.calls m = .idle
  present : ∀ m, d.present m = true ↔ ∀ how out, s.managers m ≠ .ended how out
  trace : List.Forall₂ (Seen p) s.trace d.trace
  printed : ∀ m how out, s.managers m = .ended how out →
    (∀ why, how = .panicked why → why = .capacityExceeded) ∧
    (how = .returned → .answer m out ∈ s.trace ∨
      (s.broker.fault ≠ none ∧ out = (p.command m).heading))

variable {calls calls' : M → Call Command Outcome} {r : Request} {phase : WorkerPhase}
  {conn : Option PipeName} {m : M}

omit [DecidableEq M] in
@[simp] lemma pipeOf_request (p : Parties M C) (m : M) :
    pipeOf ((p.command m).request (p.pipeName m)) = p.pipeName m := by
  cases p.command m <;> rfl

omit [DecidableEq M] in
lemma Queued.congr (h : Queued p calls r)
    (hc : ∀ m, pipeOf r = p.pipeName m → calls' m = calls m) : Queued p calls' r := by
  cases h with
  | registering hr hp => exact .registering hr hp
  | asked hm => exact .asked ((hc _ (pipeOf_request p _)).trans hm)

omit [DecidableEq M] in
lemma Queued.calls_eq (h : Queued p calls r) (hr : pipeOf r = p.pipeName m) :
    calls m = .called (p.command m) := by
  cases h with
  | registering _ hp => exact absurd hr (hp m)
  | asked hm =>
    rw [pipeOf_request] at hr
    exact p.distinct hr ▸ hm

omit [DecidableEq M] in
lemma Stage.congr (h : Stage p calls phase conn)
    (hc : ∀ m, conn = some (p.pipeName m) → calls' m = calls m) : Stage p calls' phase conn := by
  cases h with
  | idle => exact .idle
  | registering hr hp => exact .registering hr hp
  | asked hm => exact .asked ((hc _ rfl).trans hm)
  | told hph hm ha => exact .told hph ((hc _ rfl).trans hm) ha
  | session hs hp => exact .session hs hp

omit [DecidableEq M] in
lemma Stage.calls_ne (h : Stage p calls phase (some (p.pipeName m))) : calls m ≠ .idle := by
  generalize hconn : some (p.pipeName m) = conn at h
  cases h with
  | idle => cases hconn
  | registering _ hp => exact absurd (Option.some.inj hconn).symm (hp m)
  | asked hm =>
    rw [p.distinct (Option.some.inj hconn), hm]
    simp
  | told _ hm =>
    rw [p.distinct (Option.some.inj hconn), hm]
    simp
  | session _ hp => exact absurd (Option.some.inj hconn).symm (hp m)

omit [DecidableEq M] in
lemma Told.congr {fifo : List UInt8} (h : Told p calls m fifo) (hc : calls' m = calls m) :
    Told p calls' m fifo := by
  obtain ⟨garbage, reply, o, hf, ha, hm⟩ := h
  exact ⟨garbage, reply, o, hf, ha, hc.trans hm⟩

section Steps

variable [Fintype W] {s t : Administration M W} {xs ys : List (ℕ × MessageBox)} {d d' : Desk M}
  {w : W}

omit [DecidableEq M] in
lemma Kept.work (h : Kept p s xs d) {b : Broker W} (conn : Option PipeName)
    (replied : PipeName → Option (List UInt8)) (hb : Sound b ys)
    (hothers : ∀ v, v ≠ w → b.workers v = s.broker.workers v)
    (hfault : s.broker.fault ≠ none → b.fault ≠ none) (hstate : d'.state = ledger ys)
    (hpresent : d'.present = d.present) {seen : List (Visible M Command (List UInt8) Change)}
    (htrace : List.Forall₂ (Seen p) (s.trace ++ seen) d'.trace)
    (hcalls : ∀ m, s.connections w ≠ some (p.pipeName m) → d'.calls m = d.calls m)
    (hconn : conn = s.connections w ∨ conn = none)
    (hstage : Stage p d'.calls (b.workers w) conn)
    (hreplied : ∀ m fifo, replied (p.pipeName m) = some fifo → Told p d'.calls m fifo) :
    Kept p { s with
      broker := b
      connections := Function.update s.connections w conn
      replied := replied
      trace := s.trace ++ seen } ys d' := by
  have hback : ∀ v m, Function.update s.connections w conn v = some (p.pipeName m) →
      s.connections v = some (p.pipeName m) := by
    intro v m hv
    by_cases he : v = w
    · subst he
      rw [Function.update_self] at hv
      rcases hconn with hc | hc
      · rw [← hc, hv]
      · rw [hc] at hv
        cases hv
    · rwa [Function.update_of_ne he] at hv
  refine ⟨hb, hstate, fun r hr => ?_, h.once, fun r hr m v hrm hv => ?_, fun v u m hv hu => ?_,
    fun v => ?_, hreplied, fun m hm => ?_, fun m => ?_, htrace, fun m how out hm => ?_⟩
  · exact (h.queued r hr).congr (fun m hrm => hcalls m (h.apart r hr m w hrm))
  · exact h.apart r hr m v hrm (hback v m hv)
  · exact h.single v u m (hback v m hv) (hback u m hu)
  · dsimp only
    by_cases he : v = w
    · subst he
      rw [Function.update_self]
      exact hstage
    · rw [Function.update_of_ne he, hothers v he]
      apply (h.stages v).congr
      intro m hm
      apply hcalls
      intro hw
      exact he (h.single v w m hm hw)
  · have hidle := h.starting m hm
    rw [hcalls m (fun hw => ?_), hidle]
    have hst := h.stages w
    rw [hw] at hst
    exact hst.calls_ne hidle
  · rw [hpresent]
    exact h.present m
  · obtain ⟨hpanic, hret⟩ := h.printed m how out hm
    refine ⟨hpanic, fun he => ?_⟩
    rcases hret he with ha | ⟨hf, ho⟩
    · exact .inl (List.mem_append_left _ ha)
    · exact .inr ⟨hfault hf, ho⟩

omit [DecidableEq M] [Fintype W] in
lemma after_settle (hf : s.broker.fault = none) (w : W) (garbage : ℕ → UInt8) (tab : Table)
    (phase : WorkerPhase) (reply : Option Reply) :
    s.after w garbage (settle s.broker w (.ok (tab, phase, reply))) = { s with
      broker := settle s.broker w (.ok (tab, phase, reply))
      connections := Function.update s.connections w
        (if phase = .idle then none else s.connections w)
      replied :=
        match reply, s.connections w with
        | some reply, some pipe =>
          Function.update s.replied pipe (some (responseBytes garbage reply))
        | _, _ => s.replied
      trace := s.trace ++
        (changeOf s.broker.table (s.broker.workers w) phase).toList.map .act } := by
  simp only [Administration.after, settle_ok, Function.update_self, List.drop_left, hf, if_true]
  congr 1
  · split_ifs
    · rfl
    · rw [Function.update_eq_self]
  · cases reply <;> cases s.connections w <;> rfl

section Settled

variable {tab : Table} {phase : WorkerPhase} {reply : Option Reply} {garbage : ℕ → UInt8}

omit [DecidableEq M] in
lemma Kept.settled (h : Kept p s xs d) (hf : s.broker.fault = none)
    (hb : Sound (settle s.broker w (.ok (tab, phase, reply))) ys) (hstate : d'.state = ledger ys)
    (hpresent : d'.present = d.present)
    (htrace : d'.trace =
      d.trace ++ (changeOf s.broker.table (s.broker.workers w) phase).toList.map .act)
    (hcalls : ∀ m, s.connections w ≠ some (p.pipeName m) → d'.calls m = d.calls m)
    (hstage : Stage p d'.calls phase (if phase = .idle then none else s.connections w))
    (hreplied : ∀ m fifo, (s.after w garbage
      (settle s.broker w (.ok (tab, phase, reply)))).replied (p.pipeName m) = some fifo →
        Told p d'.calls m fifo) :
    Kept p (s.after w garbage (settle s.broker w (.ok (tab, phase, reply)))) ys d' := by
  rw [after_settle hf] at hreplied ⊢
  refine h.work _ _ hb (fun v hv => ?_) (absurd hf) hstate hpresent ?_ hcalls ?_ ?_ hreplied
  · rw [settle_ok]
    exact Function.update_of_ne hv _ _
  · rw [htrace]
    refine List.rel_append h.trace ?_
    cases changeOf s.broker.table (s.broker.workers w) phase with
    | none => exact .nil
    | some c => exact .cons .act .nil
  · split_ifs
    · exact .inr rfl
    · exact .inl rfl
  · rw [settle_ok]
    dsimp only
    rw [Function.update_self]
    exact hstage

omit [DecidableEq M] in
lemma Kept.session (h : Kept p s xs d) (hf : s.broker.fault = none)
    (hb : Sound (settle s.broker w (.ok (tab, phase, none))) ys) (hstate : d'.state = ledger ys)
    (hpresent : d'.present = d.present)
    (htrace : d'.trace =
      d.trace ++ (changeOf s.broker.table (s.broker.workers w) phase).toList.map .act)
    (hcalls : d'.calls = d.calls)
    (hstage : Stage p d.calls phase (if phase = .idle then none else s.connections w)) :
    Kept p (s.after w garbage (settle s.broker w (.ok (tab, phase, none)))) ys d' := by
  refine h.settled hf hb hstate hpresent htrace (fun m _ => by rw [hcalls]) (hcalls ▸ hstage) ?_
  intro m fifo hm
  rw [after_settle hf] at hm
  rw [hcalls]
  exact h.replied m fifo hm

lemma Kept.answered (garbage : ℕ → UInt8) (h : Kept p s xs d) (hf : s.broker.fault = none)
    (hch : changeOf s.broker.table (s.broker.workers w) phase = none)
    (hconn : s.connections w = some (p.pipeName m)) (hm : d.calls m = .called (p.command m))
    (hb : Sound (settle s.broker w (.ok (tab, phase, reply))) ys) {o : Outcome}
    (hp : perform (ledger xs) (p.command m) = (ledger ys, o))
    (hreply : ∃ r, Answers (p.command m) r o ∧
      (reply = none ∧ pendingReply phase = some r ∨ reply = some r ∧ phase = .idle)) :
    ∃ d', (shared M boxLedger).step d (.perform m) = some d' ∧
      Kept p (s.after w garbage (settle s.broker w (.ok (tab, phase, reply)))) ys d' := by
  refine ⟨{ d with
    state := ledger ys
    calls := Function.update d.calls m (.answered (p.command m) o)
    order := d.order ++ [.call m (p.command m) o] }, ?_, ?_⟩
  · simp only [shared, sharedStep, boxLedger, hm, h.state, hp, Option.map_some]
  obtain ⟨r, ha, hr⟩ := hreply
  have hself :
      Function.update d.calls m (.answered (p.command m) o) m = .answered (p.command m) o :=
    Function.update_self _ _ _
  have hother : ∀ m', m' ≠ m →
      Function.update d.calls m (.answered (p.command m) o) m' = d.calls m' :=
    fun m' hne => Function.update_of_ne hne _ _
  refine h.settled hf hb rfl rfl (by simp [hch]) (fun m' hm' => hother m' ?_) ?_
    (fun m' fifo hfifo => ?_)
  · rintro rfl
    exact hm' hconn
  · rcases hr with ⟨-, hph⟩ | ⟨-, rfl⟩
    · have hne : phase ≠ .idle := by
        rintro rfl
        cases hph
      rw [if_neg hne, hconn]
      exact .told hph hself ha
    · rw [if_pos rfl]
      exact .idle
  · rw [after_settle hf, hconn] at hfifo
    by_cases he : m' = m
    · subst he
      rcases hr with ⟨rfl, -⟩ | ⟨rfl, -⟩
      · obtain ⟨_, _, _, _, _, hold⟩ := h.replied m' fifo hfifo
        rw [hm] at hold
        cases hold
      · dsimp only at hfifo
        rw [Function.update_self] at hfifo
        exact ⟨garbage, r, o, (Option.some.inj hfifo).symm, ha, hself⟩
    · refine (h.replied m' fifo ?_).congr (hother m' he)
      rcases hr with ⟨rfl, -⟩ | ⟨rfl, -⟩
      · exact hfifo
      · dsimp only at hfifo
        rwa [Function.update_of_ne (fun hp => he (p.distinct hp))] at hfifo

omit [DecidableEq M] in
lemma Kept.replying (h : Kept p s xs d) (hf : s.broker.fault = none) {r : Reply}
    (hph : pendingReply (s.broker.workers w) = some r)
    (hb : Sound (settle s.broker w (.ok (tab, .idle, some r))) xs) :
    Kept p (s.after w garbage (settle s.broker w (.ok (tab, .idle, some r)))) xs d := by
  have hch : changeOf s.broker.table (s.broker.workers w) .idle = none := by
    cases hw : s.broker.workers w <;> rw [hw] at hph <;> first | rfl | cases hph
  refine h.settled hf hb h.state rfl (by simp [hch]) (fun _ _ => rfl)
    (by rw [if_pos rfl]; exact .idle) ?_
  intro m fifo hfifo
  rw [after_settle hf] at hfifo
  have hst := h.stages w
  generalize hw : s.broker.workers w = phase at hst hph
  generalize hc : s.connections w = conn at hst hfifo
  cases hst with
  | @told m' phase' reply o hph' hm' ha =>
    rw [hph] at hph'
    cases hph'
    dsimp only at hfifo
    by_cases he : m = m'
    · subst he
      rw [Function.update_self] at hfifo
      exact ⟨garbage, r, o, (Option.some.inj hfifo).symm, ha, hm'⟩
    · rw [Function.update_of_ne (fun hp => he (p.distinct hp))] at hfifo
      exact h.replied m fifo hfifo
  | idle | registering | asked => cases hph
  | session hs =>
    rw [session_of_pending hph] at hs
    cases hs

end Settled

section Broker

variable {garbage : ℕ → UInt8} {request : Request} {env : Env}
  {res : Except Fault (Table × WorkerPhase × Option Reply)}

omit [DecidableEq M] [Fintype W] [DecidableEq W] in
lemma Stage.handling_cases {calls : M → Call Command Outcome} {conn : Option PipeName}
    (h : Stage p calls (.handling request) conn) : conn = some (pipeOf request) ∧
      ((registers request = true ∧ ∀ m, pipeOf request ≠ p.pipeName m) ∨
        ∃ m, request = (p.command m).request (p.pipeName m) ∧ calls m = .called (p.command m)) := by
  cases h with
  | registering hr hp => exact ⟨rfl, .inl ⟨hr, hp⟩⟩
  | asked hm => exact ⟨by rw [pipeOf_request], .inr ⟨_, rfl, hm⟩⟩
  | told hph => cases hph
  | session hs => cases hs

omit [DecidableEq M] [Fintype W] [DecidableEq W] in
lemma Stage.manager {calls : M → Call Command Outcome} {conn : Option PipeName}
    (h : Stage p calls (.handling request) conn) (hr : registers request = false) :
    ∃ m, request = (p.command m).request (p.pipeName m) ∧ conn = some (p.pipeName m) ∧
      calls m = .called (p.command m) := by
  obtain ⟨hconn, ⟨hreg, -⟩ | ⟨m, rfl, hm⟩⟩ := h.handling_cases
  · rw [hr] at hreg
    cases hreg
  · exact ⟨m, rfl, by rw [hconn, pipeOf_request], hm⟩

omit [DecidableEq M] [Fintype W] [DecidableEq W] in
lemma Stage.apart {calls : M → Call Command Outcome} {conn : Option PipeName}
    (h : Stage p calls (.handling request) conn) (hr : registers request = true) :
    conn = some (pipeOf request) ∧ ∀ m, pipeOf request ≠ p.pipeName m := by
  obtain ⟨hconn, ⟨-, hp⟩ | ⟨m, rfl, -⟩⟩ := h.handling_cases
  · exact ⟨hconn, hp⟩
  · cases hc : p.command m <;> rw [hc] at hr <;> cases hr

omit [DecidableEq W] in
lemma Kept.acts (h : Kept p s xs d) {c : Change} (hc : alter (ledger xs) c = some (ledger ys)) :
    ∃ d', (shared M boxLedger).run d [.act c] = some d' ∧ d'.state = ledger ys ∧
      d'.present = d.present ∧ d'.trace = d.trace ++ [.act c] ∧ d'.calls = d.calls := by
  refine ⟨{ d with
    state := ledger ys
    order := d.order ++ [.act c]
    trace := d.trace ++ [.act c] }, ?_, rfl, rfl, rfl, rfl⟩
  simp [shared, sharedStep, boxLedger, h.state, hc]

lemma Kept.registered (h : Kept p s xs d) (hf : s.broker.fault = none)
    (hw : s.broker.workers w = .handling request) (hr : registers request = true) {tab : Table}
    {phase : WorkerPhase} (hphase : phase = .idle ∨ ∃ k, phase.session = some k)
    (hb : Sound (settle s.broker w (.ok (tab, phase, none))) ys)
    (hop : ys = xs ∧ changeOf s.broker.table (.handling request) phase = none ∨
      ∃ c, changeOf s.broker.table (.handling request) phase = some c ∧
        alter (ledger xs) c = some (ledger ys)) :
    ∃ evs d', (shared M boxLedger).run d evs = some d' ∧
      Kept p (s.after w garbage (settle s.broker w (.ok (tab, phase, none)))) ys d' := by
  have hst := h.stages w
  rw [hw] at hst
  obtain ⟨hconn, hp⟩ := hst.apart hr
  have hstage : Stage p d.calls phase (if phase = .idle then none else s.connections w) := by
    rcases hphase with rfl | ⟨k, hk⟩
    · rw [if_pos rfl]
      exact .idle
    · have hne : phase ≠ .idle := by
        rintro rfl
        cases hk
      rw [if_neg hne, hconn]
      exact .session hk hp
  rcases hop with ⟨rfl, hch⟩ | ⟨c, hch, hop⟩
  · exact ⟨[], d, rfl, h.session hf hb h.state rfl (by simp [hw, hch]) rfl hstage⟩
  · obtain ⟨d', hd, hstate, hpresent, htrace, hcalls⟩ := h.acts hop
    exact ⟨_, d', hd, h.session hf hb hstate hpresent (by simp [hw, hch, htrace]) hcalls hstage⟩

lemma Kept.performed (h : Kept p s xs d) (hf : s.broker.fault = none)
    (hw : s.broker.workers w = .handling request) (hr : registers request = false) {tab : Table}
    {phase : WorkerPhase} {reply : Option Reply}
    (hb : Sound (settle s.broker w (.ok (tab, phase, reply))) ys)
    (hp : ∀ c pipe, request = c.request pipe → ∃ o r,
      perform (ledger xs) c = (ledger ys, o) ∧ Answers c r o ∧
        (reply = none ∧ pendingReply phase = some r ∨ reply = some r ∧ phase = .idle)) :
    ∃ evs d', (shared M boxLedger).run d evs = some d' ∧
      Kept p (s.after w garbage (settle s.broker w (.ok (tab, phase, reply)))) ys d' := by
  have hst := h.stages w
  rw [hw] at hst
  obtain ⟨m, hreq, hconn, hm⟩ := hst.manager hr
  obtain ⟨o, r, hperform, ha, hreply⟩ := hp _ _ hreq
  have hch : changeOf s.broker.table (s.broker.workers w) phase = none := by
    rw [hw]
    cases request <;> first | rfl | cases hr
  obtain ⟨d', hd, hk⟩ := h.answered garbage hf hch hconn hm hb hperform ⟨r, ha, hreply⟩
  exact ⟨[.perform m], d', by simp [hd], hk⟩

lemma Kept.block (h : Kept p s xs d) (hf : s.broker.fault = none)
    (hw : s.broker.workers w = .handling request)
    (hh : Handled s.broker.table env xs request res ys) (hb : Sound (settle s.broker w res) ys) :
    ∃ evs d', (shared M boxLedger).run d evs = some d' ∧
      Kept p (s.after w garbage (settle s.broker w res)) ys d' := by
  have hn := h.sound.shelved.names
  cases hh with
  | @publish pipe name q b t' hmem hname hpub hl hc =>
    refine h.registered hf hw rfl (.inr ⟨_, rfl⟩) hb (.inr ⟨.admitPublisher b.name, ?_, ?_⟩)
    · rw [hname]
      rfl
    exact adjustRow_listed h.sound.shelved hmem (decide_eq_true hpub) (fun _ => rfl)
  | publishRefused | subscribeRefused =>
    exact h.registered hf hw rfl (.inl rfl) hb (.inl ⟨rfl, rfl⟩)
  | @subscribe pipe name q b t' hmem hname hfd hl hc =>
    refine h.registered hf hw rfl (.inr ⟨_, rfl⟩) hb (.inr ⟨.admitSubscriber b.name, ?_, ?_⟩)
    · rw [hname]
      rfl
    exact adjustRow_listed h.sound.shelved hmem rfl (fun _ => rfl)
  | @create pipe name q t' habs hmalloc hfree hl hc =>
    refine h.performed hf hw rfl hb (fun c pipe' hreq => ?_)
    cases c <;> cases hreq
    refine ⟨.done, createResponse none, ?_, .created, .inl ⟨rfl, rfl⟩⟩
    simp only [perform, rowOf_absent habs]
    rw [ledger, ledger, List.map_append]
    rfl
  | createFailed =>
    have hidle : (settle s.broker w (.error .noMemory)).workers w ≠ .idle := by
      rw [show (settle s.broker w (.error .noMemory)).workers w = .handling _ from hw]
      simp
    have htrace : List.Forall₂ (Seen p) (s.trace ++ []) d.trace := by
      rw [List.append_nil]
      exact h.trace
    have hwork := h.work (w := w) (s.connections w) s.replied hb (fun _ _ => rfl) (absurd hf)
      h.state rfl htrace (fun _ _ => rfl) (.inl rfl) (h.stages w) h.replied
    rw [Function.update_eq_self, List.append_nil] at hwork
    refine ⟨[], d, rfl, ?_⟩
    simp only [Administration.after, if_neg hidle]
    simpa [settle] using hwork
  | @createRefused pipe name q b hmem hname =>
    refine h.performed hf hw rfl hb (fun c pipe' hreq => ?_)
    cases c <;> cases hreq
    refine ⟨_, createResponse (some q), ?_, .existing, .inl ⟨rfl, rfl⟩⟩
    simp only [perform, ← hname, rowOf_listed hn hmem]
  | @remove pipe name q b as bs t' hx hname hpub hsub hl hc =>
    subst hx
    have hmem : (q, b) ∈ as ++ (q, b) :: bs := by simp
    refine h.performed hf hw rfl hb (fun c pipe' hreq => ?_)
    cases c <;> cases hreq
    refine ⟨.done, removeResponse (some q) true 0 0, ?_, .removed, .inl ⟨rfl, rfl⟩⟩
    have hzero : (row b).publishers = 0 ∧ (row b).subscribers = 0 := ⟨hpub, hsub⟩
    simp only [perform, ← hname, rowOf_listed hn hmem, hzero, and_self, if_true, filter_removed hn]
  | @removeBusy pipe name q b hmem hname hbusy =>
    refine h.performed hf hw rfl hb (fun c pipe' hreq => ?_)
    cases c <;> cases hreq
    refine ⟨_, removeResponse (some q) false 0 0, ?_, .busy, .inl ⟨rfl, rfl⟩⟩
    have hnz : ¬ ((row b).publishers = 0 ∧ (row b).subscribers = 0) := hbusy
    simp only [perform, ← hname, rowOf_listed hn hmem, if_neg hnz]
  | @removeAbsent pipe name habs =>
    refine h.performed hf hw rfl hb (fun c pipe' hreq => ?_)
    cases c <;> cases hreq
    refine ⟨_, removeResponse none false 0 0, ?_, .unknown, .inl ⟨rfl, rfl⟩⟩
    simp only [perform, rowOf_absent habs]
  | list =>
    refine h.performed hf hw rfl hb (fun c pipe' hreq => ?_)
    cases c <;> cases hreq
    exact ⟨_, _, rfl, .listed hn, .inr ⟨rfl, rfl⟩⟩

lemma Kept.moves (h : Kept p s xs d) {ev : BrokerEvent W} {b : Broker W}
    (hs : brokerStep s.broker ev = some b)
    (hev : (∃ env, ev = .block w env) ∨ ev = .update w ∨ ev = .leave w ∨ ev = .reply w) :
    ∃ ys evs d', (shared M boxLedger).run d evs = some d' ∧ Kept p (s.after w garbage b) ys d' := by
  have hf := brokerStep_running hs
  obtain ⟨ys, hmv⟩ := brokerStep_moves h.sound hs
  have hb := moves_sound h.sound hmv
  refine ⟨ys, ?_⟩
  have hrow : ∀ {q k}, (s.broker.workers w).session = some (q, k) → ∃ c, (q, c) ∈ xs := by
    intro q k hk
    obtain ⟨c, hc, -⟩ := h.sound.booked.sessions w q k hk
    exact ⟨c, hc⟩
  -- the box of the session, and its row changed in place
  have hadjust : ∀ {tab phase q k f} (change : BoxName → Change),
      (s.broker.workers w).session = some (q, k) → ys = adjust q f xs →
      (changeOf s.broker.table (s.broker.workers w) phase =
        (nameAt s.broker.table q).map change) →
      (∀ c, (q, c) ∈ xs → alter (ledger xs) (change c.name) = some (ledger (adjust q f xs))) →
      (phase = .idle ∨ phase = s.broker.workers w) →
      b = settle s.broker w (.ok (tab, phase, none)) →
      ∃ evs d', (shared M boxLedger).run d evs = some d' ∧
        Kept p (s.after w garbage b) ys d' := by
    rintro tab phase q k f change hk rfl hch halter hphase rfl
    obtain ⟨c, hc⟩ := hrow hk
    rw [nameAt_listed h.sound.shelved.lists hc, Option.map_some] at hch
    obtain ⟨d', hd, hstate, hpresent, htrace, hcalls⟩ := h.acts (halter c hc)
    refine ⟨_, d', hd, h.session hf hb hstate hpresent (by rw [hch, htrace]; rfl) hcalls ?_⟩
    rcases hphase with rfl | rfl
    · rw [if_pos rfl]
      exact .idle
    · have hne : s.broker.workers w ≠ .idle := by
        intro hi
        rw [hi] at hk
        cases hk
      rw [if_neg hne]
      exact h.stages w
  cases hmv with
  | accept | refuse => simp at hev
  | block hw hh =>
    obtain rfl : _ = w := by simpa using hev
    exact h.block hf hw hh hb
  | @update w' q k fd t' hw hl hc =>
    obtain rfl : w' = w := by simpa using hev
    have hk : (s.broker.workers w').session = some (q, k) := by rw [hw]; rfl
    exact hadjust .store hk rfl (by rw [hw]; rfl)
      (fun c hc => adjustRow_listed h.sound.shelved hc rfl (fun _ => rfl)) (.inr hw.symm) rfl
  | @unpublish w' q k fd t' hw hl hc =>
    obtain rfl : w' = w := by simpa using hev
    have hk : (s.broker.workers w').session = some (q, k) := by rw [hw]; rfl
    refine hadjust .dropPublisher hk rfl (by rw [hw]; rfl) (fun c hc => ?_) (.inl rfl) rfl
    have hpos : 0 < c.publishers := by
      rw [(h.sound.booked.publishers q c hc).1]
      exact tally_pos.mpr ⟨w', by rw [hw]; exact beq_self_eq_true _⟩
    exact adjustRow_listed h.sound.shelved hc (decide_eq_true hpos) (fun _ => rfl)
  | @unsubscribe w' q k t' hw hl hc =>
    obtain rfl : w' = w := by simpa using hev
    have hk : (s.broker.workers w').session = some (q, k) := by rw [hw]; rfl
    refine hadjust .dropSubscriber hk rfl (by rw [hw]; rfl) (fun c hc => ?_) (.inl rfl) rfl
    have hpos : 0 < c.subscribers := by
      rw [h.sound.booked.subscribers q c hc]
      exact tally_pos.mpr ⟨w', by rw [hw]; exact beq_self_eq_true _⟩
    exact adjustRow_listed h.sound.shelved hc (decide_eq_true hpos) (fun _ => rfl)
  | @createReply w' box hw =>
    obtain rfl : w' = w := by simpa using hev
    exact ⟨[], d, rfl, h.replying hf (by rw [hw]; rfl) hb⟩
  | @removeReply w' box removed pub sub hw =>
    obtain rfl : w' = w := by simpa using hev
    exact ⟨[], d, rfl, h.replying hf (by rw [hw]; rfl) hb⟩

end Broker

section Managers

variable {m : M}

omit [DecidableEq W] in
lemma Kept.run (h : Kept p s xs d) (hm : s.managers m = .starting) :
    ∃ d', (shared M boxLedger).step d (.call m (p.command m)) = some d' ∧ Kept p { s with
      register := s.register ++ [(p.command m).request (p.pipeName m)]
      managers := Function.update s.managers m .waiting
      trace := s.trace ++ [.call m (p.command m)] } xs d' := by
  have hidle := h.starting m hm
  have hpresent : d.present m = true := by
    rw [h.present]
    intro how out
    rw [hm]
    simp
  refine ⟨{ d with
    calls := Function.update d.calls m (.called (p.command m))
    trace := d.trace ++ [.call m (p.command m)] }, ?_, ?_⟩
  · simp only [shared, sharedStep, hidle, hpresent]
  have hother : ∀ m', m' ≠ m → Function.update d.calls m (.called (p.command m)) m' = d.calls m' :=
    fun m' hne => Function.update_of_ne hne _ _
  have hconn : ∀ w, s.connections w ≠ some (p.pipeName m) := by
    intro w hw
    have hst := h.stages w
    rw [hw] at hst
    exact hst.calls_ne hidle
  have hqueue : ∀ r ∈ s.register, pipeOf r ≠ p.pipeName m := by
    intro r hr he
    have hcall := (h.queued r hr).calls_eq he
    rw [hidle] at hcall
    cases hcall
  refine ⟨h.sound, h.state, fun r hr => ?_, ?_, fun r hr m' w hrm => ?_, h.single, fun w => ?_,
    fun m' fifo hfifo => ?_, fun m' hm' => ?_, fun m' => ?_, ?_, fun m' how out hm' => ?_⟩
  · rcases List.mem_append.mp hr with hold | hr
    · refine (h.queued r hold).congr (fun m' hrm => hother m' ?_)
      rintro rfl
      exact hqueue r hold hrm
    · cases List.mem_singleton.mp hr
      exact .asked (Function.update_self _ _ _)
  · refine List.pairwise_append.mpr ⟨h.once, List.pairwise_singleton _ _, ?_⟩
    intro r hr r' hr' m' hrm hrm'
    cases List.mem_singleton.mp hr'
    rw [pipeOf_request] at hrm'
    exact hqueue r hr (hrm.trans hrm'.symm)
  · rcases List.mem_append.mp hr with hr | hr
    · exact h.apart r hr m' w hrm
    · cases List.mem_singleton.mp hr
      rw [pipeOf_request] at hrm
      exact hrm ▸ hconn w
  · refine (h.stages w).congr (fun m' hw => hother m' ?_)
    rintro rfl
    exact hconn w hw
  · refine (h.replied m' fifo hfifo).congr (hother m' ?_)
    rintro rfl
    obtain ⟨_, _, _, _, _, hold⟩ := h.replied m' fifo hfifo
    rw [hidle] at hold
    cases hold
  · dsimp only at hm' ⊢
    have hne : m' ≠ m := by
      rintro rfl
      rw [Function.update_self] at hm'
      cases hm'
    rw [Function.update_of_ne hne] at hm'
    exact (hother m' hne).trans (h.starting m' hm')
  · dsimp only
    rw [h.present]
    by_cases he : m' = m
    · subst he
      rw [Function.update_self, hm]
      simp
    · rw [Function.update_of_ne he]
  · exact List.rel_append h.trace (.cons .call .nil)
  · dsimp only at hm' ⊢
    have hne : m' ≠ m := by
      rintro rfl
      rw [Function.update_self] at hm'
      cases hm'
    rw [Function.update_of_ne hne] at hm'
    obtain ⟨hpanic, hret⟩ := h.printed m' how out hm'
    refine ⟨hpanic, fun he => ?_⟩
    rcases hret he with ha | hd
    · exact .inl (List.mem_append_left _ ha)
    · exact .inr hd

omit [DecidableEq W] in
lemma Kept.exit (h : Kept p s xs d) (hm : s.managers m = .waiting) {how : Ending}
    {out : List UInt8} {seen : Visible M Command (List UInt8) Change}
    {sight : Visible M Command Outcome Change}
    (hseen : Seen p seen sight) (hpanic : ∀ why, how = .panicked why → why = .capacityExceeded)
    (hret : how = .returned → seen = .answer m out ∨
      (s.broker.fault ≠ none ∧ out = (p.command m).heading)) :
    Kept p (s.exit m how out seen) xs { d with
      present := Function.update d.present m false
      trace := d.trace ++ [sight] } := by
  refine ⟨h.sound, h.state, h.queued, h.once, h.apart, h.single, h.stages, h.replied,
    fun m' hm' => ?_, fun m' => ?_, List.rel_append h.trace (.cons hseen .nil),
    fun m' how' out' hm' => ?_⟩
  · have hne : m' ≠ m := by
      rintro rfl
      simp [Administration.exit] at hm'
    simp only [Administration.exit, Function.update_of_ne hne] at hm'
    exact h.starting m' hm'
  · simp only [Administration.exit]
    by_cases he : m' = m
    · subst he
      simp
    · rw [Function.update_of_ne he, Function.update_of_ne he]
      exact h.present m'
  · simp only [Administration.exit] at hm' ⊢
    by_cases he : m' = m
    · subst he
      rw [Function.update_self] at hm'
      cases hm'
      refine ⟨hpanic, fun hr => ?_⟩
      rcases hret hr with rfl | hd
      · exact .inl (by simp)
      · exact .inr hd
    · rw [Function.update_of_ne he] at hm'
      obtain ⟨hp, hr⟩ := h.printed m' how' out' hm'
      refine ⟨hp, fun hh => ?_⟩
      rcases hr hh with ha | hd
      · exact .inl (List.mem_append_left _ ha)
      · exact .inr hd

omit [DecidableEq W] in
lemma Kept.leave (h : Kept p s xs d) (hm : s.managers m = .waiting) (how : Ending)
    (out : List UInt8) (hpanic : ∀ why, how = .panicked why → why = .capacityExceeded)
    (hret : how = .returned → s.broker.fault ≠ none ∧ out = (p.command m).heading) :
    ∃ d', (shared M boxLedger).run d [.leave m] = some d' ∧
      Kept p (s.exit m how out (.leave m)) xs d' := by
  have hpresent : d.present m = true := by
    rw [h.present]
    intro how out
    rw [hm]
    simp
  refine ⟨_, ?_, h.exit hm .leave hpanic (fun hr => .inr (hret hr))⟩
  simp [shared, sharedStep, hpresent]

omit [DecidableEq W] in
lemma Kept.read (hq : Sorts qsort) (h : Kept p s xs d) (hm : s.managers m = .waiting)
    {fifo : List UInt8} (hfifo : s.replied (p.pipeName m) = some fifo)
    (hs : (match (p.command m).finish qsort fifo with
      | .ok text =>
        let stdout := (p.command m).heading ++ text
        some (s.exit m .returned stdout (.answer m stdout))
      | .error why => some (s.exit m (.panicked why) (p.command m).heading (.leave m))) = some t) :
    ∃ evs d', (shared M boxLedger).run d evs = some d' ∧ Kept p t xs d' := by
  obtain ⟨garbage, reply, o, rfl, ha, hcall⟩ := h.replied m fifo hfifo
  have hpresent : d.present m = true := by
    rw [h.present]
    intro how out
    rw [hm]
    simp
  rcases ha.finish hq garbage with ⟨text, hf, hp⟩ | hf
  · rw [hf] at hs
    cases hs
    refine ⟨[.answer m], _, ?_, h.exit hm (.answer hp) (by simp) (fun _ => .inl rfl)⟩
    simp [shared, sharedStep, hcall, hpresent]
  · rw [hf] at hs
    cases hs
    obtain ⟨d', hd, hk⟩ := h.leave hm (.panicked .capacityExceeded)
      (p.command m).heading (by simp) (by simp)
    exact ⟨_, d', hd, hk⟩

omit [DecidableEq M] [DecidableEq W] in
lemma Kept.register (h : Kept p s xs d) (c : C) :
    Kept p { s with register := s.register ++ [p.others c] } xs d := by
  refine ⟨h.sound, h.state, fun r hr => ?_, ?_, fun r hr m w hrm => ?_, h.single, h.stages,
    h.replied, h.starting, h.present, h.trace, h.printed⟩
  · rcases List.mem_append.mp hr with hr | hr
    · exact h.queued r hr
    · cases List.mem_singleton.mp hr
      exact .registering (p.registering c) (p.apart c)
  · refine List.pairwise_append.mpr ⟨h.once, List.pairwise_singleton _ _, ?_⟩
    intro r hr r' hr' m hrm
    cases List.mem_singleton.mp hr'
    exact p.apart c m
  · rcases List.mem_append.mp hr with hr | hr
    · exact h.apart r hr m w hrm
    · cases List.mem_singleton.mp hr
      exact absurd hrm (p.apart c m)

omit [DecidableEq M] in
lemma Kept.accept (h : Kept p s xs d) {request : Request} {register : List Request}
    {connected : Bool} {b : Broker W} (hr : s.register = request :: register)
    (hs : brokerStep s.broker (.accept w request connected) = some b) :
    Kept p { s with
      broker := b
      register := register
      connections :=
        if connected then Function.update s.connections w (some (pipeOf request))
        else s.connections } xs d := by
  have hmem : ∀ r ∈ register, r ∈ s.register := by
    intro r hmem
    rw [hr]
    exact List.mem_cons_of_mem _ hmem
  have hhead : Queued p d.calls request := h.queued request (by rw [hr]; exact List.mem_cons_self)
  have honce := h.once
  rw [hr, List.pairwise_cons] at honce
  obtain ⟨ys, hmv⟩ := brokerStep_moves h.sound hs
  have hb := moves_sound h.sound hmv
  cases hmv with
  | refuse hw =>
    exact ⟨h.sound, h.state, fun r hm => h.queued r (hmem r hm), honce.2,
      fun r hm => h.apart r (hmem r hm), h.single, h.stages, h.replied, h.starting, h.present,
      h.trace, h.printed⟩
  | accept hw =>
    have hback : ∀ v m, Function.update s.connections w (some (pipeOf request)) v =
        some (p.pipeName m) → (v = w ∧ pipeOf request = p.pipeName m) ∨
          (v ≠ w ∧ s.connections v = some (p.pipeName m)) := by
      intro v m hv
      by_cases he : v = w
      · subst he
        rw [Function.update_self] at hv
        exact .inl ⟨rfl, Option.some.inj hv⟩
      · rw [Function.update_of_ne he] at hv
        exact .inr ⟨he, hv⟩
    have hfree : ∀ m v, pipeOf request = p.pipeName m → s.connections v ≠ some (p.pipeName m) :=
      fun m v => h.apart request (by rw [hr]; exact List.mem_cons_self) m v
    refine ⟨hb, h.state, fun r hm => h.queued r (hmem r hm), honce.2, fun r hm m v hrm hv => ?_,
      fun v u m hv hu => ?_, fun v => ?_, h.replied, h.starting, h.present, h.trace, h.printed⟩
    · rcases hback v m hv with ⟨-, hq⟩ | ⟨-, hv⟩
      · exact honce.1 r hm m hq hrm
      · exact h.apart r (hmem r hm) m v hrm hv
    · rcases hback v m hv with ⟨rfl, hq⟩ | ⟨hne, hv⟩
      · rcases hback u m hu with ⟨rfl, -⟩ | ⟨-, hu⟩
        · rfl
        · exact absurd hu (hfree m u hq)
      · rcases hback u m hu with ⟨-, hq⟩ | ⟨-, hu⟩
        · exact absurd hv (hfree m v hq)
        · exact h.single v u m hv hu
    · rw [settle_ok]
      dsimp only
      rw [if_pos rfl]
      by_cases he : v = w
      · subst he
        rw [Function.update_self, Function.update_self]
        cases hhead with
        | registering hreg hp => exact .registering hreg hp
        | asked hm =>
          rw [pipeOf_request]
          exact .asked hm
      · rw [Function.update_of_ne he, Function.update_of_ne he]
        exact h.stages v

lemma kept_init : Kept p (administration p qsort W).init [] (shared M boxLedger).init := by
  refine ⟨sound_init, rfl, by simp [administration], .nil, by simp [administration],
    by simp [administration], fun _ => .idle, by simp [administration], fun _ _ => rfl, ?_, .nil,
    by simp [administration]⟩
  intro m
  simp [administration, shared]

lemma kept_step (hq : Sorts qsort) (h : Kept p s xs d) {ev : AdminEvent M C W}
    (hs : adminStep p qsort s ev = some t) :
    ∃ ys evs d', (shared M boxLedger).run d evs = some d' ∧ Kept p t ys d' := by
  cases ev with
  | run m =>
    simp only [adminStep] at hs
    cases hm : s.managers m with
    | starting =>
      rw [hm] at hs
      cases hs
      obtain ⟨d', hd, hk⟩ := h.run hm
      exact ⟨xs, [.call m (p.command m)], d', by simp [hd], hk⟩
    | waiting | ended => simp [hm] at hs
  | register c =>
    cases hs
    exact ⟨xs, [], d, rfl, h.register c⟩
  | accept w connected =>
    simp only [adminStep] at hs
    split at hs
    · rename_i request register hr
      obtain ⟨b, hb, rfl⟩ := Option.map_eq_some_iff.mp hs
      exact ⟨xs, [], d, rfl, h.accept hr hb⟩
    · cases hs
  | block w env garbage =>
    obtain ⟨b, hb, rfl⟩ := Option.map_eq_some_iff.mp hs
    exact h.moves hb (.inl ⟨env, rfl⟩)
  | update w =>
    obtain ⟨b, hb, rfl⟩ := Option.map_eq_some_iff.mp hs
    exact h.moves hb (.inr (.inl rfl))
  | leave w =>
    obtain ⟨b, hb, rfl⟩ := Option.map_eq_some_iff.mp hs
    exact h.moves hb (.inr (.inr (.inl rfl)))
  | reply w garbage =>
    obtain ⟨b, hb, rfl⟩ := Option.map_eq_some_iff.mp hs
    exact h.moves hb (.inr (.inr (.inr rfl)))
  | read m =>
    simp only [adminStep] at hs
    split at hs
    · rename_i fifo hm hfifo
      exact ⟨xs, h.read hq hm hfifo hs⟩
    · cases hs
  | hangUp m =>
    simp only [adminStep] at hs
    split at hs
    · rename_i hm
      split_ifs at hs with hgone
      have hend : (p.command m).finish qsort [] = .ok [] := by cases p.command m <;> rfl
      simp only [hend, Option.some.injEq] at hs
      subst hs
      obtain ⟨d', hd, hk⟩ := h.leave hm .returned
        ((p.command m).heading ++ []) (by simp) (by simp [hgone.1])
      exact ⟨xs, _, d', hd, hk⟩
    · cases hs
  | interrupt m =>
    simp only [adminStep] at hs
    split at hs
    · rename_i hm
      cases hs
      obtain ⟨d', hd, hk⟩ := h.leave hm .interrupted (p.command m).heading
        (by simp) (by simp)
      exact ⟨xs, _, d', hd, hk⟩
    · cases hs

end Managers

/-- Whatever the workers and the other clients do in between, the managers see a ledger on which
their commands take effect one at a time, in an order that keeps to real time. -/
theorem commands_linearize (hq : Sorts qsort) (h : (administration p qsort W).Reachable s) :
    ∃ d xs, (shared M boxLedger).Reachable d ∧ Linearized boxLedger d ∧
      List.Forall₂ (Seen p) s.trace d.trace ∧ s.broker.table.Lists xs ∧ d.state = ledger xs ∧
      ∀ m how out, s.managers m = .ended how out →
        (∀ why, how = .panicked why → why = .capacityExceeded) ∧
        (how = .returned → .answer m out ∈ s.trace ∨
          (s.broker.fault ≠ none ∧ out = (p.command m).heading)) := by
  have hsim : ∃ d, (shared M boxLedger).Reachable d ∧ ∃ xs, Kept p s xs d := by
    refine System.simulate_reachable (R := fun s d => ∃ xs, Kept p s xs d) ⟨[], kept_init⟩
      (fun s d ev t hR hst => ?_) h
    obtain ⟨xs, hk⟩ := hR
    obtain ⟨ys, evs, d', hd, hk'⟩ := kept_step hq hk hst
    exact ⟨evs, d', hd, ys, hk'⟩
  obtain ⟨d, hd, xs, hk⟩ := hsim
  exact ⟨d, xs, hd, reachable_linearized hd, hk.trace, hk.sound.shelved.lists, hk.state,
    hk.printed⟩

end Steps

end Simulation

section Runs

def managerPipe (m : Bool) : PipeName := if m then pipeP else pipeQ

lemma managerPipe_injective : Function.Injective managerPipe := by
  intro m n he
  cases m with
  | false =>
    cases n with
    | false => rfl
    | true => exact absurd he (by decide)
  | true =>
    cases n with
    | false => exact absurd he (by decide)
    | true => rfl

lemma pipeS_apart (m : Bool) : pipeS ≠ managerPipe m := by
  cases m <;> decide

def twoManagers : Parties Bool Unit where
  command m := if m then .create boxA else .list
  pipeName := managerPipe
  others _ := .registerSub pipeS boxA
  distinct := managerPipe_injective
  apart _ := pipeS_apart
  registering _ := rfl

def twoCommands : List (AdminEvent Bool Unit Bool) :=
  [.run true, .register (), .accept true true, .block true ⟨some 0, 3⟩ 9, .accept false true,
    .block false ⟨none, 5⟩ 7, .run false, .reply true 5, .accept true true, .block true ⟨none, 0⟩ 7,
    .read false, .read true]

set_option maxRecDepth 4096 in
theorem commands_linearize_two : ∃ s,
    (administration twoManagers sortPointers Bool).run
      (administration twoManagers sortPointers Bool).init twoCommands = some s ∧
    s.managers true = .ended .returned (ascii "run create box command!\nOK\n") ∧
    s.managers false = .ended .returned (ascii "a 0 0 1\n") ∧
    ∃ d xs, (shared Bool boxLedger).Reachable d ∧ Linearized boxLedger d ∧
      List.Forall₂ (Seen twoManagers) s.trace d.trace ∧ s.broker.table.Lists xs ∧
      d.state = ledger xs := by
  have hrun : ((administration twoManagers sortPointers Bool).run
      (administration twoManagers sortPointers Bool).init twoCommands).map
      (fun s => (s.managers true, s.managers false)) =
      some (.ended .returned (ascii "run create box command!\nOK\n"),
        .ended .returned (ascii "a 0 0 1\n")) := by
    decide +kernel
  obtain ⟨s, hs, hout⟩ := Option.map_eq_some_iff.mp hrun
  obtain ⟨htrue, hfalse⟩ := Prod.mk.inj hout
  obtain ⟨d, xs, hd, hlin, hseen, hl, hstate, -⟩ :=
    commands_linearize sortPointers_sorts (System.reachable_of_run hs)
  exact ⟨s, hs, htrue, hfalse, d, xs, hd, hlin, hseen, hl, hstate⟩

end Runs

end MessageBroker.EndToEnd
