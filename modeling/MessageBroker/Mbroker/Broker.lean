import MessageBroker.Lib.TransitionSystem
import MessageBroker.Lib.Tally
import MessageBroker.Mbroker.Boxes

/-! The workers of the broker over the table of boxes: the handlers of mbroker.c, each block
under a lock one step. -/

namespace MessageBroker.Mbroker

open MessageBroker.Lib MessageBroker.Protocol

/-- The results of malloc and of the open of the box's file, where a block calls them. -/
structure Env where
  malloc : Option ℕ
  fd : ℤ

inductive WorkerPhase
  | idle
  | handling (request : Request)
  | publishing (msg serial : ℕ) (fd : ℤ)
  | subscribed (msg serial : ℕ)
  | createReply (box : Option ℕ)
  | removeReply (box : Option ℕ) (removed : Bool) (pub sub : ℕ)
  deriving DecidableEq

def WorkerPhase.session : WorkerPhase → Option (ℕ × ℕ)
  | .publishing msg serial _ | .subscribed msg serial => some (msg, serial)
  | _ => none

inductive Reply
  | create (errorCode : ℤ) (errorMessage : String)
  | remove (errorCode : ℤ) (errorMessage : String)
  | list (packets : List ListPacket)
  deriving DecidableEq

def registerPubBlock (t : Table) (boxName : BoxName) : Except Fault (Table × WorkerPhase) := do
  match ← getMsgBox t boxName with
  | none => .ok (t, .idle)
  | some msg =>
    let node ← load t.heap msg
    if 0 < node.value.publishers then .ok (t, .idle)
    else
      let t ← modifyBox t msg MessageBox.admitPublisher
      .ok (t, .publishing msg node.value.serial node.value.fdInternalW)

def registerSubBlock (t : Table) (boxName : BoxName) (fd : ℤ) :
    Except Fault (Table × WorkerPhase) := do
  match ← getMsgBox t boxName with
  | none => .ok (t, .idle)
  | some msg =>
    let node ← load t.heap msg
    if fd = -1 then .ok (t, .idle)
    else
      let t ← modifyBox t msg MessageBox.admitSubscriber
      .ok (t, .subscribed msg node.value.serial)

def createBlock (t : Table) (boxName : BoxName) (env : Env) :
    Except Fault (Table × WorkerPhase) := do
  match ← getMsgBox t boxName with
  | none =>
    let t ← addMsgBox t boxName env.malloc env.fd
    .ok (t, .createReply none)
  | some box => .ok (t, .createReply (some box))

def removeBlock (t : Table) (boxName : BoxName) : Except Fault (Table × WorkerPhase) := do
  match ← getMsgBox t boxName with
  | none => .ok (t, .removeReply none false 0 0)
  | some box =>
    let node ← load t.heap box
    if node.value.publishers = 0 ∧ node.value.subscribers = 0 then
      let t ← removeMsgBox t boxName
      .ok (t, .removeReply (some box) true node.value.publishers node.value.subscribers)
    else .ok (t, .removeReply (some box) false 0 0)

def createResponse : Option ℕ → Reply
  | none => .create 0 ""
  | some _ => .create (-1) "YOU CANT ADD A MSGBOX THAT ALREADY EXIST!"

def removeResponse (box : Option ℕ) (removed : Bool) (pub sub : ℕ) : Reply :=
  if removed then .remove 0 ""
  else if box = none then .remove (-1) "YOU CANT REMOVE A MSGBOX THAT DOESNT EXIST!"
  else if sub ≠ 0 ∧ pub ≠ 0 then .remove (-1) "YOU CANT REMOVE A MSGBOX THAT HAS SUB AND PUB"
  else if sub ≠ 0 then .remove (-1) "YOU CANT REMOVE A MSGBOX THAT HAS SUB"
  else .remove (-1) "YOU CANT REMOVE A MSGBOX THAT HAS PUB"

def requestBlock (t : Table) (env : Env) : Request →
    Except Fault (Table × WorkerPhase × Option Reply)
  | .registerPub _ box => do
    let (t, worker) ← registerPubBlock t box
    .ok (t, worker, none)
  | .registerSub _ box => do
    let (t, worker) ← registerSubBlock t box env.fd
    .ok (t, worker, none)
  | .create _ box => do
    let (t, worker) ← createBlock t box env
    .ok (t, worker, none)
  | .remove _ box => do
    let (t, worker) ← removeBlock t box
    .ok (t, worker, none)
  | .list _ => do
    let packets ← listMsgBoxes t
    .ok (t, .idle, some (.list packets))

structure Broker (W : Type) where
  table : Table
  workers : W → WorkerPhase
  fault : Option Fault
  -- history
  replies : List (W × Reply)

inductive BrokerEvent (W : Type)
  | accept (w : W) (request : Request) (connected : Bool)
  | block (w : W) (env : Env)
  | update (w : W)
  | leave (w : W)
  | reply (w : W)

def Env.admissible (env : Env) (h : Heap MessageBox) : Prop :=
  ∀ p, env.malloc = some p → h.cells p = none

instance (env : Env) (h : Heap MessageBox) : Decidable (env.admissible h) :=
  match hm : env.malloc with
  | none => isTrue (fun p hp => by rw [hm] at hp; cases hp)
  | some q =>
    match hc : h.cells q with
    | none => isTrue (fun p hp => by rw [hm] at hp; cases hp; exact hc)
    | some _ => isFalse (fun ha => by rw [ha q hm] at hc; cases hc)

variable {W : Type} [DecidableEq W]

def settle (s : Broker W) (w : W) :
    Except Fault (Table × WorkerPhase × Option Reply) → Broker W
  | .ok (t, worker, reply) => { s with
      table := t
      workers := Function.update s.workers w worker
      replies := s.replies ++ reply.toList.map (fun r => (w, r)) }
  | .error fault => { s with fault := some fault }

def workerStep (s : Broker W) (w : W) : WorkerPhase → BrokerEvent W → Option (Broker W)
  | .idle, .accept _ request connected =>
    if connected then some (settle s w (.ok (s.table, .handling request, none))) else some s
  | .handling request, .block _ env =>
    if env.admissible s.table.heap then some (settle s w (requestBlock s.table env request))
    else none
  | .publishing msg serial fd, .update _ =>
    -- no write succeeds on the descriptor of a failed open
    if fd = -1 then none
    else some (settle s w (do
      let t ← modifyBox s.table msg MessageBox.grow
      .ok (t, .publishing msg serial fd, none)))
  | .publishing msg _ _, .leave _ => some (settle s w (do
      let t ← modifyBox s.table msg MessageBox.dropPublisher
      .ok (t, .idle, none)))
  | .subscribed msg _, .leave _ => some (settle s w (do
      let t ← modifyBox s.table msg MessageBox.dropSubscriber
      .ok (t, .idle, none)))
  | .createReply box, .reply _ =>
    some (settle s w (.ok (s.table, .idle, some (createResponse box))))
  | .removeReply box removed pub sub, .reply _ =>
    some (settle s w (.ok (s.table, .idle, some (removeResponse box removed pub sub))))
  | _, _ => none

def brokerStep (s : Broker W) (ev : BrokerEvent W) : Option (Broker W) :=
  if s.fault ≠ none then none
  else match ev with
    | .accept w _ _ | .block w _ | .update w | .leave w | .reply w =>
      workerStep s w (s.workers w) ev

def broker (W : Type) [DecidableEq W] : System (Broker W) (BrokerEvent W) where
  init := ⟨⟨.empty, none, 0⟩, fun _ => .idle, none, []⟩
  step := brokerStep

section Outcomes

def Absent (name : BoxName) (xs : List (ℕ × MessageBox)) : Prop := ∀ x ∈ xs, x.2.name ≠ name

inductive Handled (t : Table) (env : Env) (xs : List (ℕ × MessageBox)) :
    Request → Except Fault (Table × WorkerPhase × Option Reply) → List (ℕ × MessageBox) → Prop
  | publish {pipe name p b t'} : (p, b) ∈ xs → b.name = name → b.publishers = 0 →
      t'.Lists (adjust p MessageBox.admitPublisher xs) → t'.created = t.created →
      Handled t env xs (.registerPub pipe name)
        (.ok (t', .publishing p b.serial b.fdInternalW, none))
        (adjust p MessageBox.admitPublisher xs)
  | publishRefused {pipe name} : (∀ x ∈ xs, x.2.name = name → 0 < x.2.publishers) →
      Handled t env xs (.registerPub pipe name) (.ok (t, .idle, none)) xs
  | subscribe {pipe name p b t'} : (p, b) ∈ xs → b.name = name → env.fd ≠ -1 →
      t'.Lists (adjust p MessageBox.admitSubscriber xs) →
      t'.created = t.created →
      Handled t env xs (.registerSub pipe name) (.ok (t', .subscribed p b.serial, none))
        (adjust p MessageBox.admitSubscriber xs)
  | subscribeRefused {pipe name} : (env.fd = -1 ∨ Absent name xs) →
      Handled t env xs (.registerSub pipe name) (.ok (t, .idle, none)) xs
  | create {pipe name p t'} : Absent name xs → env.malloc = some p → t.heap.cells p = none →
      t'.Lists (xs ++ [(p, ⟨name, 0, 0, 0, env.fd, false, t.created⟩)]) →
      t'.created = t.created + 1 →
      Handled t env xs (.create pipe name) (.ok (t', .createReply none, none))
        (xs ++ [(p, ⟨name, 0, 0, 0, env.fd, false, t.created⟩)])
  | createFailed {pipe name} : Absent name xs → env.malloc = none →
      Handled t env xs (.create pipe name) (.error .noMemory) xs
  | createRefused {pipe name p b} : (p, b) ∈ xs → b.name = name →
      Handled t env xs (.create pipe name) (.ok (t, .createReply (some p), none)) xs
  | remove {pipe name p b as bs t'} : xs = as ++ (p, b) :: bs → b.name = name →
      b.publishers = 0 → b.subscribers = 0 → t'.Lists (as ++ bs) → t'.created = t.created →
      Handled t env xs (.remove pipe name) (.ok (t', .removeReply (some p) true 0 0, none))
        (as ++ bs)
  | removeBusy {pipe name p b} : (p, b) ∈ xs → b.name = name →
      ¬ (b.publishers = 0 ∧ b.subscribers = 0) →
      Handled t env xs (.remove pipe name) (.ok (t, .removeReply (some p) false 0 0, none)) xs
  | removeAbsent {pipe name} : Absent name xs →
      Handled t env xs (.remove pipe name) (.ok (t, .removeReply none false 0 0, none)) xs
  | list {pipe} : Handled t env xs (.list pipe) (.ok (t, .idle,
      some (.list (if xs = [] then [⟨true, emptyName, none⟩] else packets xs)))) xs

variable {t : Table} {xs : List (ℕ × MessageBox)} {env : Env} {name : BoxName} {p : ℕ}
  {b : MessageBox}

lemma getMsgBox_cases (hx : t.Lists xs) (name : BoxName) :
    (getMsgBox t name = .ok none ∧ Absent name xs) ∨
      ∃ p b as bs next, getMsgBox t name = .ok (some p) ∧ xs = as ++ (p, b) :: bs ∧
        b.name = name ∧ Absent name as ∧ load t.heap p = .ok ⟨b, next⟩ := by
  rw [getMsgBox_eq hx]
  cases hf : xs.find? (named name) with
  | none =>
    refine .inl ⟨rfl, fun x hmem => ?_⟩
    simpa [named] using List.find?_eq_none.mp hf x hmem
  | some x =>
    obtain ⟨p, b⟩ := x
    obtain ⟨hb, as, bs, rfl, has⟩ := List.find?_eq_some_iff_append.mp hf
    obtain ⟨next, hc⟩ := Heap.Segment.cell hx (show (p, b) ∈ as ++ (p, b) :: bs by simp)
    refine .inr ⟨p, b, as, bs, next, rfl, rfl, by simpa [named] using hb, fun x hmem => ?_,
      load_eq hc⟩
    simpa [named] using has x hmem

lemma publishRefused_of_nodup (hn : (xs.map fun x => x.2.name).Nodup) (hb : (p, b) ∈ xs)
    (hname : b.name = name) (hpub : 0 < b.publishers) :
    ∀ x ∈ xs, x.2.name = name → 0 < x.2.publishers := by
  intro x hx hxn
  have he : x = (p, b) := List.inj_on_of_nodup_map hn hx hb (hxn.trans hname.symm)
  rwa [he]

lemma requestBlock_handled (hx : t.Lists xs) (hn : (xs.map fun x => x.2.name).Nodup)
    (ha : env.admissible t.heap) (request : Request)
    (hu : ∀ pipe name, request = .remove pipe name → ∀ x ∈ xs, x.2.waitMutex = false) :
    ∃ ys, Handled t env xs request (requestBlock t env request) ys := by
  cases request with
  | registerPub pipe name =>
    rcases getMsgBox_cases hx name with ⟨hg, habs⟩ | ⟨p, b, as, bs, next, hg, rfl, hb, -, hl⟩
    · simp only [requestBlock, registerPubBlock, hg, bind, Except.bind]
      exact ⟨_, .publishRefused (fun x hmem hxn => (habs x hmem hxn).elim)⟩
    · have hmem : (p, b) ∈ as ++ (p, b) :: bs := by simp
      by_cases hpub : 0 < b.publishers
      · simp only [requestBlock, registerPubBlock, hg, hl, hpub, bind, Except.bind, if_true]
        exact ⟨_, .publishRefused (publishRefused_of_nodup hn hmem hb hpub)⟩
      · obtain ⟨t', hm, hlists, hcr⟩ := modifyBox_eq hx hmem MessageBox.admitPublisher
        simp only [requestBlock, registerPubBlock, hg, hl, hpub, hm, bind, Except.bind, if_false]
        exact ⟨_, .publish hmem hb (Nat.eq_zero_of_not_pos hpub) hlists hcr⟩
  | registerSub pipe name =>
    rcases getMsgBox_cases hx name with ⟨hg, habs⟩ | ⟨p, b, as, bs, next, hg, rfl, hb, -, hl⟩
    · simp only [requestBlock, registerSubBlock, hg, bind, Except.bind]
      exact ⟨_, .subscribeRefused (.inr habs)⟩
    · have hmem : (p, b) ∈ as ++ (p, b) :: bs := by simp
      by_cases hfd : env.fd = -1
      · simp only [requestBlock, registerSubBlock, hg, hl, hfd, bind, Except.bind, if_true]
        exact ⟨_, .subscribeRefused (.inl hfd)⟩
      · obtain ⟨t', hm, hlists, hcr⟩ :=
          modifyBox_eq hx hmem MessageBox.admitSubscriber
        simp only [requestBlock, registerSubBlock, hg, hl, hfd, hm, bind, Except.bind, if_false]
        exact ⟨_, .subscribe hmem hb hfd hlists hcr⟩
  | create pipe name =>
    rcases getMsgBox_cases hx name with ⟨hg, habs⟩ | ⟨p, b, as, bs, next, hg, rfl, hb, -, hl⟩
    · cases hm : env.malloc with
      | none =>
        simp only [requestBlock, createBlock, hg, hm, addMsgBox, bind, Except.bind]
        exact ⟨_, .createFailed habs hm⟩
      | some p =>
        have hp := ha p hm
        obtain ⟨t', hadd, hlists, hcr⟩ := addMsgBox_eq hx hp name env.fd
        simp only [requestBlock, createBlock, hg, hm, hadd, bind, Except.bind]
        exact ⟨_, .create habs hm hp hlists hcr⟩
    · simp only [requestBlock, createBlock, hg, bind, Except.bind]
      exact ⟨_, .createRefused (by simp) hb⟩
  | remove pipe name =>
    rcases getMsgBox_cases hx name with ⟨hg, habs⟩ | ⟨p, b, as, bs, next, hg, rfl, hb, has, hl⟩
    · simp only [requestBlock, removeBlock, hg, bind, Except.bind]
      exact ⟨_, .removeAbsent habs⟩
    · have hmem : (p, b) ∈ as ++ (p, b) :: bs := by simp
      by_cases hc : b.publishers = 0 ∧ b.subscribers = 0
      · obtain ⟨t', hrm, hlists, -, hcr⟩ :=
          (removeMsgBox_eq hx has hb).2 (hu pipe name rfl _ hmem)
        simp only [requestBlock, removeBlock, hg, hl, hrm, bind, Except.bind, hc, and_self, if_true]
        exact ⟨_, .remove rfl hb hc.1 hc.2 hlists hcr⟩
      · simp only [requestBlock, removeBlock, hg, hl, hc, bind, Except.bind, if_false]
        exact ⟨_, .removeBusy hmem hb hc⟩
  | list pipe =>
    simp only [requestBlock, listMsgBoxes_eq hx, bind, Except.bind]
    exact ⟨_, .list⟩

end Outcomes

end MessageBroker.Mbroker
