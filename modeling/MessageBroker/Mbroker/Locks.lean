import MessageBroker.Mbroker.Broker

/-! The workers of the broker with their mutexes: messages_lock and the wait_mutex of each box
are taken, held and given back in steps of their own. -/

namespace MessageBroker.Mbroker

open MessageBroker.Lib MessageBroker.Protocol

namespace MessageBox

def lock (b : MessageBox) : MessageBox := { b with waitMutex := true }

def unlock (b : MessageBox) : MessageBox := { b with waitMutex := false }

end MessageBox

inductive Stage
  -- no mutex held
  | free (phase : WorkerPhase)
  | asleep (msg serial : ℕ)
  -- messages_lock held
  | entered (request : Request)
  | removing (pipe : PipeName) (boxName : BoxName) (box : ℕ)
  | settled (phase : WorkerPhase)
  -- the wait_mutex of `msg` held
  | growing (msg serial : ℕ) (fd : ℤ)
  | grown (msg serial : ℕ) (fd : ℤ)
  | checking (msg serial : ℕ)
  | checked (msg serial : ℕ)
  | unpublishing (msg serial : ℕ) (fd : ℤ)
  | unsubscribing (msg serial : ℕ)
  -- the counter is given back, the mutex not yet
  | departed (msg : ℕ)
  deriving DecidableEq

structure LockBroker (W : Type) where
  table : Table
  messagesLock : Option W
  stages : W → Stage
  fault : Option Fault
  -- history
  replies : List (W × Reply)

inductive LockEvent (W : Type)
  | accept (w : W) (request : Request) (connected : Bool)
  | lockMessages (w : W)
  | body (w : W) (env : Env)
  | removeBox (w : W)
  | unlockMessages (w : W)
  | reply (w : W)
  | lockWait (w : W)
  | grow (w : W)
  -- what lseek returns
  | check (w : W) (offset : ℕ)
  | wake (w : W)
  | leave (w : W)
  | drop (w : W)
  | unlockWait (w : W)

def removalTest (t : Table) (pipe : PipeName) (boxName : BoxName) :
    Except Fault (Table × Stage × Option Reply) := do
  match ← getMsgBox t boxName with
  | none => .ok (t, .settled (.removeReply none false 0 0), none)
  | some box =>
    let node ← load t.heap box
    if node.value.publishers = 0 ∧ node.value.subscribers = 0 then
      .ok (t, .removing pipe boxName box, none)
    else .ok (t, .settled (.removeReply (some box) false 0 0), none)

/-- What runs under messages_lock; a removal stops where it goes on to call remove_msg_box. -/
def requestBody (t : Table) (env : Env) : Request → Except Fault (Table × Stage × Option Reply)
  | .remove pipe boxName => removalTest t pipe boxName
  | request => do
    let (t, phase, reply) ← requestBlock t env request
    .ok (t, .settled phase, reply)

variable {W : Type} [DecidableEq W]

def advance (s : LockBroker W) (w : W) :
    Except Fault (Table × Stage × Option Reply) → LockBroker W
  | .ok (t, stage, reply) => { s with
      table := t
      stages := Function.update s.stages w stage
      replies := s.replies ++ reply.toList.map (fun r => (w, r)) }
  | .error fault => { s with fault := some fault }

@[simp] lemma advance_stages (s : LockBroker W) (w : W) (t : Table) (stage : Stage)
    (reply : Option Reply) : (advance s w (.ok (t, stage, reply))).stages =
      Function.update s.stages w stage := rfl

def advanceBox (s : LockBroker W) (w : W) (msg : ℕ) (f : MessageBox → MessageBox) (stage : Stage) :
    LockBroker W :=
  advance s w (do
    let t ← modifyBox s.table msg f
    .ok (t, stage, none))

def lockBox (s : LockBroker W) (w : W) (msg : ℕ) (stage : Stage) : Option (LockBroker W) :=
  match load s.table.heap msg with
  | .ok node =>
    if node.value.waitMutex then none else some (advanceBox s w msg MessageBox.lock stage)
  | .error fault => some { s with fault := some fault }

def messagesStep (s : LockBroker W) (w : W) : Stage → LockEvent W → Option (LockBroker W)
  | .free .idle, .accept _ request connected =>
    if connected then some (advance s w (.ok (s.table, .free (.handling request), none)))
    else some s
  | .free (.handling request), .lockMessages _ =>
    if s.messagesLock = none then some { s with
      messagesLock := some w
      stages := Function.update s.stages w (.entered request) }
    else none
  | .entered request, .body _ env =>
    if env.admissible s.table.heap then some (advance s w (requestBody s.table env request))
    else none
  | .removing _ boxName box, .removeBox _ => some (advance s w (do
      let node ← load s.table.heap box
      let t ← removeMsgBox s.table boxName
      .ok (t, .settled (.removeReply (some box) true node.value.publishers
        node.value.subscribers), none)))
  | .settled phase, .unlockMessages _ => some { s with
      messagesLock := none
      stages := Function.update s.stages w (.free phase) }
  | .free (.createReply box), .reply _ =>
    some (advance s w (.ok (s.table, .free .idle, some (createResponse box))))
  | .free (.removeReply box removed pub sub), .reply _ =>
    some (advance s w (.ok (s.table, .free .idle, some (removeResponse box removed pub sub))))
  | _, _ => none

def waitStep (s : LockBroker W) (w : W) : Stage → LockEvent W → Option (LockBroker W)
  | .free (.publishing msg serial fd), .lockWait _ =>
    -- no write succeeds on the descriptor of a failed open
    if fd = -1 then none else lockBox s w msg (.growing msg serial fd)
  | .growing msg serial fd, .grow _ =>
    some (advanceBox s w msg MessageBox.grow (.grown msg serial fd))
  | .grown msg serial fd, .unlockWait _ =>
    some (advanceBox s w msg MessageBox.unlock (.free (.publishing msg serial fd)))
  | .free (.publishing msg serial fd), .leave _ => lockBox s w msg (.unpublishing msg serial fd)
  | .unpublishing msg _ _, .drop _ =>
    some (advanceBox s w msg MessageBox.dropPublisher (.departed msg))
  | .free (.subscribed msg serial), .lockWait _ => lockBox s w msg (.checking msg serial)
  | .checking msg serial, .check _ offset =>
    match load s.table.heap msg with
    | .ok node =>
      -- pthread_cond_wait gives the mutex back, and may return without a signal
      if node.value.size = offset then
        some (advanceBox s w msg MessageBox.unlock (.asleep msg serial))
      else some (advance s w (.ok (s.table, .checked msg serial, none)))
    | .error fault => some { s with fault := some fault }
  | .asleep msg serial, .wake _ => lockBox s w msg (.checking msg serial)
  | .checked msg serial, .unlockWait _ =>
    some (advanceBox s w msg MessageBox.unlock (.free (.subscribed msg serial)))
  | .free (.subscribed msg serial), .leave _ => lockBox s w msg (.unsubscribing msg serial)
  | .unsubscribing msg _, .drop _ =>
    some (advanceBox s w msg MessageBox.dropSubscriber (.departed msg))
  | .departed msg, .unlockWait _ => some (advanceBox s w msg MessageBox.unlock (.free .idle))
  | _, _ => none

def lockStep (s : LockBroker W) (ev : LockEvent W) : Option (LockBroker W) :=
  if s.fault ≠ none then none
  else match ev with
    | .accept w _ _ | .lockMessages w | .body w _ | .removeBox w | .unlockMessages w
    | .reply w => messagesStep s w (s.stages w) ev
    | .lockWait w | .grow w | .check w _ | .wake w | .leave w | .drop w | .unlockWait w =>
      waitStep s w (s.stages w) ev

def lockBroker (W : Type) [DecidableEq W] : System (LockBroker W) (LockEvent W) where
  init := ⟨⟨.empty, none, 0⟩, none, fun _ => .free .idle, none, []⟩
  step := lockStep

namespace Stage

def phase : Stage → WorkerPhase
  | .free phase | .settled phase => phase
  | .entered request => .handling request
  | .removing pipe boxName _ => .handling (.remove pipe boxName)
  | .growing msg serial fd | .grown msg serial fd | .unpublishing msg serial fd =>
    .publishing msg serial fd
  | .asleep msg serial | .checking msg serial | .checked msg serial
  | .unsubscribing msg serial => .subscribed msg serial
  | .departed _ => .idle

def holds : Stage → Option ℕ
  | .growing msg _ _ | .grown msg _ _ | .unpublishing msg _ _ | .checking msg _ | .checked msg _
  | .unsubscribing msg _ | .departed msg => some msg
  | .free _ | .asleep _ _ | .entered _ | .removing _ _ _ | .settled _ => none

def uses : Stage → Option ℕ
  | .departed msg => some msg
  | stage => stage.phase.session.map Prod.fst

def inside : Stage → Bool
  | .entered _ | .removing _ _ _ | .settled _ => true
  | _ => false

lemma uses_of_holds {stage : Stage} {p : ℕ} (h : stage.holds = some p) : stage.uses = some p := by
  cases stage <;> cases h <;> rfl

end Stage

/-- At every call of remove_msg_box the box is nobody's any more: no worker holds its wait_mutex
or has a step left that uses it. So no MTX_DESTORY has failed and no freed box was touched. -/
structure Undisturbed (s : LockBroker W) : Prop where
  alone : ∀ w pipe boxName box, s.stages w = .removing pipe boxName box →
    ∀ u, (s.stages u).holds ≠ some box ∧ (s.stages u).uses ≠ some box
  unlocked : ∀ w pipe boxName box, s.stages w = .removing pipe boxName box →
    ∃ node, load s.table.heap box = .ok node ∧ node.value.waitMutex = false
  destroyed : s.fault ≠ some .mutexBusy
  freed : s.fault ≠ some .wildPointer

def removable (t : Table) (boxName : BoxName) : Option ℕ :=
  match getMsgBox t boxName with
  | .ok (some box) =>
    match load t.heap box with
    | .ok node =>
      if node.value.publishers = 0 ∧ node.value.subscribers = 0 then some box else none
    | .error _ => none
  | _ => none

def doomed (s : LockBroker W) : LockEvent W → Option ℕ
  | .body w _ =>
    match s.stages w with
    | .entered (.remove _ boxName) => removable s.table boxName
    | _ => none
  | _ => none

def Cleared (s : LockBroker W) (ev : LockEvent W) : Prop :=
  ∀ box ∈ doomed s ev, ∀ u, s.stages u ≠ .departed box

instance [Fintype W] (s : LockBroker W) (ev : LockEvent W) : Decidable (Cleared s ev) :=
  inferInstanceAs (Decidable (∀ box ∈ doomed s ev, ∀ u, s.stages u ≠ .departed box))

end MessageBroker.Mbroker
