import MessageBroker.Lib.Linearizable
import MessageBroker.Manager.Replies

/-! The manager processes and the broker between them: each writes one request, the workers take
the requests one after the other, and each manager prints what its own FIFO brings. -/

namespace MessageBroker.EndToEnd

open MessageBroker.Lib MessageBroker.Protocol MessageBroker.Mbroker MessageBroker.Manager
open MessageBroker.Subscriber (ascii)

inductive Ending
  | returned
  | interrupted
  | panicked (why : Manager.Panic)
  deriving DecidableEq

inductive Process
  | starting
  -- the request is written; in open or read on its own FIFO
  | waiting
  | ended (how : Ending) (stdout : List UInt8)
  deriving DecidableEq

def pipeOf : Request → PipeName
  | .registerPub pipe _ | .registerSub pipe _ | .create pipe _ | .remove pipe _ | .list pipe => pipe

def registers : Request → Bool
  | .registerPub _ _ | .registerSub _ _ => true
  | .create _ _ | .remove _ _ | .list _ => false

structure Parties (M C : Type) where
  command : M → Command
  pipeName : M → PipeName
  others : C → Request
  distinct : Function.Injective pipeName
  apart : ∀ c m, pipeOf (others c) ≠ pipeName m
  registering : ∀ c, registers (others c) = true

inductive Change
  | admitPublisher (box : BoxName)
  | dropPublisher (box : BoxName)
  | admitSubscriber (box : BoxName)
  | dropSubscriber (box : BoxName)
  | store (box : BoxName)

def nameAt (t : Table) (msg : ℕ) : Option BoxName :=
  (t.heap.cells msg).map fun node => node.value.name

def changeOf (t : Table) : WorkerPhase → WorkerPhase → Option Change
  | .handling (.registerPub _ box), .publishing _ _ _ => some (.admitPublisher box)
  | .handling (.registerSub _ box), .subscribed _ _ => some (.admitSubscriber box)
  | .publishing msg _ _, .publishing _ _ _ => (nameAt t msg).map .store
  | .publishing msg _ _, .idle => (nameAt t msg).map .dropPublisher
  | .subscribed msg _, .idle => (nameAt t msg).map .dropSubscriber
  | _, _ => none

structure Administration (M W : Type) where
  broker : Broker W
  register : List Request
  -- the pipe a handler has open
  connections : W → Option PipeName
  -- what a handler has written to the pipe by the time it closes it
  replied : PipeName → Option (List UInt8)
  managers : M → Process
  -- history: what the managers do, and print in the end, and what the sessions do in between
  trace : List (Visible M Command (List UInt8) Change)

inductive AdminEvent (M C W : Type)
  | run (m : M)
  | register (c : C)
  | accept (w : W) (connected : Bool)
  | block (w : W) (env : Env) (garbage : ℕ → UInt8)
  | update (w : W)
  | leave (w : W)
  | reply (w : W) (garbage : ℕ → UInt8)
  | read (m : M)
  | hangUp (m : M)
  | interrupt (m : M)

variable {M C W : Type} [DecidableEq M] [DecidableEq W]

/-- After a step of worker `w`; a handler that is over has closed its pipe. -/
def Administration.after (s : Administration M W) (w : W) (garbage : ℕ → UInt8) (b : Broker W) :
    Administration M W :=
  { s with
    broker := b
    connections :=
      if b.workers w = .idle then Function.update s.connections w none else s.connections
    replied :=
      match b.replies.drop s.broker.replies.length, s.connections w with
      | (_, reply) :: _, some pipe =>
        Function.update s.replied pipe (some (responseBytes garbage reply))
      | _, _ => s.replied
    trace :=
      if b.fault = none then
        s.trace ++ (changeOf s.broker.table (s.broker.workers w) (b.workers w)).toList.map .act
      else s.trace }

def Administration.exit (s : Administration M W) (m : M) (how : Ending) (stdout : List UInt8)
    (seen : Visible M Command (List UInt8) Change) : Administration M W :=
  { s with
    managers := Function.update s.managers m (.ended how stdout)
    trace := s.trace ++ [seen] }

variable (p : Parties M C) (qsort : (ℕ → ℕ → ℤ) → List ℕ → List ℕ)

def adminStep (s : Administration M W) : AdminEvent M C W → Option (Administration M W)
  | .run m =>
    match s.managers m with
    | .starting => some { s with
        register := s.register ++ [(p.command m).request (p.pipeName m)]
        managers := Function.update s.managers m .waiting
        trace := s.trace ++ [.call m (p.command m)] }
    | _ => none
  | .register c => some { s with register := s.register ++ [p.others c] }
  | .accept w connected =>
    match s.register with
    | request :: register =>
      (brokerStep s.broker (.accept w request connected)).map fun b => { s with
        broker := b
        register := register
        connections :=
          if connected then Function.update s.connections w (some (pipeOf request))
          else s.connections }
    | [] => none
  | .block w env garbage => (brokerStep s.broker (.block w env)).map (s.after w garbage)
  | .update w => (brokerStep s.broker (.update w)).map (s.after w fun _ => 0)
  | .leave w => (brokerStep s.broker (.leave w)).map (s.after w fun _ => 0)
  | .reply w garbage => (brokerStep s.broker (.reply w)).map (s.after w garbage)
  | .read m =>
    match s.managers m, s.replied (p.pipeName m) with
    | .waiting, some fifo =>
      match (p.command m).finish qsort fifo with
      | .ok text =>
        let stdout := (p.command m).heading ++ text
        some (s.exit m .returned stdout (.answer m stdout))
      | .error why => some (s.exit m (.panicked why) (p.command m).heading (.leave m))
    | _, _ => none
  -- the broker is gone: end of file before the first byte
  | .hangUp m =>
    match s.managers m with
    | .waiting =>
      if s.broker.fault ≠ none ∧ s.replied (p.pipeName m) = none then
        match (p.command m).finish qsort [] with
        | .ok text => some (s.exit m .returned ((p.command m).heading ++ text) (.leave m))
        | .error why => some (s.exit m (.panicked why) (p.command m).heading (.leave m))
      else none
    | _ => none
  | .interrupt m =>
    match s.managers m with
    | .waiting => some (s.exit m .interrupted (p.command m).heading (.leave m))
    | _ => none

def administration (W : Type) [DecidableEq W] :
    System (Administration M W) (AdminEvent M C W) where
  init := {
    broker := (broker W).init
    register := []
    connections := fun _ => none
    replied := fun _ => none
    managers := fun _ => .starting
    trace := [] }
  step := adminStep p qsort

section Ledger

structure Row where
  name : BoxName
  size : ℕ
  publishers : ℕ
  subscribers : ℕ
  deriving DecidableEq

inductive Outcome
  | done
  | refused (why : String)
  | rows (rs : List Row)

def rowOf (rows : List Row) (box : BoxName) : Option Row := rows.find? fun r => r.name = box

def adjustRow (rows : List Row) (box : BoxName) (allowed : Row → Bool) (f : Row → Row) :
    Option (List Row) :=
  match rowOf rows box with
  | some row =>
    if allowed row then some (rows.map fun r => if r.name = box then f r else r) else none
  | none => none

def perform (rows : List Row) : Command → List Row × Outcome
  | .create box =>
    match rowOf rows box with
    | some _ => (rows, .refused "YOU CANT ADD A MSGBOX THAT ALREADY EXIST!")
    | none => (rows ++ [⟨box, 0, 0, 0⟩], .done)
  | .remove box =>
    match rowOf rows box with
    | some row =>
      if row.publishers = 0 ∧ row.subscribers = 0 then (rows.filter fun r => r.name ≠ box, .done)
      -- the reason given, whichever sessions there are
      else (rows, .refused "YOU CANT REMOVE A MSGBOX THAT HAS PUB")
    | none => (rows, .refused "YOU CANT REMOVE A MSGBOX THAT DOESNT EXIST!")
  | .list => (rows, .rows rows)

def alter (rows : List Row) : Change → Option (List Row)
  | .admitPublisher box =>
    adjustRow rows box (fun r => r.publishers = 0) fun r => { r with publishers := 1 }
  | .dropPublisher box =>
    adjustRow rows box (fun r => 0 < r.publishers)
      fun r => { r with publishers := r.publishers - 1 }
  | .admitSubscriber box =>
    adjustRow rows box (fun _ => true) fun r => { r with subscribers := r.subscribers + 1 }
  | .dropSubscriber box =>
    adjustRow rows box (fun r => 0 < r.subscribers)
      fun r => { r with subscribers := r.subscribers - 1 }
  | .store box =>
    adjustRow rows box (fun _ => true) fun r => { r with size := r.size + sizeof messagePacket }

/-- The managers' commands are the calls; what the sessions do are steps of its own. -/
def boxLedger : Object (List Row) Command Outcome Change where
  start := []
  effect rows c := some (perform rows c)
  act := alter

def Row.line (r : Row) : Line := ⟨r.name.bytes, u64 r.size, u64 r.publishers, u64 r.subscribers⟩

inductive Prints (c : Command) : Outcome → List UInt8 → Prop
  | done : Prints c .done (c.heading ++ ascii "OK\n")
  | refused {why} :
      Prints c (.refused why) (c.heading ++ (ascii "ERROR " ++ ascii why ++ ascii "\n"))
  | noBoxes {rs} : (∀ r, rs.getLast? = some r → r.name.bytes = []) →
      Prints c (.rows rs) (c.heading ++ ascii "NO BOXES FOUND\n")
  | lines {rs} {ls : List Line} : (∃ r, rs.getLast? = some r ∧ r.name.bytes ≠ []) →
      ls.Perm (rs.map Row.line) → ls.Pairwise (fun l m => strcmp l.boxName m.boxName < 0) →
      Prints c (.rows rs) (c.heading ++ ls.flatMap lineText)

inductive Seen (p : Parties M C) :
    Visible M Command (List UInt8) Change → Visible M Command Outcome Change → Prop
  | call {m} : Seen p (.call m (p.command m)) (.call m (p.command m))
  | answer {m o stdout} : Prints (p.command m) o stdout → Seen p (.answer m stdout) (.answer m o)
  | leave {m} : Seen p (.leave m) (.leave m)
  | act {c} : Seen p (.act c) (.act c)

end Ledger

end MessageBroker.EndToEnd
