import MessageBroker.Lib.Pipe
import MessageBroker.Publisher.Sending
import MessageBroker.Subscriber.Receiving
import MessageBroker.Mbroker.Delivery

/-! One box from the input of its publishers to the output of its subscribers: the processes of
pub.c and sub.c, their message FIFOs, open at both ends, and the broker's sessions between them. -/

namespace MessageBroker.EndToEnd

open MessageBroker.Lib MessageBroker.Protocol MessageBroker.Publisher MessageBroker.Subscriber
  MessageBroker.Mbroker

/-- How far the worker is that opened the FIFO: whether it has come to the block that admits. -/
inductive Visit
  | awaited
  | refused
  | admitted
  deriving DecidableEq

structure PublisherLink where
  sender : Sender
  running : Bool
  fifo : Pipe
  visit : Visit

structure SubscriberLink where
  receiver : Receiver
  fifo : Pipe
  visit : Visit
  -- history: the packets the session wrote to the FIFO
  forwarded : List (List UInt8)

structure Relay (P S : Type) where
  box : Topic P S
  publisher : P → PublisherLink
  subscriber : S → SubscriberLink
  -- history: the packets stored, each with the session that stored it
  posted : List (P × List UInt8)

inductive RelayEvent (P S : Type)
  | send (p : P)
  | stop (p : P)
  | session (ev : SessionEvent P S)
  | hangUpPublisher (p : P)
  | hangUpSubscriber (u : S)
  | receive (u : S) (printError : Option ℕ)
  | interrupt (u : S)

def PublisherLink.exit (l : PublisherLink) : PublisherLink :=
  { l with running := false, fifo := { l.fifo with writable := false } }

/-- A round of the loop of pub; where nobody reads the FIFO, SIGPIPE ends the process. -/
def PublisherLink.send (l : PublisherLink) : PublisherLink :=
  match sendStep l.sender with
  | .continues t =>
    match l.fifo.write t.packet with
    | some fifo => { l with sender := t, fifo := fifo }
    | none => l.exit
  | .leaves t => { l with sender := t }.exit
  | .panics _ => l.exit

/-- The descriptor is closed when the process ends. -/
def SubscriberLink.receive (l : SubscriberLink) (fifo : Pipe)
    (readFromFifo : Except ℕ (List UInt8)) (printError : Option ℕ) : SubscriberLink :=
  let receiver := receiveStep l.receiver readFromFifo printError
  { l with
    receiver := receiver
    fifo := { fifo with readable := decide (receiver.phase = .receiving) } }

variable {P S : Type} [DecidableEq P] [DecidableEq S]

def setPublisherLink (s : Relay P S) (p : P) (l : PublisherLink) : Relay P S :=
  { s with publisher := Function.update s.publisher p l }

def setSubscriberLink (s : Relay P S) (u : S) (l : SubscriberLink) : Relay P S :=
  { s with subscriber := Function.update s.subscriber u l }

def sessionEffect (s : Relay P S) : SessionEvent P S → Option (Relay P S)
  | .publisherAdmit p =>
    let l := s.publisher p
    if l.visit ≠ .awaited then none
    else some (setPublisherLink s p
      { l with visit := if 0 < s.box.publishers then .refused else .admitted })
  | .publisherRead p received =>
    let l := s.publisher p
    (l.fifo.read (sizeof messagePacket)).bind fun (bytes, fifo) =>
      if received = (if bytes = [] then none else some bytes) then
        some (setPublisherLink s p { l with fifo := fifo })
      else none
  | .publisherWrite p written =>
    match s.box.publisherAt p with
    | .writing msgPacket =>
      if written = msgPacket.length then some { s with posted := s.posted ++ [(p, msgPacket)] }
      else some s
    | _ => none
  | .subscriberAdmit u opened =>
    let l := s.subscriber u
    if l.visit ≠ .awaited then none
    else some (setSubscriberLink s u { l with visit := if opened then .admitted else .refused })
  | .subscriberWrite u whole =>
    let l := s.subscriber u
    match s.box.subscriberAt u with
    | some ⟨.sending packet, _, _⟩ =>
      match l.fifo.write packet with
      | some fifo =>
        if whole then
          some (setSubscriberLink s u { l with fifo := fifo, forwarded := l.forwarded ++ [packet] })
        else none
      | none => if whole then none else some s
    | _ => none
  | _ => some s

def relayStep (s : Relay P S) : RelayEvent P S → Option (Relay P S)
  | .send p =>
    if (s.publisher p).running then some (setPublisherLink s p (s.publisher p).send) else none
  | .stop p =>
    if (s.publisher p).running then some (setPublisherLink s p (s.publisher p).exit) else none
  | .session ev =>
    (topicStep s.box ev).bind fun box => (sessionEffect s ev).map fun t => { t with box := box }
  | .hangUpPublisher p =>
    let l := s.publisher p
    if l.visit ≠ .awaited ∧ s.box.publisherAt p = .outside ∧ l.fifo.readable then
      some (setPublisherLink s p { l with fifo := { l.fifo with readable := false } })
    else none
  | .hangUpSubscriber u =>
    let l := s.subscriber u
    if l.visit ≠ .awaited ∧ s.box.subscriberAt u = none ∧ l.fifo.writable then
      some (setSubscriberLink s u { l with fifo := { l.fifo with writable := false } })
    else none
  | .receive u printError =>
    let l := s.subscriber u
    if l.receiver.phase ≠ .receiving then none
    else (l.fifo.read (sizeof messagePacket)).map fun (bytes, fifo) =>
      setSubscriberLink s u (l.receive fifo (.ok bytes) printError)
  | .interrupt u =>
    let l := s.subscriber u
    if l.receiver.phase ≠ .receiving then none
    else some (setSubscriberLink s u (l.receive l.fifo (.error eintr) none))

/-- What each client starts from: the memory its packet lies in, its input, its errno. -/
structure Clients (P S : Type) where
  memory : P → List UInt8
  whole : ∀ p, (memory p).length = sizeof messagePacket
  input : P → List UInt8
  errno : S → ℕ

def relay (P S : Type) [DecidableEq P] [DecidableEq S] (old : List UInt8) (c : Clients P S) :
    System (Relay P S) (RelayEvent P S) where
  init := {
    box := (topic P S old).init
    publisher := fun p => ⟨entered (c.memory p) (c.input p), true, .opened, .awaited⟩
    subscriber := fun u => ⟨connected (c.errno u), .opened, .awaited, []⟩
    posted := [] }
  step := relayStep

/-- Appends to the file of the box store the whole packet. -/
def WholeAppends (s : Relay P S) : RelayEvent P S → Prop
  | .session ev => WholeWrites s.box ev
  | _ => True

instance (s : Relay P S) (ev : RelayEvent P S) : Decidable (WholeAppends s ev) := by
  cases ev <;> simp only [WholeAppends] <;> infer_instance

variable {s t : Relay P S} {ev : RelayEvent P S}

omit [DecidableEq S] in
lemma setPublisherLink_publisher (s : Relay P S) (p q : P) (l : PublisherLink) :
    (setPublisherLink s p l).publisher q = if q = p then l else s.publisher q :=
  Function.update_apply _ _ _ _

omit [DecidableEq P] in
lemma setSubscriberLink_subscriber (s : Relay P S) (u v : S) (l : SubscriberLink) :
    (setSubscriberLink s u l).subscriber v = if v = u then l else s.subscriber v :=
  Function.update_apply _ _ _ _

end MessageBroker.EndToEnd
