import MessageBroker.Lib.TransitionSystem
import MessageBroker.Lib.Tally
import MessageBroker.Lib.Buffer
import MessageBroker.Protocol.Packets

/-! The publisher and subscriber sessions of one box, from its creation on: the loops of
handle_packet_register_pub and handle_packet_register_sub over the file of the box. -/

namespace MessageBroker.Mbroker

open MessageBroker.Lib MessageBroker.Protocol

inductive PublisherSession
  | outside
  | reading
  | writing (msgPacket : List UInt8)
  | updating
  | leaving
  deriving DecidableEq

inductive SubscriberPhase
  | checking
  | asleep
  | reading
  | sending (packet : List UInt8)
  | leaving
  deriving DecidableEq

structure SubscriberSession where
  phase : SubscriberPhase
  fdOffset : ℕ
  -- history: the packets written to the client's FIFO
  sent : List (List UInt8)
  deriving DecidableEq

structure Topic (P S : Type) where
  file : List UInt8
  -- position of fd_internal_w, one descriptor for all publishers
  fdOffset : ℕ
  size : ℕ
  publishers : ℕ
  subscribers : ℕ
  publisherAt : P → PublisherSession
  subscriberAt : S → Option SubscriberSession
  -- history: the packets whose write to the file completed
  log : List (List UInt8)

inductive SessionEvent (P S : Type)
  | publisherAdmit (p : P)
  | publisherRead (p : P) (received : Option (List UInt8))
  | publisherWrite (p : P) (written : ℕ)
  | publisherUpdate (p : P)
  | publisherLeave (p : P)
  | subscriberAdmit (u : S) (opened : Bool)
  | subscriberCheck (u : S)
  | subscriberWake (u : S)
  | subscriberRead (u : S)
  | subscriberWrite (u : S) (whole : Bool)
  | subscriberLeave (u : S)

def SubscriberSession.woken (x : SubscriberSession) : SubscriberSession :=
  match x.phase with
  | .asleep => { x with phase := .checking }
  | _ => x

def deliver (packet : List UInt8) : List UInt8 :=
  packet.set (offset messagePacket 0) PacketId.sendMsgSubscriber.code

def accepted : Option (List UInt8) → PublisherSession
  | some msgPacket =>
    if msgPacket.length ≠ sizeof messagePacket ∨
        msgPacket.getD (offset messagePacket 0) 0 ≠ PacketId.sendMsgServer.code then .leaving
    else .writing msgPacket
  | none => .leaving

variable {P S : Type} [DecidableEq P] [DecidableEq S]

def setPublisher (s : Topic P S) (p : P) (x : PublisherSession) : Topic P S :=
  { s with publisherAt := Function.update s.publisherAt p x }

def setSubscriber (s : Topic P S) (u : S) (x : Option SubscriberSession) : Topic P S :=
  { s with subscriberAt := Function.update s.subscriberAt u x }

omit [DecidableEq S] in
lemma setPublisher_at (s : Topic P S) (p q : P) (x : PublisherSession) :
    (setPublisher s p x).publisherAt q = if q = p then x else s.publisherAt q :=
  Function.update_apply _ _ _ _

omit [DecidableEq P] in
lemma setSubscriber_at (s : Topic P S) (u v : S) (x : Option SubscriberSession) :
    (setSubscriber s u x).subscriberAt v = if v = u then x else s.subscriberAt v :=
  Function.update_apply _ _ _ _

def publisherStep (s : Topic P S) (p : P) : PublisherSession → SessionEvent P S →
    Option (Topic P S)
  | .outside, .publisherAdmit _ =>
    if 0 < s.publishers then some s
    else some (setPublisher { s with publishers := 1 } p .reading)
  | .reading, .publisherRead _ received => some (setPublisher s p (accepted received))
  | .writing msgPacket, .publisherWrite _ written =>
    if written = msgPacket.length then some (setPublisher { s with
      file := writeAt s.file s.fdOffset msgPacket
      fdOffset := s.fdOffset + written
      log := s.log ++ [msgPacket] } p .updating)
    else if written < msgPacket.length then some (setPublisher { s with
      file := writeAt s.file s.fdOffset (msgPacket.take written)
      fdOffset := s.fdOffset + written } p .leaving)
    else none
  | .updating, .publisherUpdate _ => some (setPublisher { s with
      size := s.size + sizeof messagePacket
      subscriberAt := fun u => (s.subscriberAt u).map SubscriberSession.woken } p .reading)
  | .leaving, .publisherLeave _ =>
    some (setPublisher { s with publishers := s.publishers - 1 } p .outside)
  | _, _ => none

def subscriberStep (s : Topic P S) (u : S) : Option SubscriberSession → SessionEvent P S →
    Option (Topic P S)
  | none, .subscriberAdmit _ opened =>
    if opened then
      some (setSubscriber { s with subscribers := s.subscribers + 1 } u (some ⟨.checking, 0, []⟩))
    else some s
  | some ⟨.checking, off, sent⟩, .subscriberCheck _ =>
    if s.size = off then some (setSubscriber s u (some ⟨.asleep, off, sent⟩))
    else some (setSubscriber s u (some ⟨.reading, off, sent⟩))
  | some ⟨.asleep, off, sent⟩, .subscriberWake _ =>
    some (setSubscriber s u (some ⟨.checking, off, sent⟩))
  | some ⟨.reading, off, sent⟩, .subscriberRead _ =>
    let packet := (s.file.drop off).take (sizeof messagePacket)
    if packet.length = 0 then some (setSubscriber s u (some ⟨.checking, off, sent⟩))
    else if packet.length ≠ sizeof messagePacket then
      some (setSubscriber s u (some ⟨.leaving, off + packet.length, sent⟩))
    else some (setSubscriber s u (some ⟨.sending (deliver packet), off + packet.length, sent⟩))
  | some ⟨.sending packet, off, sent⟩, .subscriberWrite _ whole =>
    if whole then some (setSubscriber s u (some ⟨.checking, off, sent ++ [packet]⟩))
    else some (setSubscriber s u (some ⟨.leaving, off, sent⟩))
  | some ⟨.leaving, _, _⟩, .subscriberLeave _ =>
    some (setSubscriber { s with subscribers := s.subscribers - 1 } u none)
  | _, _ => none

def topicStep (s : Topic P S) (ev : SessionEvent P S) : Option (Topic P S) :=
  match ev with
  | .publisherAdmit p | .publisherRead p _ | .publisherWrite p _ | .publisherUpdate p
  | .publisherLeave p => publisherStep s p (s.publisherAt p) ev
  | .subscriberAdmit u _ | .subscriberCheck u | .subscriberWake u | .subscriberRead u
  | .subscriberWrite u _ | .subscriberLeave u => subscriberStep s u (s.subscriberAt u) ev

/-- The file may hold anything when the box is created: it is opened without O_TRUNC. -/
def topic (P S : Type) [DecidableEq P] [DecidableEq S] (old : List UInt8) :
    System (Topic P S) (SessionEvent P S) where
  init := ⟨old, 0, 0, 0, 0, fun _ => .outside, fun _ => none, []⟩
  step := topicStep

def WholeWrites (_ : Topic P S) : SessionEvent P S → Prop
  | .publisherWrite _ written => written = sizeof messagePacket
  | _ => True

instance (s : Topic P S) (ev : SessionEvent P S) : Decidable (WholeWrites s ev) := by
  cases ev <;> simp only [WholeWrites] <;> infer_instance

end MessageBroker.Mbroker
