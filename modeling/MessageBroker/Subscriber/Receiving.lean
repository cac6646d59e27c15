import MessageBroker.Lib.Pipe
import MessageBroker.Lib.CString
import MessageBroker.Protocol.Packets

/-! The loop of the subscriber: one read of its message FIFO a round, and what it prints. -/

namespace MessageBroker.Subscriber

open MessageBroker.Lib MessageBroker.Protocol

inductive Phase
  | receiving
  | finished
  | panicked (message : String)
  -- printf left the packet in search of a NUL
  | overran
  deriving DecidableEq

structure Receiver where
  phase : Phase
  errno : ℕ
  messagesReceived : ℕ
  -- what the calls of fprintf were given
  stdout : List UInt8
  -- history: the packets printed, and the errors of the calls that failed
  shown : List (List UInt8)
  printErrors : List ℕ

def eintr : ℕ := 4

def ascii (s : String) : List UInt8 := s.toList.map fun c => UInt8.ofNat c.toNat

def decimal (n : ℕ) : List UInt8 := (Nat.toDigits 10 n).map fun c => UInt8.ofNat c.toNat

def lineShown (packet : List UInt8) : List UInt8 :=
  readString packet (offset messagePacket 1) ++ ascii "\n"

def farewell (messagesReceived : ℕ) : List UInt8 :=
  ascii "Received " ++ decimal messagesReceived ++ ascii " messages!\n"

def Receiver.finish (s : Receiver) : Receiver :=
  { s with phase := .finished, stdout := s.stdout ++ farewell s.messagesReceived }

/-- One round, from what read returned, the bytes or the error it stored in errno, and from the
error that fprintf stored there if it failed. -/
def receiveStep (s : Receiver) (readFromFifo : Except ℕ (List UInt8)) (printError : Option ℕ) :
    Receiver :=
  let (s, packet) := match readFromFifo with
    | .ok packet => (s, packet)
    | .error e => ({ s with errno := e }, [])
  if packet.length ≠ sizeof messagePacket then
    -- a successful read leaves errno as it was
    if s.errno = 0 then s.finish
    else if s.errno = eintr then s.finish
    else { s with phase := .panicked "UNKNOWN ERROR!" }
  else if packet.getD (offset messagePacket 0) 0 ≠ PacketId.sendMsgSubscriber.code then
    { s with phase := .panicked "GOT INVALID PACKET ID!" }
  else if 0 ∉ packet.drop (offset messagePacket 1) then { s with phase := .overran }
  else
    { s with
      -- nobody looks at the result of fprintf
      errno := printError.getD s.errno
      messagesReceived := s.messagesReceived + 1
      stdout := s.stdout ++ lineShown packet
      shown := s.shown ++ [packet]
      printErrors := s.printErrors ++ printError.toList }

/-- At the head of the loop; errno is what main has left there. -/
def connected (errno : ℕ) : Receiver := ⟨.receiving, errno, 0, [], [], []⟩

structure Printable (packet : List UInt8) : Prop where
  whole : packet.length = sizeof messagePacket
  code : packet.getD (offset messagePacket 0) 0 = PacketId.sendMsgSubscriber.code
  ended : 0 ∈ packet.drop (offset messagePacket 1)

variable {s t : Receiver} {packet : List UInt8}

lemma receiveStep_shows (h : Printable packet) (printError : Option ℕ) :
    receiveStep s (.ok packet) printError = { s with
      errno := printError.getD s.errno
      messagesReceived := s.messagesReceived + 1
      stdout := s.stdout ++ lineShown packet
      shown := s.shown ++ [packet]
      printErrors := s.printErrors ++ printError.toList } := by
  have he : ¬ 0 ∉ packet.drop (offset messagePacket 1) := not_not.mpr h.ended
  simp only [receiveStep, h.whole, ne_eq, not_true_eq_false, if_false, h.code, he]

lemma receiveStep_ends (h : s.errno = 0 ∨ s.errno = eintr) (printError : Option ℕ) :
    receiveStep s (.ok []) printError = s.finish := by
  have hne : ([] : List UInt8).length ≠ sizeof messagePacket := by decide
  rw [receiveStep, if_pos hne]
  rcases h with h | h
  · rw [if_pos h]
  · have hz : s.errno ≠ 0 := by rw [h]; decide
    rw [if_neg hz, if_pos h]

lemma receiveStep_fails (h : s.errno ≠ 0) (he : s.errno ≠ eintr) (printError : Option ℕ) :
    receiveStep s (.ok []) printError = { s with phase := .panicked "UNKNOWN ERROR!" } := by
  have hne : ([] : List UInt8).length ≠ sizeof messagePacket := by decide
  rw [receiveStep, if_pos hne, if_neg h, if_neg he]

lemma receiveStep_interrupted (printError : Option ℕ) :
    receiveStep s (.error eintr) printError = { s with errno := eintr }.finish := by
  have hne : ([] : List UInt8).length ≠ sizeof messagePacket := by decide
  have hz : eintr ≠ 0 := by decide
  rw [receiveStep, if_pos hne, if_neg hz, if_pos rfl]

end MessageBroker.Subscriber
