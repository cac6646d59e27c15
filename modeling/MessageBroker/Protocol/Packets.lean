import MessageBroker.Lib.CString

/-! The packets of protocol.h, their packed layouts, and the requests a client writes to the
register FIFO. -/

namespace MessageBroker.Protocol

open MessageBroker.Lib

inductive PacketId
  | registerPublisher
  | registerSubscriber
  | createMsgBox
  | responseCreateMsgBox
  | removeMsgBox
  | responseRemoveMsgBox
  | listMsgBox
  | responseListMsgBox
  | sendMsgServer
  | sendMsgSubscriber
  deriving DecidableEq

def PacketId.code : PacketId → UInt8
  | .registerPublisher => 1
  | .registerSubscriber => 2
  | .createMsgBox => 3
  | .responseCreateMsgBox => 4
  | .removeMsgBox => 5
  | .responseRemoveMsgBox => 6
  | .listMsgBox => 7
  | .responseListMsgBox => 8
  | .sendMsgServer => 9
  | .sendMsgSubscriber => 10

def errorMsgLen : ℕ := 1024
def msgLen : ℕ := 1024
def maxPipeNameLen : ℕ := 256
def maxBoxNameLen : ℕ := 32

abbrev PipeName := CString maxPipeNameLen
abbrev BoxName := CString maxBoxNameLen

abbrev Layout := List ℕ

def sizeof (l : Layout) : ℕ := l.sum

def offset (l : Layout) (i : ℕ) : ℕ := (l.take i).sum

def registerPublisherPacket : Layout := [1, maxPipeNameLen, maxBoxNameLen]
def registerSubscriberPacket : Layout := registerPublisherPacket
def createMsgBoxPacket : Layout := registerPublisherPacket
def responseCreateMsgBoxPacket : Layout := [1, 4, errorMsgLen]
def removeMsgBoxPacket : Layout := registerPublisherPacket
def responseRemoveMsgBoxPacket : Layout := responseCreateMsgBoxPacket
def listMsgBoxPacket : Layout := [1, maxPipeNameLen]
def listMsgBoxResponsePacket : Layout := [1, 1, 32, 8, 8, 8]
def messagePacket : Layout := [1, msgLen]

def packetSize : List ℕ :=
  [sizeof registerPublisherPacket,
    sizeof registerSubscriberPacket,
    sizeof createMsgBoxPacket,
    sizeof responseCreateMsgBoxPacket,
    sizeof removeMsgBoxPacket,
    sizeof responseRemoveMsgBoxPacket,
    sizeof listMsgBoxPacket,
    sizeof listMsgBoxResponsePacket,
    sizeof messagePacket,
    sizeof messagePacket]

def idSizeLookup (id : ℕ) : ℤ :=
  if ¬ (PacketId.registerPublisher.code.toNat ≤ id ∧ id ≤ PacketId.sendMsgSubscriber.code.toNat)
  then -1
  else packetSize.getD (id - 1) 0

/-- The four writers of protocol.c differ in the code and in nothing else. -/
def writePacket (id : PacketId) (layout : Layout) (clientNamedPipe boxName : List UInt8) :
    List UInt8 :=
  let packet := List.replicate (sizeof layout) 0
  let packet := packet.set (offset layout 0) id.code
  let packet := strcpy packet (offset layout 1) clientNamedPipe
  strcpy packet (offset layout 2) boxName

def writePacketCreate (clientNamedPipe msgBox : List UInt8) : List UInt8 :=
  writePacket .createMsgBox createMsgBoxPacket clientNamedPipe msgBox

def writePacketRemove (clientNamedPipe msgBox : List UInt8) : List UInt8 :=
  writePacket .removeMsgBox createMsgBoxPacket clientNamedPipe msgBox

def writePacketRegisterSub (clientNamedPipe boxName : List UInt8) : List UInt8 :=
  writePacket .registerSubscriber registerSubscriberPacket clientNamedPipe boxName

def writePacketRegisterPub (clientNamedPipe boxName : List UInt8) : List UInt8 :=
  writePacket .registerPublisher registerPublisherPacket clientNamedPipe boxName

def executeCommandList (pipeName : List UInt8) : List UInt8 :=
  let packet := List.replicate (sizeof listMsgBoxPacket) 0
  let packet := packet.set (offset listMsgBoxPacket 0) PacketId.listMsgBox.code
  strcpy packet (offset listMsgBoxPacket 1) pipeName

inductive Request
  | registerPub (pipe : PipeName) (box : BoxName)
  | registerSub (pipe : PipeName) (box : BoxName)
  | create (pipe : PipeName) (box : BoxName)
  | remove (pipe : PipeName) (box : BoxName)
  | list (pipe : PipeName)
  deriving DecidableEq

namespace Request

def id : Request → PacketId
  | .registerPub _ _ => .registerPublisher
  | .registerSub _ _ => .registerSubscriber
  | .create _ _ => .createMsgBox
  | .remove _ _ => .removeMsgBox
  | .list _ => .listMsgBox

def encode : Request → List UInt8
  | .registerPub pipe box => writePacketRegisterPub pipe.bytes box.bytes
  | .registerSub pipe box => writePacketRegisterSub pipe.bytes box.bytes
  | .create pipe box => writePacketCreate pipe.bytes box.bytes
  | .remove pipe box => writePacketRemove pipe.bytes box.bytes
  | .list pipe => executeCommandList pipe.bytes

end Request

lemma writePacket_eq (id : PacketId) (pipe : PipeName) (box : BoxName) :
    writePacket id registerPublisherPacket pipe.bytes box.bytes =
      id.code :: (pipe.field ++ box.field) := by
  have hz : (List.replicate (sizeof registerPublisherPacket) 0).set
      (offset registerPublisherPacket 0) id.code =
      [id.code] ++ (List.replicate maxPipeNameLen 0 ++ List.replicate maxBoxNameLen 0) := by
    have hs : sizeof registerPublisherPacket = 1 + (maxPipeNameLen + maxBoxNameLen) := rfl
    rw [hs, List.replicate_add, List.replicate_add]
    rfl
  have hp := strcpy_field pipe [id.code] (List.replicate maxBoxNameLen 0)
  have hb := strcpy_field box (id.code :: pipe.field) []
  have hlen : (id.code :: pipe.field).length = offset registerPublisherPacket 2 := by
    rw [List.length_cons, CString.field_length]
    rfl
  rw [hlen] at hb
  simp only [writePacket, hz]
  rw [show offset registerPublisherPacket 1 = [id.code].length from rfl, hp]
  simpa using hb

lemma executeCommandList_eq (pipe : PipeName) :
    executeCommandList pipe.bytes = PacketId.listMsgBox.code :: pipe.field := by
  have hp := strcpy_field pipe [PacketId.listMsgBox.code] []
  rw [List.append_nil, List.append_nil] at hp
  exact hp

lemma Request.encode_eq (r : Request) : ∃ body, r.encode = r.id.code :: body ∧
    idSizeLookup r.id.code.toNat = ((body.length + 1 : ℕ) : ℤ) ∧ body ≠ [] := by
  cases r with
  | list pipe =>
    refine ⟨pipe.field, executeCommandList_eq pipe, ?_, ?_⟩
    · rw [CString.field_length]
      rfl
    · exact List.ne_nil_of_length_pos (by rw [CString.field_length]; decide)
  | registerPub pipe box | registerSub pipe box | create pipe box | remove pipe box =>
    refine ⟨pipe.field ++ box.field, writePacket_eq _ pipe box, ?_, ?_⟩
    · rw [List.length_append, CString.field_length, CString.field_length]
      rfl
    · apply List.ne_nil_of_length_pos
      rw [List.length_append, CString.field_length]
      exact Nat.add_pos_left (by decide) _

section Names

-- names for concrete runs: p, q, s, and a, b
def pipeP : PipeName := ⟨[112], by decide, by decide⟩
def pipeQ : PipeName := ⟨[113], by decide, by decide⟩
def pipeS : PipeName := ⟨[115], by decide, by decide⟩
def boxA : BoxName := ⟨[97], by decide, by decide⟩
def boxB : BoxName := ⟨[98], by decide, by decide⟩

end Names

end MessageBroker.Protocol
