import MessageBroker.Manager.Listing
import MessageBroker.Subscriber.Receiving

/-! The replies of the broker as bytes in the manager's FIFO, and what the manager prints on
reading them. -/

namespace MessageBroker.Manager

open MessageBroker.Lib MessageBroker.Protocol MessageBroker.Mbroker
open MessageBroker.Subscriber (ascii decimal)

/-- The memory of a local variable before anything is stored in it. -/
def stack (garbage : ℕ → UInt8) (l : Layout) : List UInt8 := (List.range (sizeof l)).map garbage

/-- The handlers of create and remove differ in the code and the reason. -/
def fillResponse (packet : List UInt8) (id : PacketId) (errorCode : ℤ) (errorMessage : String) :
    List UInt8 :=
  let packet := packet.set (offset responseCreateMsgBoxPacket 0) id.code
  let packet := writeAt packet (offset responseCreateMsgBoxPacket 2) (List.replicate errorMsgLen 0)
  let packet := writeAt packet (offset responseCreateMsgBoxPacket 1)
    (toBytes 4 (BitVec.ofInt 32 errorCode).toNat)
  if errorCode = 0 then packet
  else strcpy packet (offset responseCreateMsgBoxPacket 2) (ascii errorMessage)

def responseBytes (garbage : ℕ → UInt8) : Reply → List UInt8
  | .create errorCode errorMessage => fillResponse (stack garbage responseCreateMsgBoxPacket)
      .responseCreateMsgBox errorCode errorMessage
  | .remove errorCode errorMessage => fillResponse (stack garbage responseRemoveMsgBoxPacket)
      .responseRemoveMsgBox errorCode errorMessage
  | .list ps =>
    let packet := (stack garbage listMsgBoxResponsePacket).set (offset listMsgBoxResponsePacket 0)
      PacketId.responseListMsgBox.code
    (responses packet ps).flatten

def errorCodeAt (packet : List UInt8) : ℤ :=
  (BitVec.ofNat 32 (ofBytes (slice packet (offset responseCreateMsgBoxPacket 1) 4))).toInt

/-- The end of execute_command_create and of execute_command_remove, from the read on. -/
def executeCommandReply (fifo : List UInt8) : Except Panic (List UInt8) :=
  let responsePacket := fifo.take (sizeof responseCreateMsgBoxPacket)
  if responsePacket.length = 0 then .ok []
  else if responsePacket.length ≠ sizeof responseCreateMsgBoxPacket then .error .unknownError
  else if errorCodeAt responsePacket = 0 then .ok (ascii "OK\n")
  else .ok (ascii "ERROR " ++
    readString responsePacket (offset responseCreateMsgBoxPacket 2) ++ ascii "\n")

def lineText (l : Line) : List UInt8 :=
  l.boxName ++ ascii " " ++ decimal l.boxSize ++ ascii " " ++ decimal l.nPublishers ++ ascii " " ++
    decimal l.nSubscribers ++ ascii "\n"

def Listing.text : Listing → List UInt8
  | .disconnected => []
  | .noBoxesFound => ascii "NO BOXES FOUND\n"
  | .lines ls => ls.flatMap lineText

inductive Command
  | create (box : BoxName)
  | remove (box : BoxName)
  | list
  deriving DecidableEq

def Command.request (pipe : PipeName) : Command → Request
  | .create box => .create pipe box
  | .remove box => .remove pipe box
  | .list => .list pipe

def Command.heading : Command → List UInt8
  | .create _ => ascii "run create box command!\n"
  | .remove _ | .list => []

def Command.finish (qsort : (ℕ → ℕ → ℤ) → List ℕ → List ℕ) (fifo : List UInt8) :
    Command → Except Panic (List UInt8)
  | .create _ | .remove _ => executeCommandReply fifo
  | .list => (executeCommandListReply qsort fifo).map Listing.text

section Response

variable {packet : List UInt8} {id : PacketId} {errorCode : ℤ} {errorMessage : String}

lemma stack_length (garbage : ℕ → UInt8) (l : Layout) : (stack garbage l).length = sizeof l := by
  rw [stack, List.length_map, List.length_range]

lemma fillResponse_read (id : PacketId) (hp : packet.length = sizeof responseCreateMsgBoxPacket)
    (hm : 0 ∉ ascii errorMessage) (hlen : (ascii errorMessage).length < errorMsgLen)
    (hcode : -2 ^ 31 ≤ errorCode ∧ errorCode < 2 ^ 31) :
    (fillResponse packet id errorCode errorMessage).length = sizeof responseCreateMsgBoxPacket ∧
      errorCodeAt (fillResponse packet id errorCode errorMessage) = errorCode ∧
      (errorCode ≠ 0 → readString (fillResponse packet id errorCode errorMessage)
        (offset responseCreateMsgBoxPacket 2) = ascii errorMessage) := by
  have h₁ : offset responseCreateMsgBoxPacket 1 = 1 := rfl
  have h₂ : offset responseCreateMsgBoxPacket 2 = 5 := rfl
  have hs : sizeof responseCreateMsgBoxPacket = 1029 := rfl
  have he : errorMsgLen = 1024 := rfl
  rw [hs] at hp ⊢
  rw [he] at hlen
  simp only [fillResponse, h₁, h₂, he]
  have l0 : (packet.set (offset responseCreateMsgBoxPacket 0) id.code).length =
      sizeof responseCreateMsgBoxPacket := List.length_set.trans hp
  generalize packet.set (offset responseCreateMsgBoxPacket 0) id.code = pa at l0 ⊢
  have rb : 5 + (List.replicate 1024 (0 : UInt8)).length ≤ pa.length := by
    rw [List.length_replicate]
    omega
  have lb := writeAt_length rb
  generalize writeAt pa 5 (List.replicate 1024 0) = pb at lb ⊢
  have l4 : (toBytes 4 (BitVec.ofInt 32 errorCode).toNat).length = 4 := toBytes_length 4 _
  have rc : 1 + (toBytes 4 (BitVec.ofInt 32 errorCode).toNat).length ≤ pb.length := by omega
  have lc := writeAt_length rc
  have sc := slice_writeAt_self rc
  generalize writeAt pb 1 (toBytes 4 (BitVec.ofInt 32 errorCode).toNat) = pc at lc sc ⊢
  rw [l4] at sc
  have hint : (BitVec.ofNat 32 (ofBytes (toBytes 4 (BitVec.ofInt 32 errorCode).toNat))).toInt =
      errorCode := by
    have hlt : (BitVec.ofInt 32 errorCode).toNat < 256 ^ 4 :=
      (BitVec.ofInt 32 errorCode).isLt.trans_le (by norm_num)
    rw [ofBytes_toBytes_of_lt hlt, BitVec.ofNat_toNat, BitVec.setWidth_eq,
      BitVec.toInt_ofInt_eq_self (by decide) hcode.1 hcode.2]
  by_cases hz : errorCode = 0
  · rw [if_pos hz]
    refine ⟨by omega, ?_, fun hne => absurd hz hne⟩
    rw [errorCodeAt, h₁, sc, hint]
  · rw [if_neg hz]
    have rd : 5 + (ascii errorMessage ++ [0]).length ≤ pc.length := by
      rw [List.length_append, List.length_singleton]
      omega
    have ld := writeAt_length rd
    refine ⟨by rw [strcpy]; omega, ?_, fun _ => readString_strcpy (by omega) hm⟩
    rw [errorCodeAt, h₁, strcpy, slice_writeAt_before rd (by omega), sc, hint]

def Worded (errorMessage : String) : Prop :=
  0 ∉ ascii errorMessage ∧ (ascii errorMessage).length < errorMsgLen

instance (errorMessage : String) : Decidable (Worded errorMessage) := by
  unfold Worded
  infer_instance

lemma executeCommandReply_fill (hp : packet.length = sizeof responseCreateMsgBoxPacket)
    (hm : Worded errorMessage) (hcode : -2 ^ 31 ≤ errorCode ∧ errorCode < 2 ^ 31) :
    executeCommandReply (fillResponse packet id errorCode errorMessage) =
      .ok (if errorCode = 0 then ascii "OK\n"
        else ascii "ERROR " ++ ascii errorMessage ++ ascii "\n") := by
  obtain ⟨hlen, hread, htext⟩ := fillResponse_read id hp hm.1 hm.2 hcode
  generalize fillResponse packet id errorCode errorMessage = q at hlen hread htext
  have h0 : ¬ sizeof responseCreateMsgBoxPacket = 0 := by decide
  have htake : q.take (sizeof responseCreateMsgBoxPacket) = q := by
    rw [← hlen, List.take_length]
  simp only [executeCommandReply, htake, hlen, if_neg h0, hread, ne_eq, not_true_eq_false, if_false]
  by_cases hz : errorCode = 0
  · rw [if_pos hz, if_pos hz]
  · rw [if_neg hz, if_neg hz, htext hz]

end Response

section Lines

variable {qsort : (ℕ → ℕ → ℤ) → List ℕ → List ℕ} {xs : List (ℕ × MessageBox)} {buf : List UInt8}

lemma listReply_cases (hq : Sorts qsort) (hb : buf.length = 58) (hx : xs ≠ [])
    (hn : (xs.map fun x => x.2.name).Nodup) :
    (executeCommandListReply qsort (sent buf xs).flatten = .error .capacityExceeded ∧
        capacityLimit < xs.length) ∨
      (executeCommandListReply qsort (sent buf xs).flatten = .ok .noBoxesFound ∧
        ¬ LastNamed xs) ∨
      ∃ ls, executeCommandListReply qsort (sent buf xs).flatten = .ok (.lines ls) ∧
        LastNamed xs ∧ ls.Perm (xs.map fun x => boxLine x.2) ∧
        ls.Pairwise (fun l m => strcmp l.boxName m.boxName < 0) := by
  have hlen : xs.length ≤ (sent buf xs).flatten.length + 1 := by
    rw [flatten_length (sent_width hb), sent_length]
    omega
  have he : Ends (vectorCreate 5) [] (sent buf xs) xs
      (receive ((sent buf xs).flatten.length + 1) (vectorCreate 5) [] (sent buf xs).flatten) :=
    receive_sent (by decide) hx hb hlen
  rw [executeCommandListReply]
  generalize receive _ _ _ _ = r at he ⊢
  rcases r with panic | ⟨⟩ | ⟨⟩ | ⟨w, memory⟩
  · obtain ⟨rfl, hlt⟩ := he
    exact .inl ⟨rfl, by simpa [vectorCreate] using hlt⟩
  · exact he.elim
  · exact .inr (.inl ⟨rfl, he⟩)
  · obtain ⟨hl, rfl, hw⟩ := he
    have hbuff : w.buff = List.range' 0 xs.length := hw
    obtain ⟨hperm, hsorted⟩ := sorted_lines hq hb hn hbuff
    exact .inr (.inr ⟨_, rfl, hl, hperm, hsorted⟩)

end Lines

end MessageBroker.Manager
