import MessageBroker.Lib.Strings
import MessageBroker.Protocol.Packets

/-! From the argument vector of manager, pub and sub to the packet their encoder fills, and what
the handlers of the broker read in it. -/

namespace MessageBroker.Clients

open MessageBroker.Lib MessageBroker.Protocol

structure Argument where
  bytes : List UInt8
  noNul : 0 ∉ bytes

lemma nil_noNul : (0 : UInt8) ∉ [] := List.not_mem_nil

instance : Inhabited Argument := ⟨⟨[], nil_noNul⟩⟩

def strnlen (s : List UInt8) (n : ℕ) : ℕ := (text (s.take n)).length

inductive Encoder
  | create
  | remove
  | registerSub
  | registerPub
  deriving DecidableEq

namespace Encoder

def id : Encoder → PacketId
  | .create => .createMsgBox
  | .remove => .removeMsgBox
  | .registerSub => .registerSubscriber
  | .registerPub => .registerPublisher

def fill : Encoder → List UInt8 → List UInt8 → List UInt8
  | .create => writePacketCreate
  | .remove => writePacketRemove
  | .registerSub => writePacketRegisterSub
  | .registerPub => writePacketRegisterPub

end Encoder

inductive MainResult
  | usage
  | encodes (encoder : Encoder) (clientNamedPipe boxName : List UInt8)
  | lists (pipeName : List UInt8)
  deriving DecidableEq

inductive Command
  | create
  | remove
  | list
  deriving DecidableEq

def commandsStr : List (List UInt8 × Command) :=
  [([99, 114, 101, 97, 116, 101], .create), ([114, 101, 109, 111, 118, 101], .remove),
    ([108, 105, 115, 116], .list)]

def findCommand (cmd : List UInt8) : Option Command :=
  (commandsStr.find? (fun c => strcmp c.1 cmd = 0)).map Prod.snd

def managerMain (argv : List Argument) : MainResult :=
  if ¬ (argv.length = 4 ∨ argv.length = 5) then .usage
  else
    let pipeName := (argv.getD 2 default).bytes
    if strnlen pipeName maxPipeNameLen = maxPipeNameLen then .usage
    else
      match findCommand (argv.getD 3 default).bytes with
      | some .create =>
        if argv.length ≠ 5 then .usage else .encodes .create pipeName (argv.getD 4 default).bytes
      | some .remove =>
        if argv.length ≠ 5 then .usage else .encodes .remove pipeName (argv.getD 4 default).bytes
      | some .list => if argv.length ≠ 4 then .usage else .lists pipeName
      | none => .usage

/-- The mains of pub and sub up to the packet differ in the encoder they call. -/
def registerMain (encoder : Encoder) (argv : List Argument) : MainResult :=
  if argv.length ≠ 4 ∨
      strnlen (argv.getD 2 default).bytes maxPipeNameLen = maxPipeNameLen ∨
      strnlen (argv.getD 3 default).bytes maxBoxNameLen = maxBoxNameLen then .usage
  else .encodes encoder (argv.getD 2 default).bytes (argv.getD 3 default).bytes

def pubMain : List Argument → MainResult := registerMain .registerPub

def subMain : List Argument → MainResult := registerMain .registerSub

inductive Client
  | manager
  | pub
  | sub
  deriving DecidableEq

namespace Client

def main : Client → List Argument → MainResult
  | .manager => managerMain
  | .pub => pubMain
  | .sub => subMain

def boxName (client : Client) (argv : List Argument) : List UInt8 :=
  match client with
  | .manager => (argv.getD 4 default).bytes
  | .pub | .sub => (argv.getD 3 default).bytes

def code (client : Client) (argv : List Argument) : UInt8 :=
  match client with
  | .manager =>
    if (argv.getD 3 default).bytes = [99, 114, 101, 97, 116, 101] then PacketId.createMsgBox.code
    else PacketId.removeMsgBox.code
  | .pub => PacketId.registerPublisher.code
  | .sub => PacketId.registerSubscriber.code

end Client

/-- strcpy of `src` to the field stays inside it, its NUL included. -/
def WritesInside (layout : Layout) (field : ℕ) (src : List UInt8) : Prop :=
  offset layout field + (src.length + 1) ≤ offset layout (field + 1)

def fieldString (packet : List UInt8) (layout : Layout) (field : ℕ) : Option (List UInt8) :=
  let bytes := slice packet (offset layout field) (layout.getD field 0)
  if 0 ∈ bytes then some (text bytes) else none

def decodePacket (packet : List UInt8) : Option (UInt8 × List UInt8 × List UInt8) := do
  let code ← packet[0]?
  let clientNamedPipe ← fieldString packet registerPublisherPacket 1
  let boxName ← fieldString packet registerPublisherPacket 2
  some (code, clientNamedPipe, boxName)

structure SentFaithfully (client : Client) (argv : List Argument) (encoder : Encoder)
    (clientNamedPipe boxName : List UInt8) : Prop where
  pipeInside : WritesInside registerPublisherPacket 1 clientNamedPipe
  boxInside : WritesInside registerPublisherPacket 2 boxName
  -- write(fifo, &packet, sizeof(packet))
  decoded : decodePacket ((encoder.fill clientNamedPipe boxName).take
      (sizeof registerPublisherPacket)) =
    some (client.code argv, (argv.getD 2 default).bytes, client.boxName argv)

variable {client : Client} {argv : List Argument} {encoder : Encoder}
  {clientNamedPipe boxName : List UInt8}

lemma strnlen_ne {s : List UInt8} {n : ℕ} (h : strnlen s n ≠ n) (hs : 0 ∉ s) : s.length < n := by
  have hmin : strnlen s n = min n s.length := by
    rw [strnlen, text_of_noNul (fun hm => hs (List.mem_of_mem_take hm)), List.length_take]
  omega

lemma strcmp_eq_zero {a b : List UInt8} (ha : 0 ∉ a) (hb : 0 ∉ b) : strcmp a b = 0 ↔ a = b := by
  rw [(strcmp_key a b).1, textKey_inj, text_of_noNul ha, text_of_noNul hb]

lemma findCommand_cases {cmd : List UInt8} (h : 0 ∉ cmd) :
    (findCommand cmd = some .create ↔ cmd = [99, 114, 101, 97, 116, 101]) ∧
      (findCommand cmd = some .remove ↔ cmd = [114, 101, 109, 111, 118, 101]) := by
  have hcreate := strcmp_eq_zero (a := [99, 114, 101, 97, 116, 101]) (by decide) h
  have hremove := strcmp_eq_zero (a := [114, 101, 109, 111, 118, 101]) (by decide) h
  have hlist := strcmp_eq_zero (a := [108, 105, 115, 116]) (by decide) h
  simp only [findCommand, commandsStr, List.find?_cons, List.find?_nil, hcreate, hremove, hlist]
  by_cases hc : cmd = [99, 114, 101, 97, 116, 101]
  · subst hc
    simp
  · by_cases hr : cmd = [114, 101, 109, 111, 118, 101]
    · subst hr
      simp
    · by_cases hl : cmd = [108, 105, 115, 116]
      · subst hl
        simp
      · simp [Ne.symm hc, Ne.symm hr, Ne.symm hl, hc, hr]

lemma registerMain_encodes {called : Encoder}
    (h : registerMain encoder argv = .encodes called clientNamedPipe boxName) :
    called = encoder ∧ clientNamedPipe = (argv.getD 2 default).bytes ∧
      boxName = (argv.getD 3 default).bytes ∧ clientNamedPipe.length < maxPipeNameLen ∧
      boxName.length < maxBoxNameLen := by
  rw [registerMain] at h
  split_ifs at h with hc
  cases h
  rw [not_or, not_or] at hc
  exact ⟨rfl, rfl, rfl, strnlen_ne hc.2.1 (Argument.noNul _), strnlen_ne hc.2.2 (Argument.noNul _)⟩

lemma managerMain_encodes (h : managerMain argv = .encodes encoder clientNamedPipe boxName) :
    clientNamedPipe = (argv.getD 2 default).bytes ∧ boxName = (argv.getD 4 default).bytes ∧
      clientNamedPipe.length < maxPipeNameLen ∧
      encoder.id.code = Client.manager.code argv := by
  obtain ⟨hcreate, hremove⟩ := findCommand_cases (argv.getD 3 default).noNul
  rw [managerMain] at h
  split at h
  · cases h
  · rename_i hargc
    dsimp only at h
    split at h
    · cases h
    · rename_i hpipe
      have hlen := strnlen_ne hpipe (Argument.noNul _)
      cases hcmd : findCommand (argv.getD 3 default).bytes with
      | none => simp only [hcmd, reduceCtorEq] at h
      | some cmd =>
        cases cmd with
        | create =>
          simp only [hcmd] at h
          split_ifs at h
          cases h
          exact ⟨rfl, rfl, hlen, (if_pos (hcreate.mp hcmd)).symm⟩
        | remove =>
          simp only [hcmd] at h
          split_ifs at h
          cases h
          refine ⟨rfl, rfl, hlen, (if_neg ?_).symm⟩
          rw [hremove.mp hcmd]
          decide
        | list =>
          simp only [hcmd] at h
          split_ifs at h

lemma fieldString_field {n : ℕ} (s : CString n) (front back : List UInt8) {layout : Layout}
    {field : ℕ} (hoff : offset layout field = front.length) (hsize : layout.getD field 0 = n) :
    fieldString (front ++ (s.field ++ back)) layout field = some s.bytes := by
  have hbytes : slice (front ++ (s.field ++ back)) (offset layout field) (layout.getD field 0) =
      s.field := by
    rw [slice, hoff, hsize, List.drop_left, List.take_left' s.field_length]
  have hmem : 0 ∈ s.field := by
    rw [s.field_eq]
    simp
  have htext : text s.field = s.bytes := by
    rw [s.field_eq, List.append_assoc, List.singleton_append]
    exact text_append_nul s.noNul _
  simp only [fieldString, hbytes, hmem, htext, if_true]

lemma fill_eq (encoder : Encoder) (pipe : PipeName) (box : BoxName) :
    encoder.fill pipe.bytes box.bytes = encoder.id.code :: (pipe.field ++ box.field) := by
  cases encoder <;> exact writePacket_eq _ pipe box

lemma decodePacket_fill (encoder : Encoder) (pipe : PipeName) (box : BoxName) :
    decodePacket ((encoder.fill pipe.bytes box.bytes).take (sizeof registerPublisherPacket)) =
      some (encoder.id.code, pipe.bytes, box.bytes) := by
  have hwhole : (encoder.fill pipe.bytes box.bytes).length = sizeof registerPublisherPacket := by
    rw [fill_eq, List.length_cons, List.length_append, pipe.field_length, box.field_length]
    rfl
  have hpipe : fieldString ([encoder.id.code] ++ (pipe.field ++ box.field))
      registerPublisherPacket 1 = some pipe.bytes := fieldString_field pipe _ _ rfl rfl
  have hfront : offset registerPublisherPacket 2 = (encoder.id.code :: pipe.field).length := by
    rw [List.length_cons, pipe.field_length]
    rfl
  have hbox : fieldString (encoder.id.code :: pipe.field ++ (box.field ++ []))
      registerPublisherPacket 2 = some box.bytes := fieldString_field box _ _ hfront rfl
  rw [List.append_nil] at hbox
  rw [← hwhole, List.take_length, fill_eq]
  simp only [List.singleton_append] at hpipe
  simp only [List.cons_append] at hbox
  simp [decodePacket, hpipe, hbox]

/-- manager never looks at the length of the box name. -/
theorem sent_faithfully_iff (h : client.main argv = .encodes encoder clientNamedPipe boxName) :
    SentFaithfully client argv encoder clientNamedPipe boxName ↔
      (client = .manager → (client.boxName argv).length < maxBoxNameLen) := by
  have hmain : clientNamedPipe = (argv.getD 2 default).bytes ∧ boxName = client.boxName argv ∧
      clientNamedPipe.length < maxPipeNameLen ∧ encoder.id.code = client.code argv ∧
      (client ≠ .manager → boxName.length < maxBoxNameLen) := by
    cases client with
    | manager =>
      obtain ⟨hpipe, hbox, hlen, hcode⟩ := managerMain_encodes h
      exact ⟨hpipe, hbox, hlen, hcode, fun hne => (hne rfl).elim⟩
    | pub | sub =>
      obtain ⟨rfl, hpipe, hbox, hlen, hboxlen⟩ := registerMain_encodes h
      exact ⟨hpipe, hbox, hlen, rfl, fun _ => hboxlen⟩
  obtain ⟨hpipe, hbox, hpipelen, hcode, hregister⟩ := hmain
  constructor
  · intro hsent _
    have hinside := hsent.boxInside
    simp only [WritesInside, offset, registerPublisherPacket, List.take, List.sum_cons,
      List.sum_nil] at hinside
    rw [← hbox]
    omega
  · intro hmanager
    have hboxlen : boxName.length < maxBoxNameLen := by
      by_cases hc : client = .manager
      · exact hbox ▸ hmanager hc
      · exact hregister hc
    have hpipeNul : 0 ∉ clientNamedPipe := hpipe ▸ Argument.noNul _
    have hboxNul : 0 ∉ boxName := by
      rw [hbox]
      cases client <;> exact Argument.noNul _
    refine ⟨?_, ?_, ?_⟩
    · simp only [WritesInside, offset, registerPublisherPacket, List.take, List.sum_cons,
        List.sum_nil]
      omega
    · simp only [WritesInside, offset, registerPublisherPacket, List.take, List.sum_cons,
        List.sum_nil]
      omega
    · rw [← hpipe, ← hbox, ← hcode]
      exact decodePacket_fill encoder ⟨clientNamedPipe, hpipeNul, hpipelen⟩
        ⟨boxName, hboxNul, hboxlen⟩

def createLine (boxName : List UInt8) (h : 0 ∉ boxName) : List Argument :=
  List.pmap Argument.mk [[109], [114], [112], [99, 114, 101, 97, 116, 101], boxName] (by simp [h])

theorem sent_faithfully_iff_create :
    SentFaithfully .manager (createLine [98] (by decide)) .create [112] [98] ↔
      (Client.manager = .manager →
        (Client.manager.boxName (createLine [98] (by decide))).length < maxBoxNameLen) :=
  sent_faithfully_iff (show Client.manager.main (createLine [98] (by decide)) = _ by decide)

theorem long_box_name_unterminated :
    Client.manager.main (createLine (List.replicate 32 97) (by decide)) =
        .encodes .create [112] (List.replicate 32 97) ∧
      ¬ WritesInside registerPublisherPacket 2 (List.replicate 32 97) ∧
      decodePacket ((Encoder.create.fill [112] (List.replicate 32 97)).take
        (sizeof registerPublisherPacket)) = none ∧
      ¬ SentFaithfully .manager (createLine (List.replicate 32 97) (by decide)) .create [112]
        (List.replicate 32 97) := by
  have hinside : ¬ WritesInside registerPublisherPacket 2 (List.replicate 32 97) := by
    simp [WritesInside, offset, registerPublisherPacket, maxPipeNameLen, maxBoxNameLen]
  exact ⟨by decide +kernel, hinside, by decide +kernel, fun h => hinside h.boxInside⟩

end MessageBroker.Clients
