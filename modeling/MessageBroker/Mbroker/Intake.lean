import MessageBroker.Lib.TransitionSystem
import MessageBroker.Protocol.Packets

/-! The main loop of mbroker.c, which cuts the register FIFO into packets, and the dispatch of
a packet to its handler. -/

namespace MessageBroker.Mbroker

open MessageBroker.Lib MessageBroker.Protocol

inductive Panic
  | illegalPacketId
  | noMemory
  | corruptedPipe
  deriving DecidableEq

inductive Reader
  | readId
  | readBody (packetId : UInt8) (packetSize : ℕ)
  | enqueue (data : List UInt8)
  | panicked (why : Panic)
  deriving DecidableEq

structure Intake where
  fifo : List UInt8
  reader : Reader
  enqueued : List (List UInt8)
  -- history: the requests clients have written
  written : List Request

inductive IntakeEvent
  | write (r : Request)
  | readId (malloc : Bool)
  | readBody
  | enqueue
  deriving DecidableEq

def IntakeEvent.isMain : IntakeEvent → Bool
  | .write _ => false
  | _ => true

def IntakeEvent.allocates : IntakeEvent → Bool
  | .readId malloc => malloc
  | _ => true

/-- A read blocks on an empty FIFO and otherwise returns what is there, up to its length. -/
def intakeStep (s : Intake) : IntakeEvent → Option Intake
  | .write r => some { s with
      fifo := s.fifo ++ r.encode
      written := s.written ++ [r] }
  | .readId malloc =>
    match s.reader, s.fifo with
    | .readId, packetId :: fifo =>
      let packetSize := idSizeLookup packetId.toNat
      some { s with
        fifo := fifo
        reader :=
          if packetSize = -1 then .panicked .illegalPacketId
          else if ¬ malloc then .panicked .noMemory
          else .readBody packetId packetSize.toNat }
    | _, _ => none
  | .readBody =>
    match s.reader, s.fifo with
    | .readBody packetId packetSize, _ :: _ =>
      let body := s.fifo.take (packetSize - 1)
      some { s with
        fifo := s.fifo.drop (packetSize - 1)
        reader :=
          if body.length ≠ packetSize - 1 then .panicked .corruptedPipe
          else .enqueue (packetId :: body) }
    | _, _ => none
  | .enqueue =>
    match s.reader with
    | .enqueue data => some { s with
        reader := .readId
        enqueued := s.enqueued ++ [data] }
    | _ => none

def intake : System Intake IntakeEvent where
  init := ⟨[], .readId, [], []⟩
  step := intakeStep

structure UnknownPacket where
  id : UInt8
  packetData : List UInt8

inductive Handling
  | registerPub (clientNamedPipe boxName : List UInt8)
  | registerSub (clientNamedPipe boxName : List UInt8)
  | createMsgBox (clientNamedPipe boxName : List UInt8)
  | removeMsgBox (clientNamedPipe boxName : List UInt8)
  | listMsgBox (clientNamedPipe : List UInt8)
  | panic
  deriving DecidableEq

def handlePacketRegisterPub (upacket : UnknownPacket) : Handling :=
  .registerPub (readString upacket.packetData (offset registerPublisherPacket 1))
    (readString upacket.packetData (offset registerPublisherPacket 2))

def handlePacketRegisterSub (upacket : UnknownPacket) : Handling :=
  if upacket.packetData.getD (offset registerSubscriberPacket 0) 0 ≠
      PacketId.registerSubscriber.code then .panic
  else .registerSub (readString upacket.packetData (offset registerSubscriberPacket 1))
    (readString upacket.packetData (offset registerSubscriberPacket 2))

def handlePacketCreateMsgBox (upacket : UnknownPacket) : Handling :=
  .createMsgBox (readString upacket.packetData (offset createMsgBoxPacket 1))
    (readString upacket.packetData (offset createMsgBoxPacket 2))

def handlePacketRemoveMsgBox (upacket : UnknownPacket) : Handling :=
  .removeMsgBox (readString upacket.packetData (offset removeMsgBoxPacket 1))
    (readString upacket.packetData (offset removeMsgBoxPacket 2))

def handlePacketListMsgBox (upacket : UnknownPacket) : Handling :=
  .listMsgBox (readString upacket.packetData (offset listMsgBoxPacket 1))

def processPacket (packet : UnknownPacket) : Handling :=
  if packet.id = PacketId.registerPublisher.code then handlePacketRegisterPub packet
  else if packet.id = PacketId.registerSubscriber.code then handlePacketRegisterSub packet
  else if packet.id = PacketId.createMsgBox.code then handlePacketCreateMsgBox packet
  else if packet.id = PacketId.removeMsgBox.code then handlePacketRemoveMsgBox packet
  else if packet.id = PacketId.listMsgBox.code then handlePacketListMsgBox packet
  else .panic

def unknownPacket (data : List UInt8) : UnknownPacket := ⟨data.getD 0 0, data⟩

def handling : Request → Handling
  | .registerPub pipe box => .registerPub pipe.bytes box.bytes
  | .registerSub pipe box => .registerSub pipe.bytes box.bytes
  | .create pipe box => .createMsgBox pipe.bytes box.bytes
  | .remove pipe box => .removeMsgBox pipe.bytes box.bytes
  | .list pipe => .listMsgBox pipe.bytes

section Dispatch

variable {id : PacketId} {pipe : PipeName} {box : BoxName}

lemma read_pipe : readString (writePacket id registerPublisherPacket pipe.bytes box.bytes)
    (offset registerPublisherPacket 1) = pipe.bytes := by
  rw [writePacket_eq]
  exact readString_field pipe [id.code] box.field

lemma read_box : readString (writePacket id registerPublisherPacket pipe.bytes box.bytes)
    (offset registerPublisherPacket 2) = box.bytes := by
  have hb := readString_field box (id.code :: pipe.field) []
  have hlen : (id.code :: pipe.field).length = offset registerPublisherPacket 2 := by
    rw [List.length_cons, CString.field_length]
    rfl
  rw [writePacket_eq, ← hlen]
  simpa using hb

lemma read_code : (writePacket id registerPublisherPacket pipe.bytes box.bytes).getD 0 0 =
    id.code := by
  rw [writePacket_eq]
  rfl

lemma processPacket_encode (r : Request) :
    processPacket (unknownPacket r.encode) = handling r := by
  cases r with
  | registerPub pipe box =>
    have hid : (unknownPacket (Request.registerPub pipe box).encode).id =
        PacketId.registerPublisher.code := @read_code .registerPublisher pipe box
    rw [processPacket, if_pos hid]
    exact congrArg₂ Handling.registerPub read_pipe read_box
  | registerSub pipe box =>
    have hid : (unknownPacket (Request.registerSub pipe box).encode).id =
        PacketId.registerSubscriber.code := @read_code .registerSubscriber pipe box
    have hcode : ¬ (unknownPacket (Request.registerSub pipe box).encode).packetData.getD
        (offset registerSubscriberPacket 0) 0 ≠ PacketId.registerSubscriber.code :=
      not_not.mpr (@read_code .registerSubscriber pipe box)
    rw [processPacket, if_neg (by rw [hid]; decide), if_pos hid, handlePacketRegisterSub,
      if_neg hcode]
    exact congrArg₂ Handling.registerSub read_pipe read_box
  | create pipe box =>
    have hid : (unknownPacket (Request.create pipe box).encode).id = PacketId.createMsgBox.code :=
      @read_code .createMsgBox pipe box
    rw [processPacket, if_neg (by rw [hid]; decide), if_neg (by rw [hid]; decide), if_pos hid]
    exact congrArg₂ Handling.createMsgBox read_pipe read_box
  | remove pipe box =>
    have hid : (unknownPacket (Request.remove pipe box).encode).id = PacketId.removeMsgBox.code :=
      @read_code .removeMsgBox pipe box
    rw [processPacket, if_neg (by rw [hid]; decide), if_neg (by rw [hid]; decide),
      if_neg (by rw [hid]; decide), if_pos hid]
    exact congrArg₂ Handling.removeMsgBox read_pipe read_box
  | list pipe =>
    have he : (Request.list pipe).encode = PacketId.listMsgBox.code :: pipe.field :=
      executeCommandList_eq pipe
    have hid : (unknownPacket (Request.list pipe).encode).id = PacketId.listMsgBox.code := by
      rw [he]
      rfl
    rw [processPacket, if_neg (by rw [hid]; decide), if_neg (by rw [hid]; decide),
      if_neg (by rw [hid]; decide), if_neg (by rw [hid]; decide), if_pos hid]
    have hp := readString_field pipe [PacketId.listMsgBox.code] []
    rw [List.append_nil] at hp
    apply congrArg Handling.listMsgBox
    rw [unknownPacket, he]
    exact hp

end Dispatch

def stream (rs : List Request) : List UInt8 := rs.flatMap Request.encode

structure Framed (s : Intake) (done todo : List Request) : Prop where
  written : s.written = done ++ todo
  enqueued : s.enqueued = done.map Request.encode
  fifo : match s.reader with
    | .readId => s.fifo = stream todo
    | .readBody packetId packetSize => ∃ r rest body, todo = r :: rest ∧
        r.encode = packetId :: body ∧ packetSize = body.length + 1 ∧ body ≠ [] ∧
        s.fifo = body ++ stream rest
    | .enqueue data => ∃ r rest, todo = r :: rest ∧ data = r.encode ∧ s.fifo = stream rest
    | .panicked why => why = .noMemory

lemma stream_cons (r : Request) (rs : List Request) : stream (r :: rs) = r.encode ++ stream rs :=
  rfl

lemma stream_append (rs ss : List Request) : stream (rs ++ ss) = stream rs ++ stream ss :=
  List.flatMap_append

variable {s t : Intake} {a : IntakeEvent} {done todo : List Request}

lemma write_framed (h : Framed s done todo) (r : Request) :
    Framed { s with fifo := s.fifo ++ r.encode, written := s.written ++ [r] }
      done (todo ++ [r]) := by
  obtain ⟨hw, he, hf⟩ := h
  refine ⟨by rw [hw, List.append_assoc], he, ?_⟩
  have hr : stream [r] = r.encode := List.append_nil _
  cases hs : s.reader with
  | readId =>
    rw [hs] at hf
    dsimp only at hf ⊢
    rw [hf, stream_append, hr]
  | readBody packetId packetSize =>
    rw [hs] at hf
    obtain ⟨r', rest, body, rfl, henc, hsize, hne, hf⟩ := hf
    refine ⟨r', rest ++ [r], body, rfl, henc, hsize, hne, ?_⟩
    dsimp only
    rw [hf, stream_append, hr, List.append_assoc]
  | enqueue data =>
    rw [hs] at hf
    obtain ⟨r', rest, rfl, hd, hf⟩ := hf
    refine ⟨r', rest ++ [r], rfl, hd, ?_⟩
    dsimp only
    rw [hf, stream_append, hr]
  | panicked why =>
    rw [hs] at hf
    exact hf

lemma framed_step (h : Framed s done todo) (hs : intakeStep s a = some t) :
    ∃ done todo, Framed t done todo := by
  cases a with
  | write r =>
    cases hs
    exact ⟨done, todo ++ [r], write_framed h r⟩
  | readId malloc =>
    obtain ⟨hw, he, hf⟩ := h
    cases hr : s.reader with
    | readId =>
      cases hfifo : s.fifo with
      | nil => simp [intakeStep, hr, hfifo] at hs
      | cons b fifo =>
        rw [hr] at hf
        dsimp only at hf
        rw [hfifo] at hf
        simp only [intakeStep, hr, hfifo, Option.some.injEq] at hs
        subst hs
        refine ⟨done, todo, hw, he, ?_⟩
        cases todo with
        | nil => cases hf
        | cons r rest =>
          obtain ⟨body, henc, hsize, hne⟩ := r.encode_eq
          rw [stream_cons, henc, List.cons_append] at hf
          obtain ⟨rfl, rfl⟩ := List.cons_eq_cons.mp hf
          have hpos : ((body.length + 1 : ℕ) : ℤ) ≠ -1 := by omega
          rw [hsize, if_neg hpos]
          cases malloc with
          | false => exact rfl
          | true => exact ⟨r, rest, body, rfl, henc, Int.toNat_natCast _, hne, rfl⟩
    | readBody | enqueue | panicked => simp [intakeStep, hr] at hs
  | readBody =>
    obtain ⟨hw, he, hf⟩ := h
    cases hr : s.reader with
    | readBody packetId packetSize =>
      cases hfifo : s.fifo with
      | nil => simp [intakeStep, hr, hfifo] at hs
      | cons b fifo =>
        rw [hr] at hf
        obtain ⟨r, rest, body, rfl, henc, rfl, hne, hf⟩ := hf
        simp only [intakeStep, hr, hfifo, Option.some.injEq] at hs
        rw [← hfifo, hf, Nat.add_sub_cancel, List.take_left, List.drop_left,
          if_neg (not_not.mpr rfl)] at hs
        subst hs
        exact ⟨done, r :: rest, hw, he, r, rest, rfl, henc.symm, rfl⟩
    | readId | enqueue | panicked => simp [intakeStep, hr] at hs
  | enqueue =>
    obtain ⟨hw, he, hf⟩ := h
    cases hr : s.reader with
    | enqueue data =>
      rw [hr] at hf
      obtain ⟨r, rest, rfl, rfl, hf⟩ := hf
      simp only [intakeStep, hr, Option.some.injEq] at hs
      subst hs
      exact ⟨done ++ [r], rest, by simp [hw], by simp [he], hf⟩
    | readId | readBody | panicked => simp [intakeStep, hr] at hs

lemma reachable_framed (h : intake.Reachable s) : ∃ done todo, Framed s done todo := by
  induction h with
  | init => exact ⟨[], [], rfl, rfl, rfl⟩
  | step _ _ hst ih =>
    obtain ⟨done, todo, hf⟩ := ih
    exact framed_step hf hst

def Running (s : Intake) : Prop := ∀ why, s.reader ≠ .panicked why

lemma running_step (hf : Framed s done todo) (hr : Running s) (ha : a.allocates = true)
    (hs : intakeStep s a = some t) : Running t := by
  obtain ⟨done', todo', hf'⟩ := framed_step hf hs
  intro why hw
  have hfifo := hf'.fifo
  rw [hw] at hfifo
  dsimp only at hfifo
  subst hfifo
  cases a with
  | write r =>
    cases hs
    exact hr _ hw
  | readId malloc =>
    cases malloc with
    | false => cases ha
    | true =>
      cases hrd : s.reader <;> cases hff : s.fifo <;> simp [intakeStep, hrd, hff] at hs
      rw [← hs] at hw
      dsimp only at hw
      split_ifs at hw
      cases hw
  | readBody =>
    cases hrd : s.reader <;> cases hff : s.fifo <;> simp only [intakeStep, hrd, hff, reduceCtorEq,
      Option.some.injEq] at hs
    rw [← hs] at hw
    dsimp only at hw
    split_ifs at hw
    cases hw
  | enqueue =>
    cases hrd : s.reader <;> simp only [intakeStep, hrd, reduceCtorEq, Option.some.injEq] at hs
    rw [← hs] at hw
    cases hw

lemma allocating_running (h : intake.ReachableBy (fun _ a => a.allocates = true) s) :
    Running s := by
  induction h with
  | init => exact fun _ hw => by cases hw
  | step hb ha hst ih =>
    obtain ⟨done, todo, hf⟩ := reachable_framed hb.reachable
    exact running_step hf ih ha hst

lemma main_enabled (hf : Framed s done todo) (hr : Running s)
    (hw : s.fifo ≠ [] ∨ s.reader ≠ .readId) :
    ∃ a t, a.isMain = true ∧ intakeStep s a = some t := by
  cases hrd : s.reader with
  | readId =>
    obtain ⟨b, fifo, hff⟩ := List.exists_cons_of_ne_nil (hw.resolve_right (not_not.mpr hrd))
    exact ⟨.readId true, _, rfl, by simp only [intakeStep, hrd, hff]; rfl⟩
  | readBody packetId packetSize =>
    have hfifo := hf.fifo
    rw [hrd] at hfifo
    obtain ⟨r, rest, body, -, -, -, hne, hff⟩ := hfifo
    obtain ⟨b, fifo, hb⟩ :=
      List.exists_cons_of_ne_nil (hff ▸ List.append_ne_nil_of_left_ne_nil hne _)
    exact ⟨.readBody, _, rfl, by simp only [intakeStep, hrd, hb]; rfl⟩
  | enqueue data => exact ⟨.enqueue, _, rfl, by simp only [intakeStep, hrd]; rfl⟩
  | panicked why => exact (hr why hrd).elim

structure RoundTrip (s : Intake) : Prop where
  enqueued : s.enqueued <+: s.written.map Request.encode
  handled : s.enqueued.map (fun data => processPacket (unknownPacket data)) <+:
    s.written.map handling
  whole : s.fifo = [] → s.reader = .readId → s.enqueued = s.written.map Request.encode
  panics : ∀ why, s.reader = .panicked why → why = .noMemory
  reads : Running s → s.fifo ≠ [] ∨ s.reader ≠ .readId →
    ∃ a t, a.isMain = true ∧ intakeStep s a = some t

lemma Framed.roundTrip (hf : Framed s done todo) : RoundTrip s := by
  refine ⟨?_, ?_, ?_, ?_, main_enabled hf⟩
  · rw [hf.written, hf.enqueued, List.map_append]
    exact List.prefix_append _ _
  · rw [hf.written, hf.enqueued, List.map_append, List.map_map]
    have hd : done.map ((fun data => processPacket (unknownPacket data)) ∘ Request.encode) =
        done.map handling := List.map_congr_left (fun r _ => processPacket_encode r)
    rw [hd]
    exact List.prefix_append _ _
  · intro hfifo hrd
    have htodo := hf.fifo
    rw [hrd] at htodo
    dsimp only at htodo
    cases todo with
    | nil => rw [hf.written, hf.enqueued, List.append_nil]
    | cons r rest =>
      obtain ⟨body, henc, -, -⟩ := r.encode_eq
      rw [hfifo, stream_cons, henc] at htodo
      cases htodo
  · intro why hrd
    have hfifo := hf.fifo
    rwa [hrd] at hfifo

theorem register_round_trip (h : intake.Reachable s) :
    RoundTrip s ∧ (intake.ReachableBy (fun _ a => a.allocates = true) s → Running s) := by
  obtain ⟨done, todo, hf⟩ := reachable_framed h
  exact ⟨hf.roundTrip, allocating_running⟩

def createAndList (p q : PipeName) (box : BoxName) : List IntakeEvent :=
  [.write (.create p box), .write (.list q), .readId true, .readBody, .enqueue, .readId true,
    .readBody, .enqueue]

theorem register_round_trip_run :
    ∃ s, intake.runIf (fun _ a => a.allocates = true) intake.init
        (createAndList pipeP pipeQ boxA) = some s ∧
      s.enqueued.map List.length = [289, 257] ∧ s.fifo = [] ∧ RoundTrip s ∧ Running s := by
  have hrun : (intake.runIf (fun _ a => a.allocates = true) intake.init
      (createAndList pipeP pipeQ boxA)).map
      (fun s => (s.enqueued.map List.length, s.fifo)) = some ([289, 257], []) := by
    decide +kernel
  obtain ⟨s, hs, hout⟩ := Option.map_eq_some_iff.mp hrun
  obtain ⟨hlengths, hfifo⟩ := Prod.mk.inj hout
  have hb : intake.ReachableBy (fun _ a => a.allocates = true) s := .runIf .init hs
  obtain ⟨hround, hrunning⟩ := register_round_trip hb.reachable
  exact ⟨s, hs, hlengths, hfifo, hround, hrunning hb⟩

end MessageBroker.Mbroker
