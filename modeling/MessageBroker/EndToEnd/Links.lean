import MessageBroker.EndToEnd.Relay

namespace MessageBroker.EndToEnd

open MessageBroker.Lib MessageBroker.Protocol MessageBroker.Publisher MessageBroker.Subscriber
  MessageBroker.Mbroker

/-- A packet as pub fills it: whole, with the code of its messages, and a NUL in the message. -/
structure Legible (packet : List UInt8) : Prop where
  whole : packet.length = sizeof messagePacket
  code : packet.getD (offset messagePacket 0) 0 = PacketId.sendMsgServer.code
  ended : 0 ∈ packet.drop (offset messagePacket 1)

structure Armed (s : Sender) : Prop where
  whole : s.packet.length = sizeof messagePacket
  code : s.packet.getD (offset messagePacket 0) 0 = PacketId.sendMsgServer.code
  ahead : s.stdin.eof = false

lemma entered_armed {memory : List UInt8} (h : memory.length = sizeof messagePacket)
    (input : List UInt8) : Armed (entered memory input) := by
  refine ⟨(List.length_set).trans h, ?_, rfl⟩
  have hpos : offset messagePacket 0 < memory.length := by rw [h]; decide
  simp [entered, List.getD_eq_getElem?_getD, hpos]

lemma strcpy_legible {packet line : List UInt8} (h : packet.length = sizeof messagePacket)
    (hc : packet.getD (offset messagePacket 0) 0 = PacketId.sendMsgServer.code)
    (hl : line.length ≤ 1023) : Legible (strcpy packet (offset messagePacket 1) line) := by
  have hlen : (line ++ [0]).length = line.length + 1 := List.length_append
  have hone : (packet.take (offset messagePacket 1)).length = offset messagePacket 1 := by
    rw [List.length_take, h]
    rfl
  constructor
  · refine (writeAt_length ?_).trans h
    rw [hlen, h]
    show 1 + (line.length + 1) ≤ 1025
    omega
  · cases packet with
    | nil => cases h
    | cons code rest =>
      rw [strcpy, writeAt]
      exact hc
  · rw [strcpy, writeAt, List.append_assoc, List.drop_left' hone]
    simp

lemma sendStep_armed {s : Sender} (h : Armed s) :
    (∃ t, sendStep s = .leaves t ∧ t.written = s.written) ∨
      ∃ t, sendStep s = .continues t ∧ Armed t ∧ Legible t.packet ∧
        t.written = s.written ++ [t.packet] ∧ t.stdin.rest.length < s.stdin.rest.length := by
  rcases fgets_cases h.ahead s.packet (offset messagePacket 1) 1024 with
    ⟨read, packet, hf, -⟩ | ⟨line, rest, hf, hcut⟩
  · refine .inl ⟨{ s with packet := packet, stdin := ⟨[], true⟩ }, ?_, rfl⟩
    simp only [sendStep, hf, if_true]
  · have hlegible := strcpy_legible h.whole h.code hcut.length_le
    have hpos := List.length_pos_iff.mpr (hcut.ne_nil (by decide))
    have hlen := congrArg List.length hcut.append
    rw [List.length_append] at hlen
    refine .inr ⟨⟨strcpy s.packet (offset messagePacket 1) line, ⟨rest, false⟩,
      s.written ++ [strcpy s.packet (offset messagePacket 1) line]⟩, ?_,
      ⟨hlegible.whole, hlegible.code, rfl⟩, hlegible, rfl, ?_⟩
    · simp [sendStep, hf]
    · dsimp only
      omega

lemma Legible.accepted {packet : List UInt8} (h : Legible packet) :
    accepted (some packet) = .writing packet := by
  rw [Mbroker.accepted, if_neg]
  rw [not_or, not_not, not_not]
  exact ⟨h.whole, h.code⟩

lemma deliver_drop (packet : List UInt8) :
    (deliver packet).drop (offset messagePacket 1) = packet.drop (offset messagePacket 1) := by
  cases packet with
  | nil => rfl
  | cons code rest => rfl

lemma deliver_length (packet : List UInt8) : (deliver packet).length = packet.length :=
  List.length_set

lemma Legible.deliver {packet : List UInt8} (h : Legible packet) : Printable (deliver packet) := by
  have hpos : offset messagePacket 0 < packet.length := by rw [h.whole]; decide
  refine ⟨(deliver_length packet).trans h.whole, ?_, (deliver_drop packet).symm ▸ h.ended⟩
  simp [Mbroker.deliver, List.getD_eq_getElem?_getD, hpos]

def inHand : PublisherSession → List (List UInt8)
  | .writing msgPacket => [msgPacket]
  | _ => []

structure PublisherOk (posts : List (List UInt8)) (x : PublisherSession) (l : PublisherLink) :
    Prop where
  carried : ∃ queued, Carries (sizeof messagePacket) l.fifo queued ∧
    l.sender.written = posts ++ inHand x ++ queued ∧
      (l.visit = .admitted → x = .leaving ∨ x = .outside → queued = [] ∧ l.running = false)
  legible : ∀ m ∈ l.sender.written, Legible m
  armed : l.running = true → Armed l.sender
  outside : l.visit ≠ .admitted → x = .outside
  writable : l.fifo.writable = l.running
  readable : x ≠ .outside ∨ l.visit = .awaited → l.fifo.readable = true

namespace PublisherOk

variable {posts : List (List UInt8)} {x : PublisherSession} {l : PublisherLink}

lemma exit (h : PublisherOk posts x l) : PublisherOk posts x l.exit := by
  obtain ⟨queued, hc, hw, hend⟩ := h.carried
  refine ⟨⟨queued, hc.ends _ _, hw, fun hv hx => ⟨(hend hv hx).1, rfl⟩⟩, h.legible, ?_,
    h.outside, rfl, h.readable⟩
  intro hr
  cases hr

lemma send (h : PublisherOk posts x l) (hr : l.running = true) : PublisherOk posts x l.send := by
  obtain ⟨queued, hc, hw, hend⟩ := h.carried
  rcases sendStep_armed (h.armed hr) with ⟨t, ht, hwritten⟩ | ⟨t, ht, harmed, hl, hwritten, -⟩
  · simp only [PublisherLink.send, ht]
    refine ⟨⟨queued, hc.ends _ _, hwritten.trans hw, fun hv hx => ⟨(hend hv hx).1, rfl⟩⟩, ?_, ?_,
      h.outside, rfl, h.readable⟩
    · exact fun m hm => h.legible m (hwritten ▸ hm)
    · intro he
      cases he
  · cases hfifo : l.fifo.write t.packet with
    | none =>
      simp only [PublisherLink.send, ht, hfifo]
      exact h.exit
    | some fifo =>
      simp only [PublisherLink.send, ht, hfifo]
      have hq := hc.write hl.whole hfifo
      have hsame : fifo.writable = l.fifo.writable ∧ fifo.readable = l.fifo.readable := by
        simp only [Pipe.write, Option.ite_none_right_eq_some, Option.some.injEq] at hfifo
        obtain ⟨-, rfl⟩ := hfifo
        exact ⟨rfl, rfl⟩
      refine ⟨⟨queued ++ [t.packet], hq, ?_, ?_⟩, ?_, fun _ => harmed, h.outside,
        hsame.1.trans h.writable, fun hx => hsame.2.trans (h.readable hx)⟩
      · rw [hwritten, hw, List.append_assoc (posts ++ inHand x)]
      · intro hv hx
        have hdead := (hend hv hx).2
        rw [hr] at hdead
        cases hdead
      · intro m hm
        rw [hwritten] at hm
        rcases List.mem_append.mp hm with hm | hm
        · exact h.legible m hm
        · exact List.mem_singleton.mp hm ▸ hl

lemma enter (h : PublisherOk posts x l) (hv : l.visit = .awaited) :
    PublisherOk posts .reading { l with visit := .admitted } := by
  obtain ⟨queued, hc, hw, -⟩ := h.carried
  have hx : x = .outside := h.outside (by rw [hv]; decide)
  subst hx
  refine ⟨⟨queued, hc, hw, ?_⟩, h.legible, h.armed, fun hne => absurd rfl hne, h.writable,
    fun _ => h.readable (.inr hv)⟩
  rintro - (hx | hx) <;> cases hx

lemma refuse (h : PublisherOk posts x l) (hv : l.visit = .awaited) :
    PublisherOk posts x { l with visit := .refused } := by
  obtain ⟨queued, hc, hw, -⟩ := h.carried
  have hx : x = .outside := h.outside (by rw [hv]; decide)
  refine ⟨⟨queued, hc, hw, fun hv _ => by cases hv⟩, h.legible, h.armed, fun _ => hx, h.writable,
    ?_⟩
  rintro (hne | hv')
  · exact absurd hx hne
  · cases hv'

lemma take (h : PublisherOk posts .reading l) {bytes : List UInt8} {fifo : Pipe}
    (hread : l.fifo.read (sizeof messagePacket) = some (bytes, fifo)) :
    PublisherOk posts (accepted (if bytes = [] then none else some bytes))
      { l with fifo := fifo } := by
  obtain ⟨queued, hc, hw, -⟩ := h.carried
  have hv : l.visit = .admitted := by
    by_contra hne
    cases h.outside hne
  have hopen : l.fifo.readable = true := h.readable (.inl (by decide))
  rcases hc.read hread with ⟨rfl, rfl, hend, rfl⟩ | ⟨rest, rfl, hrest, hsame⟩
  · rw [if_pos rfl]
    refine ⟨⟨[], hc, hw, fun _ _ => ⟨rfl, h.writable.symm.trans hend⟩⟩, h.legible, h.armed,
      fun hne => absurd hv hne, h.writable, fun _ => hopen⟩
  · have hl : Legible bytes := h.legible bytes (by rw [hw]; simp)
    have hne : bytes ≠ [] := by
      rintro rfl
      cases hl.whole
    rw [if_neg hne, hl.accepted]
    refine ⟨⟨rest, hrest, ?_, ?_⟩, h.legible, h.armed, fun hne => absurd hv hne,
      hsame.2.trans h.writable, fun _ => hsame.1.trans hopen⟩
    · rw [hw]
      simp [inHand]
    · rintro - (hx | hx) <;> cases hx

lemma store {msgPacket : List UInt8} (h : PublisherOk posts (.writing msgPacket) l) :
    PublisherOk (posts ++ [msgPacket]) .updating l := by
  obtain ⟨queued, hc, hw, -⟩ := h.carried
  refine ⟨⟨queued, hc, ?_, ?_⟩, h.legible, h.armed, ?_, h.writable,
    fun _ => h.readable (.inl (by simp))⟩
  · rw [hw]
    simp [inHand]
  · rintro - (hx | hx) <;> cases hx
  · intro hne
    cases h.outside hne

lemma update (h : PublisherOk posts .updating l) : PublisherOk posts .reading l := by
  obtain ⟨queued, hc, hw, -⟩ := h.carried
  refine ⟨⟨queued, hc, hw, ?_⟩, h.legible, h.armed, ?_, h.writable,
    fun _ => h.readable (.inl (by decide))⟩
  · rintro - (hx | hx) <;> cases hx
  · intro hne
    cases h.outside hne

lemma leave (h : PublisherOk posts .leaving l) : PublisherOk posts .outside l := by
  obtain ⟨queued, hc, hw, hend⟩ := h.carried
  refine ⟨⟨queued, hc, hw, fun hv _ => hend hv (.inl rfl)⟩, h.legible, h.armed, fun _ => rfl,
    h.writable, fun _ => h.readable (.inl (by decide))⟩

lemma hangUp (h : PublisherOk posts .outside l) (hv : l.visit ≠ .awaited) :
    PublisherOk posts .outside { l with fifo := { l.fifo with readable := false } } := by
  obtain ⟨queued, hc, hw, hend⟩ := h.carried
  refine ⟨⟨queued, hc.ends _ _, hw, hend⟩, h.legible, h.armed, h.outside, h.writable, ?_⟩
  rintro (hx | hx)
  · exact absurd rfl hx
  · exact absurd hx hv

end PublisherOk

/-- What the loop of sub finds in errno: what was there before, or what fprintf stored last. -/
def errnoAfter (errno : ℕ) (printErrors : List ℕ) : ℕ := printErrors.getLast?.getD errno

lemma errnoAfter_append (errno : ℕ) (printErrors : List ℕ) (printError : Option ℕ) :
    errnoAfter errno (printErrors ++ printError.toList) =
      printError.getD (errnoAfter errno printErrors) := by
  cases printError with
  | none => rw [Option.toList_none, List.append_nil, Option.getD_none]
  | some e => rw [Option.toList_some, errnoAfter, List.getLast?_concat, Option.getD_some,
      Option.getD_some]

structure SubscriberOk (errno : ℕ) (log : List (List UInt8)) (x : Option SubscriberSession)
    (l : SubscriberLink) : Prop where
  session : ∀ y, x = some y → y.sent = l.forwarded ∧ l.visit = .admitted ∧ l.fifo.writable = true
  awaited : l.visit = .awaited → l.fifo.writable = true ∧ l.forwarded = []
  inOrder : l.forwarded <+: log.map deliver
  carried : ∃ queued, Carries (sizeof messagePacket) l.fifo queued ∧
    l.forwarded = l.receiver.shown ++ queued
  counted : l.receiver.messagesReceived = l.receiver.shown.length
  printed : l.receiver.stdout = l.receiver.shown.flatMap lineShown ++
    if l.receiver.phase = .finished then farewell l.receiver.messagesReceived else []
  readable : l.fifo.readable = decide (l.receiver.phase = .receiving)
  errors : l.receiver.phase = .receiving →
    l.receiver.errno = errnoAfter errno l.receiver.printErrors
  calm : l.receiver.phase = .receiving ∨ l.receiver.phase = .finished ∨
    l.receiver.phase = .panicked "UNKNOWN ERROR!" ∧ errnoAfter errno l.receiver.printErrors ≠ 0 ∧
      errnoAfter errno l.receiver.printErrors ≠ eintr

namespace SubscriberOk

variable {errno : ℕ} {log : List (List UInt8)} {x : Option SubscriberSession}
  {l : SubscriberLink}

lemma append (h : SubscriberOk errno log x l) (packet : List UInt8) :
    SubscriberOk errno (log ++ [packet]) x l := by
  refine ⟨h.session, h.awaited, h.inOrder.trans ?_, h.carried, h.counted, h.printed, h.readable,
    h.errors, h.calm⟩
  rw [List.map_append]
  exact List.prefix_append _ _

lemma session_eq (h : SubscriberOk errno log x l) {y z : SubscriberSession} (hx : x = some y)
    (hz : z.sent = y.sent) : SubscriberOk errno log (some z) l := by
  refine ⟨?_, h.awaited, h.inOrder, h.carried, h.counted, h.printed, h.readable, h.errors,
    h.calm⟩
  intro w hw
  cases hw
  obtain ⟨hs, hv⟩ := h.session y hx
  exact ⟨hz.trans hs, hv⟩

lemma woken (h : SubscriberOk errno log x l) :
    SubscriberOk errno log (x.map SubscriberSession.woken) l := by
  cases x with
  | none => exact h
  | some y =>
    obtain ⟨phase, off, sent⟩ := y
    cases phase <;> exact h.session_eq rfl rfl

lemma enter (h : SubscriberOk errno log none l) (hv : l.visit = .awaited) :
    SubscriberOk errno log (some ⟨.checking, 0, []⟩) { l with visit := .admitted } := by
  refine ⟨?_, ?_, h.inOrder, h.carried, h.counted, h.printed, h.readable, h.errors, h.calm⟩
  · intro y hy
    cases hy
    exact ⟨(h.awaited hv).2.symm, rfl, (h.awaited hv).1⟩
  · intro hv
    cases hv

lemma refuse (h : SubscriberOk errno log none l) :
    SubscriberOk errno log none { l with visit := .refused } := by
  refine ⟨?_, ?_, h.inOrder, h.carried, h.counted, h.printed, h.readable, h.errors, h.calm⟩
  · intro y hy
    cases hy
  · intro hv
    cases hv

lemma forward {packet : List UInt8} {off : ℕ} {sent : List (List UInt8)} {fifo : Pipe}
    (h : SubscriberOk errno log (some ⟨.sending packet, off, sent⟩) l)
    (hnext : sent ++ [packet] <+: log.map deliver) (hlen : packet.length = sizeof messagePacket)
    (hw : l.fifo.write packet = some fifo) :
    SubscriberOk errno log (some ⟨.checking, off, sent ++ [packet]⟩)
      { l with fifo := fifo, forwarded := l.forwarded ++ [packet] } := by
  obtain ⟨hsent, hv, hwrite⟩ := h.session _ rfl
  dsimp only at hsent
  subst hsent
  obtain ⟨queued, hc, hf⟩ := h.carried
  have hq := hc.write hlen hw
  have hsame : fifo.writable = l.fifo.writable ∧ fifo.readable = l.fifo.readable := by
    simp only [Pipe.write, Option.ite_none_right_eq_some, Option.some.injEq] at hw
    obtain ⟨-, rfl⟩ := hw
    exact ⟨rfl, rfl⟩
  refine ⟨?_, ?_, hnext, ⟨queued ++ [packet], hq, ?_⟩, h.counted, h.printed,
    hsame.2.trans h.readable, h.errors, h.calm⟩
  · intro y hy
    cases hy
    exact ⟨rfl, hv, hsame.1.trans hwrite⟩
  · intro ha
    rw [show l.visit = .admitted from hv] at ha
    cases ha
  · rw [hf, List.append_assoc]

lemma leave {y : SubscriberSession} (h : SubscriberOk errno log (some y) l) :
    SubscriberOk errno log none l := by
  refine ⟨?_, h.awaited, h.inOrder, h.carried, h.counted, h.printed, h.readable, h.errors,
    h.calm⟩
  intro z hz
  cases hz

lemma hangUp (h : SubscriberOk errno log none l) (hv : l.visit ≠ .awaited) :
    SubscriberOk errno log none { l with fifo := { l.fifo with writable := false } } := by
  obtain ⟨queued, hc, hf⟩ := h.carried
  refine ⟨?_, fun ha => absurd ha hv, h.inOrder, ⟨queued, hc.ends _ _, hf⟩, h.counted, h.printed,
    h.readable, h.errors, h.calm⟩
  intro y hy
  cases hy

lemma receive (h : SubscriberOk errno log x l) (hlog : ∀ m ∈ log, Legible m)
    (hr : l.receiver.phase = .receiving) {bytes : List UInt8} {fifo : Pipe}
    (hread : l.fifo.read (sizeof messagePacket) = some (bytes, fifo)) (printError : Option ℕ) :
    SubscriberOk errno log x (l.receive fifo (.ok bytes) printError) := by
  obtain ⟨queued, hc, hf⟩ := h.carried
  have hprinted : l.receiver.stdout = l.receiver.shown.flatMap lineShown := by
    simpa [hr] using h.printed
  have herrno := h.errors hr
  rcases hc.read hread with ⟨rfl, rfl, -, rfl⟩ | ⟨rest, rfl, hrest, hsame⟩
  · by_cases he : errnoAfter errno l.receiver.printErrors = 0 ∨
        errnoAfter errno l.receiver.printErrors = eintr
    · have hstep := receiveStep_ends (s := l.receiver) (by rwa [herrno]) printError
      simp only [SubscriberLink.receive, hstep]
      refine ⟨h.session, h.awaited, h.inOrder, ⟨[], hc.ends _ _, hf⟩, h.counted, ?_, rfl, ?_,
        .inr (.inl rfl)⟩
      · simp [Receiver.finish, hprinted]
      · intro hp
        cases hp
    · rw [not_or] at he
      have hstep := receiveStep_fails (s := l.receiver) (by rw [herrno]; exact he.1)
        (by rw [herrno]; exact he.2) printError
      simp only [SubscriberLink.receive, hstep]
      refine ⟨h.session, h.awaited, h.inOrder, ⟨[], hc.ends _ _, hf⟩, h.counted, ?_, rfl, ?_,
        .inr (.inr ⟨rfl, he⟩)⟩
      · simp [hprinted]
      · intro hp
        cases hp
  · have hmem : bytes ∈ log.map deliver := by
      apply h.inOrder.subset
      rw [hf]
      simp
    obtain ⟨m, hm, rfl⟩ := List.mem_map.mp hmem
    have hstep := receiveStep_shows (s := l.receiver) (hlog m hm).deliver printError
    simp only [SubscriberLink.receive, hstep]
    refine ⟨?_, ?_, h.inOrder, ⟨rest, hrest.ends _ _, ?_⟩, ?_, ?_, by simp [hr], fun _ => ?_,
      .inl hr⟩
    · intro y hy
      obtain ⟨hs, hv, hw⟩ := h.session y hy
      exact ⟨hs, hv, hsame.2.trans hw⟩
    · exact fun ha => ⟨hsame.2.trans (h.awaited ha).1, (h.awaited ha).2⟩
    · rw [hf, List.append_assoc]
      rfl
    · simp [h.counted]
    · simp [hr, hprinted]
    · dsimp only
      rw [herrno, errnoAfter_append]

lemma receive_cases (h : SubscriberOk errno log x l) (hlog : ∀ m ∈ log, Legible m)
    {bytes : List UInt8} {fifo : Pipe}
    (hread : l.fifo.read (sizeof messagePacket) = some (bytes, fifo)) (printError : Option ℕ) :
    (receiveStep l.receiver (.ok bytes) printError).phase ≠ .receiving ∨
      (receiveStep l.receiver (.ok bytes) printError).shown.length = l.receiver.shown.length + 1 ∧
        l.receiver.shown.length < l.forwarded.length := by
  obtain ⟨queued, hc, hf⟩ := h.carried
  rcases hc.read hread with ⟨-, rfl, -, -⟩ | ⟨rest, rfl, -, -⟩
  · left
    by_cases he : l.receiver.errno = 0 ∨ l.receiver.errno = eintr
    · rw [receiveStep_ends he]
      simp [Receiver.finish]
    · rw [not_or] at he
      rw [receiveStep_fails he.1 he.2]
      simp
  · right
    have hmem : bytes ∈ log.map deliver := by
      apply h.inOrder.subset
      rw [hf]
      simp
    obtain ⟨m, hm, rfl⟩ := List.mem_map.mp hmem
    rw [receiveStep_shows (hlog m hm).deliver, hf]
    simp

lemma interrupt (h : SubscriberOk errno log x l) (hr : l.receiver.phase = .receiving) :
    SubscriberOk errno log x (l.receive l.fifo (.error eintr) none) := by
  obtain ⟨queued, hc, hf⟩ := h.carried
  have hprinted : l.receiver.stdout = l.receiver.shown.flatMap lineShown := by
    simpa [hr] using h.printed
  simp only [SubscriberLink.receive, receiveStep_interrupted]
  refine ⟨h.session, h.awaited, h.inOrder, ⟨queued, hc.ends _ _, hf⟩, h.counted, ?_, rfl, ?_,
    .inr (.inl rfl)⟩
  · simp [Receiver.finish, hprinted]
  · intro hp
    cases hp

end SubscriberOk

end MessageBroker.EndToEnd
