import MessageBroker.Lib.LittleEndian
import MessageBroker.Lib.Strings
import MessageBroker.Manager.Vector
import MessageBroker.Mbroker.Exclusivity

/-! The list command: the packets handle_packet_list_msg_box writes from one buffer, and the
manager that reads them until is_last, sorts them and prints a line for each. -/

namespace MessageBroker.Manager

open MessageBroker.Lib MessageBroker.Protocol MessageBroker.Mbroker

def flag (isLast : Bool) : UInt8 := if isLast then 1 else 0

def fillListPacket (packet : List UInt8) (p : ListPacket) : List UInt8 :=
  match p.counts with
  | none =>
    let packet := writeAt packet (offset listMsgBoxResponsePacket 2)
      (List.replicate maxBoxNameLen 0)
    writeAt packet (offset listMsgBoxResponsePacket 1) [flag p.isLast]
  | some (boxSize, nPublishers, nSubscribers) =>
    let packet := strcpy packet (offset listMsgBoxResponsePacket 2) p.boxName.bytes
    let packet := writeAt packet (offset listMsgBoxResponsePacket 1) [flag p.isLast]
    let packet := writeAt packet (offset listMsgBoxResponsePacket 3) (toBytes 8 boxSize)
    let packet := writeAt packet (offset listMsgBoxResponsePacket 4) (toBytes 8 nPublishers)
    writeAt packet (offset listMsgBoxResponsePacket 5) (toBytes 8 nSubscribers)

/-- What the writes put into the client's FIFO; every packet is filled over the one before. -/
def responses (packet : List UInt8) : List ListPacket → List (List UInt8)
  | [] => []
  | p :: ps => fillListPacket packet p :: responses (fillListPacket packet p) ps

def handlePacketListMsgBox (t : Table) (packet : List UInt8) : Except Fault (List UInt8) := do
  let packet := packet.set (offset listMsgBoxResponsePacket 0) PacketId.responseListMsgBox.code
  let ps ← listMsgBoxes t
  .ok (responses packet ps).flatten

structure Line where
  boxName : List UInt8
  boxSize : ℕ
  nPublishers : ℕ
  nSubscribers : ℕ
  deriving DecidableEq

inductive Listing
  | disconnected
  | noBoxesFound
  | lines (ls : List Line)
  deriving DecidableEq

inductive Received
  | disconnected
  | noBoxesFound
  -- the vector, and the memory its pointers point into
  | packets (v : PointerVector) (memory : List (List UInt8))

def boxNameAt (packet : List UInt8) : List UInt8 := packet.drop (offset listMsgBoxResponsePacket 2)

def isLastAt (packet : List UInt8) : UInt8 := packet.getD (offset listMsgBoxResponsePacket 1) 0

def receive : ℕ → PointerVector → List (List UInt8) → List UInt8 → Except Panic Received
  | 0, _, _, _ => .error .endless
  | fuel + 1, v, memory, fifo => do
    let v ← vectorPush v memory.length
    let responsePacket := fifo.take (sizeof listMsgBoxResponsePacket)
    let rest := fifo.drop (sizeof listMsgBoxResponsePacket)
    if responsePacket.length = 0 then .ok .disconnected
    else if responsePacket.length ≠ sizeof listMsgBoxResponsePacket then .error .unknownError
    else if (boxNameAt responsePacket).headD 0 = 0 ∧ isLastAt responsePacket ≠ 0 then
      .ok .noBoxesFound
    else if isLastAt responsePacket ≠ 0 then .ok (.packets v (memory ++ [responsePacket]))
    else receive fuel v (memory ++ [responsePacket]) rest

def msgCmpFunc (memory : List (List UInt8)) (m1 m2 : ℕ) : ℤ :=
  strcmp (boxNameAt (memory.getD m1 [])) (boxNameAt (memory.getD m2 []))

def printLine (curr : List UInt8) : Line where
  boxName := text (boxNameAt curr)
  boxSize := ofBytes (slice curr (offset listMsgBoxResponsePacket 3) 8)
  nPublishers := ofBytes (slice curr (offset listMsgBoxResponsePacket 4) 8)
  nSubscribers := ofBytes (slice curr (offset listMsgBoxResponsePacket 5) 8)

def executeCommandListReply (qsort : (ℕ → ℕ → ℤ) → List ℕ → List ℕ) (fifo : List UInt8) :
    Except Panic Listing := do
  match ← receive (fifo.length + 1) (vectorCreate 5) [] fifo with
  | .disconnected => .ok .disconnected
  | .noBoxesFound => .ok .noBoxesFound
  | .packets v memory => .ok (.lines ((vectorSort qsort (msgCmpFunc memory) v).map
      fun p => printLine (memory.getD p [])))

def u64 (n : ℕ) : ℕ := n % 2 ^ 64

def boxLine (b : MessageBox) : Line :=
  ⟨b.name.bytes, u64 b.size, u64 b.publishers, u64 b.subscribers⟩

structure Shows (xs : List (ℕ × MessageBox)) (out : Listing) : Prop where
  empty : out = .noBoxesFound ↔ xs = []
  lines : xs ≠ [] → ∃ ls, out = .lines ls ∧ ls.Perm (xs.map fun x => boxLine x.2) ∧
    ls.Pairwise (fun l m => strcmp l.boxName m.boxName < 0)

section Packet

variable {packet : List UInt8} {p : ListPacket}

structure Filled (packet : List UInt8) (b : MessageBox) (isLast : Bool) : Prop where
  length : packet.length = 58
  name : text (boxNameAt packet) = b.name.bytes
  isLast : isLastAt packet ≠ 0 ↔ isLast = true
  line : printLine packet = boxLine b

lemma isLastAt_eq (packet : List UInt8) : isLastAt packet = (slice packet 1 1).headD 0 := by
  have ho : offset listMsgBoxResponsePacket 1 = 1 := rfl
  rw [isLastAt, ho, slice, List.getD_eq_getElem?_getD]
  cases packet with
  | nil => rfl
  | cons x xs => cases xs <;> rfl

lemma text_of_slice {mem s : List UInt8} {o : ℕ} (hs : 0 ∉ s)
    (h : slice mem o (s ++ [0]).length = s ++ [0]) : text (mem.drop o) = s := by
  rw [← List.take_append_drop (s ++ [0]).length (mem.drop o)]
  rw [slice] at h
  rw [h, List.append_assoc]
  exact text_append_nul hs _

lemma fillListPacket_filled (h : packet.length = 58) (b : MessageBox) (isLast : Bool) :
    Filled (fillListPacket packet (listPacket b isLast)) b isLast := by
  have hfits : (b.name.bytes ++ [0]).length ≤ 32 := by
    have hb : b.name.bytes.length < 32 := b.name.fits
    rw [List.length_append, List.length_singleton]
    omega
  have h₂ : offset listMsgBoxResponsePacket 2 = 2 := rfl
  have h₃ : offset listMsgBoxResponsePacket 3 = 34 := rfl
  have h₄ : offset listMsgBoxResponsePacket 4 = 42 := rfl
  have h₅ : offset listMsgBoxResponsePacket 5 = 50 := rfl
  have h₁ : offset listMsgBoxResponsePacket 1 = 1 := rfl
  simp only [fillListPacket, listPacket, strcpy, h₁, h₂, h₃, h₄, h₅]
  have l1 : [flag isLast].length = 1 := rfl
  have l8 : ∀ v, (toBytes 8 v).length = 8 := toBytes_length 8
  -- one buffer, five writes
  have ra : 2 + (b.name.bytes ++ [0]).length ≤ packet.length := by omega
  have la := writeAt_length ra
  have sa := slice_writeAt_self ra
  generalize writeAt packet 2 (b.name.bytes ++ [0]) = pa at la sa ⊢
  have rb : 1 + [flag isLast].length ≤ pa.length := by omega
  have lb := writeAt_length rb
  have sb := slice_writeAt_self rb
  have sab := (slice_writeAt_after rb (by omega)).trans sa
  generalize writeAt pa 1 [flag isLast] = pb at lb sb sab ⊢
  have rc : 34 + (toBytes 8 b.size).length ≤ pb.length := by rw [l8]; omega
  have lc := writeAt_length rc
  have sc := slice_writeAt_self rc
  have sbc := (slice_writeAt_before rc (by omega)).trans sb
  have sac := (slice_writeAt_before rc (by omega)).trans sab
  generalize writeAt pb 34 (toBytes 8 b.size) = pc at lc sc sbc sac ⊢
  have rd : 42 + (toBytes 8 b.publishers).length ≤ pc.length := by rw [l8]; omega
  have ld := writeAt_length rd
  have sd := slice_writeAt_self rd
  have sbd := (slice_writeAt_before rd (by omega)).trans sbc
  have sad := (slice_writeAt_before rd (by omega)).trans sac
  have scd := (slice_writeAt_before rd (by rw [l8])).trans sc
  generalize writeAt pc 42 (toBytes 8 b.publishers) = pd at ld sd sbd sad scd ⊢
  have re : 50 + (toBytes 8 b.subscribers).length ≤ pd.length := by rw [l8]; omega
  have le := writeAt_length re
  have se := slice_writeAt_self re
  have sbe := (slice_writeAt_before re (by omega)).trans sbd
  have sae := (slice_writeAt_before re (by omega)).trans sad
  have sce := (slice_writeAt_before re (by rw [l8]; omega)).trans scd
  have sde := (slice_writeAt_before re (by rw [l8])).trans sd
  generalize writeAt pd 50 (toBytes 8 b.subscribers) = pe at le se sbe sae sce sde ⊢
  rw [l8] at se sce sde
  rw [l1] at sbe
  have hname := text_of_slice b.name.noNul sae
  refine ⟨by omega, by rw [boxNameAt, h₂, hname], ?_, ?_⟩
  · rw [isLastAt_eq, sbe]
    cases isLast <;> decide
  · have hw : 256 ^ 8 = 2 ^ 64 := by norm_num
    simp only [printLine, boxLine, boxNameAt, h₂, h₃, h₄, h₅, hname, se, sce, sde, ofBytes_toBytes,
      u64, hw]

lemma text_eq_nil {mem : List UInt8} : text mem = [] ↔ mem.headD 0 = 0 := by
  cases mem with
  | nil => simp [text_nil]
  | cons x xs =>
    rw [text_cons, List.headD_cons]
    split_ifs with hx
    · exact iff_of_true rfl hx
    · exact iff_of_false (by simp) hx

end Packet

def LastNamed (xs : List (ℕ × MessageBox)) : Prop :=
  ∀ x, xs.getLast? = some x → x.2.name.bytes ≠ []

section Receive

variable {xs : List (ℕ × MessageBox)} {buf : List UInt8} {v : PointerVector}
  {memory : List (List UInt8)} {fuel : ℕ}

def sent (buf : List UInt8) (xs : List (ℕ × MessageBox)) : List (List UInt8) :=
  responses buf (packets xs)

lemma sent_cons (buf : List UInt8) (x : ℕ × MessageBox) (xs : List (ℕ × MessageBox)) :
    sent buf (x :: xs) = fillListPacket buf (listPacket x.2 xs.isEmpty) ::
      sent (fillListPacket buf (listPacket x.2 xs.isEmpty)) xs := rfl

lemma sent_lines (hb : buf.length = 58) (xs : List (ℕ × MessageBox)) :
    (sent buf xs).map printLine = xs.map fun x => boxLine x.2 := by
  induction xs generalizing buf with
  | nil => rfl
  | cons x xs ih =>
    have hf := fillListPacket_filled hb x.2 xs.isEmpty
    rw [sent_cons, List.map_cons, List.map_cons, hf.line, ih hf.length]

def Ends (v : PointerVector) (memory bs : List (List UInt8)) (xs : List (ℕ × MessageBox)) :
    Except Panic Received → Prop
  | .error panic => panic = .capacityExceeded ∧ capacityLimit < v.buff.length + xs.length
  | .ok .disconnected => False
  | .ok .noBoxesFound => ¬ LastNamed xs
  | .ok (.packets w memory') => LastNamed xs ∧ memory' = memory ++ bs ∧
      w.buff = v.buff ++ List.range' memory.length xs.length

lemma Ends.cons {x y : ℕ × MessageBox} {packet : List UInt8} {bs : List (List UInt8)}
    {w : PointerVector} {r : Except Panic Received} (hw : w.buff = v.buff ++ [memory.length])
    (h : Ends w (memory ++ [packet]) bs (y :: xs) r) :
    Ends v memory (packet :: bs) (x :: y :: xs) r := by
  have hl : LastNamed (x :: y :: xs) ↔ LastNamed (y :: xs) := by
    rw [LastNamed, LastNamed, List.getLast?_cons_cons]
  rcases r with panic | ⟨⟩ | ⟨⟩ | ⟨u, memory'⟩
  · refine ⟨h.1, ?_⟩
    have hlen := h.2
    rw [hw, List.length_append, List.length_singleton] at hlen
    simp only [List.length_cons] at hlen ⊢
    omega
  · exact h
  · exact fun hn => h (hl.mp hn)
  · obtain ⟨hn, hm, hu⟩ := h
    refine ⟨hl.mpr hn, by rw [hm, List.append_assoc]; rfl, ?_⟩
    rw [hu, hw, List.append_assoc, List.length_append, List.length_singleton]
    rfl

lemma receive_filled {packet rest : List UInt8} {b : MessageBox} {isLast : Bool}
    (hp : Filled packet b isLast) {w : PointerVector} (hv : vectorPush v memory.length = .ok w) :
    receive (fuel + 1) v memory (packet ++ rest) =
      if isLast then
        if b.name.bytes = [] then .ok .noBoxesFound else .ok (.packets w (memory ++ [packet]))
      else receive fuel w (memory ++ [packet]) rest := by
  have hs : sizeof listMsgBoxResponsePacket = packet.length := hp.length.symm
  have h0 : ¬ packet.length = 0 := by rw [hp.length]; decide
  have hname := hp.name
  have hlast := hp.isLast
  simp only [receive, hv, hs, List.take_left, List.drop_left, bind, Except.bind, if_neg h0,
    ne_eq, not_true_eq_false, if_false]
  cases isLast with
  | false =>
    have hz : isLastAt packet = 0 := by simpa using hlast
    simp [hz]
  | true =>
    have hz : isLastAt packet ≠ 0 := by simpa using hlast
    by_cases hb : b.name.bytes = []
    · have hn := text_eq_nil.mp (hname.trans hb)
      simp only [hn, hz, hb, not_false_eq_true, and_self, if_true]
    · have hn : ¬ (boxNameAt packet).headD 0 = 0 :=
        fun h => hb (hname.symm.trans (text_eq_nil.mpr h))
      simp only [hn, hz, hb, not_false_eq_true, false_and, if_true, if_false]

lemma receive_sent (hv : v.capacity ∈ capacities) (hx : xs ≠ []) (hb : buf.length = 58)
    (hf : xs.length ≤ fuel) :
    Ends v memory (sent buf xs) xs (receive fuel v memory (sent buf xs).flatten) := by
  induction xs generalizing buf v memory fuel with
  | nil => exact (hx rfl).elim
  | cons x xs ih =>
    cases fuel with
    | zero => cases hf
    | succ fuel =>
      have hp := fillListPacket_filled hb x.2 xs.isEmpty
      rw [sent_cons, List.flatten_cons]
      generalize hpk : fillListPacket buf (listPacket x.2 xs.isEmpty) = packet at hp
      rcases vectorPush_cases hv memory.length with ⟨hpush, hle⟩ | ⟨w, hpush, hw, hc⟩
      · simp only [receive, hpush, bind, Except.bind]
        refine ⟨rfl, ?_⟩
        rw [List.length_cons]
        omega
      · rw [receive_filled hp hpush]
        cases xs with
        | nil =>
          rw [if_pos (show [].isEmpty = true from rfl)]
          split_ifs with hn
          · intro hl
            exact hl x rfl hn
          · refine ⟨?_, rfl, hw⟩
            intro y hy
            cases Option.some.inj hy
            exact hn
        | cons y ys =>
          rw [if_neg (show ¬ (y :: ys).isEmpty = true by simp)]
          exact (ih hc (by simp) hp.length (Nat.le_of_succ_le_succ hf)).cons hw

end Receive

section Reply

variable {qsort : (ℕ → ℕ → ℤ) → List ℕ → List ℕ} {xs : List (ℕ × MessageBox)} {buf : List UInt8}

lemma sent_width (hb : buf.length = 58) : ∀ r ∈ sent buf xs, r.length = 58 := by
  induction xs generalizing buf with
  | nil =>
    intro r hr
    cases hr
  | cons x xs ih =>
    have hf := fillListPacket_filled hb x.2 xs.isEmpty
    intro r hr
    rcases List.mem_cons.mp hr with rfl | hr
    · exact hf.length
    · exact ih hf.length r hr

lemma map_range_getD (memory : List (List UInt8)) :
    (List.range' 0 memory.length).map (fun p => memory.getD p []) = memory := by
  apply List.ext_getElem
  · simp
  · intro i h₁ h₂
    simp [List.getElem?_eq_getElem h₂]

lemma sent_length (buf : List UInt8) (xs : List (ℕ × MessageBox)) :
    (sent buf xs).length = xs.length := by
  induction xs generalizing buf with
  | nil => rfl
  | cons x xs ih => rw [sent_cons, List.length_cons, List.length_cons, ih]

lemma strcmp_text_neg {a b : List UInt8} (h : strcmp a b ≤ 0) (hne : text a ≠ text b) :
    strcmp (text a) (text b) < 0 := by
  have htext : ∀ mem, textKey (text mem) = textKey mem := by
    intro mem
    rw [textKey_inj]
    exact text_of_noNul (text_noNul mem)
  apply (strcmp_key _ _).2.mpr
  rw [htext, htext]
  exact lt_of_le_of_ne (strcmp_le.mp h) (fun he => hne (textKey_inj.mp he))

lemma sorted_lines (hq : Sorts qsort) (hb : buf.length = 58)
    (hn : (xs.map fun x => x.2.name).Nodup) {w : PointerVector}
    (hw : w.buff = List.range' 0 xs.length) :
    ((vectorSort qsort (msgCmpFunc (sent buf xs)) w).map
        fun p => printLine ((sent buf xs).getD p [])).Perm (xs.map fun x => boxLine x.2) ∧
      ((vectorSort qsort (msgCmpFunc (sent buf xs)) w).map
        fun p => printLine ((sent buf xs).getD p [])).Pairwise
          (fun l m => strcmp l.boxName m.boxName < 0) := by
  have hperm : ((vectorSort qsort (msgCmpFunc (sent buf xs)) w).map
      fun p => printLine ((sent buf xs).getD p [])).Perm (xs.map fun x => boxLine x.2) := by
    have hs : (vectorSort qsort (msgCmpFunc (sent buf xs)) w).Perm w.buff := vectorSort_perm hq
    have hp := hs.map (fun p => printLine ((sent buf xs).getD p []))
    have hall : (w.buff.map fun p => printLine ((sent buf xs).getD p [])) =
        xs.map fun x => boxLine x.2 := by
      rw [hw, ← sent_length buf xs, ← sent_lines hb xs]
      conv_rhs => rw [← map_range_getD (sent buf xs)]
      rw [List.map_map]
      rfl
    rwa [hall] at hp
  refine ⟨hperm, ?_⟩
  have hsorted := vectorSort_sorted (v := w) hq
    (fun a b =>
      strcmp_total (boxNameAt ((sent buf xs).getD a [])) (boxNameAt ((sent buf xs).getD b [])))
    (fun a b c => strcmp_trans)
  have hnames : ((xs.map fun x => boxLine x.2).map Line.boxName).Nodup := by
    rw [List.map_map]
    have he : (Line.boxName ∘ fun x : ℕ × MessageBox => boxLine x.2) =
        CString.bytes ∘ fun x => x.2.name := rfl
    rw [he, ← List.map_map]
    apply hn.map
    rintro ⟨a, _, _⟩ ⟨b, _, _⟩ rfl
    rfl
  have hdistinct := ((hperm.map Line.boxName).nodup_iff).mpr hnames
  rw [List.map_map, List.Nodup, List.pairwise_map] at hdistinct
  rw [List.pairwise_map]
  exact (hsorted.and hdistinct).imp (fun h => strcmp_text_neg h.1 h.2)

lemma reply_shows (hq : Sorts qsort) (hb : buf.length = 58) (hx : xs ≠ [])
    (hn : (xs.map fun x => x.2.name).Nodup) :
    (executeCommandListReply qsort (sent buf xs).flatten = .error .capacityExceeded ∧
        capacityLimit < xs.length) ∨
      ∃ out, executeCommandListReply qsort (sent buf xs).flatten = .ok out ∧
        (Shows xs out ↔ LastNamed xs) := by
  have hlen : xs.length ≤ (sent buf xs).flatten.length + 1 := by
    rw [flatten_length (sent_width hb), sent_length]
    omega
  have he : Ends (vectorCreate 5) [] (sent buf xs) xs
      (receive ((sent buf xs).flatten.length + 1) (vectorCreate 5) [] (sent buf xs).flatten) :=
    receive_sent (by decide) hx hb hlen
  rw [executeCommandListReply]
  generalize receive _ _ _ _ = r at he ⊢
  rcases r with panic | ⟨⟩ | ⟨⟩ | ⟨w, memory⟩
  · obtain ⟨rfl, hlt⟩ := he
    refine .inl ⟨rfl, ?_⟩
    simpa [vectorCreate] using hlt
  · exact he.elim
  · refine .inr ⟨.noBoxesFound, rfl, ?_⟩
    exact iff_of_false (fun hs => hx (hs.empty.mp rfl)) he
  · obtain ⟨hl, rfl, hw⟩ := he
    have hbuff : w.buff = List.range' 0 xs.length := hw
    obtain ⟨hperm, hsorted⟩ := sorted_lines hq hb hn hbuff
    refine .inr ⟨_, rfl, iff_of_true ?_ hl⟩
    refine ⟨iff_of_false (by simp) hx, fun _ => ⟨_, rfl, hperm, hsorted⟩⟩

lemma reply_none (hb : buf.length = 58) :
    executeCommandListReply qsort (responses buf [⟨true, emptyName, none⟩]).flatten =
      .ok .noBoxesFound := by
  have hr : (responses buf [⟨true, emptyName, none⟩]).flatten =
      writeAt (writeAt buf 2 (List.replicate 32 0)) 1 [flag true] := by
    rw [responses, responses, List.flatten_singleton]
    rfl
  have ra : 2 + (List.replicate 32 (0 : UInt8)).length ≤ buf.length := by
    rw [List.length_replicate]
    omega
  have la := writeAt_length ra
  have sa := slice_writeAt_self ra
  rw [hr]
  generalize writeAt buf 2 (List.replicate 32 (0 : UInt8)) = pa at la sa ⊢
  have rb : 1 + [flag true].length ≤ pa.length := by
    rw [List.length_singleton]
    omega
  have lb := writeAt_length rb
  have sb := slice_writeAt_self rb
  have sab : slice (writeAt pa 1 [flag true]) 2 1 = [0] := by
    have h1 := congrArg (List.take 1) sa
    rw [slice, List.length_replicate, List.take_take] at h1
    rw [slice_writeAt_after rb (by rw [List.length_singleton])]
    exact h1
  generalize writeAt pa 1 [flag true] = pb at lb sb sab ⊢
  have hlast : isLastAt pb ≠ 0 := by
    rw [isLastAt_eq, show slice pb 1 1 = [flag true] from sb]
    decide
  have hname : (boxNameAt pb).headD 0 = 0 := text_eq_nil.mp (text_of_slice (s := []) (by simp) sab)
  have hs : sizeof listMsgBoxResponsePacket = pb.length := by
    rw [lb, la, hb]
    rfl
  have h0 : ¬ pb.length = 0 := by omega
  have hpush : ∃ w, vectorPush (vectorCreate 5) 0 = .ok w := ⟨_, rfl⟩
  obtain ⟨w, hpush⟩ := hpush
  simp only [executeCommandListReply, receive, List.length_nil, hpush, bind, Except.bind, hs,
    List.take_length, if_neg h0, ne_eq, not_true_eq_false, if_false, hname, hlast,
    not_false_eq_true, and_self, if_true]

end Reply

section Broker

variable {W : Type} [Fintype W] [DecidableEq W] {s : Broker W} {xs : List (ℕ × MessageBox)}
  {qsort : (ℕ → ℕ → ℤ) → List ℕ → List ℕ} {packet : List UInt8}

theorem listing_shows_iff (hq : Sorts qsort) (h : (broker W).Reachable s) (hx : s.table.Lists xs)
    (hp : packet.length = sizeof listMsgBoxResponsePacket) :
    ∃ fifo, handlePacketListMsgBox s.table packet = .ok fifo ∧
      ((executeCommandListReply qsort fifo = .error .capacityExceeded ∧
          capacityLimit < xs.length) ∨
        ∃ out, executeCommandListReply qsort fifo = .ok out ∧ (Shows xs out ↔ LastNamed xs)) := by
  obtain ⟨ys, hs⟩ := reachable_sound h
  cases Heap.Chain.unique hs.shelved.lists hx
  have hb : (packet.set (offset listMsgBoxResponsePacket 0)
      PacketId.responseListMsgBox.code).length = 58 := by
    rw [List.length_set, hp]
    rfl
  generalize hbuf : packet.set (offset listMsgBoxResponsePacket 0)
    PacketId.responseListMsgBox.code = buf at hb
  have hfifo : handlePacketListMsgBox s.table packet =
      .ok (responses buf (if xs = [] then [⟨true, emptyName, none⟩] else packets xs)).flatten := by
    simp only [handlePacketListMsgBox, hbuf, listMsgBoxes_eq hx, bind, Except.bind]
  refine ⟨_, hfifo, ?_⟩
  by_cases hnil : xs = []
  · subst hnil
    rw [if_pos rfl]
    refine .inr ⟨_, reply_none hb, iff_of_true ?_ (fun x hx => by cases hx)⟩
    exact ⟨iff_of_true rfl rfl, fun hne => (hne rfl).elim⟩
  · rw [if_neg hnil]
    exact reply_shows hq hb hnil hs.shelved.names

end Broker

section Runs

def sortPointers (cmp : ℕ → ℕ → ℤ) (xs : List ℕ) : List ℕ :=
  xs.insertionSort (fun a b => cmp a b ≤ 0)

lemma sortPointers_sorts : Sorts sortPointers := by
  refine ⟨fun cmp xs => List.perm_insertionSort _ xs, ?_⟩
  intro cmp xs htotal htrans
  have : Std.Total (fun a b => cmp a b ≤ 0) := ⟨htotal⟩
  have : IsTrans ℕ (fun a b => cmp a b ≤ 0) := ⟨htrans⟩
  exact List.pairwise_insertionSort _ xs

def create (address : ℕ) (fd : ℤ) (pipe : PipeName) (name : BoxName) : List (BrokerEvent Unit) :=
  [.accept () (.create pipe name) true, .block () ⟨some address, fd⟩, .reply ()]

set_option maxRecDepth 4096 in
theorem listing_shows_iff_twoBoxes :
    ∃ s xs fifo, (broker Unit).run (broker Unit).init
        (create 0 3 pipeP boxB ++ create 1 4 pipeP boxA) = some s ∧
      s.table.Lists xs ∧ handlePacketListMsgBox s.table (List.replicate 58 7) = .ok fifo ∧
      executeCommandListReply sortPointers fifo =
        .ok (.lines [⟨[97], 0, 0, 0⟩, ⟨[98], 0, 0, 0⟩]) ∧
      ((executeCommandListReply sortPointers fifo = .error .capacityExceeded ∧
          capacityLimit < xs.length) ∨
        ∃ out, executeCommandListReply sortPointers fifo = .ok out ∧
          (Shows xs out ↔ LastNamed xs)) := by
  obtain ⟨s, hs⟩ : ∃ s, (broker Unit).run (broker Unit).init
      (create 0 3 pipeP boxB ++ create 1 4 pipeP boxA) = some s := ⟨_, rfl⟩
  have hx : s.table.Lists
      [(0, ⟨boxB, 0, 0, 0, 3, false, 0⟩), (1, ⟨boxA, 0, 0, 0, 4, false, 1⟩)] := by
    cases Option.some.inj hs
    exact ⟨rfl, some 1, rfl, rfl, none, rfl, rfl⟩
  have hp : (List.replicate 58 (7 : UInt8)).length = sizeof listMsgBoxResponsePacket :=
    List.length_replicate
  obtain ⟨fifo, hf, hout⟩ := listing_shows_iff sortPointers_sorts (System.reachable_of_run hs) hx hp
  refine ⟨s, _, fifo, hs, hx, hf, ?_, hout⟩
  cases Option.some.inj hs
  cases hf
  rfl

set_option maxRecDepth 4096 in
theorem unnamed_box_hidden :
    ∃ s xs fifo, (broker Unit).Reachable s ∧ s.table.Lists xs ∧ xs.length = 1 ∧
      handlePacketListMsgBox s.table (List.replicate 58 0) = .ok fifo ∧
      executeCommandListReply sortPointers fifo = .ok .noBoxesFound := by
  obtain ⟨s, hs⟩ : ∃ s, (broker Unit).run (broker Unit).init
      (create 0 (-1) pipeP emptyName) = some s := ⟨_, rfl⟩
  have hx : s.table.Lists [(0, ⟨emptyName, 0, 0, 0, -1, false, 0⟩)] := by
    cases Option.some.inj hs
    exact ⟨rfl, none, rfl, rfl⟩
  cases Option.some.inj hs
  exact ⟨_, _, _, System.reachable_of_run hs, hx, rfl, rfl, rfl⟩

end Runs

end MessageBroker.Manager
