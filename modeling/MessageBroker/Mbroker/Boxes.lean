import MessageBroker.Lib.LinkedHeap
import MessageBroker.Protocol.Packets

/-! The table of message boxes: the linked list msg_boxes and the three functions that walk it. -/

namespace MessageBroker.Mbroker

open MessageBroker.Lib MessageBroker.Protocol

structure MessageBox where
  name : BoxName
  publishers : ℕ
  subscribers : ℕ
  size : ℕ
  fdInternalW : ℤ
  -- locked
  waitMutex : Bool
  -- history: how many boxes were created before this one
  serial : ℕ
  deriving DecidableEq

namespace MessageBox

def admitPublisher (b : MessageBox) : MessageBox := { b with publishers := 1 }

def admitSubscriber (b : MessageBox) : MessageBox := { b with subscribers := b.subscribers + 1 }

def grow (b : MessageBox) : MessageBox := { b with size := b.size + sizeof messagePacket }

def dropPublisher (b : MessageBox) : MessageBox := { b with publishers := b.publishers - 1 }

def dropSubscriber (b : MessageBox) : MessageBox := { b with subscribers := b.subscribers - 1 }

end MessageBox

structure Table where
  heap : Heap MessageBox
  msgBoxes : Option ℕ
  -- history
  created : ℕ

inductive Fault
  | noMemory
  | mutexBusy
  | wildPointer
  -- a traversal longer than the heap
  | endless
  deriving DecidableEq

def load (h : Heap MessageBox) (p : ℕ) : Except Fault (Node MessageBox) :=
  match h.cells p with
  | some node => .ok node
  | none => .error .wildPointer

def getMsgBoxFrom (h : Heap MessageBox) (name : BoxName) :
    ℕ → Option ℕ → Except Fault (Option ℕ)
  | _, none => .ok none
  | 0, some _ => .error .endless
  | fuel + 1, some current => do
    let node ← load h current
    if node.value.name = name then .ok (some current)
    else getMsgBoxFrom h name fuel node.next

def getMsgBox (t : Table) (name : BoxName) : Except Fault (Option ℕ) :=
  getMsgBoxFrom t.heap name t.heap.top t.msgBoxes

/-- `while (current->next != NULL) current = current->next;` -/
def lastFrom (h : Heap MessageBox) : ℕ → ℕ → Except Fault ℕ
  | 0, _ => .error .endless
  | fuel + 1, current => do
    let node ← load h current
    match node.next with
    | none => .ok current
    | some next => lastFrom h fuel next

def addMsgBox (t : Table) (name : BoxName) (malloc : Option ℕ) (fd : ℤ) : Except Fault Table :=
  match malloc with
  | none => .error .noMemory
  | some newBox => do
    let heap := t.heap.alloc newBox ⟨⟨name, 0, 0, 0, fd, false, t.created⟩, none⟩
    match t.msgBoxes with
    | none => .ok ⟨heap, some newBox, t.created + 1⟩
    | some current =>
      let last ← lastFrom heap heap.top current
      .ok ⟨heap.setNext last (some newBox), t.msgBoxes, t.created + 1⟩

def unlinkBox (t : Table) (previous next : Option ℕ) : Table :=
  match previous with
  | none => { t with msgBoxes := next }
  | some previous => { t with heap := t.heap.setNext previous next }

def freeBox (t : Table) (p : ℕ) : Table := { t with heap := t.heap.free p }

def removeMsgBoxFrom (t : Table) (name : BoxName) :
    ℕ → Option ℕ → Option ℕ → Except Fault Table
  | _, _, none => .ok t
  | 0, _, some _ => .error .endless
  | fuel + 1, previous, some current => do
    let node ← load t.heap current
    if node.value.name = name then
      if node.value.waitMutex then .error .mutexBusy
      else .ok (freeBox (unlinkBox t previous node.next) current)
    else removeMsgBoxFrom t name fuel (some current) node.next

def removeMsgBox (t : Table) (name : BoxName) : Except Fault Table :=
  removeMsgBoxFrom t name t.heap.top none t.msgBoxes

def modifyBox (t : Table) (p : ℕ) (f : MessageBox → MessageBox) : Except Fault Table := do
  let _ ← load t.heap p
  .ok { t with heap := t.heap.setValue p f }

/-- The fields of a list_msg_box_response_packet after the code; the counts are missing where
they are never written. -/
structure ListPacket where
  isLast : Bool
  boxName : BoxName
  counts : Option (ℕ × ℕ × ℕ)
  deriving DecidableEq

def emptyName : BoxName := ⟨[], by simp, by decide⟩

def listPacket (box : MessageBox) (isLast : Bool) : ListPacket :=
  ⟨isLast, box.name, some (box.size, box.publishers, box.subscribers)⟩

def listFrom (h : Heap MessageBox) : ℕ → Option ℕ → Except Fault (List ListPacket)
  | _, none => .ok []
  | 0, some _ => .error .endless
  | fuel + 1, some it => do
    let node ← load h it
    let rest ← listFrom h fuel node.next
    .ok (listPacket node.value (node.next == none) :: rest)

def listMsgBoxes (t : Table) : Except Fault (List ListPacket) :=
  match t.msgBoxes with
  | none => .ok [⟨true, emptyName, none⟩]
  | some _ => listFrom t.heap t.heap.top t.msgBoxes

section Specs

variable {h : Heap MessageBox} {t : Table} {start : Option ℕ} {xs : List (ℕ × MessageBox)}
  {name : BoxName} {p : ℕ} {b : MessageBox} {fuel : ℕ}

def Table.Lists (t : Table) (xs : List (ℕ × MessageBox)) : Prop := t.heap.Chain t.msgBoxes xs

def named (name : BoxName) (x : ℕ × MessageBox) : Bool := x.2.name == name

def adjust (p : ℕ) (f : MessageBox → MessageBox) (xs : List (ℕ × MessageBox)) :
    List (ℕ × MessageBox) :=
  xs.map fun x => if x.1 = p then (x.1, f x.2) else x

def packets : List (ℕ × MessageBox) → List ListPacket
  | [] => []
  | x :: xs => listPacket x.2 xs.isEmpty :: packets xs

lemma load_eq {node : Node MessageBox} (hp : h.cells p = some node) : load h p = .ok node := by
  rw [load, hp]

lemma getMsgBoxFrom_eq (hx : h.Chain start xs) (hf : xs.length ≤ fuel) :
    getMsgBoxFrom h name fuel start = .ok ((xs.find? (named name)).map Prod.fst) := by
  induction xs generalizing start fuel with
  | nil =>
    cases hx
    cases fuel <;> rfl
  | cons x xs ih =>
    obtain ⟨p, b⟩ := x
    obtain ⟨rfl, next, hp, hs⟩ := hx
    cases fuel with
    | zero => cases hf
    | succ fuel =>
      rw [getMsgBoxFrom, load_eq hp]
      by_cases hb : b.name = name
      · simp [bind, Except.bind, named, hb]
      · have hh := ih hs (Nat.le_of_succ_le_succ hf)
        simpa [bind, Except.bind, named, hb] using hh

lemma getMsgBox_eq (hx : t.Lists xs) (name : BoxName) :
    getMsgBox t name = .ok ((xs.find? (named name)).map Prod.fst) :=
  getMsgBoxFrom_eq hx hx.length_le

lemma lastFrom_eq {q : ℕ} (hx : h.Chain (some p) (xs ++ [(q, b)])) (hf : xs.length < fuel) :
    lastFrom h fuel p = .ok q := by
  induction xs generalizing p fuel with
  | nil =>
    obtain ⟨he, next, hq, hn⟩ := hx
    cases he
    cases hn
    cases fuel with
    | zero => cases hf
    | succ fuel =>
      rw [lastFrom, load_eq hq]
      rfl
  | cons x xs ih =>
    obtain ⟨r, c⟩ := x
    obtain ⟨he, next, hr, hs⟩ := hx
    cases he
    cases fuel with
    | zero => cases hf
    | succ fuel =>
      obtain ⟨n, rfl⟩ : ∃ n, next = some n := by
        cases xs with
        | nil => exact ⟨q, hs.1⟩
        | cons y ys => exact ⟨y.1, hs.1⟩
      rw [lastFrom, load_eq hr]
      exact ih hs (Nat.lt_of_succ_lt_succ hf)

lemma Table.Lists.not_mem (hx : t.Lists xs) (hp : t.heap.cells p = none) :
    p ∉ xs.map Prod.fst := by
  intro hmem
  obtain ⟨⟨q, b⟩, hqb, rfl⟩ := List.mem_map.mp hmem
  obtain ⟨next, hc⟩ := Heap.Segment.cell hx hqb
  rw [hp] at hc
  cases hc

lemma addMsgBox_eq (hx : t.Lists xs) (hp : t.heap.cells p = none) (name : BoxName) (fd : ℤ) :
    ∃ t', addMsgBox t name (some p) fd = .ok t' ∧
      t'.Lists (xs ++ [(p, ⟨name, 0, 0, 0, fd, false, t.created⟩)]) ∧
      t'.created = t.created + 1 := by
  have hnew : p ∉ xs.map Prod.fst := hx.not_mem hp
  let box : MessageBox := ⟨name, 0, 0, 0, fd, false, t.created⟩
  let heap := t.heap.alloc p ⟨box, none⟩
  have hcell : heap.cells p = some ⟨box, none⟩ := Heap.alloc_self _
  have hold : heap.Chain t.msgBoxes xs :=
    Heap.Segment.congr hx (fun q hq => Heap.alloc_other _ (fun he => hnew (he ▸ hq)))
  cases hm : t.msgBoxes with
  | none =>
    rw [hm] at hold
    have hnil : xs = [] := Heap.Chain.unique hold (show heap.Chain none [] from rfl)
    subst hnil
    exact ⟨⟨heap, some p, t.created + 1⟩, by rw [addMsgBox, hm], ⟨rfl, none, hcell, rfl⟩, rfl⟩
  | some current =>
    rw [hm] at hold
    rcases List.eq_nil_or_concat xs with rfl | ⟨ys, ⟨q, c⟩, rfl⟩
    · cases hold
    rw [List.concat_eq_append] at hold hnew ⊢
    have hlen := hold.length_le
    rw [List.length_append, List.length_singleton] at hlen
    have hlast := lastFrom_eq hold hlen
    have hq : q ∉ ys.map Prod.fst := by
      have hnd := hold.nodup
      rw [List.map_append, List.nodup_append'] at hnd
      exact fun hmem => hnd.2.2 hmem List.mem_cons_self
    refine ⟨⟨heap.setNext q (some p), some current, t.created + 1⟩, ?_, ?_, rfl⟩
    · have hl : lastFrom heap heap.top current = .ok q := hlast
      simp only [addMsgBox, hm]
      show (lastFrom heap heap.top current >>= _) = _
      rw [hl]
      rfl
    · refine Heap.segment_append.mpr
        ⟨some p, Heap.Segment.relink hold hq (some p), rfl, none, ?_, rfl⟩
      have hne : p ≠ q := by
        rintro rfl
        exact hnew (by simp)
      rw [Heap.setNext, Heap.store_other _ hne, hcell]

lemma listFrom_eq (hx : h.Chain start xs) (hf : xs.length ≤ fuel) :
    listFrom h fuel start = .ok (packets xs) := by
  induction xs generalizing start fuel with
  | nil =>
    cases hx
    cases fuel <;> rfl
  | cons x xs ih =>
    obtain ⟨p, b⟩ := x
    obtain ⟨rfl, next, hp, hs⟩ := hx
    cases fuel with
    | zero => cases hf
    | succ fuel =>
      have hlast : (next == none) = xs.isEmpty := by
        cases xs with
        | nil => cases hs; rfl
        | cons y ys => rw [hs.1]; rfl
      rw [listFrom, load_eq hp]
      simp [bind, Except.bind, ih hs (Nat.le_of_succ_le_succ hf), packets, hlast]

lemma unlink_lists {done bs : List (ℕ × MessageBox)} {next : Option ℕ}
    (hx : t.heap.Segment t.msgBoxes done (some p)) (hp : t.heap.cells p = some ⟨b, next⟩)
    (hbs : t.heap.Chain next bs) :
    (freeBox (unlinkBox t (done.getLast?.map Prod.fst) next) p).Lists (done ++ bs) := by
  have hall : t.heap.Chain t.msgBoxes (done ++ (p, b) :: bs) :=
    Heap.segment_append.mpr ⟨some p, hx, rfl, next, hp, hbs⟩
  have hnd := hall.nodup
  rw [List.map_append, List.map_cons, List.nodup_append', List.nodup_cons] at hnd
  obtain ⟨hnd, ⟨hpbs, -⟩, hdisj⟩ := hnd
  have hpdone : p ∉ done.map Prod.fst := fun hm => hdisj hm List.mem_cons_self
  have hfree : ∀ {h : Heap MessageBox} {start stop : Option ℕ} {ys : List (ℕ × MessageBox)},
      p ∉ ys.map Prod.fst → h.Segment start ys stop → (h.free p).Segment start ys stop := by
    intro h start stop ys hys hs
    exact hs.congr (fun q hq => Heap.free_other (fun he => hys (he ▸ hq)))
  rcases List.eq_nil_or_concat done with rfl | ⟨ds, ⟨q, c⟩, rfl⟩
  · exact hfree hpbs hbs
  · rw [List.concat_eq_append] at *
    have hq : q ∉ ds.map Prod.fst := by
      rw [List.map_append, List.nodup_append'] at hnd
      exact fun hm => hnd.2.2 hm List.mem_cons_self
    have hqbs : q ∉ bs.map Prod.fst := fun hm => hdisj (by simp) (List.mem_cons_of_mem _ hm)
    have hlast : (ds ++ [(q, c)]).getLast?.map Prod.fst = some q := by simp
    rw [hlast]
    refine Heap.segment_append.mpr ⟨next, hfree hpdone (hx.relink hq next), hfree hpbs ?_⟩
    exact Heap.Segment.congr hbs (fun r hr => Heap.store_other _ (fun he => hqbs (he ▸ hr)))

lemma freeBox_cells (previous next : Option ℕ) :
    (freeBox (unlinkBox t previous next) p).heap.cells p = none :=
  Function.update_self _ _ _

lemma freeBox_created (previous next : Option ℕ) :
    (freeBox (unlinkBox t previous next) p).created = t.created := by
  cases previous <;> rfl

lemma removeMsgBoxFrom_eq {done todo bs : List (ℕ × MessageBox)}
    (hdone : t.heap.Segment t.msgBoxes done start)
    (hrest : t.heap.Chain start (todo ++ (p, b) :: bs)) (hf : todo.length < fuel)
    (htodo : ∀ x ∈ todo, x.2.name ≠ name) (hb : b.name = name) :
    (b.waitMutex = true →
      removeMsgBoxFrom t name fuel (done.getLast?.map Prod.fst) start = .error .mutexBusy) ∧
    (b.waitMutex = false → ∃ t',
      removeMsgBoxFrom t name fuel (done.getLast?.map Prod.fst) start = .ok t' ∧
        t'.Lists (done ++ todo ++ bs) ∧ t'.heap.cells p = none ∧ t'.created = t.created) := by
  induction todo generalizing done start fuel with
  | nil =>
    obtain ⟨rfl, next, hp, hbs⟩ := hrest
    cases fuel with
    | zero => cases hf
    | succ fuel =>
      have hstep : removeMsgBoxFrom t name (fuel + 1) (done.getLast?.map Prod.fst) (some p) =
          if b.waitMutex then .error .mutexBusy
          else .ok (freeBox (unlinkBox t (done.getLast?.map Prod.fst) next) p) := by
        rw [removeMsgBoxFrom, load_eq hp]
        exact if_pos hb
      rw [hstep, List.append_nil]
      refine ⟨fun hw => if_pos hw, fun hw => ⟨_, if_neg (by rw [hw]; decide), ?_⟩⟩
      exact ⟨unlink_lists hdone hp hbs, freeBox_cells _ _, freeBox_created _ _⟩
  | cons x todo ih =>
    obtain ⟨q, c⟩ := x
    obtain ⟨rfl, next, hq, hs⟩ := hrest
    cases fuel with
    | zero => cases hf
    | succ fuel =>
      have hc : c.name ≠ name := htodo (q, c) List.mem_cons_self
      have hdone' : t.heap.Segment t.msgBoxes (done ++ [(q, c)]) next :=
        Heap.segment_append.mpr ⟨some q, hdone, rfl, next, hq, rfl⟩
      have hh := ih hdone' hs (Nat.lt_of_succ_lt_succ hf)
        (fun x hx => htodo x (List.mem_cons_of_mem _ hx))
      have hlast : (done ++ [(q, c)]).getLast?.map Prod.fst = some q := by simp
      have hstep : removeMsgBoxFrom t name (fuel + 1) (done.getLast?.map Prod.fst) (some q) =
          removeMsgBoxFrom t name fuel (some q) next := by
        rw [removeMsgBoxFrom, load_eq hq]
        exact if_neg hc
      rw [hstep, ← hlast]
      simpa [List.append_assoc] using hh

lemma removeMsgBox_eq {as bs : List (ℕ × MessageBox)} (hx : t.Lists (as ++ (p, b) :: bs))
    (has : ∀ x ∈ as, x.2.name ≠ name) (hb : b.name = name) :
    (b.waitMutex = true → removeMsgBox t name = .error .mutexBusy) ∧
    (b.waitMutex = false → ∃ t', removeMsgBox t name = .ok t' ∧ t'.Lists (as ++ bs) ∧
      t'.heap.cells p = none ∧ t'.created = t.created) := by
  have hlen := hx.length_le
  rw [List.length_append, List.length_cons] at hlen
  have hstart : t.heap.Segment t.msgBoxes [] t.msgBoxes := rfl
  exact removeMsgBoxFrom_eq hstart hx (by omega) has hb

lemma modifyBox_eq (hx : t.Lists xs) (hp : (p, b) ∈ xs) (f : MessageBox → MessageBox) :
    ∃ t', modifyBox t p f = .ok t' ∧ t'.Lists (adjust p f xs) ∧ t'.created = t.created := by
  obtain ⟨next, hc⟩ := Heap.Segment.cell hx hp
  refine ⟨{ t with heap := t.heap.setValue p f }, ?_, Heap.Segment.setValue hx p f, rfl⟩
  rw [modifyBox, load_eq hc]
  rfl

lemma listMsgBoxes_eq (hx : t.Lists xs) :
    listMsgBoxes t = .ok (if xs = [] then [⟨true, emptyName, none⟩] else packets xs) := by
  cases hm : t.msgBoxes with
  | none =>
    have hnil : xs = [] := by
      cases xs with
      | nil => rfl
      | cons x xs =>
        rw [Table.Lists, hm] at hx
        cases hx.1
    rw [listMsgBoxes, hm, if_pos hnil]
  | some p =>
    have hne : xs ≠ [] := by
      rintro rfl
      rw [Table.Lists, hm] at hx
      cases hx
    have hl : listFrom t.heap t.heap.top t.msgBoxes = .ok (packets xs) :=
      listFrom_eq hx hx.length_le
    rw [if_neg hne, ← hl, listMsgBoxes, hm]

end Specs

end MessageBroker.Mbroker
