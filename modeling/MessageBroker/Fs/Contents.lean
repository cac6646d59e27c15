import MessageBroker.Fs.Calls

namespace MessageBroker.Fs

open MessageBroker.Lib

namespace State

variable (s : State)

def fileOf (k : ℕ) : ℕ := s.history.inodeFile k

def fileAt (h : ℕ) : ℕ := s.history.handleFile h

def byteAt (k i : ℕ) : UInt8 := s.fsData (s.blockOf k * s.fsParams.blockSize + i)

end State

/-- The handle's inode or its block went to another file, or the handle is past the end. -/
def Strays (s : State) (h : ℕ) : Prop :=
  s.fileOf (s.inodeOf h) ≠ s.fileAt h ∨
    (0 < s.sizeOf (s.inodeOf h) ∧ s.history.blockFile (s.blockOf (s.inodeOf h)) ≠ s.fileAt h) ∨
    s.sizeOf (s.inodeOf h) < s.offsetOf h

def TransfersAstray (s : State) : Call → Prop
  | .write fh _ toWrite => 0 ≤ fh ∧ fh.toNat < s.fsParams.maxOpenFilesCount ∧
      s.freeOpenFileEntries fh.toNat = .taken ∧ Stores s fh.toNat toWrite ∧ Strays s fh.toNat
  | .read fh _ len => 0 ≤ fh ∧ fh.toNat < s.fsParams.maxOpenFilesCount ∧
      s.freeOpenFileEntries fh.toNat = .taken ∧ 0 < len ∧
      s.offsetOf fh.toNat ≠ s.sizeOf (s.inodeOf fh.toNat) ∧ Strays s fh.toNat
  | _ => False

instance (s : State) (h : ℕ) : Decidable (Strays s h) := inferInstanceAs (Decidable (_ ∨ _))

instance (s : State) (call : Call) : Decidable (TransfersAstray s call) :=
  match call with
  | .write _ _ _ | .read _ _ _ => inferInstanceAs (Decidable (_ ∧ _))
  | .open _ _ | .close _ | .unlink _ => inferInstanceAs (Decidable False)

structure Faithful (s : State) : Prop where
  numbers : ∀ {k}, s.Used k → s.fileOf k < s.history.inodesCreated
  files : ∀ {k l}, s.Used k → s.Used l → s.fileOf k = s.fileOf l → k = l
  blocks : ∀ {k}, s.Linked k → 0 < s.sizeOf k → s.history.blockFile (s.blockOf k) = s.fileOf k
  contents : ∀ {k i}, s.Used k → s.history.blockFile (s.blockOf k) = s.fileOf k →
    i < s.sizeOf k → s.history.stored (s.fileOf k) i = some (s.byteAt k i)
  within : ∀ {k i}, s.Linked k → s.history.stored (s.fileOf k) i ≠ none → i < s.sizeOf k

section Preserved

variable {s : State} {slots : List Slot} {k l i h b offset n mode : ℕ} {subName bs : List UInt8}

lemma truncated_stored (f : ℕ) : (s.truncated k).history.stored f =
    if f = s.fileOf k then (fun _ => none) else s.history.stored f :=
  Function.update_apply _ _ _ _

lemma Faithful.truncated (hf : Faithful s) (hk : s.Linked k) : Faithful (s.truncated k) := by
  have hother : ∀ {l}, s.Used l → l ≠ k → (s.truncated k).history.stored (s.fileOf l) =
      s.history.stored (s.fileOf l) := by
    intro l hl hlk
    rw [truncated_stored, if_neg (fun he => hlk (hf.files hl (.inl hk) he))]
  refine ⟨hf.numbers, hf.files, ?_, ?_, ?_⟩
  · intro l hl hz
    rw [truncated_sizeOf] at hz
    rw [truncated_blockOf]
    exact hf.blocks hl (pos_of_ite hz).2
  · intro l i hl hb hi
    rw [truncated_sizeOf] at hi
    rw [truncated_blockOf] at hb
    have hlk : l ≠ k := by
      rintro rfl
      rw [if_pos rfl] at hi
      exact absurd hi (Nat.not_lt_zero i)
    rw [if_neg hlk] at hi
    rw [State.byteAt, truncated_blockOf]
    exact (congrFun (hother hl hlk) i).trans (hf.contents hl hb hi)
  · intro l i hl hne
    by_cases hlk : l = k
    · subst hlk
      have hnone : (s.truncated l).history.stored (s.fileOf l) = fun _ => none := by
        rw [truncated_stored, if_pos rfl]
      exact absurd (congrFun hnone i) hne
    · rw [truncated_sizeOf, if_neg hlk]
      rw [show (s.truncated k).fileOf l = s.fileOf l from rfl, hother (.inl hl) hlk] at hne
      exact hf.within hl hne

lemma Faithful.retrieved (hf : Faithful s) (hk : s.Linked k) : Faithful (s.retrieved k mode) := by
  rw [State.retrieved]
  split_ifs
  · exact hf.truncated hk
  · exact hf

lemma newInode_fileOf (l : ℕ) :
    (s.newInode k).fileOf l = if l = k then s.history.inodesCreated else s.fileOf l :=
  Function.update_apply _ _ _ _

lemma newInode_stored (f : ℕ) : (s.newInode k).history.stored f =
    if f = s.history.inodesCreated then (fun _ => none) else s.history.stored f :=
  Function.update_apply _ _ _ _

lemma byteAt_frame {t : State} (hp : t.fsParams = s.fsParams) (hb : t.blockOf l = s.blockOf l)
    (hd : ∀ x, s.fsParams.blockSize ≤ x → t.fsData x = s.fsData x) (hpos : 0 < s.blockOf l) :
    t.byteAt l i = s.byteAt l i := by
  rw [State.byteAt, State.byteAt, hp, hb]
  apply hd
  have hle : s.fsParams.blockSize ≤ s.blockOf l * s.fsParams.blockSize :=
    Nat.le_mul_of_pos_left _ hpos
  omega

lemma entry_below (hi : i < s.maxDirEntries) :
    entryAt 0 i + sizeofDirEntry ≤ s.fsParams.blockSize := by
  have hroom := dirRoom s
  simp only [entryAt, sizeofDirEntry] at *
  omega

lemma Faithful.fresh (hf : Faithful s) (hs : Sound s slots) (hfree : s.freeinodeTs k = .free)
    {t : State} (hused : ∀ l, t.Used l → l = k ∨ s.Used l)
    (hlinked : ∀ l, t.Linked l → l = k ∨ s.Linked l) (hp : t.fsParams = s.fsParams)
    (hi : t.inodeTable = (s.newInode k).inodeTable)
    (hd : ∀ x, s.fsParams.blockSize ≤ x → t.fsData x = s.fsData x)
    (hc : t.history.inodesCreated = s.history.inodesCreated + 1)
    (hfile : t.history.inodeFile = (s.newInode k).history.inodeFile)
    (hblock : t.history.blockFile = s.history.blockFile)
    (hstored : t.history.stored = (s.newInode k).history.stored) : Faithful t := by
  have hsize : ∀ l, t.sizeOf l = if l = k then 0 else s.sizeOf l := by
    intro l
    rw [State.sizeOf, hi]
    exact newInode_sizeOf l
  have hblockOf : ∀ {l}, l ≠ k → t.blockOf l = s.blockOf l := by
    intro l hl
    rw [State.blockOf, hi]
    exact newInode_blockOf hl
  have hfileOf : ∀ l, t.fileOf l = if l = k then s.history.inodesCreated else s.fileOf l := by
    intro l
    rw [State.fileOf, hfile]
    exact newInode_fileOf l
  have hold : ∀ {l}, s.Used l → t.history.stored (s.fileOf l) = s.history.stored (s.fileOf l) := by
    intro l hl
    rw [hstored, newInode_stored, if_neg (Nat.ne_of_lt (hf.numbers hl))]
  refine ⟨?_, ?_, ?_, ?_, ?_⟩
  · intro l hl
    rw [hfileOf, hc]
    split_ifs with hlk
    · exact Nat.lt_succ_self _
    · exact (hf.numbers ((hused l hl).resolve_left hlk)).trans (Nat.lt_succ_self _)
  · intro l j hl hj he
    rw [hfileOf, hfileOf] at he
    split_ifs at he with hlk hjk hjk
    · exact hlk.trans hjk.symm
    · exact absurd he.symm (Nat.ne_of_lt (hf.numbers ((hused j hj).resolve_left hjk)))
    · exact absurd he (Nat.ne_of_lt (hf.numbers ((hused l hl).resolve_left hlk)))
    · exact hf.files ((hused l hl).resolve_left hlk) ((hused j hj).resolve_left hjk) he
  · intro l hl hz
    rw [hsize] at hz
    obtain ⟨hlk, hz⟩ := pos_of_ite hz
    rw [hblock, hblockOf hlk, hfileOf, if_neg hlk]
    exact hf.blocks ((hlinked l hl).resolve_left hlk) hz
  · intro l i hl hb hi
    rw [hsize] at hi
    have hlk : l ≠ k := by
      rintro rfl
      rw [if_pos rfl] at hi
      exact absurd hi (Nat.not_lt_zero i)
    have hu := (hused l hl).resolve_left hlk
    rw [if_neg hlk] at hi
    rw [hblock, hblockOf hlk, hfileOf, if_neg hlk] at hb
    rw [hfileOf, if_neg hlk, hold hu, hf.contents hu hb hi,
      byteAt_frame hp (hblockOf hlk) hd (hs.blocks hu (by omega)).2.1]
  · intro l i hl hne
    by_cases hlk : l = k
    · rw [hfileOf, if_pos hlk, hstored, newInode_stored, if_pos rfl] at hne
      exact absurd rfl hne
    · have hl' := (hlinked l hl).resolve_left hlk
      rw [hfileOf, if_neg hlk, hold (.inl hl')] at hne
      rw [hsize, if_neg hlk]
      exact hf.within hl' hne

lemma Faithful.spoiled (hf : Faithful s) (hs : Sound s slots) (hfree : s.freeinodeTs k = .free) :
    Faithful (s.newInode k) :=
  hf.fresh hs hfree (fun _ hl => .inr hl) (fun _ hl => .inr hl) rfl rfl (fun _ _ => rfl) rfl rfl
    rfl rfl

lemma Faithful.created (hf : Faithful s) (hs : Sound s slots)
    (hk : 0 < k ∧ k < s.fsParams.maxInodeCount) (hfree : s.freeinodeTs k = .free)
    (hi : i < s.maxDirEntries) : Faithful (s.created k i subName) := by
  refine hf.fresh hs hfree ?_ (fun _ hl => (created_linked hk).mp hl) rfl rfl ?_ rfl rfl rfl rfl
  · intro l hl
    by_cases hlk : l = k
    · exact .inl hlk
    · exact .inr (created_used hk hlk hl)
  · intro x hx
    have hbelow := entry_below hi
    exact filledData_outside _ _ _ _ x (.inr (by omega))

lemma Faithful.opened (hf : Faithful s) (hh : h < s.fsParams.maxOpenFilesCount) (hk : s.Linked k) :
    Faithful (s.opened h k offset) :=
  ⟨fun hl => hf.numbers (opened_used hh hk hl),
    fun hl hj he => hf.files (opened_used hh hk hl) (opened_used hh hk hj) he,
    fun hl hz => hf.blocks hl hz,
    fun hl hb hi => hf.contents (opened_used hh hk hl) hb hi, fun hl hne => hf.within hl hne⟩

lemma Faithful.closed (hf : Faithful s) : Faithful (s.closed h) :=
  ⟨fun hl => hf.numbers (closed_used hl),
    fun hl hj he => hf.files (closed_used hl) (closed_used hj) he, fun hl hz => hf.blocks hl hz,
    fun hl hb hi => hf.contents (closed_used hl) hb hi, fun hl hne => hf.within hl hne⟩

lemma Faithful.advanced (hf : Faithful s) : Faithful (s.advanced h n) :=
  ⟨fun hl => hf.numbers (advanced_used hl),
    fun hl hj he => hf.files (advanced_used hl) (advanced_used hj) he, fun hl hz => hf.blocks hl hz,
    fun hl hb hi => hf.contents (advanced_used hl) hb hi, fun hl hne => hf.within hl hne⟩

lemma Faithful.unlinked (hf : Faithful s) (hs : Sound s slots) (hi : i < s.maxDirEntries) :
    Faithful (s.unlinked k i subName) := by
  refine ⟨fun hl => hf.numbers (unlinked_used hl),
    fun hl hj he => hf.files (unlinked_used hl) (unlinked_used hj) he,
    fun hl hz => hf.blocks (unlinked_linked.mp hl).2 hz, ?_,
    fun hl hne => hf.within (unlinked_linked.mp hl).2 hne⟩
  intro l j hl hb hj
  have hu := unlinked_used hl
  have hz : 0 < s.sizeOf l := Nat.zero_lt_of_lt hj
  have hbelow := entry_below hi
  have hbyte : (s.unlinked k i subName).byteAt l j = s.byteAt l j := by
    refine byteAt_frame rfl rfl ?_ (hs.blocks hu hz).2.1
    intro x hx
    exact clearedData_outside _ _ x (.inr (by omega))
  rw [hbyte]
  exact hf.contents hu hb hj

lemma blocks_apart {c : ℕ} (m : ℕ) (hbc : b ≠ c) : b * m + m ≤ c * m ∨ c * m + m ≤ b * m := by
  rcases Nat.lt_or_gt_of_ne hbc with hlt | hlt
  · have hmul := Nat.mul_le_mul_right m hlt
    rw [Nat.succ_mul] at hmul
    exact .inl hmul
  · have hmul := Nat.mul_le_mul_right m hlt
    rw [Nat.succ_mul] at hmul
    exact .inr hmul

lemma wrote_byteAt_other (hlk : l ≠ s.inodeOf h) (hbl : s.blockOf l ≠ b)
    (hfit : s.offsetOf h + bs.length ≤ s.fsParams.blockSize) (hi : i < s.fsParams.blockSize) :
    (s.wrote h b bs).byteAt l i = s.byteAt l i := by
  rw [State.byteAt, wrote_blockOf, if_neg hlk]
  show writeMem s.fsData _ bs (s.blockOf l * s.fsParams.blockSize + i) = _
  have hapart := blocks_apart s.fsParams.blockSize hbl
  exact writeMem_out (by omega)

lemma wrote_byteAt_self : (s.wrote h b bs).byteAt (s.inodeOf h) i =
    if s.offsetOf h ≤ i ∧ i < s.offsetOf h + bs.length then bs.getD (i - s.offsetOf h) 0
    else s.fsData (b * s.fsParams.blockSize + i) := by
  rw [State.byteAt, wrote_blockOf, if_pos rfl]
  show writeMem s.fsData (b * s.fsParams.blockSize + s.offsetOf h) bs
    (b * s.fsParams.blockSize + i) = _
  rw [writeMem]
  have hoff : b * s.fsParams.blockSize + i - (b * s.fsParams.blockSize + s.offsetOf h) =
      i - s.offsetOf h := by omega
  rw [hoff]
  exact if_congr (by omega) rfl rfl

lemma wrote_blockFile (c : ℕ) : (s.wrote h b bs).history.blockFile c =
    if s.sizeOf (s.inodeOf h) = 0 ∧ c = b then s.fileAt h else s.history.blockFile c := by
  simp only [State.wrote]
  split_ifs with h₁ h₂ h₂
  · rw [h₂.2, Function.update_self]
    rfl
  · rw [Function.update_of_ne (fun he => h₂ ⟨h₁, he⟩)]
  · exact (h₁ h₂.1).elim
  · rfl

lemma wrote_stored (f : ℕ) : (s.wrote h b bs).history.stored f =
    if f = s.fileAt h then storeBytes (s.history.stored f) (s.offsetOf h) bs
    else s.history.stored f := by
  by_cases hf : f = s.fileAt h
  · rw [if_pos hf, hf]
    exact Function.update_self _ _ _
  · rw [if_neg hf]
    exact Function.update_of_ne hf _ _

end Preserved

section Writes

variable {s : State} {slots : List Slot} {k l i h b n : ℕ} {bs : List UInt8}

lemma other_block (hf : Faithful s) (hw : Writable s h b bs) (hn : ¬ Strays s h)
    (hlk : l ≠ s.inodeOf h) (hl : s.Used l)
    (hb : (s.wrote h b bs).history.blockFile (s.blockOf l) = s.fileOf l) : s.blockOf l ≠ b := by
  rintro rfl
  have hused : s.Used (s.inodeOf h) := .inr ⟨h, hw.isOpen, rfl⟩
  have hown : s.fileOf (s.inodeOf h) = s.fileAt h := by
    by_contra hne
    exact hn (.inl hne)
  have hfile : (s.wrote h (s.blockOf l) bs).history.blockFile (s.blockOf l) = s.fileAt h := by
    rw [wrote_blockFile]
    split_ifs with hc
    · rfl
    · have hz : 0 < s.sizeOf (s.inodeOf h) := by omega
      by_contra hne
      rw [← hw.old hz] at hne
      exact hn (.inr (.inl ⟨hz, hne⟩))
  exact hlk (hf.files hl hused (hb.symm.trans (hfile.trans hown.symm)))

lemma storeBytes_some {stored : ℕ → Option UInt8} {x : UInt8}
    (hold : ¬ (n ≤ i ∧ i < n + bs.length) → stored i = some x) :
    storeBytes stored n bs i =
      some (if n ≤ i ∧ i < n + bs.length then bs.getD (i - n) 0 else x) := by
  rw [storeBytes]
  split_ifs with hin
  · rw [List.getD_eq_getElem?_getD, List.getElem?_eq_getElem (by omega)]
    rfl
  · exact hold hin

lemma Faithful.wrote (hf : Faithful s) (hs : Sound s slots) (hw : Writable s h b bs)
    (hn : ¬ Strays s h) : Faithful (s.wrote h b bs) := by
  obtain ⟨ho, hpos, hfit, hb, hfresh, hold⟩ := hw
  have hw : Writable s h b bs := ⟨ho, hpos, hfit, hb, hfresh, hold⟩
  have hused : s.Used (s.inodeOf h) := .inr ⟨h, ho, rfl⟩
  have hown : s.fileOf (s.inodeOf h) = s.fileAt h := by
    by_contra hne
    exact hn (.inl hne)
  have hoff : s.offsetOf h ≤ s.sizeOf (s.inodeOf h) := by
    by_contra hlt
    exact hn (.inr (.inr (by omega)))
  have hother : ∀ {l}, s.Used l → l ≠ s.inodeOf h →
      (s.wrote h b bs).history.stored (s.fileOf l) = s.history.stored (s.fileOf l) := by
    intro l hl hlk
    rw [wrote_stored, if_neg]
    intro he
    exact hlk (hf.files hl hused (he.trans hown.symm))
  refine ⟨fun hl => hf.numbers (wrote_used hl),
    fun hl hj he => hf.files (wrote_used hl) (wrote_used hj) he, ?_, ?_, ?_⟩
  · intro l hl hz
    rw [wrote_sizeOf] at hz
    rw [wrote_blockOf]
    split_ifs at hz ⊢ with hlk
    · rw [hlk]
      refine Eq.trans ?_ hown.symm
      rw [wrote_blockFile]
      split_ifs with hc
      · rfl
      · have hzk : 0 < s.sizeOf (s.inodeOf h) := by omega
        by_contra hne
        rw [← hold hzk] at hne
        exact hn (.inr (.inl ⟨hzk, hne⟩))
    · rw [wrote_blockFile, if_neg]
      · exact hf.blocks hl hz
      · rintro ⟨hk0, hbl⟩
        exact ne_of_taken (hs.owned hl hz) (hfresh hk0) hbl
  · intro l i hl hbf hi
    have hl := wrote_used hl
    rw [wrote_sizeOf] at hi
    rw [wrote_blockOf] at hbf
    by_cases hlk : l = s.inodeOf h
    · rw [if_pos hlk] at hi
      rw [hlk, wrote_byteAt_self]
      show (s.wrote h b bs).history.stored (s.fileOf (s.inodeOf h)) i = _
      rw [hown, wrote_stored, if_pos rfl]
      apply storeBytes_some
      -- what the write left alone was below the old size
      intro hout
      have hi' : i < s.sizeOf (s.inodeOf h) := by omega
      have hbk : s.history.blockFile (s.blockOf (s.inodeOf h)) = s.fileAt h := by
        by_contra hne
        exact hn (.inr (.inl ⟨by omega, hne⟩))
      have hc := hf.contents hused (hbk.trans hown.symm) hi'
      rw [hown, State.byteAt, hold (by omega)] at hc
      exact hc
    · rw [if_neg hlk] at hi hbf
      have hbl := other_block hf hw hn hlk hl hbf
      have hsize := hs.sizes hl
      rw [wrote_byteAt_other hlk hbl hfit (by omega)]
      refine (congrFun (hother hl hlk) i).trans (hf.contents hl ?_ hi)
      rw [wrote_blockFile, if_neg (fun hc => hbl hc.2)] at hbf
      exact hbf
  · intro l i hl hne
    rw [wrote_sizeOf]
    split_ifs with hlk
    · by_contra hge
      subst hlk
      have hout : ¬ (s.offsetOf h ≤ i ∧ i < s.offsetOf h + bs.length) := by omega
      have hnone : (s.wrote h b bs).history.stored (s.fileOf (s.inodeOf h)) i =
          s.history.stored (s.fileOf (s.inodeOf h)) i := by
        rw [hown, wrote_stored, if_pos rfl, storeBytes, if_neg hout]
      have hlt := hf.within hl (fun he => hne (hnone.trans he))
      omega
    · exact hf.within hl (fun he => hne ((congrFun (hother (.inl hl) hlk) i).trans he))

end Writes

section Calls

variable {s t s₀ : State} {slots slots' : List Slot} {call : Call} {r : Reply} {h b n : ℕ}
  {buffer : List UInt8} {toWrite room len : ℕ}

lemma write_strays (hw : Writable s h b (buffer.take n))
    (hn : n = min toWrite (s.fsParams.blockSize - s.offsetOf h))
    (hc : ¬ TransfersAstray s (.write h buffer toWrite)) : ¬ Strays s h := fun hs =>
  hc ⟨by omega, hw.isOpen.1, hw.isOpen.2, hw.stores hn, hs⟩

lemma read_strays (ho : s.Open h) (hl : 0 < len) (hoff : s.offsetOf h ≠ s.sizeOf (s.inodeOf h))
    (hc : ¬ TransfersAstray s (.read h room len)) : ¬ Strays s h := fun hs =>
  hc ⟨by omega, ho.1, ho.2, hl, hoff, hs⟩

lemma Happens.faithful (hh : Happens s slots call r t slots') (hs : Sound s slots) (hf : Faithful s)
    (hc : ¬ TransfersAstray s call) : Faithful t := by
  cases hh with
  | openInvalid | openAbsent | openNoInode | closeBad | writeBad | writeNone | writeFull | readBad
  | readNone | unlinkInvalid | unlinkAbsent => exact hf
  | @openExisting name mode i fname k h hv ho hname hfree =>
    have hk := hs.entries ho
    have hlt := hfree.1
    rw [← (retrieved_tables s k mode).2] at hlt
    exact (hf.retrieved hk).opened hlt (retrieved_linked.mpr hk)
  | openExistingFull hv ho => exact hf.retrieved (hs.entries ho)
  | openNoEntry hv hno hc' hk hfree => exact hf.spoiled hs hfree.2.1
  | openCreated hv hno hc' hk hi hname hle hn hvacant hfree =>
    exact (hf.created hs ⟨hk, hi.1⟩ hi.2.1 hn).opened hfree.1
      ((created_linked ⟨hk, hi.1⟩).mpr (.inl rfl))
  | openCreatedFull hv hno hc' hk hi hname hle hn =>
    exact hf.created hs ⟨hk, hi.1⟩ hi.2.1 hn
  | close => exact hf.closed
  | write ho hle hn hpos hbuf hb0 hb hfresh hold =>
    have hw := writable_take ho hle hn hpos hbuf hb0 hb hfresh hold
    exact hf.wrote hs hw (write_strays hw hn hc)
  | read => exact hf.advanced
  | unlink hv ho =>
    have hi := (List.getElem?_eq_some_iff.mp ho).1
    exact hf.unlinked hs (hi.trans_le hs.listed.room)

lemma Faithful.init {p : TfsParams} {mallocs : Mallocs} (hp : p.InRange)
    (h0 : tfsInit p mallocs = .ok (s₀, 0)) : Faithful s₀ := by
  have hs := Sound.init hp h0
  have hopen := init_closed h0
  obtain ⟨-, m, rfl, -⟩ := tfsInit_cases h0
  have hlinked : ∀ k, ¬ (initial p mallocs m).Linked k := by
    intro k hk
    obtain ⟨i, name, ho⟩ := hs.entered hk
    cases ho
  have hused : ∀ k, ¬ (initial p mallocs m).Used k := by
    rintro k (hk | ⟨h, hh, -⟩)
    · exact hlinked k hk
    · exact hopen h hh
  exact ⟨fun hk => absurd hk (hused _), fun hk => absurd hk (hused _),
    fun hk => absurd hk (hlinked _), fun hk => absurd hk (hused _), fun hk => absurd hk (hlinked _)⟩

lemma faithful_of_reachable {p : TfsParams} {mallocs : Mallocs} {allowed : State → Call → Prop}
    (hp : p.InRange) (h0 : tfsInit p mallocs = .ok (s₀, 0))
    (ha : ∀ s call, allowed s call → ¬ TransfersAstray s call)
    (h : (tecnicofs s₀).ReachableBy allowed s) : ∃ slots, Sound s slots ∧ Faithful s := by
  apply invariant_of_reachable hp h0 (Faithful.init hp h0) _ h
  intro s t slots slots' call r hs hf hcall hh
  exact hh.faithful hs hf (ha _ _ hcall)

end Calls

end MessageBroker.Fs
