import MessageBroker.Fs.Directory

namespace MessageBroker.Fs

open MessageBroker.Lib

namespace State

variable (s : State)

def sizeOf (k : ℕ) : ℕ := (s.inodeTable k).iSize

def blockOf (k : ℕ) : ℕ := (s.inodeTable k).iDataBlock.toNat

def inodeOf (h : ℕ) : ℕ := (s.openFileTable h).ofInumber.toNat

def offsetOf (h : ℕ) : ℕ := (s.openFileTable h).ofOffset

def Linked (k : ℕ) : Prop := 0 < k ∧ k < s.fsParams.maxInodeCount ∧ s.freeinodeTs k = .taken

def Open (h : ℕ) : Prop := h < s.fsParams.maxOpenFilesCount ∧ s.freeOpenFileEntries h = .taken

def Used (k : ℕ) : Prop := s.Linked k ∨ ∃ h, s.Open h ∧ s.inodeOf h = k

def truncated (k : ℕ) : State :=
  { s with
    freeBlocks := if 0 < s.sizeOf k then Function.update s.freeBlocks (s.blockOf k) .free
      else s.freeBlocks
    inodeTable := Function.update s.inodeTable k { s.inodeTable k with iSize := 0 }
    history := { s.history with
      stored := Function.update s.history.stored (s.history.inodeFile k) (fun _ => none) } }

def newInode (k : ℕ) : State :=
  { s with
    inodeTable := Function.update s.inodeTable k ⟨.file, 0, -1⟩
    history := { s.history with
      inodesCreated := s.history.inodesCreated + 1
      inodeFile := Function.update s.history.inodeFile k s.history.inodesCreated
      stored := Function.update s.history.stored s.history.inodesCreated (fun _ => none) } }

def created (k i : ℕ) (subName : List UInt8) : State :=
  { s.newInode k with
    freeinodeTs := Function.update s.freeinodeTs k .taken
    fsData := filledData s.fsData (entryAt 0 i) subName k
    history := { (s.newInode k).history with linked := text subName :: s.history.linked } }

def opened (h k offset : ℕ) : State :=
  { s with
    freeOpenFileEntries := Function.update s.freeOpenFileEntries h .taken
    openFileTable := Function.update s.openFileTable h ⟨k, offset⟩
    history := { s.history with
      handleFile := Function.update s.history.handleFile h (s.history.inodeFile k) } }

def closed (h : ℕ) : State :=
  { s with freeOpenFileEntries := Function.update s.freeOpenFileEntries h .free }

def advanced (h n : ℕ) : State :=
  { s with
    openFileTable := Function.update s.openFileTable h
      { s.openFileTable h with ofOffset := s.offsetOf h + n } }

def wrote (h b : ℕ) (bs : List UInt8) : State :=
  let k := s.inodeOf h
  let f := s.history.handleFile h
  { s with
    freeBlocks := if s.sizeOf k = 0 then Function.update s.freeBlocks b .taken else s.freeBlocks
    inodeTable := Function.update s.inodeTable k
      { s.inodeTable k with
        iSize := max (s.sizeOf k) (s.offsetOf h + bs.length)
        iDataBlock := b }
    fsData := writeMem s.fsData (b * s.fsParams.blockSize + s.offsetOf h) bs
    openFileTable := Function.update s.openFileTable h
      { s.openFileTable h with ofOffset := s.offsetOf h + bs.length }
    history := { s.history with
      blockFile := if s.sizeOf k = 0 then Function.update s.history.blockFile b f
        else s.history.blockFile
      stored := Function.update s.history.stored f
        (storeBytes (s.history.stored f) (s.offsetOf h) bs) } }

def unlinked (k i : ℕ) (subName : List UInt8) : State :=
  { s with
    freeBlocks := if 0 < s.sizeOf k then Function.update s.freeBlocks (s.blockOf k) .free
      else s.freeBlocks
    freeinodeTs := Function.update s.freeinodeTs k .free
    fsData := clearedData s.fsData (entryAt 0 i)
    history := { s.history with
      linked := s.history.linked.filter (fun name => name != text subName) } }

end State

structure Sound (s : State) (slots : List Slot) : Prop where
  blockSize : 0 < s.fsParams.blockSize
  inodeCount : s.fsParams.maxInodeCount < 2 ^ 31
  data : s.dataSize < 2 ^ 64
  root : s.inodeTable 0 = ⟨.directory, s.fsParams.blockSize, 0⟩
  rootInode : 0 < s.fsParams.maxInodeCount ∧ s.freeinodeTs 0 = .taken
  rootBlock : 0 < s.fsParams.maxBlockCount ∧ s.freeBlocks 0 = .taken
  listed : Listed s.fsData 0 s.maxDirEntries slots
  distinct : Distinct slots
  entries : ∀ {i name k}, Occupied slots i name k → s.Linked k
  entered : ∀ {k}, s.Linked k → ∃ i name, Occupied slots i name k
  sizes : ∀ {k}, s.Used k → s.sizeOf k ≤ s.fsParams.blockSize
  blocks : ∀ {k}, s.Used k → 0 < s.sizeOf k →
    (s.inodeTable k).iDataBlock = (s.blockOf k : ℤ) ∧ 0 < s.blockOf k ∧
      s.blockOf k < s.fsParams.maxBlockCount
  owned : ∀ {k}, s.Linked k → 0 < s.sizeOf k → s.freeBlocks (s.blockOf k) = .taken
  single : ∀ {k l}, s.Linked k → s.Linked l → 0 < s.sizeOf k → 0 < s.sizeOf l →
    s.blockOf k = s.blockOf l → k = l
  handles : ∀ {h}, s.Open h → (s.openFileTable h).ofInumber = (s.inodeOf h : ℤ) ∧
    0 < s.inodeOf h ∧ s.inodeOf h < s.fsParams.maxInodeCount ∧ s.offsetOf h ≤ s.dataSize
  linked : ∀ {bytes}, bytes ∈ s.history.linked ↔
    ∃ i name k, Occupied slots i name k ∧ name.bytes = bytes

section Preserved

variable {s : State} {slots : List Slot} {k l i h b offset n : ℕ} {subName bs : List UInt8}

lemma ne_of_taken {map : ℕ → AllocationState} {i j : ℕ} (ht : map i = .taken)
    (hf : map j = .free) : i ≠ j := by
  rintro rfl
  rw [hf] at ht
  cases ht

lemma ne_of_free (hf : s.freeinodeTs k = .free) (hl : s.Linked l) : l ≠ k := ne_of_taken hl.2.2 hf

lemma truncated_inode (l : ℕ) : (s.truncated k).inodeTable l =
    if l = k then { s.inodeTable k with iSize := 0 } else s.inodeTable l :=
  Function.update_apply _ _ _ _

lemma truncated_sizeOf (l : ℕ) : (s.truncated k).sizeOf l = if l = k then 0 else s.sizeOf l := by
  rw [State.sizeOf, truncated_inode]
  split_ifs <;> rfl

lemma truncated_blockOf (l : ℕ) : (s.truncated k).blockOf l = s.blockOf l := by
  rw [State.blockOf, truncated_inode]
  split_ifs with hl
  · rw [hl]; rfl
  · rfl

lemma truncated_freeBlocks (b : ℕ) : (s.truncated k).freeBlocks b =
    if 0 < s.sizeOf k ∧ b = s.blockOf k then .free else s.freeBlocks b := by
  simp only [State.truncated]
  split_ifs with h₁ h₂ h₂
  · rw [h₂.2, Function.update_self]
  · rw [Function.update_of_ne (fun he => h₂ ⟨h₁, he⟩)]
  · exact (h₁ h₂.1).elim
  · rfl

lemma pos_of_ite {c : Prop} [Decidable c] {n : ℕ} (hz : 0 < if c then 0 else n) : ¬ c ∧ 0 < n := by
  split_ifs at hz with hc
  · exact absurd hz (lt_irrefl 0)
  · exact ⟨hc, hz⟩

lemma Sound.truncated (h : Sound s slots) (hk : s.Linked k) : Sound (s.truncated k) slots := by
  have hblock : 0 < s.sizeOf k → 0 < s.blockOf k := fun hz => (h.blocks (.inl hk) hz).2.1
  refine ⟨h.blockSize, h.inodeCount, h.data, ?_, h.rootInode, ⟨h.rootBlock.1, ?_⟩, h.listed,
    h.distinct, h.entries, h.entered, ?_, ?_, ?_, ?_, h.handles, h.linked⟩
  · rw [truncated_inode, if_neg (Nat.ne_of_lt hk.1)]
    exact h.root
  · rw [truncated_freeBlocks, if_neg (fun hz => Nat.ne_of_lt (hblock hz.1) hz.2)]
    exact h.rootBlock.2
  · intro l hl
    rw [truncated_sizeOf]
    split_ifs
    · exact Nat.zero_le _
    · exact h.sizes hl
  · intro l hl hz
    rw [truncated_sizeOf] at hz
    obtain ⟨hlk, hz⟩ := pos_of_ite hz
    rw [truncated_blockOf, truncated_inode, if_neg hlk]
    exact h.blocks hl hz
  · intro l hl hz
    rw [truncated_sizeOf] at hz
    obtain ⟨hlk, hz⟩ := pos_of_ite hz
    rw [truncated_blockOf, truncated_freeBlocks, if_neg]
    · exact h.owned hl hz
    · intro hc
      exact hlk (h.single hl hk hz hc.1 hc.2)
  · intro l j hl hj hzl hzj he
    rw [truncated_sizeOf] at hzl hzj
    rw [truncated_blockOf, truncated_blockOf] at he
    exact h.single hl hj (pos_of_ite hzl).2 (pos_of_ite hzj).2 he

lemma newInode_inode (l : ℕ) : (s.newInode k).inodeTable l =
    if l = k then ⟨.file, 0, -1⟩ else s.inodeTable l :=
  Function.update_apply _ _ _ _

lemma newInode_sizeOf (l : ℕ) : (s.newInode k).sizeOf l = if l = k then 0 else s.sizeOf l := by
  rw [State.sizeOf, newInode_inode]
  split_ifs <;> rfl

lemma newInode_blockOf (hl : l ≠ k) : (s.newInode k).blockOf l = s.blockOf l := by
  rw [State.blockOf, newInode_inode, if_neg hl, State.blockOf]

lemma Sound.spoiled (h : Sound s slots) (hk : 0 < k) : Sound (s.newInode k) slots := by
  refine ⟨h.blockSize, h.inodeCount, h.data, ?_, h.rootInode, h.rootBlock, h.listed, h.distinct,
    h.entries, h.entered, ?_, ?_, ?_, ?_, h.handles, h.linked⟩
  · rw [newInode_inode, if_neg (Nat.ne_of_lt hk)]
    exact h.root
  · intro l hl
    rw [newInode_sizeOf]
    split_ifs
    · exact Nat.zero_le _
    · exact h.sizes hl
  · intro l hl hz
    rw [newInode_sizeOf] at hz
    obtain ⟨hlk, hz⟩ := pos_of_ite hz
    rw [newInode_blockOf hlk, newInode_inode, if_neg hlk]
    exact h.blocks hl hz
  · intro l hl hz
    rw [newInode_sizeOf] at hz
    obtain ⟨hlk, hz⟩ := pos_of_ite hz
    rw [newInode_blockOf hlk]
    exact h.owned hl hz
  · intro l j hl hj hzl hzj he
    rw [newInode_sizeOf] at hzl hzj
    obtain ⟨hlk, hzl⟩ := pos_of_ite hzl
    obtain ⟨hjk, hzj⟩ := pos_of_ite hzj
    rw [newInode_blockOf hlk, newInode_blockOf hjk] at he
    exact h.single hl hj hzl hzj he

lemma occupied_place {slot : Slot} {j : ℕ} {a : FileName} (hi : i ≤ slots.length) :
    Occupied (place slots i slot) j a l ↔
      (j = i ∧ slot = some (a, l)) ∨ (j ≠ i ∧ Occupied slots j a l) := by
  rw [Occupied, place_getElem? hi]
  split_ifs with hj
  · simp [hj]
  · simp [hj, Occupied]

lemma occupied_cleared {j : ℕ} {a : FileName} (hi : i ≤ slots.length) :
    Occupied (place slots i none) j a l ↔ j ≠ i ∧ Occupied slots j a l := by
  rw [occupied_place hi]
  simp

lemma vacant_free {j : ℕ} {a : FileName} (hv : slots[i]? = some none ∨ i = slots.length)
    (ho : Occupied slots j a l) : j ≠ i := by
  rintro rfl
  rcases hv with hv | hv
  · rw [Occupied, hv] at ho
    cases ho
  · exact absurd (List.getElem?_eq_some_iff.mp ho).1 (by omega)

lemma created_linked (hk : 0 < k ∧ k < s.fsParams.maxInodeCount) :
    (s.created k i subName).Linked l ↔ l = k ∨ s.Linked l := by
  simp only [State.Linked, State.created, State.newInode, Function.update_apply]
  split_ifs with hl
  · rw [hl]
    simp [hk]
  · simp [hl]

lemma created_sizeOf (l : ℕ) :
    (s.created k i subName).sizeOf l = if l = k then 0 else s.sizeOf l := newInode_sizeOf l

lemma created_used (hk : 0 < k ∧ k < s.fsParams.maxInodeCount) (hl : l ≠ k)
    (hu : (s.created k i subName).Used l) : s.Used l := by
  rcases hu with hu | hu
  · exact .inl (((created_linked hk).mp hu).resolve_left hl)
  · exact .inr hu

lemma Sound.created {name : FileName} (h : Sound s slots)
    (hk : 0 < k ∧ k < s.fsParams.maxInodeCount) (hfree : s.freeinodeTs k = .free)
    (hname : name.bytes = text subName)
    (hnew : ∀ j other l, Occupied slots j other l → other.bytes ≠ name.bytes)
    (hi : i ≤ slots.length) (hn : i < s.maxDirEntries)
    (hv : slots[i]? = some none ∨ i = slots.length) :
    Sound (s.created k i subName) (place slots i (some (name, k))) := by
  have hnot : ∀ j other l, Occupied slots j other l → l ≠ k := fun _ _ _ ho =>
    ne_of_free hfree (h.entries ho)
  have ht := h.spoiled hk.1
  refine ⟨h.blockSize, h.inodeCount, h.data, ht.root, ⟨h.rootInode.1, ?_⟩, h.rootBlock, ?_,
    ⟨?_, ?_⟩, ?_, ?_, ?_, ?_, ?_, ?_, h.handles, ?_⟩
  · exact (Function.update_of_ne (Nat.ne_of_lt hk.1) _ _).trans h.rootInode.2
  · have hshort : strlen subName ≤ maxFileName - 1 := by
      have hs := name.short
      rw [hname] at hs
      exact Nat.le_sub_one_of_lt hs
    have hfill := filledData_entry s.fsData (entryAt 0 i) hshort (hk.2.trans h.inodeCount)
    exact h.listed.place hi hn (filledData_outside _ _ _ _) ⟨hfill.1.trans hname.symm, hfill.2⟩
  · intro j j' a b l l' ho ho' he
    rw [occupied_place hi] at ho ho'
    rcases ho with ⟨hj, hs⟩ | ⟨hj, ho⟩ <;> rcases ho' with ⟨hj', hs'⟩ | ⟨hj', ho'⟩
    · exact hj.trans hj'.symm
    · cases hs
      exact absurd he.symm (hnew _ _ _ ho')
    · cases hs'
      exact absurd he (hnew _ _ _ ho)
    · exact h.distinct.names ho ho' he
  · intro j j' a b l ho ho'
    rw [occupied_place hi] at ho ho'
    rcases ho with ⟨hj, hs⟩ | ⟨hj, ho⟩ <;> rcases ho' with ⟨hj', hs'⟩ | ⟨hj', ho'⟩
    · exact hj.trans hj'.symm
    · cases hs
      exact absurd rfl (hnot _ _ _ ho')
    · cases hs'
      exact absurd rfl (hnot _ _ _ ho)
    · exact h.distinct.inumbers ho ho'
  · intro j a l ho
    rw [created_linked hk]
    rcases (occupied_place hi).mp ho with ⟨-, hs⟩ | ⟨-, ho⟩
    · cases hs
      exact .inl rfl
    · exact .inr (h.entries ho)
  · intro l hl
    rcases (created_linked hk).mp hl with rfl | hl
    · exact ⟨i, name, (occupied_place hi).mpr (.inl ⟨rfl, rfl⟩)⟩
    · obtain ⟨j, a, ho⟩ := h.entered hl
      exact ⟨j, a, (occupied_place hi).mpr (.inr ⟨vacant_free hv ho, ho⟩)⟩
  · intro l hl
    rw [created_sizeOf]
    split_ifs with hlk
    · exact Nat.zero_le _
    · exact h.sizes (created_used hk hlk hl)
  · intro l hl hz
    obtain ⟨hlk, -⟩ := pos_of_ite ((created_sizeOf l).symm ▸ hz)
    have hu : s.Used l := created_used hk hlk hl
    exact ht.blocks hu hz
  · intro l hl hz
    obtain ⟨hlk, -⟩ := pos_of_ite ((created_sizeOf l).symm ▸ hz)
    exact ht.owned (((created_linked hk).mp hl).resolve_left hlk) hz
  · intro l j hl hj hzl hzj he
    obtain ⟨hlk, -⟩ := pos_of_ite ((created_sizeOf l).symm ▸ hzl)
    obtain ⟨hjk, -⟩ := pos_of_ite ((created_sizeOf j).symm ▸ hzj)
    exact ht.single (((created_linked hk).mp hl).resolve_left hlk)
      (((created_linked hk).mp hj).resolve_left hjk) hzl hzj he
  · intro bytes
    rw [show (s.created k i subName).history.linked = text subName :: s.history.linked from rfl,
      List.mem_cons, h.linked]
    constructor
    · rintro (rfl | ⟨j, a, l, ho, he⟩)
      · exact ⟨i, name, k, (occupied_place hi).mpr (.inl ⟨rfl, rfl⟩), hname⟩
      · exact ⟨j, a, l, (occupied_place hi).mpr (.inr ⟨vacant_free hv ho, ho⟩), he⟩
    · rintro ⟨j, a, l, ho, he⟩
      rcases (occupied_place hi).mp ho with ⟨-, hs⟩ | ⟨-, ho⟩
      · cases hs
        exact .inl (he.symm.trans hname)
      · exact .inr ⟨j, a, l, ho, he⟩

lemma opened_inodeOf (j : ℕ) :
    (s.opened h k offset).inodeOf j = if j = h then k else s.inodeOf j := by
  simp only [State.inodeOf, State.opened, Function.update_apply]
  split_ifs <;> rfl

lemma opened_open (hh : h < s.fsParams.maxOpenFilesCount) {j : ℕ} :
    (s.opened h k offset).Open j ↔ j = h ∨ s.Open j := by
  simp only [State.Open, State.opened, Function.update_apply]
  split_ifs with hj
  · simp [hj, hh]
  · simp [hj]

lemma opened_used (hh : h < s.fsParams.maxOpenFilesCount) (hk : s.Linked k)
    (hl : (s.opened h k offset).Used l) : s.Used l := by
  rcases hl with hl | ⟨j, hj, he⟩
  · exact .inl hl
  · rw [opened_inodeOf] at he
    split_ifs at he with hjh
    · exact .inl (he ▸ hk)
    · exact .inr ⟨j, ((opened_open hh).mp hj).resolve_left hjh, he⟩

lemma Sound.blockSize_le (h : Sound s slots) : s.fsParams.blockSize ≤ s.dataSize :=
  Nat.le_mul_of_pos_left _ h.rootBlock.1

lemma Sound.opened (hs : Sound s slots) (hh : h < s.fsParams.maxOpenFilesCount) (hk : s.Linked k)
    (ho : offset = 0 ∨ offset = s.sizeOf k) : Sound (s.opened h k offset) slots := by
  refine ⟨hs.blockSize, hs.inodeCount, hs.data, hs.root, hs.rootInode, hs.rootBlock, hs.listed,
    hs.distinct, hs.entries, hs.entered, ?_, ?_, hs.owned, hs.single, ?_, hs.linked⟩
  · intro l hl
    exact hs.sizes (opened_used hh hk hl)
  · intro l hl hz
    exact hs.blocks (opened_used hh hk hl) hz
  · intro j hj
    by_cases hjh : j = h
    · subst hjh
      rw [opened_inodeOf, if_pos rfl, State.offsetOf,
        show (s.opened j k offset).openFileTable j = ⟨k, offset⟩ from Function.update_self _ _ _]
      have hsize := hs.sizes (.inl hk)
      have hle := hs.blockSize_le
      refine ⟨rfl, hk.1, hk.2.1, ?_⟩
      show offset ≤ s.dataSize
      omega
    · rw [opened_inodeOf, if_neg hjh, State.offsetOf,
        show (s.opened h k offset).openFileTable j = s.openFileTable j from
          Function.update_of_ne hjh _ _]
      exact hs.handles (((opened_open hh).mp hj).resolve_left hjh)

lemma closed_open {j : ℕ} : (s.closed h).Open j ↔ j ≠ h ∧ s.Open j := by
  simp only [State.Open, State.closed, Function.update_apply]
  split_ifs with hj
  · simp [hj]
  · simp [hj]

lemma closed_used (hl : (s.closed h).Used l) : s.Used l := by
  rcases hl with hl | ⟨j, hj, he⟩
  · exact .inl hl
  · exact .inr ⟨j, (closed_open.mp hj).2, he⟩

lemma Sound.closed (hs : Sound s slots) : Sound (s.closed h) slots := by
  refine ⟨hs.blockSize, hs.inodeCount, hs.data, hs.root, hs.rootInode, hs.rootBlock, hs.listed,
    hs.distinct, hs.entries, hs.entered, ?_, ?_, hs.owned, hs.single, ?_, hs.linked⟩
  · intro l hl
    exact hs.sizes (closed_used hl)
  · intro l hl hz
    exact hs.blocks (closed_used hl) hz
  · intro j hj
    exact hs.handles (closed_open.mp hj).2

lemma advanced_entry (j : ℕ) : (s.advanced h n).openFileTable j =
    if j = h then { s.openFileTable h with ofOffset := s.offsetOf h + n } else s.openFileTable j :=
  Function.update_apply _ _ _ _

lemma advanced_inodeOf (j : ℕ) : (s.advanced h n).inodeOf j = s.inodeOf j := by
  rw [State.inodeOf, advanced_entry]
  split_ifs with hj
  · rw [hj]; rfl
  · rfl

lemma advanced_offsetOf (j : ℕ) : (s.advanced h n).offsetOf j =
    if j = h then s.offsetOf h + n else s.offsetOf j := by
  rw [State.offsetOf, advanced_entry]
  split_ifs <;> rfl

lemma advanced_used (hl : (s.advanced h n).Used l) : s.Used l := by
  rcases hl with hl | ⟨j, hj, he⟩
  · exact .inl hl
  · rw [advanced_inodeOf] at he
    exact .inr ⟨j, hj, he⟩

lemma Sound.advanced (hs : Sound s slots) (hn : s.offsetOf h + n ≤ s.dataSize) :
    Sound (s.advanced h n) slots := by
  refine ⟨hs.blockSize, hs.inodeCount, hs.data, hs.root, hs.rootInode, hs.rootBlock, hs.listed,
    hs.distinct, hs.entries, hs.entered, ?_, ?_, hs.owned, hs.single, ?_, hs.linked⟩
  · intro l hl
    exact hs.sizes (advanced_used hl)
  · intro l hl hz
    exact hs.blocks (advanced_used hl) hz
  · intro j hj
    obtain ⟨hnum, hpos, hlt, hoff⟩ := hs.handles hj
    rw [advanced_inodeOf, advanced_offsetOf]
    refine ⟨?_, hpos, hlt, ?_⟩
    · rw [advanced_entry]
      split_ifs with hjh
      · rw [← hjh]; exact hnum
      · exact hnum
    · show (if j = h then s.offsetOf h + n else s.offsetOf j) ≤ s.dataSize
      split_ifs
      · exact hn
      · exact hoff

lemma wrote_inode (l : ℕ) : (s.wrote h b bs).inodeTable l =
    if l = s.inodeOf h then
      { s.inodeTable (s.inodeOf h) with
        iSize := max (s.sizeOf (s.inodeOf h)) (s.offsetOf h + bs.length)
        iDataBlock := b }
    else s.inodeTable l :=
  Function.update_apply _ _ _ _

lemma wrote_sizeOf (l : ℕ) : (s.wrote h b bs).sizeOf l =
    if l = s.inodeOf h then max (s.sizeOf (s.inodeOf h)) (s.offsetOf h + bs.length)
    else s.sizeOf l := by
  rw [State.sizeOf, wrote_inode]
  split_ifs <;> rfl

lemma wrote_blockOf (l : ℕ) : (s.wrote h b bs).blockOf l =
    if l = s.inodeOf h then b else s.blockOf l := by
  rw [State.blockOf, wrote_inode]
  split_ifs <;> rfl

lemma wrote_freeBlocks (c : ℕ) : (s.wrote h b bs).freeBlocks c =
    if s.sizeOf (s.inodeOf h) = 0 ∧ c = b then .taken else s.freeBlocks c := by
  simp only [State.wrote]
  split_ifs with h₁ h₂ h₂
  · rw [h₂.2, Function.update_self]
  · rw [Function.update_of_ne (fun he => h₂ ⟨h₁, he⟩)]
  · exact (h₁ h₂.1).elim
  · rfl

lemma wrote_entry (j : ℕ) : (s.wrote h b bs).openFileTable j =
    if j = h then { s.openFileTable h with ofOffset := s.offsetOf h + bs.length }
    else s.openFileTable j :=
  Function.update_apply _ _ _ _

lemma wrote_inodeOf (j : ℕ) : (s.wrote h b bs).inodeOf j = s.inodeOf j := by
  rw [State.inodeOf, wrote_entry]
  split_ifs with hj
  · rw [hj]; rfl
  · rfl

lemma wrote_offsetOf (j : ℕ) : (s.wrote h b bs).offsetOf j =
    if j = h then s.offsetOf h + bs.length else s.offsetOf j := by
  rw [State.offsetOf, wrote_entry]
  split_ifs <;> rfl

lemma wrote_used (hl : (s.wrote h b bs).Used l) : s.Used l := by
  rcases hl with hl | ⟨j, hj, he⟩
  · exact .inl hl
  · rw [wrote_inodeOf] at he
    exact .inr ⟨j, hj, he⟩

lemma dirRoom (s : State) : 0 + sizeofDirEntry * s.maxDirEntries ≤ s.fsParams.blockSize := by
  rw [Nat.zero_add]
  exact Nat.mul_div_le _ _

lemma Sound.frame {m' : ℕ → UInt8} (hs : Sound s slots)
    (hm : ∀ x, x < s.fsParams.blockSize → m' x = s.fsData x) :
    Listed m' 0 s.maxDirEntries slots := by
  have hroom := dirRoom s
  apply hs.listed.frame
  intro x _ hx
  exact hm x (by omega)

lemma Sound.writable (hs : Sound s slots) (hk : s.Linked k)
    (hfresh : s.sizeOf k = 0 → s.freeBlocks b = .free)
    (hold : 0 < s.sizeOf k → s.blockOf k = b) (hl : s.Linked l) (hz : 0 < s.sizeOf l)
    (he : s.blockOf l = b) : l = k := by
  rcases Nat.eq_zero_or_pos (s.sizeOf k) with hk0 | hkp
  · exact absurd he (ne_of_taken (hs.owned hl hz) (hfresh hk0))
  · exact hs.single hl hk hz hkp (he.trans (hold hkp).symm)

lemma Sound.wrote (hs : Sound s slots) (hh : s.Open h)
    (hlen : s.offsetOf h + bs.length ≤ s.fsParams.blockSize)
    (hb : 0 < b) (hb' : b < s.fsParams.maxBlockCount)
    (hfresh : s.sizeOf (s.inodeOf h) = 0 → s.freeBlocks b = .free)
    (hold : 0 < s.sizeOf (s.inodeOf h) → s.blockOf (s.inodeOf h) = b) :
    Sound (s.wrote h b bs) slots := by
  obtain ⟨hnum, hpos, hlt, hoff⟩ := hs.handles hh
  have hused : s.Used (s.inodeOf h) := .inr ⟨h, hh, rfl⟩
  have hle := hs.blockSize_le
  refine ⟨hs.blockSize, hs.inodeCount, hs.data, ?_, hs.rootInode, ⟨hs.rootBlock.1, ?_⟩, ?_,
    hs.distinct, hs.entries, hs.entered, ?_, ?_, ?_, ?_, ?_, hs.linked⟩
  · rw [wrote_inode, if_neg (Nat.ne_of_lt hpos)]
    exact hs.root
  · rw [wrote_freeBlocks, if_neg (fun hz => Nat.ne_of_lt hb hz.2)]
    exact hs.rootBlock.2
  · apply hs.frame
    intro x hx
    have hblock : s.fsParams.blockSize ≤ b * s.fsParams.blockSize := Nat.le_mul_of_pos_left _ hb
    exact writeMem_out (.inl (by omega))
  · intro l hl
    rw [wrote_sizeOf]
    show _ ≤ s.fsParams.blockSize
    split_ifs with hlk
    · exact max_le (hs.sizes hused) hlen
    · exact hs.sizes (wrote_used hl)
  · intro l hl hz
    rw [wrote_sizeOf] at hz
    rw [wrote_blockOf, wrote_inode]
    split_ifs at hz ⊢ with hlk
    · exact ⟨rfl, hb, hb'⟩
    · exact hs.blocks (wrote_used hl) hz
  · intro l hl hz
    rw [wrote_sizeOf] at hz
    rw [wrote_blockOf, wrote_freeBlocks]
    split_ifs at hz ⊢ with hlk hc hc
    · rfl
    · rcases Nat.eq_zero_or_pos (s.sizeOf (s.inodeOf h)) with hk0 | hkp
      · exact absurd ⟨hk0, rfl⟩ hc
      · rw [← hold hkp, ← hlk]
        exact hs.owned hl (by rw [hlk]; exact hkp)
    · rfl
    · exact hs.owned hl hz
  · intro l j hl hj hzl hzj he
    rw [wrote_sizeOf] at hzl hzj
    rw [wrote_blockOf, wrote_blockOf] at he
    split_ifs at hzl hzj he with hlk hjk hjk
    · exact hlk.trans hjk.symm
    · have hkl : s.Linked (s.inodeOf h) := hlk ▸ hl
      exact hlk.trans (hs.writable hkl hfresh hold hj hzj he.symm).symm
    · have hkl : s.Linked (s.inodeOf h) := hjk ▸ hj
      exact (hs.writable hkl hfresh hold hl hzl he).trans hjk.symm
    · exact hs.single hl hj hzl hzj he
  · intro j hj
    obtain ⟨hnum', hpos', hlt', hoff'⟩ := hs.handles hj
    rw [wrote_inodeOf, wrote_offsetOf, wrote_entry]
    refine ⟨?_, hpos', hlt', ?_⟩
    · split_ifs with hjh
      · rw [hjh]; exact hnum
      · exact hnum'
    · show (if j = h then s.offsetOf h + bs.length else s.offsetOf j) ≤ s.dataSize
      split_ifs
      · exact hlen.trans hle
      · exact hoff'

lemma unlinked_linked {l : ℕ} : (s.unlinked k i subName).Linked l ↔ l ≠ k ∧ s.Linked l := by
  simp only [State.Linked, State.unlinked, Function.update_apply]
  split_ifs with hl
  · simp [hl]
  · simp [hl]

lemma unlinked_used (hl : (s.unlinked k i subName).Used l) : s.Used l := by
  rcases hl with hl | hl
  · exact .inl (unlinked_linked.mp hl).2
  · exact .inr hl

lemma unlinked_freeBlocks (b : ℕ) : (s.unlinked k i subName).freeBlocks b =
    if 0 < s.sizeOf k ∧ b = s.blockOf k then .free else s.freeBlocks b := truncated_freeBlocks b

lemma Sound.unlinked {name : FileName} (hs : Sound s slots) (ho : Occupied slots i name k)
    (hname : name.bytes = text subName) :
    Sound (s.unlinked k i subName) (place slots i none) := by
  have hk := hs.entries ho
  have hi := (List.getElem?_eq_some_iff.mp ho).1
  have hroom := hs.listed.room
  refine ⟨hs.blockSize, hs.inodeCount, hs.data, hs.root, ⟨hs.rootInode.1, ?_⟩,
    ⟨hs.rootBlock.1, ?_⟩, ?_, ⟨?_, ?_⟩, ?_, ?_, ?_, ?_, ?_, ?_, hs.handles, ?_⟩
  · exact (Function.update_of_ne (Nat.ne_of_lt hk.1) _ _).trans hs.rootInode.2
  · rw [unlinked_freeBlocks, if_neg]
    · exact hs.rootBlock.2
    · rintro ⟨hz, he⟩
      exact Nat.ne_of_lt (hs.blocks (.inl hk) hz).2.1 he
  · exact hs.listed.place hi.le (hi.trans_le hroom) (clearedData_outside _ _)
      (clearedData_entry _ _)
  · intro j j' a b l l' ho ho' he
    rw [occupied_cleared hi.le] at ho ho'
    exact hs.distinct.names ho.2 ho'.2 he
  · intro j j' a b l ho ho'
    rw [occupied_cleared hi.le] at ho ho'
    exact hs.distinct.inumbers ho.2 ho'.2
  · intro j a l ho'
    obtain ⟨hji, ho'⟩ := (occupied_cleared hi.le).mp ho'
    refine unlinked_linked.mpr ⟨?_, hs.entries ho'⟩
    rintro rfl
    exact hji (hs.distinct.inumbers ho' ho)
  · intro l hl
    obtain ⟨hlk, hl⟩ := unlinked_linked.mp hl
    obtain ⟨j, a, ho'⟩ := hs.entered hl
    refine ⟨j, a, (occupied_cleared hi.le).mpr ⟨?_, ho'⟩⟩
    rintro rfl
    exact hlk (ho'.unique ho).2
  · intro l hl
    exact hs.sizes (unlinked_used hl)
  · intro l hl hz
    exact hs.blocks (unlinked_used hl) hz
  · intro l hl hz
    obtain ⟨hlk, hl⟩ := unlinked_linked.mp hl
    show (s.unlinked k i subName).freeBlocks (s.blockOf l) = .taken
    rw [unlinked_freeBlocks, if_neg]
    · exact hs.owned hl hz
    · rintro ⟨hkz, he⟩
      exact hlk (hs.single hl hk hz hkz he)
  · intro l j hl hj hzl hzj he
    exact hs.single (unlinked_linked.mp hl).2 (unlinked_linked.mp hj).2 hzl hzj he
  · intro bytes
    rw [show (s.unlinked k i subName).history.linked =
        s.history.linked.filter (fun name => name != text subName) from rfl, List.mem_filter,
      hs.linked]
    constructor
    · rintro ⟨⟨j, a, l, ho', rfl⟩, hne⟩
      refine ⟨j, a, l, (occupied_cleared hi.le).mpr ⟨?_, ho'⟩, rfl⟩
      rintro rfl
      rw [(ho'.unique ho).1, hname] at hne
      simp at hne
    · rintro ⟨j, a, l, ho', rfl⟩
      obtain ⟨hji, ho'⟩ := (occupied_cleared hi.le).mp ho'
      refine ⟨⟨j, a, l, ho', rfl⟩, ?_⟩
      have hne : a.bytes ≠ text subName := fun he =>
        hji (hs.distinct.names ho' ho (he.trans hname.symm))
      simpa using hne

end Preserved

section Initial

variable {p : TfsParams} {mallocs : Mallocs} {s₀ : State}

def initial (p : TfsParams) (mallocs : Mallocs) (m : ℕ → UInt8) : State :=
  { stateInit p mallocs with
    inodeTable := Function.update mallocs.inodeTable 0 ⟨.directory, p.blockSize, 0⟩
    freeinodeTs := Function.update (fun _ => .free) 0 .taken
    fsData := m
    freeBlocks := Function.update (fun _ => .free) 0 .taken }

lemma clearEntries_spec (s : State) (dirEntry n : ℕ) :
    ∃ m, clearEntries s dirEntry n = { s with fsData := m } ∧
    ∀ i < n, inumberAt m (entryAt dirEntry i) = -1 := by
  induction n with
  | zero => exact ⟨s.fsData, rfl, by simp⟩
  | succ n ih =>
    obtain ⟨m, hm, hall⟩ := ih
    refine ⟨writeMem m (entryAt dirEntry n + maxFileName) (int32Bytes (-1)), ?_, ?_⟩
    · rw [clearEntries, hm]
      rfl
    · intro i hi
      have hlen := int32Bytes_length (-1)
      rcases Nat.lt_succ_iff_lt_or_eq.mp hi with hlt | rfl
      · rw [inumberAt, readMem_writeMem_apart]
        · exact hall i hlt
        · left
          simp only [entryAt, sizeofDirEntry]
          omega
      · rw [inumberAt, readMem_writeMem_eq hlen]
        exact int32_roundTrip (by norm_num)

lemma find_first {n : ℕ} {q : ℕ → Bool} (hn : 0 < n) (hq : q 0 = true) :
    (List.range n).find? q = some 0 := by
  rw [List.find?_range_eq_some]
  exact ⟨hq, List.mem_range.mpr hn, by simp⟩

inductive RootCreated (p : TfsParams) (mallocs : Mallocs) : Except Crash (State × ℤ) → Prop
  | noInode : p.maxInodeCount = 0 → RootCreated p mallocs (.ok (stateInit p mallocs, -1))
  | noBlockSize : 0 < p.maxInodeCount → p.blockSize = 0 →
      RootCreated p mallocs (.error .divisionByZero)
  | noBlock {s : State} : 0 < p.maxInodeCount → 0 < p.blockSize → p.maxBlockCount = 0 →
      RootCreated p mallocs (.ok (s, -1))
  | root {m : ℕ → UInt8} : 0 < p.maxInodeCount → 0 < p.blockSize → 0 < p.maxBlockCount →
      (∀ i < p.blockSize / sizeofDirEntry, inumberAt m (entryAt 0 i) = -1) →
      RootCreated p mallocs (.ok (initial p mallocs m, 0))

lemma inodeCreate_root (p : TfsParams) (mallocs : Mallocs) :
    RootCreated p mallocs (inodeCreate (stateInit p mallocs) .directory) := by
  rcases Nat.eq_zero_or_pos p.maxInodeCount with hinodes | hinodes
  · have hnone : inodeAlloc (stateInit p mallocs) = .ok (stateInit p mallocs, -1) := by
      simp [inodeAlloc, stateInit, hinodes]
    rw [inodeCreate, hnone]
    exact .noInode hinodes
  rcases Nat.eq_zero_or_pos p.blockSize with hsize | hsize
  · have herror : inodeAlloc (stateInit p mallocs) = .error .divisionByZero := by
      simp [inodeAlloc, stateInit, hsize, hinodes]
    rw [inodeCreate, herror]
    exact .noBlockSize hinodes hsize
  have hinode : inodeAlloc (stateInit p mallocs) =
      .ok ((stateInit p mallocs).setInodeState 0 .taken, 0) := by
    rw [inodeAlloc, if_neg (fun hc => hsize.ne' hc.1),
      find_first (n := (stateInit p mallocs).fsParams.maxInodeCount) hinodes rfl]
    rfl
  simp only [inodeCreate, hinode, bind, Except.bind]
  rw [if_neg (by decide), Int.toNat_zero]
  obtain ⟨s₁, hs₁⟩ : ∃ s₁, s₁ = ((stateInit p mallocs).setInodeState 0 .taken).setInode 0
    ⟨.directory, (((stateInit p mallocs).setInodeState 0 .taken).inodeTable 0).iSize,
      (((stateInit p mallocs).setInodeState 0 .taken).inodeTable 0).iDataBlock⟩ := ⟨_, rfl⟩
  rw [← hs₁]
  have hparams : s₁.fsParams = p := by rw [hs₁]; rfl
  have hfree : ∀ b, s₁.freeBlocks b = .free := by rw [hs₁]; exact fun _ => rfl
  rcases Nat.eq_zero_or_pos p.maxBlockCount with hblocks | hblocks
  · have hnone : dataBlockAlloc s₁ = .ok (s₁, -1) := by
      rw [dataBlockAlloc, hparams, hblocks, if_neg (fun hc => hsize.ne' hc.1)]
      rfl
    have hdelete : ∃ t, inodeDelete (s₁.setInode 0 ⟨.directory, 0, -1⟩) 0 = .ok t := by
      have hv : validInumber (s₁.setInode 0 ⟨.directory, 0, -1⟩) 0 = true := by
        show decide (0 ≤ (0 : ℤ) ∧ (0 : ℤ) < s₁.fsParams.maxInodeCount) = true
        rw [hparams]
        exact decide_eq_true ⟨le_rfl, by exact_mod_cast hinodes⟩
      have htaken : (s₁.setInode 0 ⟨.directory, 0, -1⟩).freeinodeTs 0 = .taken := by
        rw [hs₁]
        rfl
      rw [inodeDelete, if_neg (not_not.mpr hv), Int.toNat_zero, if_neg (not_not.mpr htaken)]
      exact ⟨_, rfl⟩
    obtain ⟨t, ht⟩ := hdelete
    rw [hnone]
    dsimp only
    rw [if_pos rfl, ht]
    exact .noBlock hinodes hsize hblocks
  have hblock : dataBlockAlloc s₁ = .ok (s₁.setBlockState 0 .taken, 0) := by
    rw [dataBlockAlloc, hparams, if_neg (fun hc => hsize.ne' hc.1),
      find_first hblocks (by simp [hfree])]
    rfl
  rw [hblock]
  dsimp only
  rw [if_neg (by decide)]
  obtain ⟨s₂, hs₂⟩ : ∃ s₂, s₂ = (s₁.setBlockState 0 .taken).setInode 0
    ⟨.directory, (s₁.setBlockState 0 .taken).fsParams.blockSize, 0⟩ := ⟨_, rfl⟩
  rw [← hs₂]
  have hparams₂ : s₂.fsParams = p := by rw [hs₂]; exact hparams
  have hget : dataBlockGet s₂ 0 = .ok 0 := by
    have hv : validBlockNumber s₂ 0 = true := by
      rw [validBlockNumber, hparams₂]
      exact decide_eq_true ⟨le_rfl, by exact_mod_cast hblocks⟩
    rw [dataBlockGet, if_pos hv]
    simp
  obtain ⟨m, hm, hall⟩ := clearEntries_spec s₂ 0 s₂.maxDirEntries
  rw [State.maxDirEntries, hparams₂] at hall
  have hinitial : { s₂ with fsData := m } = initial p mallocs m := by
    rw [initial, hs₂, hs₁]
    simp [State.setInode, State.setBlockState, State.setInodeState, stateInit]
  rw [hget]
  dsimp only
  rw [hm, hinitial]
  exact .root hinodes hsize hblocks hall

lemma tfsInit_cases (h : tfsInit p mallocs = .ok (s₀, 0)) :
    (0 < p.maxInodeCount ∧ 0 < p.maxBlockCount ∧ 0 < p.blockSize) ∧
      ∃ m, s₀ = initial p mallocs m ∧
        ∀ i < p.blockSize / sizeofDirEntry, inumberAt m (entryAt 0 i) = -1 := by
  have hroot := inodeCreate_root p mallocs
  rw [tfsInit] at h
  revert hroot h
  generalize inodeCreate (stateInit p mallocs) .directory = created
  intro h hroot
  cases hroot with
  | noInode | noBlockSize | noBlock => simp [bind, Except.bind, rootDirInum] at h
  | @root m hinodes hsize hblocks hall =>
    refine ⟨⟨hinodes, hblocks, hsize⟩, m, ?_, hall⟩
    simp only [bind, Except.bind, rootDirInum, ne_eq, Nat.cast_zero, not_true_eq_false,
      if_false] at h
    cases h
    rfl

lemma Sound.init (hp : p.InRange) (h : tfsInit p mallocs = .ok (s₀, 0)) : Sound s₀ [] := by
  obtain ⟨⟨hinodes, hblocks, hsize⟩, m, rfl, hall⟩ := tfsInit_cases h
  have hlinked : ∀ k, ¬ (initial p mallocs m).Linked k := by
    rintro k ⟨hk, -, ht⟩
    have hf : (initial p mallocs m).freeinodeTs k = .free := by
      simp [initial, Nat.ne_of_gt hk]
    rw [hf] at ht
    cases ht
  have hopen : ∀ h, ¬ (initial p mallocs m).Open h := fun h ho => by cases ho.2
  have hused : ∀ k, ¬ (initial p mallocs m).Used k := by
    rintro k (hk | ⟨h, hh, -⟩)
    · exact hlinked k hk
    · exact hopen h hh
  have hnone : ∀ {i a k}, ¬ Occupied [] i a k := fun ho => by cases ho
  refine ⟨hsize, hp.inodes, hp.data, by simp [initial, stateInit], ⟨hinodes, by simp [initial]⟩,
    ⟨hblocks, by simp [initial]⟩,
    ⟨Nat.zero_le _, by simp, fun i _ hi => hall i hi⟩,
    ⟨fun ho => absurd ho hnone, fun ho => absurd ho hnone⟩, fun ho => absurd ho hnone,
    fun hk => absurd hk (hlinked _), fun hk => absurd hk (hused _), fun hk => absurd hk (hused _),
    fun hk => absurd hk (hlinked _), fun hk => absurd hk (hlinked _), fun hh => absurd hh (hopen _),
    ?_⟩
  intro bytes
  constructor
  · intro hb
    cases hb
  · rintro ⟨i, a, k, ho, -⟩
    exact absurd ho hnone

end Initial

end MessageBroker.Fs
