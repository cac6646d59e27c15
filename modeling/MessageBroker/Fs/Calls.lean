import MessageBroker.Fs.Params
import MessageBroker.Fs.Sound

namespace MessageBroker.Fs

open MessageBroker.Lib

def FirstFree (map : ℕ → AllocationState) (n i : ℕ) : Prop :=
  i < n ∧ map i = .free ∧ ∀ j < i, map j = .taken

def AllTaken (map : ℕ → AllocationState) (n : ℕ) : Prop := ∀ i < n, map i = .taken

namespace State

variable (s : State)

def retrieved (k mode : ℕ) : State := if oTrunc mode then s.truncated k else s

def startOffset (k mode : ℕ) : ℕ := if oAppend mode then (s.retrieved k mode).sizeOf k else 0

def allocated (k : ℕ) : State :=
  { s.newInode k with freeinodeTs := Function.update s.freeinodeTs k .taken }

def deleted (k : ℕ) : State :=
  { s with
    freeBlocks := if 0 < s.sizeOf k then Function.update s.freeBlocks (s.blockOf k) .free
      else s.freeBlocks
    freeinodeTs := Function.update s.freeinodeTs k .free }

end State

inductive Happens (s : State) (slots : List Slot) : Call → Reply → State → List Slot → Prop
  | openInvalid {name mode} : ¬ validPathname name →
      Happens s slots (.open name mode) (.code (-1)) s slots
  | openExisting {name mode i fname k h} : validPathname name → Occupied slots i fname k →
      fname.bytes = text (subName name) →
      FirstFree s.freeOpenFileEntries s.fsParams.maxOpenFilesCount h →
      Happens s slots (.open name mode) (.code h)
        ((s.retrieved k mode).opened h k (s.startOffset k mode)) slots
  | openExistingFull {name mode i fname k} : validPathname name → Occupied slots i fname k →
      fname.bytes = text (subName name) →
      AllTaken s.freeOpenFileEntries s.fsParams.maxOpenFilesCount →
      Happens s slots (.open name mode) (.code (-1)) (s.retrieved k mode) slots
  | openAbsent {name mode} : validPathname name →
      (∀ i fname k, Occupied slots i fname k → fname.bytes ≠ text (subName name)) →
      ¬ oCreat mode → Happens s slots (.open name mode) (.code (-1)) s slots
  | openNoInode {name mode} : validPathname name →
      (∀ i fname k, Occupied slots i fname k → fname.bytes ≠ text (subName name)) →
      oCreat mode → AllTaken s.freeinodeTs s.fsParams.maxInodeCount →
      Happens s slots (.open name mode) (.code (-1)) s slots
  -- the inode is made and deleted again
  | openNoEntry {name mode k} : validPathname name →
      (∀ i fname k, Occupied slots i fname k → fname.bytes ≠ text (subName name)) →
      oCreat mode → 0 < k → FirstFree s.freeinodeTs s.fsParams.maxInodeCount k →
      (maxFileName ≤ (text (subName name)).length ∨
        (slots.length = s.maxDirEntries ∧ ∀ i : ℕ, slots[i]? ≠ some none)) →
      Happens s slots (.open name mode) (.code (-1)) (s.newInode k) slots
  | openCreated {name mode k i h} {fname : FileName} : validPathname name →
      (∀ i fname k, Occupied slots i fname k → fname.bytes ≠ text (subName name)) →
      oCreat mode → 0 < k → FirstFree s.freeinodeTs s.fsParams.maxInodeCount k →
      fname.bytes = text (subName name) → i ≤ slots.length → i < s.maxDirEntries →
      (slots[i]? = some none ∨ i = slots.length) →
      FirstFree s.freeOpenFileEntries s.fsParams.maxOpenFilesCount h →
      Happens s slots (.open name mode) (.code h) ((s.created k i (subName name)).opened h k 0)
        (place slots i (some (fname, k)))
  | openCreatedFull {name mode k i} {fname : FileName} : validPathname name →
      (∀ i fname k, Occupied slots i fname k → fname.bytes ≠ text (subName name)) →
      oCreat mode → 0 < k → FirstFree s.freeinodeTs s.fsParams.maxInodeCount k →
      fname.bytes = text (subName name) → i ≤ slots.length → i < s.maxDirEntries →
      (slots[i]? = some none ∨ i = slots.length) →
      AllTaken s.freeOpenFileEntries s.fsParams.maxOpenFilesCount →
      Happens s slots (.open name mode) (.code (-1)) (s.created k i (subName name))
        (place slots i (some (fname, k)))
  | closeBad {fh : ℤ} : (∀ h : ℕ, fh = h → ¬ s.Open h) →
      Happens s slots (.close fh) (.code (-1)) s slots
  | close {h : ℕ} : s.Open h → Happens s slots (.close h) (.code 0) (s.closed h) slots
  | writeBad {fh : ℤ} {buffer toWrite} : (∀ h : ℕ, fh = h → ¬ s.Open h) →
      Happens s slots (.write fh buffer toWrite) (.code (-1)) s slots
  | writeNone {h : ℕ} {buffer toWrite} : s.Open h → s.offsetOf h ≤ s.fsParams.blockSize →
      min toWrite (s.fsParams.blockSize - s.offsetOf h) = 0 →
      Happens s slots (.write h buffer toWrite) (.code 0) s slots
  | writeFull {h : ℕ} {buffer toWrite} : s.Open h →
      0 < writeLength s.fsParams.blockSize (s.offsetOf h) toWrite → s.sizeOf (s.inodeOf h) = 0 →
      AllTaken s.freeBlocks s.fsParams.maxBlockCount →
      Happens s slots (.write h buffer toWrite) (.code (-1)) s slots
  | write {h b n : ℕ} {buffer toWrite} : s.Open h → s.offsetOf h ≤ s.fsParams.blockSize →
      n = min toWrite (s.fsParams.blockSize - s.offsetOf h) → 0 < n → n ≤ buffer.length → 0 < b →
      b < s.fsParams.maxBlockCount →
      (s.sizeOf (s.inodeOf h) = 0 → FirstFree s.freeBlocks s.fsParams.maxBlockCount b) →
      (0 < s.sizeOf (s.inodeOf h) → s.blockOf (s.inodeOf h) = b) →
      Happens s slots (.write h buffer toWrite) (.code n) (s.wrote h b (buffer.take n)) slots
  | readBad {fh : ℤ} {room len} : (∀ h : ℕ, fh = h → ¬ s.Open h) →
      Happens s slots (.read fh room len) (.code (-1)) s slots
  | readNone {h : ℕ} {room len} : s.Open h → (len = 0 ∨ s.offsetOf h = s.sizeOf (s.inodeOf h)) →
      Happens s slots (.read h room len) (.code 0) s slots
  | read {h n : ℕ} {room len} : s.Open h → 0 < n → n ≤ room →
      n = (if s.offsetOf h ≤ s.sizeOf (s.inodeOf h) then
        min len (s.sizeOf (s.inodeOf h) - s.offsetOf h) else len) →
      s.blockOf (s.inodeOf h) * s.fsParams.blockSize + s.offsetOf h + n ≤ s.dataSize →
      Happens s slots (.read h room len)
        ⟨n, readMem s.fsData (s.blockOf (s.inodeOf h) * s.fsParams.blockSize + s.offsetOf h) n⟩
        (s.advanced h n) slots
  | unlinkInvalid {name} : ¬ validPathname name →
      Happens s slots (.unlink name) (.code (-1)) s slots
  | unlinkAbsent {name} : validPathname name →
      (∀ i fname k, Occupied slots i fname k → fname.bytes ≠ text (subName name)) →
      Happens s slots (.unlink name) (.code (-1)) s slots
  | unlink {name i fname k} : validPathname name → Occupied slots i fname k →
      fname.bytes = text (subName name) →
      Happens s slots (.unlink name) (.code 0) (s.unlinked k i (subName name)) (place slots i none)

section Tables

variable {s : State} {slots : List Slot} {k : ℕ}

lemma AllocationState.taken_of_ne {a : AllocationState} (h : a ≠ .free) : a = .taken := by
  cases a with
  | free => exact absurd rfl h
  | taken => rfl

lemma not_allTaken {map : ℕ → AllocationState} {n i : ℕ} (hi : i < n) (hf : map i = .free) :
    ¬ AllTaken map n := by
  intro hall
  exact ne_of_taken (hall i hi) hf rfl

lemma find_free (map : ℕ → AllocationState) (n : ℕ) :
    (∃ i, FirstFree map n i ∧ (List.range n).find? (fun i => map i == .free) = some i) ∨
      (AllTaken map n ∧ (List.range n).find? (fun i => map i == .free) = none) := by
  cases hf : (List.range n).find? (fun i => map i == .free) with
  | some i =>
    obtain ⟨hp, hi, hmin⟩ := List.find?_range_eq_some.mp hf
    refine .inl ⟨i, ⟨List.mem_range.mp hi, by simpa using hp, ?_⟩, rfl⟩
    intro j hj
    exact AllocationState.taken_of_ne (by simpa using hmin j hj)
  | none =>
    refine .inr ⟨?_, rfl⟩
    intro i hi
    exact AllocationState.taken_of_ne (by simpa using List.find?_range_eq_none.mp hf i hi)

lemma addToOpenFileTable_cases (s : State) (k offset : ℕ) :
    (∃ h, FirstFree s.freeOpenFileEntries s.fsParams.maxOpenFilesCount h ∧
        addToOpenFileTable s k offset = (s.opened h k offset, (h : ℤ))) ∨
      (AllTaken s.freeOpenFileEntries s.fsParams.maxOpenFilesCount ∧
        addToOpenFileTable s k offset = (s, -1)) := by
  rcases find_free s.freeOpenFileEntries s.fsParams.maxOpenFilesCount with
    ⟨h, hf, he⟩ | ⟨hf, he⟩
  · refine .inl ⟨h, hf, ?_⟩
    rw [addToOpenFileTable, he]
    rfl
  · refine .inr ⟨hf, ?_⟩
    rw [addToOpenFileTable, he]

lemma dataBlockAlloc_cases (hs : Sound s slots) :
    (∃ b, FirstFree s.freeBlocks s.fsParams.maxBlockCount b ∧
        dataBlockAlloc s = .ok (s.setBlockState b .taken, (b : ℤ))) ∨
      (AllTaken s.freeBlocks s.fsParams.maxBlockCount ∧ dataBlockAlloc s = .ok (s, -1)) := by
  have hc : ¬ (s.fsParams.blockSize = 0 ∧ 0 < s.fsParams.maxBlockCount) := fun hc =>
    hs.blockSize.ne' hc.1
  rcases find_free s.freeBlocks s.fsParams.maxBlockCount with ⟨b, hf, he⟩ | ⟨hf, he⟩
  · refine .inl ⟨b, hf, ?_⟩
    rw [dataBlockAlloc, if_neg hc, he]
  · refine .inr ⟨hf, ?_⟩
    rw [dataBlockAlloc, if_neg hc, he]

lemma inodeCreate_cases (hs : Sound s slots) :
    (∃ k, 0 < k ∧ FirstFree s.freeinodeTs s.fsParams.maxInodeCount k ∧
        inodeCreate s .file = .ok (s.allocated k, (k : ℤ))) ∨
      (AllTaken s.freeinodeTs s.fsParams.maxInodeCount ∧ inodeCreate s .file = .ok (s, -1)) := by
  have hc : ¬ (s.fsParams.blockSize = 0 ∧ 0 < s.fsParams.maxInodeCount) := fun hc =>
    hs.blockSize.ne' hc.1
  rcases find_free s.freeinodeTs s.fsParams.maxInodeCount with ⟨k, hf, he⟩ | ⟨hf, he⟩
  · refine .inl ⟨k, ?_, hf, ?_⟩
    · exact Nat.pos_of_ne_zero (ne_of_taken hs.rootInode.2 hf.2.1).symm
    · have ha : inodeAlloc s = .ok (s.setInodeState k .taken, (k : ℤ)) := by
        rw [inodeAlloc, if_neg hc, he]
      have hne : ¬ (k : ℤ) = -1 := by omega
      simp [inodeCreate, ha, hne, bind, Except.bind, State.setInode, State.setInodeState,
        State.allocated, State.newInode]
  · refine .inr ⟨hf, ?_⟩
    have ha : inodeAlloc s = .ok (s, -1) := by rw [inodeAlloc, if_neg hc, he]
    simp [inodeCreate, ha, bind, Except.bind]

lemma validInumber_of_lt (hk : k < s.fsParams.maxInodeCount) :
    validInumber s k = true := decide_eq_true ⟨by omega, by exact_mod_cast hk⟩

lemma Sound.freed (hs : Sound s slots) (hk : s.Used k) (hz : 0 < s.sizeOf k) :
    dataBlockFree s (s.inodeTable k).iDataBlock = .ok (s.setBlockState (s.blockOf k) .free) := by
  obtain ⟨hb, -, hlt⟩ := hs.blocks hk hz
  have hv : validBlockNumber s (s.inodeTable k).iDataBlock = true := by
    rw [hb]
    exact decide_eq_true ⟨by omega, by exact_mod_cast hlt⟩
  rw [dataBlockFree, if_pos hv]
  rfl

lemma truncate_eq (hs : Sound s slots) (hk : s.Linked k) :
    truncate s k = .ok (s.truncated k) := by
  rcases Nat.eq_zero_or_pos (s.sizeOf k) with hz | hz
  · have hsize : (s.inodeTable k).iSize = 0 := hz
    have hself : Function.update s.inodeTable k { s.inodeTable k with iSize := 0 } =
        s.inodeTable := by
      rw [← hsize]
      exact Function.update_eq_self k _
    simp [truncate, hsize, State.truncated, hz, hself, bind, Except.bind]
  · have hsize : 0 < (s.inodeTable k).iSize := hz
    simp [truncate, hsize, hs.freed (.inl hk) hz, State.truncated, hz, bind, Except.bind,
      State.setInode, State.setBlockState]

lemma inodeDelete_eq (hs : Sound s slots) (hk : s.Linked k) :
    inodeDelete s k = .ok (s.deleted k) := by
  have hv := validInumber_of_lt hk.2.1
  rcases Nat.eq_zero_or_pos (s.sizeOf k) with hz | hz
  · have hsize : (s.inodeTable k).iSize = 0 := hz
    simp [inodeDelete, hv, hk.2.2, hsize, hz, bind, Except.bind, State.setInodeState, State.deleted]
  · have hsize : 0 < (s.inodeTable k).iSize := hz
    simp [inodeDelete, hv, hk.2.2, hsize, hs.freed (.inl hk) hz, hz, bind, Except.bind,
      State.setInodeState, State.setBlockState,
      State.deleted]

lemma getOpenFileEntry_cases (s : State) (fh : ℤ) :
    (∃ h : ℕ, fh = h ∧ s.Open h ∧ getOpenFileEntry s fh = some h) ∨
      ((∀ h : ℕ, fh = h → ¬ s.Open h) ∧ getOpenFileEntry s fh = none) := by
  by_cases hv : validFileHandle s fh = true
  · obtain ⟨h0, hlt⟩ := of_decide_eq_true hv
    obtain ⟨h, rfl⟩ := Int.eq_ofNat_of_zero_le h0
    by_cases ht : s.freeOpenFileEntries h = .taken
    · refine .inl ⟨h, rfl, ⟨by exact_mod_cast hlt, ht⟩, ?_⟩
      simp [getOpenFileEntry, hv, ht]
    · refine .inr ⟨?_, by simp [getOpenFileEntry, hv, ht]⟩
      intro h' he ho
      have hh : h = h' := by exact_mod_cast he
      exact ht (hh ▸ ho.2)
  · refine .inr ⟨?_, by simp [getOpenFileEntry, hv]⟩
    rintro h rfl ho
    exact hv (decide_eq_true ⟨by omega, by exact_mod_cast ho.1⟩)

end Tables

section Specs

variable {s : State} {slots : List Slot}

lemma Sound.rooted (hs : Sound s slots) : Rooted s 0 0 slots := by
  refine ⟨by rw [hs.root], ?_, (dirRoom s).trans hs.blockSize_le, hs.listed⟩
  have hv : validBlockNumber s 0 = true :=
    decide_eq_true ⟨le_rfl, by exact_mod_cast hs.rootBlock.1⟩
  rw [hs.root, dataBlockGet, if_pos hv]
  simp

lemma Sound.rootGet (hs : Sound s slots) : inodeGet s rootDirInum = .ok 0 := by
  have hv : validInumber s rootDirInum = true := validInumber_of_lt hs.rootInode.1
  rw [inodeGet, if_pos hv]
  rfl

lemma allocated_rooted (hs : Sound s slots) {k : ℕ} (hk : 0 < k) :
    Rooted (s.allocated k) 0 0 slots := by
  have h := hs.rooted
  have h0 : (s.allocated k).inodeTable 0 = s.inodeTable 0 :=
    Function.update_of_ne (Nat.ne_of_lt hk) _ _
  refine ⟨by rw [h0]; exact h.directory, by rw [h0]; exact h.block, h.room, h.listed⟩

lemma subName_nonempty {name : Option (List UInt8)} (h : validPathname name) :
    text (subName name) ≠ [] := by
  cases name with
  | none => cases h
  | some bytes =>
    cases bytes with
    | nil => cases h
    | cons c cs =>
      simp only [validPathname, List.headD_cons, Bool.and_eq_true, decide_eq_true_eq,
        beq_iff_eq] at h
      obtain ⟨hl, rfl⟩ := h
      intro hn
      have ht : strlen (47 :: cs) = (text cs).length + 1 := by
        rw [strlen, text]
        rfl
      rw [ht, show text cs = [] from hn] at hl
      exact absurd hl (by decide)

section Open

variable {name : Option (List UInt8)} {mode i k : ℕ} {fname : FileName}

lemma tfsLookup_eq (hv : validPathname name) :
    tfsLookup s name 0 = findInDir s 0 (subName name) := by
  rw [tfsLookup, if_neg (by simpa using hv)]

lemma tfsOpen_found (hs : Sound s slots) (hv : validPathname name) (hk : s.Linked k)
    (hfind : findInDir s 0 (subName name) = .ok (k : ℤ)) :
    tfsOpen s name mode =
      .ok ((addToOpenFileTable (s.retrieved k mode) k (s.startOffset k mode)).1,
        .code (addToOpenFileTable (s.retrieved k mode) k (s.startOffset k mode)).2) := by
  have hpos : (0 : ℤ) ≤ k := by omega
  have hget : inodeGet s k = .ok k := by
    rw [inodeGet, if_pos (validInumber_of_lt hk.2.1), Int.toNat_natCast]
  simp only [tfsOpen, hv, not_true_eq_false, if_false, hs.rootGet, tfsLookup_eq hv, bind,
    Except.bind, hfind, hpos, if_true, hget]
  by_cases ht : oTrunc mode = true
  · simp only [ht, if_true, truncate_eq hs hk, State.startOffset, State.retrieved, State.sizeOf]
  · simp only [ht, State.startOffset, State.retrieved, State.sizeOf]
    rfl

lemma retrieved_tables (s : State) (k mode : ℕ) :
    (s.retrieved k mode).freeOpenFileEntries = s.freeOpenFileEntries ∧
      (s.retrieved k mode).fsParams = s.fsParams := by
  rw [State.retrieved]
  split_ifs <;> exact ⟨rfl, rfl⟩

lemma tfsOpen_existing (hs : Sound s slots) (hv : validPathname name)
    (ho : Occupied slots i fname k) (hname : fname.bytes = text (subName name))
    (hfind : findInDir s 0 (subName name) = .ok (k : ℤ)) :
    ∃ t r slots', tfsOpen s name mode = .ok (t, r) ∧
      Happens s slots (.open name mode) r t slots' := by
  have hopen : tfsOpen s name mode = _ := tfsOpen_found hs hv (hs.entries ho) hfind
  have htables := retrieved_tables s k mode
  rcases addToOpenFileTable_cases (s.retrieved k mode) k (s.startOffset k mode) with
    ⟨h, hf, he⟩ | ⟨hf, he⟩
  · rw [htables.1, htables.2] at hf
    rw [he] at hopen
    exact ⟨_, _, slots, hopen, .openExisting hv ho hname hf⟩
  · rw [htables.1, htables.2] at hf
    rw [he] at hopen
    exact ⟨_, _, slots, hopen, .openExistingFull hv ho hname hf⟩

lemma inodeDelete_allocated (hk : k < s.fsParams.maxInodeCount) (hfree : s.freeinodeTs k = .free) :
    inodeDelete (s.allocated k) k = .ok (s.newInode k) := by
  have hv : validInumber (s.allocated k) k = true := validInumber_of_lt hk
  have hself : Function.update s.freeinodeTs k .free = s.freeinodeTs := by
    rw [← hfree]
    exact Function.update_eq_self k _
  have htaken : (s.allocated k).freeinodeTs k = .taken := Function.update_self _ _ _
  have hsize : ((s.allocated k).inodeTable k).iSize = 0 := by simp [State.allocated, State.newInode]
  simp [inodeDelete, hv, htaken, hsize, bind, Except.bind, State.setInodeState]
  simp [State.allocated, State.newInode, hself]

lemma addDirEntry_tooLong {subName : List UInt8} (s : State) (inode : ℕ) (k : ℤ)
    (h : maxFileName ≤ (text subName).length) : addDirEntry s inode subName k = .ok (s, -1) := by
  rw [addDirEntry, if_pos]
  right
  rw [strlen]
  simp only [maxFileName] at *
  omega

lemma tfsOpen_new (hs : Sound s slots) (hv : validPathname name)
    (hno : ∀ i fname k, Occupied slots i fname k → fname.bytes ≠ text (subName name))
    (hfind : findInDir s 0 (subName name) = .ok (-1)) (hc : oCreat mode) (hk : 0 < k)
    (hf : FirstFree s.freeinodeTs s.fsParams.maxInodeCount k)
    (hcreate : inodeCreate s .file = .ok (s.allocated k, (k : ℤ))) :
    ∃ t r slots', tfsOpen s name mode = .ok (t, r) ∧
      Happens s slots (.open name mode) r t slots' := by
  have hneg : ¬ (0 : ℤ) ≤ -1 := by omega
  have hne : ¬ (k : ℤ) = -1 := by omega
  have hopen : tfsOpen s name mode = (addDirEntry (s.allocated k) 0 (subName name) k).bind
      (fun x => if x.2 = -1 then (inodeDelete x.1 k).bind (fun s => .ok (s, .code (-1)))
        else
          let s := { x.1 with history := { x.1.history with
            linked := text (subName name) :: x.1.history.linked } }
          .ok ((addToOpenFileTable s k 0).1, .code (addToOpenFileTable s k 0).2)) := by
    simp only [tfsOpen, hv, not_true_eq_false, if_false, hs.rootGet, tfsLookup_eq hv, bind,
      Except.bind, hfind, hneg, hc, if_true, hcreate, hne]
  by_cases hlong : maxFileName ≤ (text (subName name)).length
  · rw [addDirEntry_tooLong _ _ _ hlong] at hopen
    simp only [Except.bind, if_true, inodeDelete_allocated hf.1 hf.2.1] at hopen
    exact ⟨_, _, slots, hopen, .openNoEntry hv hno hc hk hf (.inl hlong)⟩
  have hnonempty := subName_nonempty hv
  have hpos : strlen (subName name) ≠ 0 := by
    rw [strlen]
    exact fun hz => hnonempty (List.length_eq_zero_iff.mp hz)
  have hshort : strlen (subName name) ≤ maxFileName - 1 := by
    rw [strlen]
    simp only [maxFileName] at *
    omega
  obtain ⟨fname, hname⟩ : ∃ fname : FileName, fname.bytes = text (subName name) :=
    ⟨⟨text (subName name), text_noNul _, hnonempty, by omega⟩, rfl⟩
  rcases addDirEntry_cases (allocated_rooted hs hk) hpos hshort k with
    ⟨i, hi, hn, hvacant, he⟩ | ⟨he, hfull⟩
  · rw [he] at hopen
    have hz : ¬ (0 : ℤ) = -1 := by omega
    simp only [Except.bind, hz, if_false] at hopen
    rcases addToOpenFileTable_cases (s.created k i (subName name)) k 0 with
      ⟨h, hh, hadd⟩ | ⟨hh, hadd⟩
    · exact ⟨_, _, _, hopen.trans (congrArg (fun x => Except.ok (x.1, Reply.code x.2)) hadd),
        .openCreated hv hno hc hk hf hname hi hn hvacant hh⟩
    · exact ⟨_, _, _, hopen.trans (congrArg (fun x => Except.ok (x.1, Reply.code x.2)) hadd),
        .openCreatedFull hv hno hc hk hf hname hi hn hvacant hh⟩
  · rw [he] at hopen
    simp only [Except.bind, if_true, inodeDelete_allocated hf.1 hf.2.1] at hopen
    exact ⟨_, _, slots, hopen, .openNoEntry hv hno hc hk hf (.inr hfull)⟩

lemma tfsOpen_spec (hs : Sound s slots) (name : Option (List UInt8)) (mode : ℕ) :
    ∃ t r slots', tfsOpen s name mode = .ok (t, r) ∧
      Happens s slots (.open name mode) r t slots' := by
  by_cases hv : validPathname name
  swap
  · refine ⟨s, .code (-1), slots, ?_, .openInvalid hv⟩
    rw [tfsOpen, if_pos hv]
  rcases findInDir_cases hs.rooted (subName name) with
    ⟨i, fname, k, ho, hname, hfind⟩ | ⟨hno, hfind⟩
  · exact tfsOpen_existing hs hv ho hname hfind
  have hneg : ¬ (0 : ℤ) ≤ -1 := by omega
  by_cases hc : oCreat mode
  swap
  · refine ⟨s, .code (-1), slots, ?_, .openAbsent hv hno hc⟩
    simp only [tfsOpen, hv, not_true_eq_false, if_false, hs.rootGet, tfsLookup_eq hv, bind,
      Except.bind, hfind, hneg, hc]
    rfl
  rcases inodeCreate_cases hs with ⟨k, hk, hf, he⟩ | ⟨hf, he⟩
  · exact tfsOpen_new hs hv hno hfind hc hk hf he
  · refine ⟨s, .code (-1), slots, ?_, .openNoInode hv hno hc hf⟩
    simp only [tfsOpen, hv, not_true_eq_false, if_false, hs.rootGet, tfsLookup_eq hv, bind,
      Except.bind, hfind, hneg, hc, if_true, he]

end Open

lemma tfsClose_spec (s : State) (slots : List Slot) (fh : ℤ) :
    ∃ t r slots', tfsClose s fh = .ok (t, r) ∧ Happens s slots (.close fh) r t slots' := by
  rcases getOpenFileEntry_cases s fh with ⟨h, rfl, ho, he⟩ | ⟨hno, he⟩
  · refine ⟨s.closed h, .code 0, slots, ?_, .close ho⟩
    have hv : validFileHandle s h = true := decide_eq_true ⟨by omega, by exact_mod_cast ho.1⟩
    have hremove : removeFromOpenFileTable s h = .ok (s.closed h) := by
      simp [removeFromOpenFileTable, hv, ho.2, State.closed, State.setEntryState]
    simp only [tfsClose, he, hremove, bind, Except.bind]
  · refine ⟨s, .code (-1), slots, ?_, .closeBad hno⟩
    simp only [tfsClose, he]

section Write

variable {h b n : ℕ} {buffer : List UInt8}

lemma writeLength_cases {size offset toWrite room data : ℕ} (ho : offset ≤ data) (hs : size ≤ data)
    (hr : room + data < 2 ^ 64) (hw : toWrite < 2 ^ 64) :
    (offset ≤ size ∧ writeLength size offset toWrite = min toWrite (size - offset)) ∨
      ((size < offset ∨ room < toWrite) ∧ room < writeLength size offset toWrite) := by
  rw [writeLength]
  split_ifs <;> omega

lemma dataBlockGet_eq (hb : (s.inodeTable h).iDataBlock = (b : ℤ))
    (hlt : b < s.fsParams.maxBlockCount) :
    dataBlockGet s (s.inodeTable h).iDataBlock = .ok (b * s.fsParams.blockSize) := by
  have hv : validBlockNumber s b = true := decide_eq_true ⟨by omega, by exact_mod_cast hlt⟩
  rw [hb, dataBlockGet, if_pos hv, Int.toNat_natCast]

lemma raiseSize_eq (s : State) (k offset : ℕ) : raiseSize s k offset =
    s.setInode k { s.inodeTable k with iSize := max (s.sizeOf k) offset } := by
  rw [raiseSize]
  split_ifs with hlt
  · rw [max_eq_right (show s.sizeOf k ≤ offset from hlt.le)]
  · have hself : Function.update s.inodeTable k
        { s.inodeTable k with iSize := (s.inodeTable k).iSize } = s.inodeTable :=
      Function.update_eq_self k _
    rw [max_eq_left (show offset ≤ s.sizeOf k from Nat.le_of_not_lt hlt), State.setInode]
    exact (congrArg (fun table => { s with inodeTable := table }) hself).symm

lemma storeBlock_crash {k : ℕ} (hb : (s.inodeTable k).iDataBlock = (b : ℤ))
    (hlt : b < s.fsParams.maxBlockCount)
    (hc : s.dataSize < b * s.fsParams.blockSize + s.offsetOf h + n ∨ buffer.length < n) :
    storeBlock s h k buffer n = .error .outOfBounds := by
  simp only [storeBlock, dataBlockGet_eq hb hlt, bind, Except.bind]
  exact if_pos hc

lemma storeBlock_ok {k : ℕ} (hb : (s.inodeTable k).iDataBlock = (b : ℤ))
    (hlt : b < s.fsParams.maxBlockCount) (hd : s.dataSize < 2 ^ 64)
    (hc : b * s.fsParams.blockSize + s.offsetOf h + n ≤ s.dataSize) (hn : n ≤ buffer.length) :
    storeBlock s h k buffer n = .ok
      ({ s with
        inodeTable := Function.update s.inodeTable k
          { s.inodeTable k with iSize := max (s.sizeOf k) (s.offsetOf h + n) }
        fsData := writeMem s.fsData (b * s.fsParams.blockSize + s.offsetOf h) (buffer.take n)
        openFileTable := Function.update s.openFileTable h
          { s.openFileTable h with ofOffset := s.offsetOf h + n }
        history := { s.history with
          stored := Function.update s.history.stored (s.history.handleFile h)
            (storeBytes (s.history.stored (s.history.handleFile h)) (s.offsetOf h)
              (buffer.take n)) } }, .code n) := by
  have hlow : ¬ (s.dataSize < b * s.fsParams.blockSize + s.offsetOf h + n ∨ buffer.length < n) := by
    omega
  have hmod : ((s.openFileTable h).ofOffset + n) % 2 ^ 64 = s.offsetOf h + n := by
    rw [State.offsetOf] at *
    exact Nat.mod_eq_of_lt (by omega)
  simp only [storeBlock, dataBlockGet_eq hb hlt, bind, Except.bind, hmod]
  refine (if_neg hlow).trans ?_
  rw [raiseSize_eq]
  rfl

def given (s : State) (h b : ℕ) : State :=
  { s with
    freeBlocks := Function.update s.freeBlocks b .taken
    inodeTable := Function.update s.inodeTable (s.inodeOf h)
      { s.inodeTable (s.inodeOf h) with iDataBlock := b }
    history := { s.history with
      blockFile := Function.update s.history.blockFile b (s.history.handleFile h) } }

lemma writeBytes_old (hz : 0 < s.sizeOf (s.inodeOf h)) :
    writeBytes s h (s.inodeOf h) buffer n = storeBlock s h (s.inodeOf h) buffer n :=
  if_neg (Nat.ne_of_gt hz)

lemma writeBytes_fresh (hz : s.sizeOf (s.inodeOf h) = 0)
    (ha : dataBlockAlloc s = .ok (s.setBlockState b .taken, (b : ℤ))) :
    writeBytes s h (s.inodeOf h) buffer n = storeBlock (given s h b) h (s.inodeOf h) buffer n := by
  have hne : ¬ (b : ℤ) = -1 := by omega
  have hsize : (s.inodeTable (s.inodeOf h)).iSize = 0 := hz
  simp only [writeBytes, hsize, if_true, ha, hne, if_false, bind, Except.bind]
  rfl

lemma given_stored (hz : s.sizeOf (s.inodeOf h) = 0) (hd : s.dataSize < 2 ^ 64)
    (hlt : b < s.fsParams.maxBlockCount)
    (hc : b * s.fsParams.blockSize + s.offsetOf h + n ≤ s.dataSize) (hn : n ≤ buffer.length) :
    storeBlock (given s h b) h (s.inodeOf h) buffer n =
      .ok (s.wrote h b (buffer.take n), .code n) := by
  have hlen : (buffer.take n).length = n := by
    rw [List.length_take]
    omega
  have hb : ((given s h b).inodeTable (s.inodeOf h)).iDataBlock = (b : ℤ) := by simp [given]
  have hsize : (given s h b).sizeOf (s.inodeOf h) = s.sizeOf (s.inodeOf h) := by
    simp [State.sizeOf, given]
  rw [storeBlock_ok (s := given s h b) hb hlt hd hc hn, hsize]
  simp only [given, Function.update_idem, Function.update_self, State.wrote, hz, if_true, hlen]
  rfl

lemma old_stored (hb : (s.inodeTable (s.inodeOf h)).iDataBlock = (b : ℤ))
    (hz : 0 < s.sizeOf (s.inodeOf h)) (hd : s.dataSize < 2 ^ 64)
    (hlt : b < s.fsParams.maxBlockCount)
    (hc : b * s.fsParams.blockSize + s.offsetOf h + n ≤ s.dataSize) (hn : n ≤ buffer.length) :
    storeBlock s h (s.inodeOf h) buffer n = .ok (s.wrote h b (buffer.take n), .code n) := by
  have hlen : (buffer.take n).length = n := by
    rw [List.length_take]
    omega
  rw [storeBlock_ok hb hlt hd hc hn]
  simp only [State.wrote, Nat.ne_of_gt hz, if_false, hlen, ← hb]

lemma blockRoom {offset : ℕ} (hlt : b < s.fsParams.maxBlockCount)
    (hn : offset + n ≤ s.fsParams.blockSize) :
    b * s.fsParams.blockSize + offset + n ≤ s.dataSize := by
  have hmul : (b + 1) * s.fsParams.blockSize ≤ s.dataSize := Nat.mul_le_mul_right _ hlt
  rw [Nat.add_mul, Nat.one_mul] at hmul
  omega

lemma tfsWrite_spec (hs : Sound s slots) {fh : ℤ} {toWrite : ℕ}
    (ha : (Call.write fh buffer toWrite).admissible s) :
    (∃ t r slots', tfsWrite s fh buffer toWrite = .ok (t, r) ∧
        Happens s slots (.write fh buffer toWrite) r t slots') ∨
      ∃ h : ℕ, fh = h ∧ s.Open h ∧
        (s.fsParams.blockSize < s.offsetOf h ∨ buffer.length < toWrite) ∧
        tfsWrite s fh buffer toWrite = .error .outOfBounds := by
  rcases getOpenFileEntry_cases s fh with ⟨h, rfl, ho, he⟩ | ⟨hno, he⟩
  swap
  · refine .inl ⟨s, .code (-1), slots, ?_, .writeBad hno⟩
    simp only [tfsWrite, he]
  obtain ⟨hnum, -, hlt, hoff⟩ := hs.handles ho
  have hget : inodeGet s (s.openFileTable h).ofInumber = .ok (s.inodeOf h) := by
    rw [hnum, inodeGet, if_pos (validInumber_of_lt hlt), Int.toNat_natCast]
  have hw : tfsWrite s h buffer toWrite =
      if 0 < writeLength s.fsParams.blockSize (s.offsetOf h) toWrite then
        writeBytes s h (s.inodeOf h) buffer
          (writeLength s.fsParams.blockSize (s.offsetOf h) toWrite)
      else .ok (s, .code (writeLength s.fsParams.blockSize (s.offsetOf h) toWrite)) := by
    simp only [tfsWrite, he, hget, bind, Except.bind]
    rfl
  have hlength := writeLength_cases hoff hs.blockSize_le ha.1 ha.2
  generalize hn : writeLength s.fsParams.blockSize (s.offsetOf h) toWrite = n at hw hlength
  by_cases hpos : 0 < n
  swap
  · have hn0 : n = 0 := by omega
    rcases hlength with ⟨hle, hmin⟩ | ⟨-, hbig⟩
    · refine .inl ⟨s, .code 0, slots, ?_, .writeNone ho hle (by omega)⟩
      rw [hw, if_neg hpos, hn0]
      rfl
    · omega
  rw [if_pos hpos] at hw
  have hdata := hs.data
  have hfits : ∀ b, b < s.fsParams.maxBlockCount → (s.offsetOf h ≤ s.fsParams.blockSize ∧
      n = min toWrite (s.fsParams.blockSize - s.offsetOf h)) →
      b * s.fsParams.blockSize + s.offsetOf h + n ≤ s.dataSize := by
    intro b hb hle
    exact blockRoom hb (by omega)
  rcases Nat.eq_zero_or_pos (s.sizeOf (s.inodeOf h)) with hz | hz
  · rcases dataBlockAlloc_cases hs with ⟨b, hf, hb⟩ | ⟨hf, hb⟩
    swap
    · refine .inl ⟨s, .code (-1), slots, ?_, .writeFull ho (by omega) hz hf⟩
      have hsize : (s.inodeTable (s.inodeOf h)).iSize = 0 := hz
      simp [hw, writeBytes, hsize, hb, bind, Except.bind]
    have hb0 : 0 < b := Nat.pos_of_ne_zero (ne_of_taken hs.rootBlock.2 hf.2.1).symm
    have hblock : ((given s h b).inodeTable (s.inodeOf h)).iDataBlock = (b : ℤ) := by simp [given]
    rw [writeBytes_fresh hz hb] at hw
    rcases hlength with hle | ⟨hbad, hbig⟩
    · by_cases hbuf : n ≤ buffer.length
      · rw [given_stored hz hdata hf.1 (hfits b hf.1 hle) hbuf] at hw
        exact .inl ⟨_, _, slots, hw, .write ho hle.1 hle.2 hpos hbuf hb0 hf.1 (fun _ => hf)
          (fun hz' => absurd hz hz'.ne')⟩
      · rw [storeBlock_crash (s := given s h b) hblock hf.1 (.inr (by omega))] at hw
        exact .inr ⟨h, rfl, ho, .inr (by omega), hw⟩
    · rw [storeBlock_crash (s := given s h b) hblock hf.1 (.inr hbig)] at hw
      exact .inr ⟨h, rfl, ho, hbad, hw⟩
  · obtain ⟨hb, hb0, hblt⟩ := hs.blocks (.inr ⟨h, ho, rfl⟩) hz
    rw [writeBytes_old hz] at hw
    rcases hlength with hle | ⟨hbad, hbig⟩
    · by_cases hbuf : n ≤ buffer.length
      · rw [old_stored hb hz hdata hblt (hfits _ hblt hle) hbuf] at hw
        exact .inl ⟨_, _, slots, hw, .write ho hle.1 hle.2 hpos hbuf hb0 hblt
          (fun hz0 => absurd hz0 hz.ne') (fun _ => rfl)⟩
      · rw [storeBlock_crash hb hblt (.inr (by omega))] at hw
        exact .inr ⟨h, rfl, ho, .inr (by omega), hw⟩
    · rw [storeBlock_crash hb hblt (.inr hbig)] at hw
      exact .inr ⟨h, rfl, ho, hbad, hw⟩

end Write

section Read

variable {h : ℕ}

lemma readLength_cases {size offset len room data : ℕ} (ho : offset ≤ data) (hs : size ≤ data)
    (hr : room + data < 2 ^ 64) :
    (offset ≤ size ∧ readLength size offset len = min len (size - offset)) ∨
      (size < offset ∧ (readLength size offset len = len ∨
        (0 < len ∧ room < len ∧ room < readLength size offset len))) := by
  simp only [readLength]
  split_ifs <;> omega

lemma tfsRead_spec (hs : Sound s slots) {fh : ℤ} {room len : ℕ}
    (ha : (Call.read fh room len).admissible s) :
    (∃ t r slots', tfsRead s fh room len = .ok (t, r) ∧
        Happens s slots (.read fh room len) r t slots') ∨
      ∃ h : ℕ, fh = h ∧ s.Open h ∧ (s.sizeOf (s.inodeOf h) < s.offsetOf h ∨ room < len) ∧
        ∃ c, tfsRead s fh room len = .error c := by
  rcases getOpenFileEntry_cases s fh with ⟨h, rfl, ho, he⟩ | ⟨hno, he⟩
  swap
  · refine .inl ⟨s, .code (-1), slots, ?_, .readBad hno⟩
    simp only [tfsRead, he]
  obtain ⟨hnum, -, hlt, hoff⟩ := hs.handles ho
  have hget : inodeGet s (s.openFileTable h).ofInumber = .ok (s.inodeOf h) := by
    rw [hnum, inodeGet, if_pos (validInumber_of_lt hlt), Int.toNat_natCast]
  have hused : s.Used (s.inodeOf h) := .inr ⟨h, ho, rfl⟩
  have hsize := (hs.sizes hused).trans hs.blockSize_le
  have hlength := @readLength_cases _ _ len _ _ hoff hsize ha.1
  generalize hn : readLength (s.sizeOf (s.inodeOf h)) (s.offsetOf h) len = n at hlength
  have hr : tfsRead s h room len = if 0 < n then
      (dataBlockGet s (s.inodeTable (s.inodeOf h)).iDataBlock).bind (fun block =>
        if s.dataSize < block + s.offsetOf h + n ∨ room < n then .error .outOfBounds
        else .ok (s.setEntry h { s.openFileTable h with ofOffset := (s.offsetOf h + n) % 2 ^ 64 },
          ⟨n, readMem s.fsData (block + s.offsetOf h) n⟩))
      else .ok (s, .code n) := by
    rw [← hn]
    simp only [tfsRead, he, hget, bind, Except.bind]
    rfl
  have hdata := hs.data
  by_cases hpos : 0 < n
  swap
  · refine .inl ⟨s, .code 0, slots, ?_, .readNone ho (by omega)⟩
    rw [hr, if_neg hpos, show n = 0 by omega]
    rfl
  rw [if_pos hpos] at hr
  by_cases hv : validBlockNumber s (s.inodeTable (s.inodeOf h)).iDataBlock = true
  swap
  · refine .inr ⟨h, rfl, ho, ?_, .assertion, by rw [hr, dataBlockGet, if_neg hv]; rfl⟩
    by_contra hin
    obtain ⟨hb, -, hblt⟩ := hs.blocks hused (by omega)
    rw [hb] at hv
    exact hv (decide_eq_true ⟨by omega, by exact_mod_cast hblt⟩)
  have hget' : dataBlockGet s (s.inodeTable (s.inodeOf h)).iDataBlock =
      .ok (s.blockOf (s.inodeOf h) * s.fsParams.blockSize) := if_pos hv
  rw [hget', Except.bind] at hr
  by_cases hc : s.dataSize < s.blockOf (s.inodeOf h) * s.fsParams.blockSize + s.offsetOf h + n ∨
    room < n
  · rw [if_pos hc] at hr
    refine .inr ⟨h, rfl, ho, ?_, .outOfBounds, hr⟩
    by_contra hin
    obtain ⟨-, -, hblt⟩ := hs.blocks hused (by omega)
    have hbound := hs.sizes hused
    have hin : s.offsetOf h + n ≤ s.fsParams.blockSize := by omega
    have hfit := blockRoom hblt hin
    omega
  · have hmod : (s.offsetOf h + n) % 2 ^ 64 = s.offsetOf h + n := Nat.mod_eq_of_lt (by omega)
    rw [if_neg hc, hmod] at hr
    refine .inl ⟨_, _, slots, hr, .read ho hpos (by omega) ?_ (by omega)⟩
    split_ifs <;> omega

end Read

section Unlink

variable {target : Option (List UInt8)}

lemma clearDirEntry_deleted (hs : Sound s slots) {i k : ℕ} {fname : FileName}
    {subName : List UInt8} (ho : Occupied slots i fname k) (hname : fname.bytes = text subName) :
    clearDirEntry (s.deleted k) 0 subName =
      .ok ({ s.deleted k with fsData := clearedData s.fsData (entryAt 0 i) }, 0) := by
  have h := hs.rooted
  have hroot : Rooted (s.deleted k) 0 0 slots := ⟨h.directory, h.block, h.room, h.listed⟩
  exact clearDirEntry_eq hroot hs.distinct ho hname

lemma tfsUnlink_found (hs : Sound s slots) (hv : validPathname target) {i k : ℕ} {fname : FileName}
    (ho : Occupied slots i fname k) (hname : fname.bytes = text (subName target))
    (hfind : findInDir s 0 (subName target) = .ok (k : ℤ)) :
    tfsUnlink s target = .ok (s.unlinked k i (subName target), .code 0) := by
  have hne : ¬ (k : ℤ) = -1 := by omega
  have hz : ¬ (0 : ℤ) = -1 := by omega
  have hclear : clearDirEntry (s.deleted k) 0 (subName target) =
      .ok ({ s.deleted k with fsData := clearedData s.fsData (entryAt 0 i) }, 0) :=
    clearDirEntry_deleted hs ho hname
  simp only [tfsUnlink, hv, not_true_eq_false, if_false, hs.rootGet, tfsLookup_eq hv, bind,
    Except.bind, hfind, hne, inodeDelete_eq hs (hs.entries ho), hclear, hz]
  rfl

lemma tfsUnlink_spec (hs : Sound s slots) (target : Option (List UInt8)) :
    ∃ t r slots', tfsUnlink s target = .ok (t, r) ∧
      Happens s slots (.unlink target) r t slots' := by
  by_cases hv : validPathname target
  swap
  · refine ⟨s, .code (-1), slots, ?_, .unlinkInvalid hv⟩
    rw [tfsUnlink, if_pos hv]
  rcases findInDir_cases hs.rooted (subName target) with
    ⟨i, fname, k, ho, hname, hfind⟩ | ⟨hno, hfind⟩
  · exact ⟨_, _, _, tfsUnlink_found hs hv ho hname hfind, .unlink hv ho hname⟩
  · refine ⟨s, .code (-1), slots, ?_, .unlinkAbsent hv hno⟩
    simp only [tfsUnlink, hv, not_true_eq_false, if_false, hs.rootGet, tfsLookup_eq hv, bind,
      Except.bind, hfind, if_true]

end Unlink

lemma tfsCall_happens (hs : Sound s slots) {call : Call} (ha : call.admissible s) {t : State}
    {r : Reply} (h : tfsCall s call = .ok (t, r)) : ∃ slots', Happens s slots call r t slots' := by
  cases call with
  | «open» name mode =>
    obtain ⟨t', r', slots', he, hh⟩ := tfsOpen_spec hs name mode
    cases he.symm.trans h
    exact ⟨slots', hh⟩
  | close fh =>
    obtain ⟨t', r', slots', he, hh⟩ := tfsClose_spec s slots fh
    cases he.symm.trans h
    exact ⟨slots', hh⟩
  | write fh buffer toWrite =>
    rcases tfsWrite_spec hs ha with ⟨t', r', slots', he, hh⟩ | ⟨k, -, -, -, he⟩
    · cases he.symm.trans h
      exact ⟨slots', hh⟩
    · cases he.symm.trans h
  | read fh room len =>
    rcases tfsRead_spec hs ha with ⟨t', r', slots', he, hh⟩ | ⟨k, -, -, -, c, he⟩
    · cases he.symm.trans h
      exact ⟨slots', hh⟩
    · cases he.symm.trans h
  | unlink target =>
    obtain ⟨t', r', slots', he, hh⟩ := tfsUnlink_spec hs target
    cases he.symm.trans h
    exact ⟨slots', hh⟩

end Specs

section Found

variable {s t : State} {slots slots' : List Slot} {name : Option (List UInt8)}
  {i k : ℕ} {fname : FileName}

lemma lookup_eq (hs : Sound s slots) (hv : validPathname name) (ho : Occupied slots i fname k)
    (hname : fname.bytes = text (subName name)) : tfsLookup s name rootDirInum = .ok (k : ℤ) := by
  rw [show rootDirInum = 0 from rfl, tfsLookup_eq hv]
  rcases findInDir_cases hs.rooted (subName name) with ⟨j, other, l, ho', hname', hfind⟩ | ⟨hno, -⟩
  · obtain rfl := hs.distinct.inumber_eq ho' ho (hname'.trans hname.symm)
    exact hfind
  · exact absurd hname (hno i fname k ho)

lemma lookup_invalid (hv : ¬ validPathname name) :
    tfsLookup s name rootDirInum = .ok (-1) := if_pos hv

lemma lookup_absent (hs : Sound s slots) (hv : validPathname name)
    (hno : ∀ i fname k, Occupied slots i fname k → fname.bytes ≠ text (subName name)) :
    tfsLookup s name rootDirInum = .ok (-1) := by
  rw [show rootDirInum = 0 from rfl, tfsLookup_eq hv]
  rcases findInDir_cases hs.rooted (subName name) with ⟨i, fname, k, ho, hname, -⟩ | ⟨-, hfind⟩
  · exact absurd hname (hno i fname k ho)
  · exact hfind

lemma lookup_cases (hs : Sound s slots) (name : Option (List UInt8)) :
    (∃ i fname k, validPathname name ∧ Occupied slots i fname k ∧
        fname.bytes = text (subName name) ∧ tfsLookup s name rootDirInum = .ok (k : ℤ)) ∨
      (tfsLookup s name rootDirInum = .ok (-1) ∧ (validPathname name →
        ∀ i fname k, Occupied slots i fname k → fname.bytes ≠ text (subName name))) := by
  by_cases hv : validPathname name
  · rcases findInDir_cases hs.rooted (subName name) with ⟨i, fname, k, ho, hname, -⟩ | ⟨hno, -⟩
    · exact .inl ⟨i, fname, k, hv, ho, hname, lookup_eq hs hv ho hname⟩
    · exact .inr ⟨lookup_absent hs hv hno, fun _ => hno⟩
  · exact .inr ⟨lookup_invalid hv, fun hv' => absurd hv' hv⟩

lemma lookup_ne_absent (h : tfsLookup s name rootDirInum = .ok (-1)) :
    tfsLookup s name rootDirInum ≠ .ok (k : ℤ) := by
  rw [h]
  intro he
  have hk : (-1 : ℤ) = k := Except.ok.inj he
  omega

lemma lookup_found (hs : Sound s slots) (h : tfsLookup s name rootDirInum = .ok (k : ℤ)) :
    validPathname name ∧
      ∃ i fname, Occupied slots i fname k ∧ fname.bytes = text (subName name) := by
  rcases lookup_cases hs name with ⟨i, fname, l, hv, ho, hname, he⟩ | ⟨he, -⟩
  · rw [he] at h
    obtain rfl : l = k := by exact_mod_cast Except.ok.inj h
    exact ⟨hv, i, fname, ho, hname⟩
  · exact absurd h (lookup_ne_absent he)

lemma lookup_linked (hs : Sound s slots) (h : tfsLookup s name rootDirInum = .ok (k : ℤ)) :
    s.Linked k := by
  obtain ⟨-, i, fname, ho, -⟩ := lookup_found hs h
  exact hs.entries ho

lemma lookup_congr (hs : Sound s slots) (ht : Sound t slots')
    (hsame : ∀ k, (∃ i fname, Occupied slots' i fname k ∧ fname.bytes = text (subName name)) ↔
      ∃ i fname, Occupied slots i fname k ∧ fname.bytes = text (subName name)) :
    tfsLookup t name rootDirInum = tfsLookup s name rootDirInum := by
  rcases lookup_cases hs name with ⟨i, fname, k, hv, ho, hname, he⟩ | ⟨he, hno⟩
  · obtain ⟨j, other, ho', hname'⟩ := (hsame k).mpr ⟨i, fname, ho, hname⟩
    rw [he, lookup_eq ht hv ho' hname']
  · rw [he]
    by_cases hv : validPathname name
    · apply lookup_absent ht hv
      intro j other k ho' hname'
      obtain ⟨i, fname, ho, hname⟩ := (hsame k).mp ⟨j, other, ho', hname'⟩
      exact hno hv i fname k ho hname
    · exact lookup_invalid hv

end Found

section Transfers

variable {s t : State} {slots slots' : List Slot} {r : Reply} {h b n : ℕ} {buffer : List UInt8}
  {toWrite room len : ℕ}

def Stores (s : State) (h toWrite : ℕ) : Prop :=
  0 < toWrite ∧ s.offsetOf h < s.fsParams.blockSize ∧
    (s.sizeOf (s.inodeOf h) = 0 → ∃ b < s.fsParams.maxBlockCount, s.freeBlocks b = .free)

instance (s : State) (h toWrite : ℕ) : Decidable (Stores s h toWrite) :=
  inferInstanceAs (Decidable (_ ∧ _ ∧ (_ → _)))

structure Writable (s : State) (h b : ℕ) (bs : List UInt8) : Prop where
  isOpen : s.Open h
  nonempty : 0 < bs.length
  fits : s.offsetOf h + bs.length ≤ s.fsParams.blockSize
  block : 0 < b ∧ b < s.fsParams.maxBlockCount
  fresh : s.sizeOf (s.inodeOf h) = 0 → s.freeBlocks b = .free
  old : 0 < s.sizeOf (s.inodeOf h) → s.blockOf (s.inodeOf h) = b

lemma writable_take (ho : s.Open h) (hle : s.offsetOf h ≤ s.fsParams.blockSize)
    (hn : n = min toWrite (s.fsParams.blockSize - s.offsetOf h)) (hpos : 0 < n)
    (hbuf : n ≤ buffer.length) (hb0 : 0 < b) (hb : b < s.fsParams.maxBlockCount)
    (hfresh : s.sizeOf (s.inodeOf h) = 0 → FirstFree s.freeBlocks s.fsParams.maxBlockCount b)
    (hold : 0 < s.sizeOf (s.inodeOf h) → s.blockOf (s.inodeOf h) = b) :
    Writable s h b (buffer.take n) := by
  have hlen : (buffer.take n).length = n := by
    rw [List.length_take]
    omega
  exact ⟨ho, by omega, by omega, ⟨hb0, hb⟩, fun hz => (hfresh hz).2.1, hold⟩

lemma Writable.stores (hw : Writable s h b (buffer.take n))
    (hn : n = min toWrite (s.fsParams.blockSize - s.offsetOf h)) : Stores s h toWrite := by
  have hpos := hw.nonempty
  rw [List.length_take] at hpos
  exact ⟨by omega, by omega, fun hz => ⟨b, hw.block.2, hw.fresh hz⟩⟩

lemma Happens.read_cases {fh : ℤ} (hh : Happens s slots (.read fh room len) r t slots')
    (he : fh = h) (ho : s.Open h) :
    ((len = 0 ∨ s.offsetOf h = s.sizeOf (s.inodeOf h)) ∧ r = .code 0 ∧ t = s) ∨ ∃ n, 0 < n ∧
      n = (if s.offsetOf h ≤ s.sizeOf (s.inodeOf h) then
        min len (s.sizeOf (s.inodeOf h) - s.offsetOf h) else len) ∧
      r = ⟨n, readMem s.fsData
        (s.blockOf (s.inodeOf h) * s.fsParams.blockSize + s.offsetOf h) n⟩ ∧
      t = s.advanced h n := by
  cases hh with
  | readBad hno => exact absurd ho (hno h he)
  | @readNone j _ _ ho' hnone =>
    obtain rfl : j = h := by exact_mod_cast he
    exact .inl ⟨hnone, rfl, rfl⟩
  | @read j n _ _ ho' hpos hroom hn =>
    obtain rfl : j = h := by exact_mod_cast he
    exact .inr ⟨n, hpos, hn, rfl, rfl⟩

lemma Happens.write_cases {fh : ℤ} (hh : Happens s slots (.write fh buffer toWrite) r t slots')
    (he : fh = h) (ho : s.Open h) :
    (¬ Stores s h toWrite ∧ t = s) ∨
      ∃ b n, n = min toWrite (s.fsParams.blockSize - s.offsetOf h) ∧ n ≤ buffer.length ∧
        Writable s h b (buffer.take n) ∧ r = .code n ∧ t = s.wrote h b (buffer.take n) := by
  cases hh with
  | writeBad hno => exact absurd ho (hno h he)
  | @writeNone j _ _ ho' hle hmin =>
    obtain rfl : j = h := by exact_mod_cast he
    exact .inl ⟨fun hst => by have := hst.1; have := hst.2.1; omega, rfl⟩
  | @writeFull j _ _ ho' hpos hz hfull =>
    obtain rfl : j = h := by exact_mod_cast he
    refine .inl ⟨fun hst => ?_, rfl⟩
    obtain ⟨b, hb, hfree⟩ := hst.2.2 hz
    exact not_allTaken hb hfree hfull
  | @write j b n _ _ ho' hle hn hpos hbuf hb0 hb hfresh hold =>
    obtain rfl : j = h := by exact_mod_cast he
    exact .inr ⟨b, n, hn, hbuf, writable_take ho hle hn hpos hbuf hb0 hb hfresh hold, rfl, rfl⟩

end Transfers

section Runs

variable {s t s₀ : State} {slots slots' : List Slot} {call : Call} {r : Reply} {k mode : ℕ}

lemma Sound.retrieved (hs : Sound s slots) (hk : s.Linked k) :
    Sound (s.retrieved k mode) slots := by
  rw [State.retrieved]
  split_ifs
  · exact hs.truncated hk
  · exact hs

lemma retrieved_linked {l : ℕ} : (s.retrieved k mode).Linked l ↔ s.Linked l := by
  rw [State.retrieved]
  split_ifs <;> rfl

lemma startOffset_eq (s : State) (k mode : ℕ) :
    s.startOffset k mode = 0 ∨ s.startOffset k mode = (s.retrieved k mode).sizeOf k := by
  rw [State.startOffset]
  split_ifs
  · exact .inr rfl
  · exact .inl rfl

lemma Happens.sound (h : Happens s slots call r t slots') (hs : Sound s slots) :
    Sound t slots' := by
  cases h with
  | openInvalid | openAbsent | openNoInode | closeBad | writeBad | writeNone | writeFull | readBad
  | readNone | unlinkInvalid | unlinkAbsent => exact hs
  | @openExisting name mode i fname k h hv ho hname hh =>
    have hk := hs.entries ho
    have hlt : h < (s.retrieved k mode).fsParams.maxOpenFilesCount := by
      rw [(retrieved_tables s k mode).2]
      exact hh.1
    exact (hs.retrieved hk).opened hlt (retrieved_linked.mpr hk) (startOffset_eq s k mode)
  | openExistingFull hv ho hname hh => exact hs.retrieved (hs.entries ho)
  | openNoEntry hv hno hc hk hf he => exact hs.spoiled hk
  | @openCreated name mode k i h fname hv hno hc hk hf hname hi hn hvacant hh =>
    have hs' := hs.created ⟨hk, hf.1⟩ hf.2.1 hname (hname ▸ hno) hi hn hvacant
    exact hs'.opened hh.1 ((created_linked ⟨hk, hf.1⟩).mpr (.inl rfl)) (.inl rfl)
  | openCreatedFull hv hno hc hk hf hname hi hn hvacant hh =>
    exact hs.created ⟨hk, hf.1⟩ hf.2.1 hname (hname ▸ hno) hi hn hvacant
  | close ho => exact hs.closed
  | @write h b n buffer toWrite ho hle hmin hpos hbuf hb0 hblt hfresh hold =>
    have hlen : (buffer.take n).length = n := by
      rw [List.length_take]
      omega
    exact hs.wrote ho (by omega) hb0 hblt (fun hz => (hfresh hz).2.1) hold
  | read ho hpos hroom hn hfit => exact hs.advanced (by omega)
  | unlink hv ho hname => exact hs.unlinked ho hname

lemma tecnicofs_step (h : (tecnicofs s₀).step s call = some t) :
    call.admissible s ∧ ∃ r, tfsCall s call = .ok (t, r) := by
  simp only [tecnicofs] at h
  split_ifs at h with ha
  obtain ⟨⟨u, r⟩, hu, rfl⟩ := Option.map_eq_some_iff.mp h
  exact ⟨ha, r, ok_of_toOption hu⟩

lemma step_happens (h : (tecnicofs s₀).step s call = some t) (hs : Sound s slots) :
    ∃ r slots', tfsCall s call = .ok (t, r) ∧ Happens s slots call r t slots' := by
  obtain ⟨ha, r, hc⟩ := tecnicofs_step h
  obtain ⟨slots', hh⟩ := tfsCall_happens hs ha hc
  exact ⟨r, slots', hc, hh⟩

lemma invariant_of_reachable {p : TfsParams} {mallocs : Mallocs} {allowed : State → Call → Prop}
    {I : State → Prop} (hp : p.InRange) (h0 : tfsInit p mallocs = .ok (s₀, 0)) (hi : I s₀)
    (hkeep : ∀ {s t slots slots' call r}, Sound s slots → I s → allowed s call →
      Happens s slots call r t slots' → I t)
    (h : (tecnicofs s₀).ReachableBy allowed s) : ∃ slots, Sound s slots ∧ I s := by
  induction h with
  | init => exact ⟨[], Sound.init hp h0, hi⟩
  | step _ hcall hstep ih =>
    obtain ⟨slots, hs, hi⟩ := ih
    obtain ⟨r, slots', -, hh⟩ := step_happens hstep hs
    exact ⟨slots', hh.sound hs, hkeep hs hi hcall hh⟩

lemma sound_of_reachable {p : TfsParams} {mallocs : Mallocs} (hp : p.InRange)
    (h0 : tfsInit p mallocs = .ok (s₀, 0)) (h : (tecnicofs s₀).Reachable s) :
    ∃ slots, Sound s slots := by
  obtain ⟨slots, hs, -⟩ :=
    invariant_of_reachable hp h0 (I := fun _ => True) trivial (fun _ _ _ _ => trivial) h
  exact ⟨slots, hs⟩

lemma init_closed {p : TfsParams} {mallocs : Mallocs} (h0 : tfsInit p mallocs = .ok (s₀, 0))
    (h : ℕ) : ¬ s₀.Open h := by
  obtain ⟨-, m, rfl, -⟩ := tfsInit_cases h0
  intro ho
  cases ho.2

end Runs

end MessageBroker.Fs
