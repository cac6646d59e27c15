import MessageBroker.Fs.Matching

namespace MessageBroker.Fs

open MessageBroker.Lib

section Matched

variable {p : TfsParams} {s t : State} {slots slots' : List Slot} {d : Disk} {c : Call} {r : Reply}
  {h i k mode : ℕ} {fname : FileName} {path : Option (List UInt8)}

lemma Matches.held (hm : Matches p s slots d) (hs : Sound s slots) (ho : Occupied slots i fname k) :
    d.held p fname.bytes ↔ ∃ h, s.Open h ∧ s.inodeOf h = k := by
  constructor
  · rintro ⟨h, -, hh⟩
    have hopen : s.Open h := by
      by_contra hclosed
      rw [hm.closed hclosed] at hh
      cases hh
    obtain ⟨j, other, ho', he⟩ := hm.handles hopen
    rw [he] at hh
    exact ⟨h, hopen, (ho'.same hs ho).mp (Option.some.inj hh)⟩
  · rintro ⟨h, hopen, rfl⟩
    obtain ⟨j, other, ho', he⟩ := hm.handles hopen
    refine ⟨h, hm.params ▸ hopen.1, ?_⟩
    rw [he]
    exact congrArg some ((ho'.same hs ho).mpr rfl)

lemma lookup_handle (hs : Sound s slots) (ho : s.Open h)
    (hf : tfsLookup s path rootDirInum = .ok (s.openFileTable h).ofInumber) :
    validPathname path ∧
      ∃ i fname, Occupied slots i fname (s.inodeOf h) ∧ fname.bytes = text (subName path) := by
  rw [(hs.handles ho).1] at hf
  exact lookup_found hs hf

lemma Matches.held_of_lookup (hm : Matches p s slots d) (hs : Sound s slots)
    (hh : h < s.fsParams.maxOpenFilesCount) (ht : s.freeOpenFileEntries h = .taken)
    (hf : tfsLookup s path rootDirInum = .ok (s.openFileTable h).ofInumber) :
    validPathname path ∧ d.held p (text (subName path)) := by
  obtain ⟨hv, i, fname, ho, hname⟩ := lookup_handle hs ⟨hh, ht⟩ hf
  exact ⟨hv, hname ▸ (hm.held hs ho).mpr ⟨h, ⟨hh, ht⟩, rfl⟩⟩

lemma Matches.not_truncates (hm : Matches p s slots d) (hs : Sound s slots)
    (hd : ¬ d.Disturbs p c) : ¬ TruncatesUnderHandle s c := by
  cases c with
  | «open» path mode =>
    rintro ⟨htrunc, h, hh, ht, -, hf⟩
    obtain ⟨hv, hheld⟩ := hm.held_of_lookup hs hh ht hf
    exact hd ⟨hv, htrunc, hheld⟩
  | _ => exact id

lemma Matches.not_unlinks (hm : Matches p s slots d) (hs : Sound s slots)
    (hd : ¬ d.Disturbs p c) : ¬ UnlinksOpenFile s c := by
  cases c with
  | unlink path =>
    rintro ⟨h, hh, ht, hf⟩
    exact hd (hm.held_of_lookup hs hh ht hf)
  | _ => exact id

lemma HandlesLinked.not_writesUnlinked (hl : HandlesLinked s) : ¬ WritesUnlinkedEmpty s c := by
  cases c with
  | write fh buffer len =>
    rintro ⟨-, hh, ht, hfree, -⟩
    have hlinked := (hl _ ⟨hh, ht⟩).2.2
    rw [hfree] at hlinked
    cases hlinked
  | _ => exact id

lemma Call.Stated.admissible (hc : c.Stated p) (hp : s.fsParams = p) :
    c.admissible s ∧ c.stated := by
  cases c with
  | write fh buffer len =>
    obtain ⟨hlen, hroom⟩ := hc
    rw [← hp] at hroom
    exact ⟨⟨hroom, by omega⟩, hlen⟩
  | read fh room len =>
    obtain ⟨hlen, hroom⟩ := hc
    rw [← hp] at hroom
    exact ⟨⟨hroom, by omega⟩, hlen⟩
  | «open» | close | unlink => exact ⟨trivial, trivial⟩

lemma Orderly.Inv.step (hi : Orderly.Inv s slots) (hm : Matches p s slots d) (hd : ¬ d.Disturbs p c)
    (hh : Happens s slots c r t slots') : Orderly.Inv t slots' := by
  refine ⟨hh.sound hi.sound, ?_, ?_, ?_⟩
  · exact hh.handlesLinked hi.sound hi.linked (hm.not_unlinks hi.sound hd)
  · exact (inside_iff hi.sound hi.linked hi.inside hh).mpr (hm.not_truncates hi.sound hd)
  · exact (unleaked_iff hi.sound hi.unleaked hh).mpr hi.linked.not_writesUnlinked

end Matched

section Openings

variable {p : TfsParams} {s t : State} {slots slots' : List Slot} {d : Disk} {c : Call} {r : Reply}
  {h i k mode offset : ℕ} {fname : FileName} {path : Option (List UInt8)}

lemma Matches.mem (hm : Matches p s slots d) (ho : Occupied slots i fname k) :
    fname.bytes ∈ d.names := hm.names.mpr ⟨i, fname, k, ho, rfl⟩

lemma Matches.not_mem {name : List UInt8} (hm : Matches p s slots d)
    (hno : ∀ i fname k, Occupied slots i fname k → fname.bytes ≠ name) : name ∉ d.names := by
  intro hmem
  obtain ⟨i, fname, k, ho, he⟩ := hm.names.mp hmem
  exact hno i fname k ho he

lemma Matches.length (hm : Matches p s slots d) (ho : Occupied slots i fname k) :
    (d.bytes fname.bytes).length = s.sizeOf k := by rw [hm.bytes ho, contents_length]

lemma Matches.retrieved (hm : Matches p s slots d) (hs : Sound s slots)
    (ho : Occupied slots i fname k) :
    Matches p (s.retrieved k mode) slots
      (if oTrunc mode then d.setBytes fname.bytes [] else d) := by
  rw [State.retrieved]
  split_ifs
  · exact hm.truncated hs ho
  · exact hm

lemma Matches.take_opened (hm : Matches p s slots d) (ho : Occupied slots i fname k)
    (hf : FirstFree s.freeOpenFileEntries s.fsParams.maxOpenFilesCount h) :
    ∃ e, d.take p fname.bytes offset = (e, .code h) ∧ Matches p (s.opened h k offset) slots e :=
  ⟨_, take_first hm rfl hf, hm.opened ho hf.1⟩

lemma openFile_existing (hm : Matches p s slots d) (hv : validPathname path)
    (ho : Occupied slots i fname k) (hname : fname.bytes = text (subName path)) :
    d.openFile p path mode = Disk.take p (if oTrunc mode then d.setBytes fname.bytes [] else d)
      fname.bytes (if oAppend mode then
        ((if oTrunc mode then d.setBytes fname.bytes [] else d).bytes fname.bytes).length
        else 0) := by
  have hmem := hm.mem ho
  rw [hname] at hmem ⊢
  simp only [Disk.openFile, hv, hmem, not_true_eq_false, if_false, if_true]

lemma openExisting_matches (hm : Matches p s slots d) (hs : Sound s slots) (hv : validPathname path)
    (ho : Occupied slots i fname k) (hname : fname.bytes = text (subName path))
    (hf : FirstFree s.freeOpenFileEntries s.fsParams.maxOpenFilesCount h) :
    ∃ e, d.openFile p path mode = (e, .code h) ∧
      Matches p ((s.retrieved k mode).opened h k (s.startOffset k mode)) slots e := by
  have hr : Matches p (s.retrieved k mode) slots _ := hm.retrieved hs ho
  obtain ⟨htable, hparams⟩ := retrieved_tables s k mode
  rw [← htable, ← hparams] at hf
  rw [openFile_existing hm hv ho hname, hr.length ho]
  exact hr.take_opened ho hf

lemma openExistingFull_matches (hm : Matches p s slots d) (hs : Sound s slots)
    (hv : validPathname path) (ho : Occupied slots i fname k)
    (hname : fname.bytes = text (subName path))
    (hf : AllTaken s.freeOpenFileEntries s.fsParams.maxOpenFilesCount) :
    ∃ e, d.openFile p path mode = (e, .code (-1)) ∧ Matches p (s.retrieved k mode) slots e := by
  have hr : Matches p (s.retrieved k mode) slots _ := hm.retrieved hs ho
  obtain ⟨htable, hparams⟩ := retrieved_tables s k mode
  rw [← htable, ← hparams] at hf
  rw [openFile_existing hm hv ho hname, take_none hr rfl hf]
  exact ⟨_, rfl, hr⟩

lemma openFile_refused (hm : Matches p s slots d) (hv : validPathname path)
    (hno : ∀ i fname k, Occupied slots i fname k → fname.bytes ≠ text (subName path))
    (hc : ¬ oCreat mode ∨ d.noInode p ∨ maxFileName ≤ (text (subName path)).length ∨ d.noEntry p) :
    d.openFile p path mode = (d, .code (-1)) := by
  have hmem := hm.not_mem hno
  simp only [Disk.openFile, hv, hmem, not_true_eq_false, if_false]
  exact if_pos hc

lemma openFile_new (hm : Matches p s slots d) (hs : Sound s slots) (hv : validPathname path)
    (hno : ∀ i fname k, Occupied slots i fname k → fname.bytes ≠ text (subName path))
    (hc : oCreat mode) (hk : FirstFree s.freeinodeTs s.fsParams.maxInodeCount k)
    (hname : fname.bytes = text (subName path)) (hn : i < s.maxDirEntries)
    (hvacant : slots[i]? = some none ∨ i = slots.length) :
    d.openFile p path mode =
      Disk.take p (Disk.setBytes { d with names := fname.bytes :: d.names } fname.bytes [])
        fname.bytes 0 := by
  have hmem := hm.not_mem hno
  have hinode : ¬ d.noInode p := by
    rw [noInode_iff hm hs]
    exact not_allTaken hk.1 hk.2.1
  have hentry : ¬ d.noEntry p := by
    rw [noEntry_iff hm hs]
    intro hall
    obtain ⟨other, l, ho⟩ := hall i hn
    exact vacant_free hvacant ho rfl
  have hshort : ¬ maxFileName ≤ (text (subName path)).length := by
    rw [← hname, not_le]
    exact fname.short
  rw [hname]
  simp only [Disk.openFile, hv, hmem, not_true_eq_false, if_false, hc, hinode, hentry, hshort,
    or_self]

lemma full_entries (hs : slots.length = s.maxDirEntries ∧ ∀ i : ℕ, slots[i]? ≠ some none) {j : ℕ}
    (hj : j < s.maxDirEntries) : ∃ fname k, Occupied slots j fname k := by
  have hlt : j < slots.length := by omega
  cases hslot : slots[j]? with
  | none => exact absurd (List.getElem?_eq_none_iff.mp hslot) (by omega)
  | some slot =>
    cases slot with
    | none => exact absurd hslot (hs.2 j)
    | some entry => exact ⟨entry.1, entry.2, hslot⟩

lemma openNoEntry_matches (hm : Matches p s slots d) (hs : Sound s slots) (hv : validPathname path)
    (hno : ∀ i fname k, Occupied slots i fname k → fname.bytes ≠ text (subName path))
    (hk : FirstFree s.freeinodeTs s.fsParams.maxInodeCount k)
    (hfull : maxFileName ≤ (text (subName path)).length ∨
      (slots.length = s.maxDirEntries ∧ ∀ i : ℕ, slots[i]? ≠ some none)) :
    ∃ e, d.openFile p path mode = (e, .code (-1)) ∧ Matches p (s.newInode k) slots e := by
  refine ⟨d, openFile_refused hm hv hno ?_, hm.spoiled hs hk.2.1⟩
  rcases hfull with hlong | hfull
  · exact .inr (.inr (.inl hlong))
  · exact .inr (.inr (.inr ((noEntry_iff hm hs).mpr (fun i hi => full_entries hfull hi))))

end Openings

section Transfers

variable {p : TfsParams} {s t : State} {slots slots' : List Slot} {d : Disk} {c : Call} {r : Reply}
  {h b n i k len room : ℕ} {fh : ℤ} {fname : FileName} {name buffer : List UInt8}

lemma handleAt_none (hm : Matches p s slots d) (hno : ∀ h : ℕ, fh = h → ¬ s.Open h) :
    d.handleAt fh = none := by
  rw [Disk.handleAt]
  split_ifs with h0
  · exact hm.closed (hno _ (Int.toNat_of_nonneg h0).symm)
  · rfl

lemma handleAt_natCast (h : ℕ) : d.handleAt h = d.handles h := by
  rw [Disk.handleAt, if_pos (Int.natCast_nonneg h), Int.toNat_natCast]

lemma setHandle_same {entry : Option (List UInt8 × ℕ)} (he : d.handles h = entry) :
    d.setHandle h entry = d := by
  rw [← he, Disk.setHandle, Function.update_eq_self]

lemma close_matches (hm : Matches p s slots d) (ho : s.Open h) :
    ∃ e, d.close h = (e, .code 0) ∧ Matches p (s.closed h) slots e := by
  obtain ⟨i, fname, -, he⟩ := hm.handles ho
  refine ⟨_, ?_, hm.closing⟩
  rw [Disk.close, handleAt_natCast, he]
  rfl

lemma writeLength_nothing (size offset : ℕ) (ho : offset ≤ size) :
    writeLength size offset 0 = 0 := by
  rw [writeLength, Nat.zero_add, if_neg]
  exact not_lt.mpr ((Nat.mod_le _ _).trans ho)

lemma write_nothing (hm : Matches p s slots d) (ho : s.Open h)
    (hmin : min len (s.fsParams.blockSize - s.offsetOf h) = 0) :
    d.write p h buffer len = (d, .code 0) := by
  obtain ⟨i, fname, -, he⟩ := hm.handles ho
  rw [hm.params] at hmin
  rw [Disk.write, handleAt_natCast, he]
  exact if_pos hmin

lemma write_refused (hm : Matches p s slots d) (hi : Orderly.Inv s slots) (ho : s.Open h)
    (hpos : 0 < writeLength s.fsParams.blockSize (s.offsetOf h) len)
    (hz : s.sizeOf (s.inodeOf h) = 0)
    (hfull : AllTaken s.freeBlocks s.fsParams.maxBlockCount) :
    d.write p h buffer len = (d, .code (-1)) := by
  obtain ⟨i, fname, hocc, he⟩ := hm.handles ho
  have hoff := hi.inside h ho
  have hlen : len ≠ 0 := by
    rintro rfl
    rw [writeLength_nothing _ _ (by omega)] at hpos
    exact absurd hpos (lt_irrefl 0)
  have hblock := hi.sound.blockSize
  rw [hm.params] at hblock
  have hn : ¬ min len (p.blockSize - s.offsetOf h) = 0 := by omega
  have hempty : d.bytes fname.bytes = [] := by
    rw [← List.length_eq_zero_iff, hm.length hocc, hz]
  have hno : d.noBlock p := (noBlock_iff hm hi.sound hi.unleaked).mpr hfull
  rw [Disk.write, handleAt_natCast, he]
  simp only [hn, if_false, hempty, hno, and_self, if_true]

lemma write_matches (hm : Matches p s slots d) (hi : Orderly.Inv s slots)
    (hw : Writable s h b (buffer.take n)) (hn : n = min len (s.fsParams.blockSize - s.offsetOf h))
    (hbuf : n ≤ buffer.length) :
    ∃ e, d.write p h buffer len = (e, .code n) ∧
      Matches p (s.wrote h b (buffer.take n)) slots e := by
  obtain ⟨i, fname, hocc, he⟩ := hm.handles hw.isOpen
  refine ⟨_, ?_, hm.wrote hi.sound hw (hi.inside h hw.isOpen) hocc he⟩
  have hlen : (buffer.take n).length = n := List.length_take_of_le hbuf
  have hpos := hw.nonempty
  have hroom : ¬ (d.bytes fname.bytes = [] ∧ d.noBlock p) := by
    rintro ⟨hempty, hno⟩
    have hz : s.sizeOf (s.inodeOf h) = 0 := by rw [← hm.length hocc, hempty, List.length_nil]
    exact not_allTaken hw.block.2 (hw.fresh hz) ((noBlock_iff hm hi.sound hi.unleaked).mp hno)
  rw [hm.params] at hn
  rw [Disk.write, handleAt_natCast, he]
  have hne : ¬ n = 0 := by omega
  simp only [← hn, hne, if_false, hroom, hlen]
  rfl

lemma read_bytes (hm : Matches p s slots d) (hocc : Occupied slots i fname (s.inodeOf h)) :
    ((d.bytes fname.bytes).drop (s.offsetOf h)).take len =
      readMem s.fsData (s.blockOf (s.inodeOf h) * s.fsParams.blockSize + s.offsetOf h)
        (min len (s.sizeOf (s.inodeOf h) - s.offsetOf h)) := by
  rw [hm.bytes hocc, State.contents, readMem_drop]
  rcases Nat.le_total len (s.sizeOf (s.inodeOf h) - s.offsetOf h) with hle | hle
  · rw [readMem_take hle, min_eq_left hle]
  · rw [List.take_of_length_le (by rw [readMem_length]; exact hle), min_eq_right hle]

lemma read_matches (hm : Matches p s slots d) (ho : s.Open h)
    (hn : n = min len (s.sizeOf (s.inodeOf h) - s.offsetOf h)) :
    ∃ e, d.read h len = (e, ⟨n, readMem s.fsData
        (s.blockOf (s.inodeOf h) * s.fsParams.blockSize + s.offsetOf h) n⟩) ∧
      Matches p (s.advanced h n) slots e := by
  obtain ⟨i, fname, hocc, he⟩ := hm.handles ho
  refine ⟨_, ?_, hm.advanced ho he⟩
  rw [Disk.read, handleAt_natCast, he]
  simp only [read_bytes hm hocc, ← hn, readMem_length]
  rfl

lemma read_nothing (hm : Matches p s slots d) (ho : s.Open h)
    (hn : len = 0 ∨ s.offsetOf h = s.sizeOf (s.inodeOf h)) : d.read h len = (d, .code 0) := by
  obtain ⟨i, fname, hocc, he⟩ := hm.handles ho
  have hz : min len (s.sizeOf (s.inodeOf h) - s.offsetOf h) = 0 := by omega
  rw [Disk.read, handleAt_natCast, he]
  simp only [read_bytes hm hocc, hz, readMem_length, Nat.add_zero,
    Int.toNat_natCast, setHandle_same he]
  rfl

lemma unlink_matches {path : Option (List UInt8)} (hm : Matches p s slots d) (hs : Sound s slots)
    (hv : validPathname path) (ho : Occupied slots i fname k)
    (hname : fname.bytes = text (subName path)) (hd : ¬ d.Disturbs p (.unlink path)) :
    ∃ e, d.unlink path = (e, .code 0) ∧
      Matches p (s.unlinked k i (subName path)) (place slots i none) e := by
  refine ⟨_, ?_, hm.unlinked hs ho hname ?_⟩
  · have hmem := hm.mem ho
    rw [hname] at hmem
    rw [Disk.unlink]
    exact if_pos ⟨hv, hmem⟩
  · intro j hj hk
    exact hd ⟨hv, hname ▸ (hm.held hs ho).mpr ⟨j, hj, hk⟩⟩

end Transfers

section Replies

variable {p : TfsParams} {s t s₀ : State} {slots slots' : List Slot} {d : Disk} {c : Call}
  {r : Reply} {calls : List Call} {mallocs : Mallocs}

lemma Happens.matches (hh : Happens s slots c r t slots') (hm : Matches p s slots d)
    (hi : Orderly.Inv s slots) (hd : ¬ d.Disturbs p c) :
    ∃ e, d.call p c = (e, r) ∧ Matches p t slots' e := by
  have hs := hi.sound
  cases hh with
  | openInvalid hv => exact ⟨d, if_pos hv, hm⟩
  | openExisting hv ho hname hf => exact openExisting_matches hm hs hv ho hname hf
  | openExistingFull hv ho hname hf => exact openExistingFull_matches hm hs hv ho hname hf
  | openAbsent hv hno hc => exact ⟨d, openFile_refused hm hv hno (.inl hc), hm⟩
  | openNoInode hv hno hc hf =>
    have hno' := (noInode_iff hm hs).mpr hf
    exact ⟨d, openFile_refused hm hv hno (.inr (.inl hno')), hm⟩
  | openNoEntry hv hno hc hk hf hfull => exact openNoEntry_matches hm hs hv hno hf hfull
  | @openCreated name mode k i h fname hv hno hc hk hf hname hi' hn hvacant hh =>
    have hcreated : Matches p (s.created k i (subName name)) _ _ :=
      hm.created hs hf.2.1 (hname ▸ hno) hi' hn hvacant
    have hocc : Occupied (place slots i (some (fname, k))) i fname k :=
      (occupied_place hi').mpr (.inl ⟨rfl, rfl⟩)
    have hopen : d.openFile p name mode = _ := openFile_new hm hs hv hno hc hf hname hn hvacant
    rw [Disk.call, hopen]
    exact hcreated.take_opened hocc hh
  | @openCreatedFull name mode k i fname hv hno hc hk hf hname hi' hn hvacant hh =>
    have hcreated : Matches p (s.created k i (subName name)) _ _ :=
      hm.created hs hf.2.1 (hname ▸ hno) hi' hn hvacant
    have hopen : d.openFile p name mode = _ := openFile_new hm hs hv hno hc hf hname hn hvacant
    rw [Disk.call, hopen, take_none hcreated rfl hh]
    exact ⟨_, rfl, hcreated⟩
  | closeBad hno =>
    refine ⟨d, ?_, hm⟩
    rw [Disk.call, Disk.close, handleAt_none hm hno]
  | close ho => exact close_matches hm ho
  | writeBad hno =>
    refine ⟨d, ?_, hm⟩
    rw [Disk.call, Disk.write, handleAt_none hm hno]
  | writeNone ho hle hmin => exact ⟨d, write_nothing hm ho hmin, hm⟩
  | writeFull ho hpos hz hfull => exact ⟨d, write_refused hm hi ho hpos hz hfull, hm⟩
  | write ho hle hn hpos hbuf hb0 hb hfresh hold =>
    exact write_matches hm hi (writable_take ho hle hn hpos hbuf hb0 hb hfresh hold) hn hbuf
  | readBad hno =>
    refine ⟨d, ?_, hm⟩
    rw [Disk.call, Disk.read, handleAt_none hm hno]
  | readNone ho hn => exact ⟨d, read_nothing hm ho hn, hm⟩
  | @read h n room len ho hpos hroom hn hfit =>
    rw [if_pos (hi.inside h ho)] at hn
    exact read_matches hm ho hn
  | unlinkInvalid hv =>
    exact ⟨d, if_neg (fun hc => hv hc.1), hm⟩
  | unlinkAbsent hv hno =>
    have hmem := hm.not_mem hno
    exact ⟨d, if_neg (fun hc => hmem hc.2), hm⟩
  | unlink hv ho hname => exact unlink_matches hm hs hv ho hname hd

lemma Matches.init (hp : p.InRange) (h0 : tfsInit p mallocs = .ok (s₀, 0)) :
    Matches p s₀ [] Disk.empty ∧ Orderly.Inv s₀ [] := by
  have hs := Sound.init hp h0
  have hu := Unleaked.init h0
  have hopen := init_closed h0
  obtain ⟨-, m, rfl, -⟩ := tfsInit_cases h0
  have hocc : ∀ {i fname k}, ¬ Occupied [] i fname k := fun ho => by cases ho
  refine ⟨⟨rfl, ?_, List.nodup_nil, fun ho => absurd ho hocc, fun ho => absurd ho (hopen _),
    fun _ => rfl⟩, hs, fun h ho => absurd ho (hopen h), fun h ho => absurd ho (hopen h), hu⟩
  intro name
  constructor
  · intro hmem
    cases hmem
  · rintro ⟨i, fname, k, ho, -⟩
    exact absurd ho hocc

lemma Matches.fits (hm : Matches p s slots d) (hs : Sound s slots) : d.Fits p := by
  intro name hname
  obtain ⟨i, fname, k, ho, rfl⟩ := hm.names.mp hname
  rw [hm.length ho, ← hm.params]
  exact hs.sizes (.inl (hs.entries ho))

lemma replies_of_matches (hm : Matches p s slots d) (hi : Orderly.Inv s slots)
    (ho : Orderly p d calls) : tfsReplies s calls = some (Disk.replies p d calls) ∧
      ∃ t slots', Matches p t slots' (Disk.after p d calls) ∧ Sound t slots' := by
  induction calls generalizing s slots d with
  | nil => exact ⟨rfl, s, slots, hm, hi.sound⟩
  | cons c cs ih =>
    obtain ⟨⟨hc, hd⟩, hrest⟩ := ho
    obtain ⟨ha, hstated⟩ := hc.admissible hm.params
    obtain ⟨t, r, slots', he, hh⟩ := hi.sound.returns hi.inside ha hstated
    obtain ⟨e, hcall, hm'⟩ := hh.matches hm hi hd
    rw [hcall] at hrest
    obtain ⟨hreplies, hafter⟩ := ih hm' (hi.step hm hd hh) hrest
    rw [tfsReplies, he, Disk.replies, Disk.after, hcall]
    exact ⟨congrArg (Option.map (fun rs => r :: rs)) hreplies, hafter⟩

theorem replies_eq_disk (hp : p.InRange) (h0 : tfsInit p mallocs = .ok (s₀, 0))
    (ho : Orderly p Disk.empty calls) :
    tfsReplies s₀ calls = some (Disk.replies p Disk.empty calls) ∧
      (Disk.after p Disk.empty calls).Fits p ∧
      ∀ c, ((Disk.after p Disk.empty calls).call p c).2.ret = -1 →
        ((Disk.after p Disk.empty calls).call p c).1 = Disk.after p Disk.empty calls ∨
        (Disk.after p Disk.empty calls).noHandle p ∧ ∃ path mode, c = .open path mode := by
  obtain ⟨hm, hi⟩ := Matches.init hp h0
  obtain ⟨hreplies, t, slots', hm', hs⟩ := replies_of_matches hm hi ho
  exact ⟨hreplies, hm'.fits hs, fun c hr => Disk.call_failed hr⟩

theorem replies_eq_disk_reopened : ∃ calls : List Call, calls.length = 9 ∧
    tfsReplies smallDisk calls = some (Disk.replies smallParams Disk.empty calls) ∧
    (Disk.replies smallParams Disk.empty calls).getLast? = some ⟨3, [1, 2, 3]⟩ := by
  have ho : Orderly smallParams Disk.empty [.open (some [47, 97]) 1, .write 0 [1, 2] 2, .close 0,
      .open (some [47, 97]) 4, .open (some [47, 98]) 1, .unlink (some [47, 99]), .write 0 [3] 1,
      .open (some [47, 97]) 0, .read 2 8 8] := by decide +kernel
  refine ⟨_, rfl, (replies_eq_disk smallParams_inRange smallDisk_init ho).1, ?_⟩
  decide +kernel

end Replies

end MessageBroker.Fs
