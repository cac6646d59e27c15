import MessageBroker.Fs.Calls

namespace MessageBroker.Fs

open MessageBroker.Lib

def OffsetsInside (s : State) : Prop := ∀ h, s.Open h → s.offsetOf h ≤ s.sizeOf (s.inodeOf h)

def HandlesLinked (s : State) : Prop := ∀ h, s.Open h → s.Linked (s.inodeOf h)

def TruncatesUnderHandle (s : State) : Call → Prop
  | .open name mode => oTrunc mode = true ∧ ∃ h < s.fsParams.maxOpenFilesCount,
      s.freeOpenFileEntries h = .taken ∧ 0 < s.offsetOf h ∧
        tfsLookup s name rootDirInum = .ok (s.openFileTable h).ofInumber
  | _ => False

def UnlinksOpenFile (s : State) : Call → Prop
  | .unlink target => ∃ h < s.fsParams.maxOpenFilesCount, s.freeOpenFileEntries h = .taken ∧
      tfsLookup s target rootDirInum = .ok (s.openFileTable h).ofInumber
  | _ => False

def Call.stated : Call → Prop
  | .write _ buffer toWrite => toWrite ≤ buffer.length
  | .read _ room len => len ≤ room
  | _ => True

structure Bounded (s : State) : Prop where
  offsets : ∀ h, s.Open h → s.offsetOf h ≤ s.sizeOf (s.inodeOf h)
  sizes : ∀ h, s.Open h → s.sizeOf (s.inodeOf h) ≤ s.fsParams.blockSize
  readSubtraction : ∀ h, s.Open h → (s.sizeOf (s.inodeOf h) + 2 ^ 64 - s.offsetOf h) % 2 ^ 64 =
    s.sizeOf (s.inodeOf h) - s.offsetOf h
  writeSubtraction : ∀ h, s.Open h → (s.fsParams.blockSize + 2 ^ 64 - s.offsetOf h) % 2 ^ 64 =
    s.fsParams.blockSize - s.offsetOf h
  reads : ∀ (h room len : ℕ) t r, s.Open h → (Call.read h room len).admissible s →
    tfsRead s h room len = .ok (t, r) →
    r.ret ≤ (s.sizeOf (s.inodeOf h) - s.offsetOf h : ℕ) ∧
      s.offsetOf h + r.bytes.length ≤ s.fsParams.blockSize ∧
      r.bytes = readMem s.fsData
        (s.blockOf (s.inodeOf h) * s.fsParams.blockSize + s.offsetOf h) r.bytes.length
  writes : ∀ (h : ℕ) buffer toWrite t r a, s.Open h → (Call.write h buffer toWrite).admissible s →
    tfsWrite s h buffer toWrite = .ok (t, r) → t.fsData a ≠ s.fsData a →
    t.blockOf (s.inodeOf h) * s.fsParams.blockSize ≤ a ∧
      a < (t.blockOf (s.inodeOf h) + 1) * s.fsParams.blockSize
  returns : ∀ call : Call, call.admissible s → call.stated → ∃ t r, tfsCall s call = .ok (t, r)

instance (s : State) (call : Call) : Decidable (TruncatesUnderHandle s call) :=
  match call with
  | .open _ _ => inferInstanceAs (Decidable (_ ∧ _))
  | .write _ _ _ | .close _ | .read _ _ _ | .unlink _ => inferInstanceAs (Decidable False)

instance (s : State) (call : Call) : Decidable (UnlinksOpenFile s call) :=
  match call with
  | .unlink _ => inferInstanceAs (Decidable (∃ h < _, _))
  | .write _ _ _ | .close _ | .read _ _ _ | .open _ _ => inferInstanceAs (Decidable False)

section Handles

variable {s t : State} {slots slots' : List Slot} {call : Call} {r : Reply}
  {h k i mode offset n : ℕ}

lemma opened_offsetOf (j : ℕ) : (s.opened h k offset).offsetOf j =
    if j = h then offset else s.offsetOf j := by
  simp only [State.offsetOf, State.opened, Function.update_apply]
  split_ifs <;> rfl

lemma FirstFree.not_open (hf : FirstFree s.freeOpenFileEntries s.fsParams.maxOpenFilesCount h) :
    ¬ s.Open h := by
  intro ho
  exact ne_of_taken ho.2 hf.2.1 rfl

lemma HandlesLinked.opened (hl : HandlesLinked s) (hh : h < s.fsParams.maxOpenFilesCount)
    (hk : s.Linked k) : HandlesLinked (s.opened h k offset) := by
  intro j hj
  rw [opened_inodeOf]
  split_ifs with hjh
  · exact hk
  · exact hl j (((opened_open hh).mp hj).resolve_left hjh)

lemma HandlesLinked.retrieved (hl : HandlesLinked s) : HandlesLinked (s.retrieved k mode) := by
  rw [State.retrieved]
  split_ifs
  · exact hl
  · exact hl

lemma HandlesLinked.created {subName : List UInt8} (hl : HandlesLinked s)
    (hk : 0 < k ∧ k < s.fsParams.maxInodeCount) : HandlesLinked (s.created k i subName) := by
  intro j hj
  exact (created_linked hk).mpr (.inr (hl j hj))

lemma Happens.handlesLinked (hh : Happens s slots call r t slots') (hs : Sound s slots)
    (hl : HandlesLinked s) (hu : ¬ UnlinksOpenFile s call) : HandlesLinked t := by
  cases hh with
  | openInvalid | openAbsent | openNoInode | closeBad | writeBad | writeNone | writeFull | readBad
  | readNone | unlinkInvalid | unlinkAbsent => exact hl
  | openExisting hv ho hname hf =>
    have hlt := hf.1
    rw [← (retrieved_tables s _ _).2] at hlt
    exact hl.retrieved.opened hlt (retrieved_linked.mpr (hs.entries ho))
  | openExistingFull hv ho hname hf => exact hl.retrieved
  | openNoEntry => exact hl
  | openCreated hv hno hc hk hf hname hi hn hvacant hfree =>
    exact (hl.created ⟨hk, hf.1⟩).opened hfree.1 ((created_linked ⟨hk, hf.1⟩).mpr (.inl rfl))
  | openCreatedFull hv hno hc hk hf => exact hl.created ⟨hk, hf.1⟩
  | close ho => exact fun j hj => hl j (closed_open.mp hj).2
  | write ho =>
    intro j hj
    rw [wrote_inodeOf]
    exact hl j hj
  | read ho =>
    intro j hj
    rw [advanced_inodeOf]
    exact hl j hj
  | unlink hv ho hname =>
    intro j hj
    refine unlinked_linked.mpr ⟨?_, hl j hj⟩
    intro he
    have hnum := (hs.handles (h := j) hj).1
    rw [show s.inodeOf j = _ from he] at hnum
    exact hu ⟨j, hj.1, hj.2, hnum ▸ lookup_eq hs hv ho hname⟩

lemma inside_opened (hf : FirstFree s.freeOpenFileEntries s.fsParams.maxOpenFilesCount h)
    (ho : offset ≤ s.sizeOf k) : OffsetsInside (s.opened h k offset) ↔ OffsetsInside s := by
  constructor
  · intro hi j hj
    have hne : j ≠ h := fun he => hf.not_open (he ▸ hj)
    have hj' := hi j ((opened_open hf.1).mpr (.inr hj))
    rw [opened_offsetOf, opened_inodeOf, if_neg hne, if_neg hne] at hj'
    exact hj'
  · intro hi j hj
    rw [opened_offsetOf, opened_inodeOf]
    split_ifs with hjh
    · exact ho
    · exact hi j (((opened_open hf.1).mp hj).resolve_left hjh)

lemma inside_truncated (hi : OffsetsInside s) : OffsetsInside (s.truncated k) ↔
    ∀ h, s.Open h → s.inodeOf h = k → s.offsetOf h = 0 := by
  constructor
  · intro hi' j hj hk
    have hle := hi' j hj
    rw [truncated_sizeOf, if_pos (show (s.truncated k).inodeOf j = k from hk)] at hle
    exact Nat.le_zero.mp hle
  · intro h0 j hj
    rw [truncated_sizeOf]
    split_ifs with hk
    · exact (h0 j hj hk).le
    · exact hi j hj

lemma inside_retrieved (hs : Sound s slots) (hi : OffsetsInside s) {name : Option (List UInt8)}
    {fname : FileName} (hv : validPathname name) (ho : Occupied slots i fname k)
    (hname : fname.bytes = text (subName name)) :
    OffsetsInside (s.retrieved k mode) ↔ ¬ TruncatesUnderHandle s (.open name mode) := by
  have hlookup := lookup_eq hs hv ho hname
  rw [State.retrieved]
  split_ifs with ht
  · rw [inside_truncated hi]
    constructor
    · rintro h0 ⟨-, j, hlt, htaken, hpos, hfound⟩
      rw [hlookup] at hfound
      have hk : s.inodeOf j = k := by
        rw [State.inodeOf, ← Except.ok.inj hfound]
        rfl
      exact absurd (h0 j ⟨hlt, htaken⟩ hk) hpos.ne'
    · intro hn j hj hk
      by_contra hpos
      have hnum := (hs.handles hj).1
      rw [hk] at hnum
      exact hn ⟨ht, j, hj.1, hj.2, Nat.pos_of_ne_zero hpos, hnum ▸ hlookup⟩
  · exact iff_of_true hi (fun hn => ht hn.1)

lemma not_truncates_absent (hs : Sound s slots) {name : Option (List UInt8)}
    (h : tfsLookup s name rootDirInum = .ok (-1)) : ¬ TruncatesUnderHandle s (.open name mode) := by
  rintro ⟨-, j, hlt, htaken, -, hfound⟩
  rw [(hs.handles ⟨hlt, htaken⟩).1] at hfound
  exact lookup_ne_absent h hfound

lemma inside_newInode (hl : HandlesLinked s) (hf : s.freeinodeTs k = .free) :
    OffsetsInside (s.newInode k) ↔ OffsetsInside s := by
  apply forall₂_congr
  intro j hj
  have hne : s.inodeOf j ≠ k := ne_of_free hf (hl j hj)
  rw [newInode_sizeOf, if_neg (show (s.newInode k).inodeOf j ≠ k from hne)]
  rfl

lemma inside_wrote (hi : OffsetsInside s) {b : ℕ} {bs : List UInt8} :
    OffsetsInside (s.wrote h b bs) := by
  intro j hj
  have hle := hi j hj
  rw [wrote_offsetOf, wrote_inodeOf, wrote_sizeOf]
  split_ifs with hjh hk hk
  · exact le_max_right _ _
  · exact absurd (congrArg s.inodeOf hjh) hk
  · rw [hk] at hle
    exact hle.trans (le_max_left _ _)
  · exact hle

lemma inside_advanced (hi : OffsetsInside s) (hn : s.offsetOf h + n ≤ s.sizeOf (s.inodeOf h)) :
    OffsetsInside (s.advanced h n) := by
  intro j hj
  rw [advanced_offsetOf, advanced_inodeOf]
  split_ifs with hjh
  · rw [hjh]
    exact hn
  · exact hi j hj

lemma startOffset_le (s : State) (k mode : ℕ) :
    s.startOffset k mode ≤ (s.retrieved k mode).sizeOf k := by
  rcases startOffset_eq s k mode with he | he <;> omega

lemma inside_iff (hs : Sound s slots) (hl : HandlesLinked s) (hi : OffsetsInside s)
    (hh : Happens s slots call r t slots') : OffsetsInside t ↔ ¬ TruncatesUnderHandle s call := by
  cases hh with
  | closeBad | writeBad | writeNone | writeFull | readBad | readNone | unlinkInvalid
  | unlinkAbsent | unlink => exact iff_of_true hi id
  | openInvalid hv =>
    exact iff_of_true hi (not_truncates_absent hs (lookup_invalid hv))
  | openExisting hv ho hname hf =>
    obtain ⟨htable, hparams⟩ := retrieved_tables s _ _
    rw [← htable, ← hparams] at hf
    rw [inside_opened hf (startOffset_le s _ _)]
    exact inside_retrieved hs hi hv ho hname
  | openExistingFull hv ho hname hf => exact inside_retrieved hs hi hv ho hname
  | openAbsent hv hno | openNoInode hv hno =>
    exact iff_of_true hi (not_truncates_absent hs (lookup_absent hs hv hno))
  | openNoEntry hv hno hc hk hf =>
    rw [inside_newInode hl hf.2.1]
    exact iff_of_true hi (not_truncates_absent hs (lookup_absent hs hv hno))
  | @openCreated name mode k i h fname hv hno hc hk hf hname hi' hn hvacant hfree =>
    have hcreated : OffsetsInside (s.created k i (subName name)) :=
      (inside_newInode hl hf.2.1).mpr hi
    rw [inside_opened (s := s.created k i (subName name)) hfree (Nat.zero_le _)]
    exact iff_of_true hcreated (not_truncates_absent hs (lookup_absent hs hv hno))
  | @openCreatedFull name mode k i fname hv hno hc hk hf =>
    have hcreated : OffsetsInside (s.created k i (subName name)) :=
      (inside_newInode hl hf.2.1).mpr hi
    exact iff_of_true hcreated (not_truncates_absent hs (lookup_absent hs hv hno))
  | close ho => exact iff_of_true (fun j hj => hi j (closed_open.mp hj).2) id
  | write => exact iff_of_true (inside_wrote hi) id
  | @read h n room len ho hpos hroom hn =>
    have hle := hi h ho
    rw [if_pos hle] at hn
    exact iff_of_true (inside_advanced hi (by omega)) id

end Handles

section Bounds

variable {s t s₀ : State} {slots slots' : List Slot} {r : Reply} {h : ℕ}

lemma Sound.returns (hs : Sound s slots) (hi : OffsetsInside s) {call : Call}
    (ha : call.admissible s) (hc : call.stated) :
    ∃ t r slots', tfsCall s call = .ok (t, r) ∧ Happens s slots call r t slots' := by
  cases call with
  | «open» name mode => exact tfsOpen_spec hs name mode
  | close fh => exact tfsClose_spec s slots fh
  | write fh buffer toWrite =>
    rcases tfsWrite_spec hs ha with hok | ⟨h, -, ho, hbad, -⟩
    · exact hok
    · have hle := hi h ho
      have hsize := hs.sizes (.inr ⟨h, ho, rfl⟩)
      have hlen : toWrite ≤ buffer.length := hc
      omega
  | read fh room len =>
    rcases tfsRead_spec hs ha with hok | ⟨h, -, ho, hbad, -⟩
    · exact hok
    · have hle := hi h ho
      have hlen : len ≤ room := hc
      omega
  | unlink target => exact tfsUnlink_spec hs target

lemma Sound.bounded (hs : Sound s slots) (hi : OffsetsInside s) : Bounded s := by
  have hdata := hs.data
  have hblock := hs.blockSize_le
  have hsizes : ∀ h, s.Open h → s.sizeOf (s.inodeOf h) ≤ s.fsParams.blockSize :=
    fun h ho => hs.sizes (.inr ⟨h, ho, rfl⟩)
  refine ⟨hi, hsizes, ?_, ?_, ?_, ?_, ?_⟩
  · intro h ho
    have hle := hi h ho
    have hsize := hsizes h ho
    omega
  · intro h ho
    have hle := hi h ho
    have hsize := hsizes h ho
    omega
  · intro h room len t r ho ha hread
    have hle := hi h ho
    have hsize := hsizes h ho
    obtain ⟨slots', hh⟩ :=
      tfsCall_happens hs (show (Call.read h room len).admissible s from ha) hread
    rcases hh.read_cases rfl ho with ⟨-, rfl, -⟩ | ⟨n, hpos, hn, rfl, -⟩
    · exact ⟨Int.natCast_nonneg _, hle.trans hsize, rfl⟩
    · rw [if_pos hle] at hn
      rw [readMem_length]
      refine ⟨?_, by omega, rfl⟩
      show (n : ℤ) ≤ _
      omega
  · intro h buffer toWrite t r a ho ha hwrite hne
    obtain ⟨slots', hh⟩ := 
      tfsCall_happens hs (show (Call.write h buffer toWrite).admissible s from ha) hwrite
    rcases hh.write_cases rfl ho with ⟨-, rfl⟩ | ⟨b, n, -, -, hw, -, rfl⟩
    · exact absurd rfl hne
    · rw [wrote_blockOf, if_pos rfl]
      have hfits := hw.fits
      have hmul : (b + 1) * s.fsParams.blockSize =
          b * s.fsParams.blockSize + s.fsParams.blockSize := by
        rw [Nat.add_mul, Nat.one_mul]
      by_contra hout
      exact hne (writeMem_out (by omega))
  · intro call ha hc
    obtain ⟨t, r, slots', he, -⟩ := hs.returns hi ha hc
    exact ⟨t, r, he⟩

def NoUnlink : Call → Prop
  | .unlink _ => False
  | _ => True

instance (call : Call) : Decidable (NoUnlink call) :=
  match call with
  | .open _ _ | .close _ | .read _ _ _ | .write _ _ _ => inferInstanceAs (Decidable True)
  | .unlink _ => inferInstanceAs (Decidable False)

lemma NoUnlink.not_unlinksOpen {call : Call} (hn : NoUnlink call) : ¬ UnlinksOpenFile s call := by
  cases call with
  | unlink target => exact absurd hn id
  | _ => exact id

lemma inside_of_reachable {p : TfsParams} {mallocs : Mallocs} {allowed : State → Call → Prop}
    (hp : p.InRange) (h0 : tfsInit p mallocs = .ok (s₀, 0))
    (ha : ∀ s call, allowed s call → ¬ UnlinksOpenFile s call ∧ ¬ TruncatesUnderHandle s call)
    (h : (tecnicofs s₀).ReachableBy allowed s) :
    ∃ slots, Sound s slots ∧ HandlesLinked s ∧ OffsetsInside s := by
  have hinit : HandlesLinked s₀ ∧ OffsetsInside s₀ :=
    ⟨fun j hj => absurd hj (init_closed h0 j), fun j hj => absurd hj (init_closed h0 j)⟩
  apply invariant_of_reachable hp h0 hinit _ h
  rintro s t slots slots' call r hs ⟨hl, hi⟩ hcall hh
  obtain ⟨hu, ht⟩ := ha _ _ hcall
  exact ⟨hh.handlesLinked hs hl hu, (inside_iff hs hl hi hh).mpr ht⟩

theorem bounded_iff_not_truncating {p : TfsParams} {mallocs : Mallocs} (hp : p.InRange)
    (h0 : tfsInit p mallocs = .ok (s₀, 0))
    (h : (tecnicofs s₀).ReachableBy
      (fun s call => NoUnlink call ∧ ¬ TruncatesUnderHandle s call) s) :
    Bounded s ∧ ∀ call t, NoUnlink call → (tecnicofs s₀).step s call = some t →
      (Bounded t ↔ ¬ TruncatesUnderHandle s call) := by
  obtain ⟨slots, hs, hl, hi⟩ := inside_of_reachable hp h0
    (fun s call ha => ⟨ha.1.not_unlinksOpen, ha.2⟩) h
  refine ⟨hs.bounded hi, ?_⟩
  intro call t hn hstep
  obtain ⟨r, slots', -, hh⟩ := step_happens hstep hs
  rw [← inside_iff hs hl hi hh]
  exact ⟨fun hb => hb.offsets, (hh.sound hs).bounded⟩

theorem bounded_iff_not_truncating_reread : ∃ s t,
    (tecnicofs smallDisk).runIf (fun s call => NoUnlink call ∧ ¬ TruncatesUnderHandle s call)
      smallDisk [.open (some [47, 97]) 1, .write 0 [1, 2] 2, .open (some [47, 97]) 0,
        .read 1 5 5] = some s ∧
    (tecnicofs smallDisk).step s (.open (some [47, 97]) 4) = some t ∧ Bounded t := by
  have hrun : (((tecnicofs smallDisk).runIf
      (fun s call => NoUnlink call ∧ ¬ TruncatesUnderHandle s call) smallDisk
      [.open (some [47, 97]) 1, .write 0 [1, 2] 2, .open (some [47, 97]) 0, .read 1 5 5]).bind
      (fun s => ((tecnicofs smallDisk).step s (.open (some [47, 97]) 4)).map
        (fun t => (s, t)))).isSome = true := by
    decide +kernel
  obtain ⟨⟨s, t⟩, hs⟩ := Option.isSome_iff_exists.mp hrun
  obtain ⟨s', hrun', hstep⟩ := Option.bind_eq_some_iff.mp hs
  obtain ⟨t', hstep', he⟩ := Option.map_eq_some_iff.mp hstep
  cases he
  have h := bounded_iff_not_truncating smallParams_inRange smallDisk_init
    (System.ReachableBy.init.runIf hrun')
  exact ⟨s, t, hrun', hstep',
    (h.2 (.open _ 4) t trivial hstep').mpr (fun ht => absurd ht.1 (by decide))⟩

theorem truncation_strands_offset : ∃ s t r, tfsInit smallParams soiled = .ok (smallDisk, 0) ∧
    (tecnicofs smallDisk).run smallDisk [.open (some [47, 97]) 1, .write 0 [1, 2] 2,
      .open (some [47, 97]) 2, .write 1 [3] 1] = some s ∧
    ¬ Bounded s ∧ s.sizeOf (s.inodeOf 0) = 1 ∧ tfsCall s (.read 0 5 5) = .ok (t, r) ∧
    r.ret = 5 := by
  have hrun : ((tecnicofs smallDisk).run smallDisk [.open (some [47, 97]) 1, .write 0 [1, 2] 2,
      .open (some [47, 97]) 2, .write 1 [3] 1]).map
      (fun s => (decide (s.freeOpenFileEntries 0 = .taken ∧ s.offsetOf 0 = 2 ∧
        s.sizeOf (s.inodeOf 0) = 1 ∧ 0 < s.fsParams.maxOpenFilesCount),
        (tfsCall s (.read 0 5 5)).toOption.map (fun x => x.2.ret))) = some (true, some 5) := by
    decide +kernel
  obtain ⟨s, hs, hbad⟩ := Option.map_eq_some_iff.mp hrun
  obtain ⟨hat, hread⟩ := Prod.mk.inj hbad
  obtain ⟨htaken, hoff, hsize, hlt⟩ := of_decide_eq_true hat
  obtain ⟨⟨t, r⟩, ht, hret⟩ := Option.map_eq_some_iff.mp hread
  refine ⟨s, t, r, smallDisk_init, hs, ?_, hsize, ok_of_toOption ht, hret⟩
  intro hb
  have hle := hb.offsets 0 ⟨hlt, htaken⟩
  omega

end Bounds

end MessageBroker.Fs
