import MessageBroker.Fs.Calls

namespace MessageBroker.Fs

open MessageBroker.Lib

def HoldsBlock (s : State) (k : ℕ) : Prop := s.freeinodeTs k = .taken ∧ 0 < (s.inodeTable k).iSize

def Owns (s : State) (k b : ℕ) : Prop :=
  HoldsBlock s k ∧ (s.inodeTable k).iDataBlock = (b : ℤ)

def Accounted (s : State) : Prop :=
  (∀ b < s.fsParams.maxBlockCount, s.freeBlocks b = .taken ↔
    ∃ k < s.fsParams.maxInodeCount, Owns s k b ∧
      ∀ l < s.fsParams.maxInodeCount, Owns s l b → l = k) ∧
  ∀ k < s.fsParams.maxInodeCount, ∀ l < s.fsParams.maxInodeCount, HoldsBlock s k ∧ HoldsBlock s l ∧
    (s.inodeTable k).iDataBlock = (s.inodeTable l).iDataBlock → k = l

def WritesUnlinkedEmpty (s : State) : Call → Prop
  | .write fh _ toWrite => 0 ≤ fh ∧ fh.toNat < s.fsParams.maxOpenFilesCount ∧
      s.freeOpenFileEntries fh.toNat = .taken ∧
      s.freeinodeTs (s.inodeOf fh.toNat) = .free ∧ s.sizeOf (s.inodeOf fh.toNat) = 0 ∧
      0 < toWrite ∧ s.offsetOf fh.toNat < s.fsParams.blockSize ∧
      ∃ b < s.fsParams.maxBlockCount, s.freeBlocks b = .free
  | _ => False

instance (s : State) (k : ℕ) : Decidable (HoldsBlock s k) := inferInstanceAs (Decidable (_ ∧ _))

instance (s : State) (k b : ℕ) : Decidable (Owns s k b) := inferInstanceAs (Decidable (_ ∧ _))

instance (s : State) : Decidable (Accounted s) := inferInstanceAs (Decidable (_ ∧ _))

instance (s : State) (call : Call) : Decidable (WritesUnlinkedEmpty s call) :=
  match call with
  | .write _ _ _ => inferInstanceAs (Decidable (_ ∧ _))
  | .open _ _ | .close _ | .read _ _ _ | .unlink _ => inferInstanceAs (Decidable False)

def Unleaked (s : State) : Prop :=
  ∀ b < s.fsParams.maxBlockCount, s.freeBlocks b = .taken →
    b = 0 ∨ ∃ k, s.Linked k ∧ 0 < s.sizeOf k ∧ s.blockOf k = b

section Owners

variable {s t : State} {slots slots' : List Slot} {call : Call} {r : Reply} {k b : ℕ}

lemma owns_root (hs : Sound s slots) : Owns s 0 b ↔ b = 0 := by
  rw [Owns, HoldsBlock, hs.root]
  constructor
  · rintro ⟨-, hb⟩
    have hb : (0 : ℤ) = b := hb
    omega
  · rintro rfl
    exact ⟨⟨hs.rootInode.2, hs.blockSize⟩, rfl⟩

lemma owns_linked (hs : Sound s slots) (hk : 0 < k) (hlt : k < s.fsParams.maxInodeCount) :
    Owns s k b ↔ s.Linked k ∧ 0 < s.sizeOf k ∧ s.blockOf k = b := by
  constructor
  · rintro ⟨⟨ht, hz⟩, hb⟩
    refine ⟨⟨hk, hlt, ht⟩, hz, ?_⟩
    rw [State.blockOf, hb]
    rfl
  · rintro ⟨hl, hz, rfl⟩
    exact ⟨⟨hl.2.2, hz⟩, (hs.blocks (.inl hl) hz).1⟩

lemma owner_unique (hs : Sound s slots) {l : ℕ} (hk : k < s.fsParams.maxInodeCount)
    (hl : l < s.fsParams.maxInodeCount) (hok : Owns s k b) (hol : Owns s l b) : k = l := by
  rcases Nat.eq_zero_or_pos k with rfl | hkp <;> rcases Nat.eq_zero_or_pos l with rfl | hlp
  · rfl
  · obtain ⟨hll, hz, hb⟩ := (owns_linked hs hlp hl).mp hol
    have hpos := (hs.blocks (.inl hll) hz).2.1
    have hb0 := (owns_root hs).mp hok
    omega
  · obtain ⟨hlk, hz, hb⟩ := (owns_linked hs hkp hk).mp hok
    have hpos := (hs.blocks (.inl hlk) hz).2.1
    have hb0 := (owns_root hs).mp hol
    omega
  · obtain ⟨hlk, hzk, hbk⟩ := (owns_linked hs hkp hk).mp hok
    obtain ⟨hll, hzl, hbl⟩ := (owns_linked hs hlp hl).mp hol
    exact hs.single hlk hll hzk hzl (hbk.trans hbl.symm)

lemma owns_block (hs : Sound s slots) (hk : k < s.fsParams.maxInodeCount)
    (h : HoldsBlock s k) : Owns s k (s.blockOf k) := by
  rcases Nat.eq_zero_or_pos k with rfl | hkp
  · rw [owns_root hs, State.blockOf, hs.root]
    rfl
  · exact (owns_linked hs hkp hk).mpr ⟨⟨hkp, hk, h.1⟩, h.2, rfl⟩

lemma accounted_iff (hs : Sound s slots) : Accounted s ↔ Unleaked s := by
  constructor
  · intro h b hb ht
    obtain ⟨k, hk, ho, -⟩ := (h.1 b hb).mp ht
    rcases Nat.eq_zero_or_pos k with rfl | hkp
    · exact .inl ((owns_root hs).mp ho)
    · exact .inr ⟨k, (owns_linked hs hkp hk).mp ho⟩
  · intro h
    refine ⟨?_, ?_⟩
    · intro b hb
      constructor
      · intro ht
        rcases h b hb ht with rfl | ⟨k, hk, ho⟩
        · have h0 := hs.rootInode.1
          exact ⟨0, h0, (owns_root hs).mpr rfl,
            fun l hl hol => owner_unique hs hl h0 hol ((owns_root hs).mpr rfl)⟩
        · have hok := (owns_linked hs hk.1 hk.2.1).mpr ⟨hk, ho⟩
          exact ⟨k, hk.2.1, hok, fun l hl hol => owner_unique hs hl hk.2.1 hol hok⟩
      · rintro ⟨k, hk, ho, -⟩
        rcases Nat.eq_zero_or_pos k with rfl | hkp
        · rw [(owns_root hs).mp ho]
          exact hs.rootBlock.2
        · obtain ⟨hl, hz, rfl⟩ := (owns_linked hs hkp hk).mp ho
          exact hs.owned hl hz
    · rintro k hk l hl ⟨hhk, hhl, he⟩
      have hok := owns_block hs hk hhk
      have hol := owns_block hs hl hhl
      have hb : s.blockOf k = s.blockOf l := congrArg Int.toNat he
      rw [hb] at hok
      exact owner_unique hs hk hl hok hol

end Owners

section Steps

variable {s t s₀ : State} {slots slots' : List Slot} {call : Call} {r : Reply}
  {k i h b mode : ℕ} {subName bs : List UInt8}

lemma Unleaked.mono (hu : Unleaked s) (hp : t.fsParams = s.fsParams)
    (hfree : ∀ b, t.freeBlocks b = .taken → s.freeBlocks b = .taken)
    (hown : ∀ k, s.Linked k → 0 < s.sizeOf k → t.freeBlocks (s.blockOf k) = .taken →
      t.Linked k ∧ 0 < t.sizeOf k ∧ t.blockOf k = s.blockOf k) : Unleaked t := by
  intro b hb ht
  rw [hp] at hb
  rcases hu b hb (hfree b ht) with h0 | ⟨k, hk, hz, rfl⟩
  · exact .inl h0
  · exact .inr ⟨k, hown k hk hz ht⟩

lemma taken_of_freed {c : Prop} [Decidable c] {a : AllocationState}
    (h : (if c then .free else a) = AllocationState.taken) : ¬ c ∧ a = .taken := by
  by_cases hc : c
  · rw [if_pos hc] at h
    cases h
  · rw [if_neg hc] at h
    exact ⟨hc, h⟩

lemma Unleaked.truncated (hu : Unleaked s) : Unleaked (s.truncated k) := by
  refine hu.mono rfl ?_ ?_
  · intro b ht
    rw [truncated_freeBlocks] at ht
    exact (taken_of_freed ht).2
  · intro l hl hz ht
    rw [truncated_freeBlocks] at ht
    have hne : l ≠ k := by
      rintro rfl
      exact (taken_of_freed ht).1 ⟨hz, rfl⟩
    rw [truncated_sizeOf, if_neg hne, truncated_blockOf]
    exact ⟨hl, hz, rfl⟩

lemma Unleaked.retrieved (hu : Unleaked s) : Unleaked (s.retrieved k mode) := by
  rw [State.retrieved]
  split_ifs
  · exact hu.truncated
  · exact hu

lemma Unleaked.spoiled (hu : Unleaked s) (hf : s.freeinodeTs k = .free) :
    Unleaked (s.newInode k) := by
  refine hu.mono rfl (fun _ ht => ht) ?_
  intro l hl hz _
  have hne := ne_of_free hf hl
  rw [newInode_sizeOf, if_neg hne, newInode_blockOf hne]
  exact ⟨hl, hz, rfl⟩

lemma Unleaked.created (hu : Unleaked s) (hk : 0 < k ∧ k < s.fsParams.maxInodeCount)
    (hf : s.freeinodeTs k = .free) : Unleaked (s.created k i subName) := by
  refine hu.mono rfl (fun _ ht => ht) ?_
  intro l hl hz _
  have hne := ne_of_free hf hl
  rw [created_linked hk, created_sizeOf, if_neg hne]
  exact ⟨.inr hl, hz, newInode_blockOf hne⟩

lemma Unleaked.unlinked (hu : Unleaked s) : Unleaked (s.unlinked k i subName) := by
  refine hu.mono rfl ?_ ?_
  · intro b ht
    rw [unlinked_freeBlocks] at ht
    exact (taken_of_freed ht).2
  · intro l hl hz ht
    rw [unlinked_freeBlocks] at ht
    rw [unlinked_linked]
    refine ⟨⟨?_, hl⟩, hz, rfl⟩
    rintro rfl
    exact (taken_of_freed ht).1 ⟨hz, rfl⟩

lemma wrote_unleaked (hs : Sound s slots) (hu : Unleaked s) (ho : s.Open h) (hpos : 0 < bs.length)
    (hb0 : 0 < b) (hb : b < s.fsParams.maxBlockCount)
    (hfresh : s.sizeOf (s.inodeOf h) = 0 → s.freeBlocks b = .free)
    (hold : 0 < s.sizeOf (s.inodeOf h) → s.blockOf (s.inodeOf h) = b) :
    Unleaked (s.wrote h b bs) ↔
      ¬ (s.freeinodeTs (s.inodeOf h) = .free ∧ s.sizeOf (s.inodeOf h) = 0) := by
  obtain ⟨-, hk, hlt, -⟩ := hs.handles ho
  constructor
  · rintro hu' ⟨hfree, hz⟩
    have ht : (s.wrote h b bs).freeBlocks b = .taken := by
      rw [wrote_freeBlocks, if_pos ⟨hz, rfl⟩]
    rcases hu' b hb ht with h0 | ⟨l, hl, hzl, hbl⟩
    · omega
    · have hne : l ≠ s.inodeOf h := ne_of_free (s := s) hfree hl
      rw [wrote_sizeOf, if_neg hne] at hzl
      rw [wrote_blockOf, if_neg hne] at hbl
      have howned := hs.owned hl hzl
      rw [hbl, hfresh hz] at howned
      cases howned
  · intro hn c hc ht
    rw [wrote_freeBlocks] at ht
    by_cases hnew : s.sizeOf (s.inodeOf h) = 0 ∧ c = b
    · have htaken : s.freeinodeTs (s.inodeOf h) = .taken :=
        AllocationState.taken_of_ne (fun hf => hn ⟨hf, hnew.1⟩)
      refine .inr ⟨s.inodeOf h, ⟨hk, hlt, htaken⟩, ?_, ?_⟩
      · rw [wrote_sizeOf, if_pos rfl]
        omega
      · rw [wrote_blockOf, if_pos rfl, hnew.2]
    · rw [if_neg hnew] at ht
      rcases hu c hc ht with h0 | ⟨l, hl, hz, rfl⟩
      · exact .inl h0
      refine .inr ⟨l, hl, ?_, ?_⟩
      · rw [wrote_sizeOf]
        split_ifs <;> omega
      · rw [wrote_blockOf]
        split_ifs with hlk
        · rw [hlk] at hz ⊢
          exact (hold hz).symm
        · rfl

lemma unleaked_iff (hs : Sound s slots) (hu : Unleaked s) (hh : Happens s slots call r t slots') :
    Unleaked t ↔ ¬ WritesUnlinkedEmpty s call := by
  cases hh with
  | openInvalid | openAbsent | openNoInode | closeBad | readBad | readNone | unlinkInvalid
  | unlinkAbsent | close | read => exact iff_of_true hu id
  | openExisting | openExistingFull => exact iff_of_true (Unleaked.retrieved hu) id
  | openNoEntry hv hno hc hk hf he => exact iff_of_true (hu.spoiled hf.2.1) id
  | @openCreated name mode k i _ _ hv hno hc hk hf
  | @openCreatedFull name mode k i _ hv hno hc hk hf =>
    have ht : Unleaked (s.created k i (subName name)) := hu.created ⟨hk, hf.1⟩ hf.2.1
    exact iff_of_true ht id
  | unlink => exact iff_of_true hu.unlinked id
  | writeBad hno =>
    apply iff_of_true hu
    rintro ⟨h0, hlt, ht, -⟩
    exact hno _ (Int.toNat_of_nonneg h0).symm ⟨hlt, ht⟩
  | writeNone ho hle hmin =>
    apply iff_of_true hu
    rintro ⟨-, -, -, -, -, hw, hoff, -⟩
    simp only [Int.toNat_natCast] at hoff
    omega
  | writeFull ho hpos hz hfull =>
    apply iff_of_true hu
    rintro ⟨-, -, -, -, -, -, -, b, hb, hfree⟩
    exact not_allTaken hb hfree hfull
  | @write h b n buffer toWrite ho hle hmin hpos hbuf hb0 hblt hfresh hold =>
    have hlen : (buffer.take n).length = n := by
      rw [List.length_take]
      omega
    rw [wrote_unleaked hs hu ho (by omega) hb0 hblt (fun hz => (hfresh hz).2.1) hold]
    apply not_congr
    constructor
    · rintro ⟨hfree, hz⟩
      refine ⟨by omega, ho.1, ho.2, hfree, hz, by omega, ?_, b, hblt, (hfresh hz).2.1⟩
      rw [Int.toNat_natCast]
      omega
    · rintro ⟨-, -, -, hfree, hz, -⟩
      exact ⟨hfree, hz⟩

end Steps

section Runs

variable {p : TfsParams} {mallocs : Mallocs} {s₀ s : State}

lemma Unleaked.init (h0 : tfsInit p mallocs = .ok (s₀, 0)) : Unleaked s₀ := by
  obtain ⟨-, m, rfl, -⟩ := tfsInit_cases h0
  intro b _ ht
  by_contra hne
  have hb : b ≠ 0 := fun hb => hne (.inl hb)
  simp [initial, hb] at ht

lemma unleaked_of_reachable (hp : p.InRange) (h0 : tfsInit p mallocs = .ok (s₀, 0))
    (h : (tecnicofs s₀).ReachableBy (fun s call => ¬ WritesUnlinkedEmpty s call) s) :
    ∃ slots, Sound s slots ∧ Unleaked s := by
  apply invariant_of_reachable hp h0 (Unleaked.init h0) _ h
  intro s t slots slots' call r hs hu ha hh
  exact (unleaked_iff hs hu hh).mpr ha

theorem accounted_iff_not_leaking (hp : p.InRange) (h0 : tfsInit p mallocs = .ok (s₀, 0))
    (h : (tecnicofs s₀).ReachableBy (fun s call => ¬ WritesUnlinkedEmpty s call) s) :
    Accounted s ∧ ∀ call t, (tecnicofs s₀).step s call = some t →
      (Accounted t ↔ ¬ WritesUnlinkedEmpty s call) := by
  obtain ⟨slots, hs, hu⟩ := unleaked_of_reachable hp h0 h
  refine ⟨(accounted_iff hs).mpr hu, ?_⟩
  intro call t hstep
  obtain ⟨r, slots', -, hh⟩ := step_happens hstep hs
  rw [accounted_iff (hh.sound hs)]
  exact unleaked_iff hs hu hh

theorem accounted_iff_not_leaking_rewritten : ∃ s t,
    (tecnicofs smallDisk).runIf (fun s call => ¬ WritesUnlinkedEmpty s call) smallDisk
      [.open (some [47, 97]) 1, .write 0 [1, 2] 2, .unlink (some [47, 97]), .write 0 [3] 1] =
      some s ∧
    (tecnicofs smallDisk).step s (.open (some [47, 97]) 1) = some t ∧ Accounted t := by
  have hrun : (((tecnicofs smallDisk).runIf (fun s call => ¬ WritesUnlinkedEmpty s call) smallDisk
      [.open (some [47, 97]) 1, .write 0 [1, 2] 2, .unlink (some [47, 97]), .write 0 [3] 1]).bind
      (fun s => ((tecnicofs smallDisk).step s (.open (some [47, 97]) 1)).map
        (fun t => (s, t)))).isSome = true := by
    decide +kernel
  obtain ⟨⟨s, t⟩, hs⟩ := Option.isSome_iff_exists.mp hrun
  obtain ⟨s', hrun', hstep⟩ := Option.bind_eq_some_iff.mp hs
  obtain ⟨t', hstep', he⟩ := Option.map_eq_some_iff.mp hstep
  cases he
  have h := accounted_iff_not_leaking smallParams_inRange smallDisk_init
    (System.ReachableBy.init.runIf hrun')
  exact ⟨s, t, hrun', hstep', (h.2 _ t hstep').mpr id⟩

theorem unlinked_write_leaks : ∃ s, tfsInit smallParams soiled = .ok (smallDisk, 0) ∧
    (tecnicofs smallDisk).run smallDisk
      [.open (some [47, 97]) 1, .unlink (some [47, 97]), .write 0 [1] 1] = some s ∧
    ¬ Accounted s := by
  have hrun : ((tecnicofs smallDisk).run smallDisk
      [.open (some [47, 97]) 1, .unlink (some [47, 97]), .write 0 [1] 1]).map
      (fun s => decide (Accounted s)) = some false := by
    decide +kernel
  obtain ⟨s, hs, hbad⟩ := Option.map_eq_some_iff.mp hrun
  exact ⟨s, smallDisk_init, hs, of_decide_eq_false hbad⟩

end Runs

end MessageBroker.Fs
