import MessageBroker.Fs.Matching

namespace MessageBroker.Fs

open MessageBroker.Lib

def FilesKept (s t : State) : Prop :=
  ∀ (name : Option (List UInt8)) (k : ℕ), tfsLookup s name rootDirInum = .ok (k : ℤ) →
    tfsLookup t name rootDirInum = .ok (k : ℤ) ∧ t.sizeOf k = s.sizeOf k ∧
      t.contents k = s.contents k

structure MadeEmpty (s t : State) (name : Option (List UInt8)) : Prop where
  full : AllTaken s.freeOpenFileEntries s.fsParams.maxOpenFilesCount
  absent : tfsLookup s name rootDirInum = .ok (-1)
  file : ∃ k : ℕ, tfsLookup t name rootDirInum = .ok (k : ℤ) ∧ t.sizeOf k = 0 ∧
    s.freeinodeTs k = .free ∧ t.freeinodeTs = Function.update s.freeinodeTs k .taken
  others : ∀ other, text (subName other) ≠ text (subName name) →
    tfsLookup t other rootDirInum = tfsLookup s other rootDirInum

structure DestroysNothing (s t : State) (name : Option (List UInt8)) : Prop where
  files : FilesKept s t
  params : t.fsParams = s.fsParams
  handles : t.openFileTable = s.openFileTable ∧ t.freeOpenFileEntries = s.freeOpenFileEntries
  blocks : t.freeBlocks = s.freeBlocks
  inodes : (t.freeinodeTs = s.freeinodeTs ∧
    ∀ other, tfsLookup t other rootDirInum = tfsLookup s other rootDirInum) ∨ MadeEmpty s t name

def TruncatesInVain (s : State) (name : Option (List UInt8)) (mode : ℕ) : Prop :=
  oTrunc mode ∧ (∃ k : ℕ, tfsLookup s name rootDirInum = .ok (k : ℤ) ∧ 0 < s.sizeOf k) ∧
    AllTaken s.freeOpenFileEntries s.fsParams.maxOpenFilesCount

section Kept

variable {s t : State} {slots slots' : List Slot} {name : Option (List UInt8)} {i k l mode : ℕ}
  {fname : FileName} {sub : List UInt8}

lemma DestroysNothing.refl (s : State) (name : Option (List UInt8)) : DestroysNothing s s name :=
  ⟨fun _ _ h => ⟨h, rfl, rfl⟩, rfl, ⟨rfl, rfl⟩, rfl, .inl ⟨rfl, fun _ => rfl⟩⟩

lemma spoiled_nothing (hs : Sound s slots) (hk : 0 < k) (hf : s.freeinodeTs k = .free) :
    DestroysNothing s (s.newInode k) name := by
  have hlook : ∀ other, tfsLookup (s.newInode k) other rootDirInum =
      tfsLookup s other rootDirInum := by
    intro other
    exact lookup_congr hs (hs.spoiled hk) (fun _ => Iff.rfl)
  refine ⟨?_, rfl, ⟨rfl, rfl⟩, rfl, .inl ⟨rfl, hlook⟩⟩
  intro other l hl
  have hlk := ne_of_free hf (lookup_linked hs hl)
  exact ⟨(hlook other).trans hl, by rw [newInode_sizeOf, if_neg hlk], newInode_contents hlk⟩

lemma truncated_empty_nothing (hs : Sound s slots) (hk : s.Linked k) (hz : s.sizeOf k = 0) :
    DestroysNothing s (s.truncated k) name := by
  have hlook : ∀ other, tfsLookup (s.truncated k) other rootDirInum =
      tfsLookup s other rootDirInum := by
    intro other
    exact lookup_congr hs (hs.truncated hk) (fun _ => Iff.rfl)
  have hblocks : (s.truncated k).freeBlocks = s.freeBlocks := if_neg (by omega)
  refine ⟨?_, rfl, ⟨rfl, rfl⟩, hblocks, .inl ⟨rfl, hlook⟩⟩
  intro other l hl
  have hsize : (s.truncated k).sizeOf l = s.sizeOf l := by
    rw [truncated_sizeOf]
    split_ifs with hlk
    · rw [hlk, hz]
    · rfl
  have hblock : (s.truncated k).blockOf l = s.blockOf l := truncated_blockOf l
  refine ⟨(hlook other).trans hl, hsize, ?_⟩
  rw [State.contents, hsize, hblock]
  rfl

lemma created_nothing (hs : Sound s slots)
    (hno : ∀ i fname k, Occupied slots i fname k → fname.bytes ≠ text (subName name))
    (hv : validPathname name) (hk : 0 < k) (hf : FirstFree s.freeinodeTs s.fsParams.maxInodeCount k)
    (hname : fname.bytes = text (subName name)) (hi : i ≤ slots.length) (hn : i < s.maxDirEntries)
    (hvacant : slots[i]? = some none ∨ i = slots.length)
    (hfull : AllTaken s.freeOpenFileEntries s.fsParams.maxOpenFilesCount) :
    DestroysNothing s (s.created k i (subName name)) name := by
  have ht : Sound (s.created k i (subName name)) (place slots i (some (fname, k))) :=
    hs.created ⟨hk, hf.1⟩ hf.2.1 hname (hname ▸ hno) hi hn hvacant
  have habsent : tfsLookup s name rootDirInum = .ok (-1) := lookup_absent hs hv hno
  have hothers : ∀ other, text (subName other) ≠ text (subName name) →
      tfsLookup (s.created k i (subName name)) other rootDirInum =
        tfsLookup s other rootDirInum := by
    intro other hne
    apply lookup_congr hs ht
    intro l
    constructor
    · rintro ⟨j, a, ho, ha⟩
      rcases (occupied_place hi).mp ho with ⟨-, hslot⟩ | ⟨-, ho⟩
      · cases hslot
        exact absurd (ha.symm.trans hname) hne
      · exact ⟨j, a, ho, ha⟩
    · rintro ⟨j, a, ho, ha⟩
      exact ⟨j, a, (occupied_place hi).mpr (.inr ⟨vacant_free hvacant ho, ho⟩), ha⟩
  have hfound : tfsLookup (s.created k i (subName name)) name rootDirInum = .ok (k : ℤ) :=
    lookup_eq ht hv ((occupied_place hi).mpr (.inl ⟨rfl, rfl⟩)) hname
  refine ⟨?_, rfl, ⟨rfl, rfl⟩, rfl, .inr ⟨hfull, habsent, ⟨k, hfound, ?_, hf.2.1, rfl⟩, hothers⟩⟩
  · intro other l hl
    have hl' := lookup_linked hs hl
    have hlk := ne_of_free hf.2.1 hl'
    refine ⟨?_, by rw [created_sizeOf, if_neg hlk], created_contents hs hl' hlk hn⟩
    rcases lookup_cases hs other with ⟨j, a, m, -, ho, ha, -⟩ | ⟨he, -⟩
    · rw [hothers other (fun he => hno j a m ho (ha.trans he))]
      exact hl
    · exact absurd hl (lookup_ne_absent he)
  · rw [created_sizeOf, if_pos rfl]

lemma retrieved_nothing (hs : Sound s slots) (hv : validPathname name)
    (ho : Occupied slots i fname k) (hname : fname.bytes = text (subName name))
    (hfull : AllTaken s.freeOpenFileEntries s.fsParams.maxOpenFilesCount) :
    DestroysNothing s (s.retrieved k mode) name ↔ ¬ TruncatesInVain s name mode := by
  have hk := hs.entries ho
  have hlook : tfsLookup s name rootDirInum = .ok (k : ℤ) := lookup_eq hs hv ho hname
  constructor
  · rintro hkept ⟨ht, ⟨l, hl, hz⟩, -⟩
    obtain rfl : k = l := by exact_mod_cast Except.ok.inj (hlook.symm.trans hl)
    have hsize : (s.retrieved k mode).sizeOf k = s.sizeOf k := (hkept.files name k hlook).2.1
    rw [State.retrieved, if_pos ht, truncated_sizeOf, if_pos rfl] at hsize
    omega
  · intro hvain
    by_cases ht : oTrunc mode
    · have hz : s.sizeOf k = 0 := by
        by_contra hz
        exact hvain ⟨ht, ⟨k, hlook, Nat.pos_of_ne_zero hz⟩, hfull⟩
      rw [State.retrieved, if_pos ht]
      exact truncated_empty_nothing hs hk hz
    · rw [State.retrieved, if_neg ht]
      exact .refl s name

lemma FirstFree.not_inVain {h : ℕ}
    (hh : FirstFree s.freeOpenFileEntries s.fsParams.maxOpenFilesCount h) :
    ¬ TruncatesInVain s name mode := fun hvain => not_allTaken hh.1 hh.2.1 hvain.2.2

lemma not_inVain_of_absent (h : tfsLookup s name rootDirInum = .ok (-1)) :
    ¬ TruncatesInVain s name mode := fun hvain =>
  have ⟨_, hk, _⟩ := hvain.2.1
  lookup_ne_absent h hk

lemma Happens.destroysNothing_iff {r : Reply} (hs : Sound s slots)
    (hh : Happens s slots (.open name mode) r t slots') :
    (r.ret = -1 → DestroysNothing s t name) ↔ ¬ TruncatesInVain s name mode := by
  have hreturned : ∀ {h : ℕ}, (Reply.code (h : ℤ)).ret ≠ -1 := by
    intro h he
    have hint : (h : ℤ) = -1 := he
    omega
  cases hh with
  | openInvalid hv =>
    exact iff_of_true (fun _ => .refl s name) (not_inVain_of_absent (lookup_invalid hv))
  | openExisting hv ho hname hh =>
    exact iff_of_true (fun he => absurd he hreturned) hh.not_inVain
  | openExistingFull hv ho hname hfull =>
    rw [← retrieved_nothing hs hv ho hname hfull]
    exact ⟨fun hkept => hkept rfl, fun hkept _ => hkept⟩
  | openAbsent hv hno =>
    exact iff_of_true (fun _ => .refl s name) (not_inVain_of_absent (lookup_absent hs hv hno))
  | openNoInode hv hno =>
    exact iff_of_true (fun _ => .refl s name) (not_inVain_of_absent (lookup_absent hs hv hno))
  | openNoEntry hv hno hc hk hf =>
    exact iff_of_true (fun _ => spoiled_nothing hs hk hf.2.1)
      (not_inVain_of_absent (lookup_absent hs hv hno))
  | openCreated hv hno hc hk hf hname hi hn hvacant hh =>
    exact iff_of_true (fun he => absurd he hreturned) hh.not_inVain
  | openCreatedFull hv hno hc hk hf hname hi hn hvacant hfull =>
    exact iff_of_true (fun _ => created_nothing hs hno hv hk hf hname hi hn hvacant hfull)
      (not_inVain_of_absent (lookup_absent hs hv hno))

end Kept

section Runs

variable {p : TfsParams} {mallocs : Mallocs} {s₀ s : State}

theorem failed_open_destroys_nothing_iff (hp : p.InRange) (h0 : tfsInit p mallocs = .ok (s₀, 0))
    (h : (tecnicofs s₀).Reachable s) (name : Option (List UInt8)) (mode : ℕ) :
    ∃ t r, tfsCall s (.open name mode) = .ok (t, r) ∧
      ((r.ret = -1 → DestroysNothing s t name) ↔ ¬ TruncatesInVain s name mode) := by
  obtain ⟨slots, hs⟩ := sound_of_reachable hp h0 h
  obtain ⟨t, r, slots', he, hh⟩ := tfsOpen_spec hs name mode
  exact ⟨t, r, he, hh.destroysNothing_iff hs⟩

theorem failed_open_destroys_nothing_iff_made : ∃ s t r, (tecnicofs smallDisk).run smallDisk
      [.open (some [47, 97]) 1, .write 0 [1, 2] 2, .open (some [47, 97]) 0,
        .open (some [47, 97]) 4] = some s ∧
    tfsCall s (.open (some [47, 98]) 1) = .ok (t, r) ∧ r.ret = -1 ∧
    DestroysNothing s t (some [47, 98]) := by
  have hrun : ((tecnicofs smallDisk).run smallDisk [.open (some [47, 97]) 1, .write 0 [1, 2] 2,
      .open (some [47, 97]) 0, .open (some [47, 97]) 4]).map
      (fun s => (tfsCall s (.open (some [47, 98]) 1)).toOption.map (fun x => x.2.ret)) =
        some (some (-1)) := by
    decide +kernel
  obtain ⟨s, hs, hat⟩ := Option.map_eq_some_iff.mp hrun
  obtain ⟨⟨t, r⟩, ht, hret⟩ := Option.map_eq_some_iff.mp hat
  obtain ⟨t', r', ht', hiff⟩ := failed_open_destroys_nothing_iff smallParams_inRange smallDisk_init
    (System.reachable_of_run hs) (some [47, 98]) 1
  obtain ⟨rfl, rfl⟩ := Prod.mk.inj (Except.ok.inj (ht'.symm.trans (ok_of_toOption ht)))
  refine ⟨s, t', r', hs, ht', hret, hiff.mpr ?_ hret⟩
  rintro ⟨htrunc, -⟩
  exact absurd htrunc (by decide)

theorem full_table_truncates : ∃ s t r, tfsInit smallParams soiled = .ok (smallDisk, 0) ∧
    (tecnicofs smallDisk).run smallDisk [.open (some [47, 97]) 1, .write 0 [1, 2] 2,
      .open (some [47, 97]) 0, .open (some [47, 97]) 4] = some s ∧
    tfsCall s (.open (some [47, 97]) 2) = .ok (t, r) ∧ r.ret = -1 ∧
    ¬ DestroysNothing s t (some [47, 97]) := by
  have hrun : ((tecnicofs smallDisk).run smallDisk [.open (some [47, 97]) 1, .write 0 [1, 2] 2,
      .open (some [47, 97]) 0, .open (some [47, 97]) 4]).map
      (fun s => ((tfsLookup s (some [47, 97]) rootDirInum).toOption, s.sizeOf 1,
        (tfsCall s (.open (some [47, 97]) 2)).toOption.map (fun x => (x.2.ret, x.1.sizeOf 1)))) =
        some (some 1, 2, some (-1, 0)) := by
    decide +kernel
  obtain ⟨s, hs, hat⟩ := Option.map_eq_some_iff.mp hrun
  obtain ⟨hlook, hrest⟩ := Prod.mk.inj hat
  obtain ⟨hsize, hcall⟩ := Prod.mk.inj hrest
  obtain ⟨⟨t, r⟩, ht, hcode⟩ := Option.map_eq_some_iff.mp hcall
  obtain ⟨hret, hempty⟩ := Prod.mk.inj hcode
  refine ⟨s, t, r, smallDisk_init, hs, ok_of_toOption ht, hret, ?_⟩
  intro hkept
  have hfound : tfsLookup s (some [47, 97]) rootDirInum = .ok ((1 : ℕ) : ℤ) := ok_of_toOption hlook
  have hsame : t.sizeOf 1 = s.sizeOf 1 := (hkept.files _ 1 hfound).2.1
  rw [hsize] at hsame
  exact absurd (hempty.symm.trans hsame) (by decide)

end Runs

end MessageBroker.Fs
