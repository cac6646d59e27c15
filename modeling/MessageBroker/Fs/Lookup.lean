import MessageBroker.Fs.Calls

namespace MessageBroker.Fs

open MessageBroker.Lib

def InUse (s : State) (dirEntry i : ℕ) : Prop :=
  i < s.maxDirEntries ∧ dInumber s (entryAt dirEntry i) ≠ -1

structure Unlinks (s : State) (dirEntry : ℕ) (target : Option (List UInt8)) (k i : ℕ) : Prop where
  inUse : InUse s dirEntry i
  numbered : dInumber s (entryAt dirEntry i) = k
  compared : strncmp maxFileName (dName s (entryAt dirEntry i)) (subName target) = 0
  cleared : ∃ s', inodeDelete s k = .ok s' ∧ clearDirEntry s' rootDirInum (subName target) =
    .ok ({ s' with fsData := clearedData s.fsData (entryAt dirEntry i) }, 0)
  returns : ∃ t, tfsUnlink s target = .ok (t, .code 0) ∧ t.freeinodeTs k = .free ∧
    ∀ j, InUse t dirEntry j ↔ j ≠ i ∧ InUse s dirEntry j

structure IsMap (s : State) (dirEntry : ℕ) : Prop where
  block : dataBlockGet s (s.inodeTable rootDirInum).iDataBlock = .ok dirEntry
  terminated : ∀ i, InUse s dirEntry i → 0 ∈ readMem s.fsData (entryAt dirEntry i) maxFileName
  named : ∀ i, InUse s dirEntry i → 1 ≤ (nameAt s.fsData (entryAt dirEntry i)).length ∧
    (nameAt s.fsData (entryAt dirEntry i)).length ≤ maxFileName - 1
  names : ∀ i j, InUse s dirEntry i → InUse s dirEntry j →
    nameAt s.fsData (entryAt dirEntry i) = nameAt s.fsData (entryAt dirEntry j) → i = j
  inumbers : ∀ i j, InUse s dirEntry i → InUse s dirEntry j →
    dInumber s (entryAt dirEntry i) = dInumber s (entryAt dirEntry j) → i = j
  taken : ∀ i, InUse s dirEntry i → ∃ k : ℕ, dInumber s (entryAt dirEntry i) = k ∧
    k ≠ rootDirInum ∧ k < s.fsParams.maxInodeCount ∧ s.freeinodeTs k = .taken
  entered : ∀ k, k ≠ rootDirInum → k < s.fsParams.maxInodeCount → s.freeinodeTs k = .taken →
    ∃! i, InUse s dirEntry i ∧ dInumber s (entryAt dirEntry i) = k
  found : ∀ name, text name ∈ s.history.linked →
    ∃ i, InUse s dirEntry i ∧ nameAt s.fsData (entryAt dirEntry i) = text name ∧
      findInDir s rootDirInum name = .ok (dInumber s (entryAt dirEntry i))
  absent : ∀ name, text name ∉ s.history.linked → findInDir s rootDirInum name = .ok (-1)
  unlinks : ∀ target inum, validPathname target → tfsLookup s target rootDirInum = .ok inum →
    inum ≠ -1 → ∃ k i : ℕ, inum = k ∧ Unlinks s dirEntry target k i

section Slots

variable {s t : State} {slots : List Slot} {i k : ℕ} {fname : FileName} {name : List UInt8}

lemma Occupied.reads (hs : Sound s slots) (ho : Occupied slots i fname k) :
    nameAt s.fsData (entryAt 0 i) = fname.bytes ∧ dInumber s (entryAt 0 i) = k :=
  hs.listed.reads i _ ho

lemma Occupied.inUse (hs : Sound s slots) (ho : Occupied slots i fname k) : InUse s 0 i := by
  have hlt := (List.getElem?_eq_some_iff.mp ho).1
  have hroom := hs.listed.room
  refine ⟨by omega, ?_⟩
  rw [(ho.reads hs).2]
  omega

lemma InUse.occupied (hs : Sound s slots) (h : InUse s 0 i) :
    ∃ fname k, Occupied slots i fname k := by
  by_cases hlt : i < slots.length
  · have hget := List.getElem?_eq_getElem hlt
    cases hslot : slots[i] with
    | none =>
      rw [hslot] at hget
      exact absurd (hs.listed.reads i _ hget).2 h.2
    | some x =>
      rw [hslot] at hget
      exact ⟨x.1, x.2, hget⟩
  · exact absurd (hs.listed.fresh i (by omega) h.1) h.2

lemma FileName.bounds (fname : FileName) :
    1 ≤ fname.bytes.length ∧ fname.bytes.length ≤ maxFileName - 1 :=
  ⟨List.length_pos_iff.mpr fname.nonempty, Nat.le_sub_one_of_lt fname.short⟩

lemma terminated_of_short {m : ℕ → UInt8} {entry : ℕ}
    (h : (nameAt m entry).length < maxFileName) : 0 ∈ readMem m entry maxFileName := by
  by_contra hno
  rw [nameAt, text_of_noNul hno, readMem_length] at h
  exact lt_irrefl _ h

lemma find_linked (hs : Sound s slots) (h : text name ∈ s.history.linked) :
    ∃ i fname k, Occupied slots i fname k ∧ fname.bytes = text name ∧
      findInDir s rootDirInum name = .ok (k : ℤ) := by
  rcases findInDir_cases hs.rooted name with hfound | ⟨hno, -⟩
  · exact hfound
  · obtain ⟨i, fname, k, ho, hname⟩ := hs.linked.mp h
    exact absurd hname (hno i fname k ho)

lemma find_absent (hs : Sound s slots) (h : text name ∉ s.history.linked) :
    findInDir s rootDirInum name = .ok (-1) := by
  rcases findInDir_cases hs.rooted name with ⟨i, fname, k, ho, hname, -⟩ | ⟨-, hfind⟩
  · exact absurd (hs.linked.mpr ⟨i, fname, k, ho, hname⟩) h
  · exact hfind

lemma unlinks_of_found (hs : Sound s slots) {target : Option (List UInt8)}
    (hv : validPathname target) (ho : Occupied slots i fname k)
    (hname : fname.bytes = text (subName target))
    (hfind : findInDir s 0 (subName target) = .ok (k : ℤ)) : Unlinks s 0 target k i := by
  have hroot := hs.rooted
  have huse := ho.inUse hs
  have hs' := hs.unlinked ho hname
  have hi := (List.getElem?_eq_some_iff.mp ho).1
  refine ⟨huse, (ho.reads hs).2, ?_, ⟨s.deleted k, inodeDelete_eq hs (hs.entries ho),
    clearDirEntry_deleted hs ho hname⟩, s.unlinked k i (subName target),
    tfsUnlink_found hs hv ho hname hfind, Function.update_self _ _ _, ?_⟩
  · exact ((found_iff hroot.listed hroot.room huse.1).mpr ⟨_, ho, fname, k, rfl, hname⟩).2
  · intro j
    constructor
    · intro hj
      obtain ⟨a, l, ho'⟩ := hj.occupied hs'
      rcases (occupied_place hi.le).mp ho' with ⟨-, hslot⟩ | ⟨hne, ho'⟩
      · cases hslot
      · exact ⟨hne, ho'.inUse hs⟩
    · rintro ⟨hne, hj⟩
      obtain ⟨a, l, ho'⟩ := hj.occupied hs
      exact Occupied.inUse hs' ((occupied_place hi.le).mpr (.inr ⟨hne, ho'⟩))

lemma Sound.isMap (hs : Sound s slots) : IsMap s 0 := by
  refine ⟨hs.rooted.block, ?_, ?_, ?_, ?_, ?_, ?_, ?_, fun name h => find_absent hs h, ?_⟩
  · intro i hi
    obtain ⟨fname, k, ho⟩ := hi.occupied hs
    apply terminated_of_short
    rw [(ho.reads hs).1]
    exact fname.short
  · intro i hi
    obtain ⟨fname, k, ho⟩ := hi.occupied hs
    rw [(ho.reads hs).1]
    exact fname.bounds
  · intro i j hi hj he
    obtain ⟨a, k, ho⟩ := hi.occupied hs
    obtain ⟨b, l, ho'⟩ := hj.occupied hs
    rw [(ho.reads hs).1, (ho'.reads hs).1] at he
    exact hs.distinct.names ho ho' he
  · intro i j hi hj he
    obtain ⟨a, k, ho⟩ := hi.occupied hs
    obtain ⟨b, l, ho'⟩ := hj.occupied hs
    rw [(ho.reads hs).2, (ho'.reads hs).2] at he
    obtain rfl : k = l := by exact_mod_cast he
    exact hs.distinct.inumbers ho ho'
  · intro i hi
    obtain ⟨a, k, ho⟩ := hi.occupied hs
    have hk := hs.entries ho
    exact ⟨k, (ho.reads hs).2, Nat.ne_of_gt hk.1, hk.2.1, hk.2.2⟩
  · intro k hk hlt ht
    obtain ⟨i, a, ho⟩ := hs.entered ⟨Nat.pos_of_ne_zero hk, hlt, ht⟩
    refine ⟨i, ⟨ho.inUse hs, (ho.reads hs).2⟩, ?_⟩
    rintro j ⟨hj, he⟩
    obtain ⟨b, l, ho'⟩ := hj.occupied hs
    rw [(ho'.reads hs).2] at he
    obtain rfl : l = k := by exact_mod_cast he
    exact hs.distinct.inumbers ho' ho
  · intro name h
    obtain ⟨i, fname, k, ho, hname, hfind⟩ := find_linked hs h
    obtain ⟨hreads, hnum⟩ := ho.reads hs
    exact ⟨i, ho.inUse hs, hreads.trans hname, hnum ▸ hfind⟩
  · intro target inum hv hlookup hne
    rw [show rootDirInum = 0 from rfl, tfsLookup_eq hv] at hlookup
    rcases findInDir_cases hs.rooted (subName target) with
      ⟨i, fname, k, ho, hname, hfind⟩ | ⟨-, hfind⟩
    · rw [hfind] at hlookup
      cases hlookup
      exact ⟨k, i, rfl, unlinks_of_found hs hv ho hname hfind⟩
    · rw [hfind] at hlookup
      cases hlookup
      exact absurd rfl hne

end Slots

section Runs

variable {p : TfsParams} {mallocs : Mallocs} {s₀ s : State}

theorem directory_is_map (hp : p.InRange) (h0 : tfsInit p mallocs = .ok (s₀, 0))
    (h : (tecnicofs s₀).Reachable s) : ∃ dirEntry, IsMap s dirEntry := by
  obtain ⟨slots, hs⟩ := sound_of_reachable hp h0 h
  exact ⟨0, hs.isMap⟩

theorem directory_is_map_unlinked : ∃ s dirEntry, (tecnicofs smallDisk).run smallDisk
    [.open (some [47, 97]) 1, .open (some [47, 98]) 1, .write 0 [1, 2] 2,
      .unlink (some [47, 97])] = some s ∧ IsMap s dirEntry := by
  have hrun : ((tecnicofs smallDisk).run smallDisk [.open (some [47, 97]) 1,
      .open (some [47, 98]) 1, .write 0 [1, 2] 2, .unlink (some [47, 97])]).isSome = true := by
    decide +kernel
  obtain ⟨s, hs⟩ := Option.isSome_iff_exists.mp hrun
  obtain ⟨dirEntry, hmap⟩ :=
    directory_is_map smallParams_inRange smallDisk_init (System.reachable_of_run hs)
  exact ⟨s, dirEntry, hs, hmap⟩

end Runs

end MessageBroker.Fs
