import MessageBroker.Lib.Tally
import MessageBroker.Fs.Blocks
import MessageBroker.Fs.Contents
import MessageBroker.Fs.Offsets
import MessageBroker.Fs.Reference

namespace MessageBroker.Fs

open MessageBroker.Lib

def State.contents (s : State) (k : ℕ) : List UInt8 :=
  readMem s.fsData (s.blockOf k * s.fsParams.blockSize) (s.sizeOf k)

structure Matches (p : TfsParams) (s : State) (slots : List Slot) (d : Disk) : Prop where
  params : s.fsParams = p
  names : ∀ {name}, name ∈ d.names ↔ ∃ i fname k, Occupied slots i fname k ∧ fname.bytes = name
  nodup : d.names.Nodup
  bytes : ∀ {i fname k}, Occupied slots i fname k → d.bytes fname.bytes = s.contents k
  handles : ∀ {h}, s.Open h → ∃ i fname, Occupied slots i fname (s.inodeOf h) ∧
    d.handles h = some (fname.bytes, s.offsetOf h)
  closed : ∀ {h}, ¬ s.Open h → d.handles h = none

structure Orderly.Inv (s : State) (slots : List Slot) : Prop where
  sound : Sound s slots
  linked : HandlesLinked s
  inside : OffsetsInside s
  unleaked : Unleaked s

section Capacity

variable {p : TfsParams} {s : State} {slots : List Slot} {d : Disk}

lemma contents_length (s : State) (k : ℕ) : (s.contents k).length = s.sizeOf k := by
  rw [State.contents, readMem_length]

lemma contents_nonempty {k : ℕ} : s.contents k ≠ [] ↔ 0 < s.sizeOf k := by
  rw [← contents_length, List.length_pos_iff]

lemma noInode_iff (hm : Matches p s slots d) (hs : Sound s slots) :
    d.noInode p ↔ AllTaken s.freeinodeTs s.fsParams.maxInodeCount := by
  have hcard : d.names.toFinset.card = ((Finset.range s.fsParams.maxInodeCount).filter
      (fun k => 0 < k ∧ s.freeinodeTs k = .taken)).card := by
    apply card_eq_of_matching
      (fun name k => ∃ i fname, Occupied slots i fname k ∧ fname.bytes = name)
    · intro name hname
      obtain ⟨i, fname, k, ho, he⟩ := hm.names.mp (List.mem_toFinset.mp hname)
      have hk := hs.entries ho
      exact ⟨k, Finset.mem_filter.mpr ⟨Finset.mem_range.mpr hk.2.1, hk.1, hk.2.2⟩, i, fname, ho, he⟩
    · intro k hk
      obtain ⟨hlt, hpos, ht⟩ := Finset.mem_filter.mp hk
      obtain ⟨i, fname, ho⟩ := hs.entered ⟨hpos, Finset.mem_range.mp hlt, ht⟩
      exact ⟨fname.bytes, List.mem_toFinset.mpr (hm.names.mpr ⟨i, fname, k, ho, rfl⟩), i, fname, ho,
        rfl⟩
    · rintro name name' k ⟨i, fname, ho, rfl⟩ ⟨j, fname', ho', rfl⟩
      exact hs.distinct.name_eq ho ho'
    · rintro name k k' ⟨i, fname, ho, rfl⟩ ⟨j, fname', ho', he⟩
      exact hs.distinct.inumber_eq ho ho' he.symm
  rw [List.toFinset_card_of_nodup hm.nodup] at hcard
  rw [Disk.noInode, ← hm.params, hcard, le_card_filter_succ_iff hs.rootInode.1]
  apply forall₂_congr
  intro k _
  rcases Nat.eq_zero_or_pos k with rfl | hk
  · simp [hs.rootInode.2]
  · simp [hk]

lemma noEntry_iff (hm : Matches p s slots d) (hs : Sound s slots) :
    d.noEntry p ↔ ∀ i < s.maxDirEntries, ∃ fname k, Occupied slots i fname k := by
  classical
  have hcard : d.names.toFinset.card = ((Finset.range s.maxDirEntries).filter
      (fun i => ∃ fname k, Occupied slots i fname k)).card := by
    apply card_eq_of_matching
      (fun name i => ∃ fname k, Occupied slots i fname k ∧ fname.bytes = name)
    · intro name hname
      obtain ⟨i, fname, k, ho, he⟩ := hm.names.mp (List.mem_toFinset.mp hname)
      have hi := (List.getElem?_eq_some_iff.mp ho).1
      exact ⟨i, Finset.mem_filter.mpr ⟨Finset.mem_range.mpr (hi.trans_le hs.listed.room), fname, k,
        ho⟩, fname, k, ho, he⟩
    · intro i hi
      obtain ⟨-, fname, k, ho⟩ := Finset.mem_filter.mp hi
      exact ⟨fname.bytes, List.mem_toFinset.mpr (hm.names.mpr ⟨i, fname, k, ho, rfl⟩), fname, k, ho,
        rfl⟩
    · rintro name name' i ⟨fname, k, ho, rfl⟩ ⟨fname', k', ho', rfl⟩
      rw [(ho.unique ho').1]
    · rintro name i i' ⟨fname, k, ho, rfl⟩ ⟨fname', k', ho', he⟩
      exact hs.distinct.names ho ho' he.symm
  rw [List.toFinset_card_of_nodup hm.nodup] at hcard
  rw [Disk.noEntry, ← hm.params, hcard]
  exact le_card_filter_iff

lemma noBlock_iff (hm : Matches p s slots d) (hs : Sound s slots) (hu : Unleaked s) :
    d.noBlock p ↔ AllTaken s.freeBlocks s.fsParams.maxBlockCount := by
  have hcard : (d.names.filter (fun name => d.bytes name != [])).toFinset.card =
      ((Finset.range s.fsParams.maxBlockCount).filter
        (fun b => 0 < b ∧ s.freeBlocks b = .taken)).card := by
    apply card_eq_of_matching (fun name b => ∃ i fname k, Occupied slots i fname k ∧
      fname.bytes = name ∧ 0 < s.sizeOf k ∧ s.blockOf k = b)
    · intro name hname
      obtain ⟨hname, hne⟩ := List.mem_filter.mp (List.mem_toFinset.mp hname)
      obtain ⟨i, fname, k, ho, rfl⟩ := hm.names.mp hname
      rw [hm.bytes ho, bne_iff_ne, contents_nonempty] at hne
      have hk := hs.entries ho
      obtain ⟨-, hpos, hlt⟩ := hs.blocks (.inl hk) hne
      exact ⟨s.blockOf k, Finset.mem_filter.mpr ⟨Finset.mem_range.mpr hlt, hpos, hs.owned hk hne⟩,
        i, fname, k, ho, rfl, hne, rfl⟩
    · intro b hb
      obtain ⟨hlt, hpos, ht⟩ := Finset.mem_filter.mp hb
      rcases hu b (Finset.mem_range.mp hlt) ht with h0 | ⟨k, hk, hz, he⟩
      · omega
      obtain ⟨i, fname, ho⟩ := hs.entered hk
      refine ⟨fname.bytes, List.mem_toFinset.mpr (List.mem_filter.mpr
        ⟨hm.names.mpr ⟨i, fname, k, ho, rfl⟩, ?_⟩), i, fname, k, ho, rfl, hz, he⟩
      rw [hm.bytes ho, bne_iff_ne, contents_nonempty]
      exact hz
    · rintro name name' b ⟨i, fname, k, ho, rfl, hz, rfl⟩ ⟨j, fname', k', ho', rfl, hz', he⟩
      obtain rfl := hs.single (hs.entries ho') (hs.entries ho) hz' hz he
      exact hs.distinct.name_eq ho ho'
    · rintro name b b' ⟨i, fname, k, ho, rfl, hz, rfl⟩ ⟨j, fname', k', ho', he, hz', rfl⟩
      rw [hs.distinct.inumber_eq ho ho' he.symm]
  rw [List.toFinset_card_of_nodup (hm.nodup.filter _)] at hcard
  rw [Disk.noBlock, Disk.nonempty, ← hm.params, hcard, le_card_filter_succ_iff hs.rootBlock.1]
  apply forall₂_congr
  intro b _
  rcases Nat.eq_zero_or_pos b with rfl | hb
  · simp [hs.rootBlock.2]
  · simp [hb]

end Capacity

section Matching

variable {p : TfsParams} {s t : State} {slots : List Slot} {d : Disk} {i k l h b n offset : ℕ}
  {fname : FileName} {name bs : List UInt8}

lemma contents_congr (hz : t.sizeOf k = s.sizeOf k)
    (hb : ∀ i < s.sizeOf k, t.byteAt k i = s.byteAt k i) : t.contents k = s.contents k := by
  rw [State.contents, hz]
  apply List.map_congr_left
  intro i hi
  exact hb i (List.mem_range.mp hi)

lemma take_first (hm : Matches p s slots d) {e : Disk} (he : e.handles = d.handles)
    (hf : FirstFree s.freeOpenFileEntries s.fsParams.maxOpenFilesCount h) :
    e.take p name offset = (e.setHandle h (some (name, offset)), .code h) := by
  have hfind : (List.range p.maxOpenFilesCount).find? (fun h => (e.handles h).isNone) = some h := by
    rw [he, ← hm.params, List.find?_range_eq_some]
    refine ⟨?_, List.mem_range.mpr hf.1, ?_⟩
    · rw [hm.closed hf.not_open]
      rfl
    · intro j hj
      obtain ⟨i, fname, -, hsome⟩ := hm.handles ⟨hj.trans hf.1, hf.2.2 j hj⟩
      rw [hsome]
      rfl
  rw [Disk.take, hfind]

lemma take_none (hm : Matches p s slots d) {e : Disk} (he : e.handles = d.handles)
    (hf : AllTaken s.freeOpenFileEntries s.fsParams.maxOpenFilesCount) :
    e.take p name offset = (e, .code (-1)) := by
  have hfind : (List.range p.maxOpenFilesCount).find? (fun h => (e.handles h).isNone) = none := by
    rw [he, ← hm.params, List.find?_range_eq_none]
    intro j hj
    obtain ⟨i, fname, -, hsome⟩ := hm.handles ⟨hj, hf j hj⟩
    rw [hsome]
    rfl
  rw [Disk.take, hfind]

lemma Matches.opened (hm : Matches p s slots d) (ho : Occupied slots i fname k)
    (hh : h < s.fsParams.maxOpenFilesCount) :
    Matches p (s.opened h k offset) slots (d.setHandle h (some (fname.bytes, offset))) := by
  refine ⟨hm.params, hm.names, hm.nodup, hm.bytes, ?_, ?_⟩
  · intro j hj
    rw [opened_inodeOf, opened_offsetOf]
    by_cases hjh : j = h
    · rw [if_pos hjh, if_pos hjh, hjh]
      exact ⟨i, fname, ho, Function.update_self _ _ _⟩
    · rw [if_neg hjh, if_neg hjh]
      obtain ⟨i', fname', ho', he⟩ := hm.handles (((opened_open hh).mp hj).resolve_left hjh)
      exact ⟨i', fname', ho', (Function.update_of_ne hjh _ _).trans he⟩
  · intro j hj
    rw [opened_open hh, not_or] at hj
    exact (Function.update_of_ne hj.1 _ _).trans (hm.closed hj.2)

lemma Matches.closing (hm : Matches p s slots d) :
    Matches p (s.closed h) slots (d.setHandle h none) := by
  refine ⟨hm.params, hm.names, hm.nodup, hm.bytes, ?_, ?_⟩
  · intro j hj
    obtain ⟨hjh, hj⟩ := closed_open.mp hj
    obtain ⟨i, fname, ho, he⟩ := hm.handles hj
    exact ⟨i, fname, ho, (Function.update_of_ne hjh _ _).trans he⟩
  · intro j hj
    by_cases hjh : j = h
    · rw [hjh]
      exact Function.update_self _ _ _
    · have hclosed : ¬ s.Open j := fun ho => hj (closed_open.mpr ⟨hjh, ho⟩)
      exact (Function.update_of_ne hjh _ _).trans (hm.closed hclosed)

lemma Matches.advanced (hm : Matches p s slots d) (ho : s.Open h)
    (he : d.handles h = some (name, offset)) :
    Matches p (s.advanced h n) slots (d.setHandle h (some (name, offset + n))) := by
  refine ⟨hm.params, hm.names, hm.nodup, hm.bytes, ?_, ?_⟩
  · intro j hj
    rw [advanced_inodeOf, advanced_offsetOf]
    obtain ⟨i, fname, ho', he'⟩ := hm.handles hj
    refine ⟨i, fname, ho', ?_⟩
    split_ifs with hjh
    · rw [hjh, he] at he'
      cases he'
      rw [hjh]
      exact Function.update_self _ _ _
    · exact (Function.update_of_ne hjh _ _).trans he'
  · intro j hj
    have hjh : j ≠ h := by
      rintro rfl
      exact hj ho
    exact (Function.update_of_ne hjh _ _).trans (hm.closed hj)

lemma Occupied.same (hs : Sound s slots) {j : ℕ} {other : FileName} (ho : Occupied slots i fname k)
    (ho' : Occupied slots j other l) : fname.bytes = other.bytes ↔ k = l := by
  constructor
  · exact hs.distinct.inumber_eq ho ho'
  · rintro rfl
    exact hs.distinct.name_eq ho ho'

lemma Matches.bytes_update (hm : Matches p s slots d) (hs : Sound s slots)
    (ho : Occupied slots i fname k) (hbs : t.contents k = bs)
    (hother : ∀ {l}, s.Linked l → l ≠ k → t.contents l = s.contents l) {j : ℕ} {other : FileName}
    (ho' : Occupied slots j other l) :
    Function.update d.bytes fname.bytes bs other.bytes = t.contents l := by
  rw [Function.update_apply]
  split_ifs with he
  · obtain rfl := (ho'.same hs ho).mp he
    exact hbs.symm
  · rw [hother (hs.entries ho') (fun hlk => he ((ho'.same hs ho).mpr hlk))]
    exact hm.bytes ho'

lemma Matches.truncated (hm : Matches p s slots d) (hs : Sound s slots)
    (ho : Occupied slots i fname k) :
    Matches p (s.truncated k) slots (d.setBytes fname.bytes []) := by
  refine ⟨hm.params, hm.names, hm.nodup, hm.bytes_update hs ho ?_ ?_, hm.handles, hm.closed⟩
  · rw [State.contents, truncated_sizeOf, if_pos rfl]
    rfl
  · intro l _ hlk
    apply contents_congr
    · rw [truncated_sizeOf, if_neg hlk]
    · intro i _
      rw [State.byteAt, truncated_blockOf]
      rfl

lemma newInode_contents (hlk : l ≠ k) : (s.newInode k).contents l = s.contents l := by
  apply contents_congr
  · rw [newInode_sizeOf, if_neg hlk]
  · intro i _
    rw [State.byteAt, newInode_blockOf hlk]
    rfl

lemma Matches.spoiled (hm : Matches p s slots d) (hs : Sound s slots)
    (hf : s.freeinodeTs k = .free) :
    Matches p (s.newInode k) slots d :=
  ⟨hm.params, hm.names, hm.nodup, fun ho =>
    (hm.bytes ho).trans (newInode_contents (ne_of_free hf (hs.entries ho))).symm, hm.handles,
    hm.closed⟩

lemma contents_frame (hs : Sound s slots) (hl : s.Linked l) (hz : t.sizeOf l = s.sizeOf l)
    (hp : t.fsParams = s.fsParams) (hb : t.blockOf l = s.blockOf l)
    (hd : ∀ x, s.fsParams.blockSize ≤ x → t.fsData x = s.fsData x) : t.contents l = s.contents l :=
  contents_congr hz (fun _ hi => byteAt_frame hp hb hd (hs.blocks (.inl hl) (by omega)).2.1)

lemma created_contents (hs : Sound s slots) (hl : s.Linked l) (hlk : l ≠ k)
    (hn : i < s.maxDirEntries) : (s.created k i name).contents l = s.contents l := by
  apply contents_frame (t := s.created k i name) hs hl (by rw [created_sizeOf, if_neg hlk]) rfl
  · exact newInode_blockOf hlk
  · intro x hx
    have hbelow := entry_below hn
    exact filledData_outside _ _ _ _ x (.inr (by omega))

lemma Matches.created (hm : Matches p s slots d) (hs : Sound s slots) (hf : s.freeinodeTs k = .free)
    (hno : ∀ i other l, Occupied slots i other l → other.bytes ≠ fname.bytes)
    (hi : i ≤ slots.length) (hn : i < s.maxDirEntries)
    (hv : slots[i]? = some none ∨ i = slots.length) :
    Matches p (s.created k i name) (place slots i (some (fname, k)))
      ({ d with names := fname.bytes :: d.names }.setBytes fname.bytes []) := by
  refine ⟨hm.params, ?_, List.nodup_cons.mpr ⟨?_, hm.nodup⟩, ?_, ?_, hm.closed⟩
  · intro other
    rw [show (Disk.setBytes _ fname.bytes []).names = fname.bytes :: d.names from rfl,
      List.mem_cons, hm.names]
    constructor
    · rintro (rfl | ⟨j, a, l, ho, he⟩)
      · exact ⟨i, fname, k, (occupied_place hi).mpr (.inl ⟨rfl, rfl⟩), rfl⟩
      · exact ⟨j, a, l, (occupied_place hi).mpr (.inr ⟨vacant_free hv ho, ho⟩), he⟩
    · rintro ⟨j, a, l, ho, rfl⟩
      rcases (occupied_place hi).mp ho with ⟨-, hs⟩ | ⟨-, ho⟩
      · cases hs
        exact .inl rfl
      · exact .inr ⟨j, a, l, ho, rfl⟩
  · intro hmem
    obtain ⟨j, a, l, ho, he⟩ := hm.names.mp hmem
    exact hno j a l ho he
  · intro j a l ho
    show Function.update d.bytes fname.bytes [] a.bytes = _
    rcases (occupied_place hi).mp ho with ⟨-, hslot⟩ | ⟨-, ho⟩
    · cases hslot
      rw [Function.update_self, State.contents, created_sizeOf, if_pos rfl]
      rfl
    · have hlk := ne_of_free hf (hs.entries ho)
      rw [Function.update_of_ne (hno j a l ho), hm.bytes ho]
      exact (created_contents hs (hs.entries ho) hlk hn).symm
  · intro j hj
    obtain ⟨i', a, ho, he⟩ := hm.handles hj
    exact ⟨i', a, (occupied_place hi).mpr (.inr ⟨vacant_free hv ho, ho⟩), he⟩

lemma Matches.unlinked (hm : Matches p s slots d) (hs : Sound s slots)
    (ho : Occupied slots i fname k) (hname : fname.bytes = text name)
    (hopen : ∀ h, s.Open h → s.inodeOf h ≠ k) :
    Matches p (s.unlinked k i name) (place slots i none)
      { d with names := d.names.filter (fun other => other != text name) } := by
  have hi := (List.getElem?_eq_some_iff.mp ho).1
  have hne : ∀ {j a l}, Occupied slots j a l → (j ≠ i ↔ a.bytes ≠ text name) := by
    intro j a l ho'
    rw [← hname]
    apply not_congr
    constructor
    · rintro rfl
      rw [(ho'.unique ho).1]
    · exact hs.distinct.names ho' ho
  refine ⟨hm.params, ?_, hm.nodup.filter _, ?_, ?_, hm.closed⟩
  · intro other
    rw [List.mem_filter, hm.names, bne_iff_ne]
    constructor
    · rintro ⟨⟨j, a, l, ho', rfl⟩, hother⟩
      exact ⟨j, a, l, (occupied_cleared hi.le).mpr ⟨(hne ho').mpr hother, ho'⟩, rfl⟩
    · rintro ⟨j, a, l, ho', rfl⟩
      obtain ⟨hji, ho'⟩ := (occupied_cleared hi.le).mp ho'
      exact ⟨⟨j, a, l, ho', rfl⟩, (hne ho').mp hji⟩
  · intro j a l ho'
    obtain ⟨-, ho'⟩ := (occupied_cleared hi.le).mp ho'
    refine (hm.bytes ho').trans
      (contents_frame (t := s.unlinked k i name) hs (hs.entries ho') rfl rfl rfl ?_).symm
    intro x hx
    have hbelow := entry_below (s := s) (hi.trans_le hs.listed.room)
    exact clearedData_outside _ _ x (.inr (by omega))
  · intro j hj
    obtain ⟨i', a, ho', he⟩ := hm.handles hj
    refine ⟨i', a, (occupied_cleared hi.le).mpr ⟨?_, ho'⟩, he⟩
    rintro rfl
    exact hopen j hj (ho'.unique ho).2

lemma contents_wrote (hw : Writable s h b bs) (hoff : s.offsetOf h ≤ s.sizeOf (s.inodeOf h)) :
    (s.wrote h b bs).contents (s.inodeOf h) =
      Disk.overwrite (s.contents (s.inodeOf h)) (s.offsetOf h) bs := by
  have hown : s.contents (s.inodeOf h) =
      readMem s.fsData (b * s.fsParams.blockSize) (s.sizeOf (s.inodeOf h)) := by
    rcases Nat.eq_zero_or_pos (s.sizeOf (s.inodeOf h)) with hz | hz
    · rw [State.contents, hz]
      rfl
    · rw [State.contents, hw.old hz]
  rw [hown, State.contents, wrote_sizeOf, if_pos rfl, wrote_blockOf, if_pos rfl]
  exact readMem_writeMem_over hoff

lemma contents_wrote_other (hs : Sound s slots) (hw : Writable s h b bs)
    (hk : s.Linked (s.inodeOf h)) (hl : s.Linked l) (hlk : l ≠ s.inodeOf h) :
    (s.wrote h b bs).contents l = s.contents l := by
  apply contents_congr
  · rw [wrote_sizeOf, if_neg hlk]
  · intro i hi
    have hbl : s.blockOf l ≠ b := fun he =>
      hlk (hs.writable hk hw.fresh hw.old hl (Nat.zero_lt_of_lt hi) he)
    have hsize := hs.sizes (.inl hl)
    exact wrote_byteAt_other hlk hbl hw.fits (by omega)

lemma Matches.wrote (hm : Matches p s slots d) (hs : Sound s slots) (hw : Writable s h b bs)
    (hoff : s.offsetOf h ≤ s.sizeOf (s.inodeOf h)) (ho : Occupied slots i fname (s.inodeOf h))
    (hd : d.handles h = some (fname.bytes, s.offsetOf h)) :
    Matches p (s.wrote h b bs) slots
      ((d.setBytes fname.bytes (Disk.overwrite (d.bytes fname.bytes) (s.offsetOf h) bs)).setHandle h
        (some (fname.bytes, s.offsetOf h + bs.length))) := by
  have hadvanced := hm.advanced (n := bs.length) hw.isOpen hd
  refine ⟨hm.params, hm.names, hm.nodup, hm.bytes_update hs ho ?_ ?_, ?_, hadvanced.closed⟩
  · rw [contents_wrote hw hoff, hm.bytes ho]
  · intro l hl hlk
    exact contents_wrote_other hs hw (hs.entries ho) hl hlk
  · intro j hj
    exact hadvanced.handles hj

end Matching

end MessageBroker.Fs
