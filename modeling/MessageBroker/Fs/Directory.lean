import MessageBroker.Fs.Operations

/-! The root directory as a list of slots: what each entry of its block means, as far as any
entry was ever used. -/

namespace MessageBroker.Fs

open MessageBroker.Lib

structure FileName where
  bytes : List UInt8
  noNul : 0 ∉ bytes
  nonempty : bytes ≠ []
  short : bytes.length < maxFileName

abbrev Slot := Option (FileName × ℕ)

def nameAt (m : ℕ → UInt8) (entry : ℕ) : List UInt8 := text (readMem m entry maxFileName)

def inumberAt (m : ℕ → UInt8) (entry : ℕ) : ℤ :=
  toInt32 (ofBytes (readMem m (entry + maxFileName) 4))

def Reads (m : ℕ → UInt8) (entry : ℕ) : Slot → Prop
  | some (name, k) => nameAt m entry = name.bytes ∧ inumberAt m entry = (k : ℤ)
  | none => nameAt m entry = [] ∧ inumberAt m entry = -1

/-- The slots ever used come first; the name of an entry above them may be anything. -/
structure Listed (m : ℕ → UInt8) (dirEntry n : ℕ) (slots : List Slot) : Prop where
  room : slots.length ≤ n
  reads : ∀ i slot, slots[i]? = some slot → Reads m (entryAt dirEntry i) slot
  fresh : ∀ i, slots.length ≤ i → i < n → inumberAt m (entryAt dirEntry i) = -1

section Bytes

variable {m m' : ℕ → UInt8} {entry other dirEntry n i j : ℕ} {slots : List Slot}

lemma int32_roundTrip {v : ℤ} (h : -2 ^ 31 ≤ v ∧ v < 2 ^ 31) :
    toInt32 (ofBytes (int32Bytes v)) = v := by
  have hlt : (v % 2 ^ 32).toNat < 256 ^ 4 := by
    have hm := Int.emod_lt_of_pos v (show (0 : ℤ) < 2 ^ 32 by norm_num)
    omega
  rw [int32Bytes, ofBytes_toBytes_of_lt hlt, toInt32]
  split_ifs <;> omega

lemma strncpyBytes_length (src : List UInt8) (n : ℕ) : (strncpyBytes src n).length = n := by
  simp only [strncpyBytes, List.length_append, List.length_take, List.length_replicate]
  omega

lemma text_strncpy {src : List UInt8} (h : strlen src ≤ maxFileName - 1) :
    text (strncpyBytes src (maxFileName - 1) ++ [0]) = text src := by
  have hz : List.replicate (maxFileName - 1 - (text src).length) (0 : UInt8) ++ [0] =
      0 :: List.replicate (maxFileName - 1 - (text src).length) 0 := by
    rw [← List.replicate_succ', List.replicate_succ]
  rw [strlen] at h
  rw [strncpyBytes, List.take_of_length_le h, List.append_assoc, hz]
  exact text_append_nul (text_noNul src) _

def SameOutside (m m' : ℕ → UInt8) (entry : ℕ) : Prop :=
  ∀ x, x < entry ∨ entry + sizeofDirEntry ≤ x → m' x = m x

lemma entryAt_apart (dirEntry : ℕ) (h : i ≠ j) :
    entryAt dirEntry i + sizeofDirEntry ≤ entryAt dirEntry j ∨
      entryAt dirEntry j + sizeofDirEntry ≤ entryAt dirEntry i := by
  simp only [entryAt, sizeofDirEntry]
  omega

lemma entry_congr (h : ∀ x, entry ≤ x → x < entry + sizeofDirEntry → m' x = m x) :
    nameAt m' entry = nameAt m entry ∧ inumberAt m' entry = inumberAt m entry := by
  simp only [sizeofDirEntry] at h
  constructor
  · apply congrArg text
    apply readMem_congr
    intro i hi
    simp only [maxFileName] at hi
    exact h _ (by omega) (by omega)
  · rw [inumberAt, inumberAt]
    congr 2
    apply readMem_congr
    intro i hi
    simp only [maxFileName]
    exact h _ (by omega) (by omega)

lemma Reads.congr {slot : Slot} (hr : Reads m entry slot)
    (h : ∀ x, entry ≤ x → x < entry + sizeofDirEntry → m' x = m x) : Reads m' entry slot := by
  obtain ⟨hn, hk⟩ := entry_congr h
  cases slot with
  | none => exact ⟨hn.trans hr.1, hk.trans hr.2⟩
  | some x => exact ⟨hn.trans hr.1, hk.trans hr.2⟩

def clearedData (m : ℕ → UInt8) (entry : ℕ) : ℕ → UInt8 :=
  writeMem (writeMem m (entry + maxFileName) (int32Bytes (-1))) entry (List.replicate maxFileName 0)

def filledData (m : ℕ → UInt8) (entry : ℕ) (subName : List UInt8) (k : ℤ) : ℕ → UInt8 :=
  writeMem (writeMem (writeMem m (entry + maxFileName) (int32Bytes k)) entry
    (strncpyBytes subName (maxFileName - 1))) (entry + (maxFileName - 1)) [0]

lemma int32Bytes_length (v : ℤ) : (int32Bytes v).length = 4 := toBytes_length _ _

lemma clearedData_entry (m : ℕ → UInt8) (entry : ℕ) :
    nameAt (clearedData m entry) entry = [] ∧ inumberAt (clearedData m entry) entry = -1 := by
  constructor
  · rw [nameAt, clearedData, readMem_writeMem_eq List.length_replicate]
    rfl
  · rw [inumberAt, clearedData, readMem_writeMem_apart (by simp [maxFileName]),
      readMem_writeMem_eq (int32Bytes_length _)]
    exact int32_roundTrip (by norm_num)

lemma filledData_entry (m : ℕ → UInt8) (entry : ℕ) {subName : List UInt8} {k : ℕ}
    (hs : strlen subName ≤ maxFileName - 1) (hk : k < 2 ^ 31) :
    nameAt (filledData m entry subName k) entry = text subName ∧
      inumberAt (filledData m entry subName k) entry = (k : ℤ) := by
  have hlen := strncpyBytes_length subName (maxFileName - 1)
  constructor
  · have hsplit := readMem_add (filledData m entry subName k) entry (maxFileName - 1) 1
    rw [filledData, readMem_writeMem_apart (.inl le_rfl), readMem_writeMem_eq hlen,
      readMem_writeMem_eq List.length_singleton] at hsplit
    rw [nameAt, filledData, show maxFileName = maxFileName - 1 + 1 from rfl]
    exact (congrArg text hsplit).trans (text_strncpy hs)
  · rw [inumberAt, filledData, readMem_writeMem_apart (.inr (by simp [maxFileName])),
      readMem_writeMem_apart (.inr (by rw [hlen]; simp [maxFileName])),
      readMem_writeMem_eq (int32Bytes_length _)]
    exact int32_roundTrip (by omega)

lemma clearedData_outside (m : ℕ → UInt8) (entry : ℕ) :
    SameOutside m (clearedData m entry) entry := by
  intro x hx
  have hlen := int32Bytes_length (-1)
  simp only [sizeofDirEntry] at hx
  rw [clearedData, writeMem_out (by simp only [List.length_replicate, maxFileName]; omega),
    writeMem_out (by simp only [maxFileName]; omega)]

lemma filledData_outside (m : ℕ → UInt8) (entry : ℕ) (subName : List UInt8) (k : ℤ) :
    SameOutside m (filledData m entry subName k) entry := by
  intro x hx
  have hlen := int32Bytes_length k
  have hname := strncpyBytes_length subName (maxFileName - 1)
  simp only [sizeofDirEntry, maxFileName] at hx hname
  rw [filledData, writeMem_out (by simp only [List.length_singleton, maxFileName]; omega),
    writeMem_out (by simp only [maxFileName]; omega),
    writeMem_out (by simp only [maxFileName]; omega)]

lemma Listed.frame (h : Listed m dirEntry n slots)
    (hm : ∀ x, dirEntry ≤ x → x < dirEntry + sizeofDirEntry * n → m' x = m x) :
    Listed m' dirEntry n slots := by
  have hroom := h.room
  have hin : ∀ i < n, ∀ x, entryAt dirEntry i ≤ x → x < entryAt dirEntry i + sizeofDirEntry →
      m' x = m x := by
    intro i hi x h₁ h₂
    simp only [entryAt, sizeofDirEntry] at h₁ h₂ hm
    exact hm x (by omega) (by omega)
  refine ⟨hroom, ?_, ?_⟩
  · intro i slot hi
    have hlt := (List.getElem?_eq_some_iff.mp hi).1
    exact (h.reads i slot hi).congr (hin i (by omega))
  · intro i hi hn
    rw [(entry_congr (hin i hn)).2]
    exact h.fresh i hi hn

lemma Listed.set (h : Listed m dirEntry n slots) {slot : Slot} (hi : i < slots.length)
    (ho : SameOutside m m' (entryAt dirEntry i)) (hr : Reads m' (entryAt dirEntry i) slot) :
    Listed m' dirEntry n (slots.set i slot) := by
  have hsame : ∀ j, j ≠ i → ∀ x, entryAt dirEntry j ≤ x →
      x < entryAt dirEntry j + sizeofDirEntry → m' x = m x := by
    intro j hj x h₁ h₂
    apply ho
    rcases entryAt_apart dirEntry hj with hd | hd
    · exact .inl (by omega)
    · exact .inr (by omega)
  refine ⟨by rw [List.length_set]; exact h.room, ?_, ?_⟩
  · intro j slot' hj
    by_cases hji : j = i
    · subst hji
      rw [List.getElem?_set_self hi] at hj
      cases Option.some.inj hj
      exact hr
    · rw [List.getElem?_set_ne (Ne.symm hji)] at hj
      exact (h.reads j slot' hj).congr (hsame j hji)
  · intro j hj hn
    rw [List.length_set] at hj
    rw [(entry_congr (hsame j (by omega))).2]
    exact h.fresh j hj hn

lemma Listed.append (h : Listed m dirEntry n slots) {slot : Slot} (hi : slots.length < n)
    (ho : SameOutside m m' (entryAt dirEntry slots.length))
    (hr : Reads m' (entryAt dirEntry slots.length) slot) :
    Listed m' dirEntry n (slots ++ [slot]) := by
  have hsame : ∀ j, j ≠ slots.length → ∀ x, entryAt dirEntry j ≤ x →
      x < entryAt dirEntry j + sizeofDirEntry → m' x = m x := by
    intro j hj x h₁ h₂
    apply ho
    rcases entryAt_apart dirEntry hj with hd | hd
    · exact .inl (by omega)
    · exact .inr (by omega)
  have hlen : (slots ++ [slot]).length = slots.length + 1 := by simp
  refine ⟨by omega, ?_, ?_⟩
  · intro j slot' hj
    by_cases hji : j < slots.length
    · rw [List.getElem?_append_left hji] at hj
      exact (h.reads j slot' hj).congr (hsame j (by omega))
    · have hlt := (List.getElem?_eq_some_iff.mp hj).1
      have he : j = slots.length := by omega
      subst he
      rw [List.getElem?_concat_length] at hj
      cases Option.some.inj hj
      exact hr
  · intro j hj hn
    rw [hlen] at hj
    rw [(entry_congr (hsame j (by omega))).2]
    exact h.fresh j (by omega) hn

end Bytes

section Searches

variable {s : State} {dirEntry n i : ℕ} {slots : List Slot} {subName : List UInt8}

def Names (slot : Slot) (subName : List UInt8) : Prop :=
  ∃ name k, slot = some (name, k) ∧ name.bytes = text subName

lemma Reads.short {m : ℕ → UInt8} {entry : ℕ} {slot : Slot} (h : Reads m entry slot) :
    (nameAt m entry).length < maxFileName := by
  cases slot with
  | none => rw [h.1]; decide
  | some x => rw [h.1]; exact x.1.short

lemma text_dName {entry : ℕ} {slot : Slot} (h : Reads s.fsData entry slot)
    (he : entry + sizeofDirEntry ≤ s.dataSize) : text (dName s entry) = nameAt s.fsData entry := by
  have hshort := h.short
  simp only [sizeofDirEntry] at he
  have ht : (dName s entry).take maxFileName = readMem s.fsData entry maxFileName := by
    rw [dName, readMem_take (by simp only [maxFileName]; omega)]
  rw [nameAt, ← ht] at hshort ⊢
  exact text_of_take hshort

lemma entry_room (hd : dirEntry + sizeofDirEntry * n ≤ s.dataSize) (hi : i < n) :
    entryAt dirEntry i + sizeofDirEntry ≤ s.dataSize := by
  simp only [entryAt, sizeofDirEntry] at *
  omega

lemma strncmp_name {name : FileName} {mem : List UInt8} (h : text mem = name.bytes) :
    strncmp maxFileName mem subName = 0 ↔ name.bytes = text subName := by
  have hs := name.short
  rw [strncmp_eq_zero, h, List.take_of_length_le hs.le]
  constructor
  · intro he
    have hlen := congrArg List.length he
    rw [List.length_take] at hlen
    rw [he, List.take_of_length_le (by omega)]
  · intro he
    rw [← he, List.take_of_length_le hs.le]

lemma found_iff (h : Listed s.fsData dirEntry n slots)
    (hd : dirEntry + sizeofDirEntry * n ≤ s.dataSize) (hi : i < n) :
    (dInumber s (entryAt dirEntry i) ≠ -1 ∧
        strncmp maxFileName (dName s (entryAt dirEntry i)) subName = 0) ↔
      ∃ slot, slots[i]? = some slot ∧ Names slot subName := by
  by_cases hlt : i < slots.length
  · have hget := List.getElem?_eq_getElem hlt
    have hr := h.reads i _ hget
    have htext := text_dName hr (entry_room hd hi)
    cases hslot : slots[i] with
    | none =>
      rw [hslot] at hr hget
      constructor
      · intro hf
        exact (hf.1 hr.2).elim
      · rintro ⟨slot, hs, name, k, rfl, -⟩
        rw [hget] at hs
        cases hs
    | some x =>
      obtain ⟨name, k⟩ := x
      rw [hslot] at hr hget
      rw [hr.1] at htext
      have hinum : dInumber s (entryAt dirEntry i) ≠ -1 := by
        rw [show dInumber s (entryAt dirEntry i) = (k : ℤ) from hr.2]
        omega
      rw [strncmp_name htext]
      constructor
      · intro hf
        exact ⟨_, hget, name, k, rfl, hf.2⟩
      · rintro ⟨slot, hs, name', k', rfl, hn⟩
        rw [hget] at hs
        cases hs
        exact ⟨hinum, hn⟩
  · constructor
    · intro hf
      exact (hf.1 (h.fresh i (by omega) hi)).elim
    · rintro ⟨slot, hs, -⟩
      exact (hlt (List.getElem?_eq_some_iff.mp hs).1).elim

lemma cleared_iff (h : Listed s.fsData dirEntry n slots)
    (hd : dirEntry + sizeofDirEntry * n ≤ s.dataSize) (hsub : text subName ≠ [])
    (hi : i < slots.length) :
    strcmp (dName s (entryAt dirEntry i)) subName = 0 ↔
      ∃ slot, slots[i]? = some slot ∧ Names slot subName := by
  have hget := List.getElem?_eq_getElem hi
  have hroom := h.room
  have hr := h.reads i _ hget
  rw [strcmp_eq_zero, text_dName hr (entry_room hd (by omega))]
  cases hslot : slots[i] with
  | none =>
    rw [hslot] at hr hget
    rw [hr.1]
    constructor
    · intro he
      exact (hsub he.symm).elim
    · rintro ⟨slot, hs, name, k, rfl, -⟩
      rw [hget] at hs
      cases hs
  | some x =>
    obtain ⟨name, k⟩ := x
    rw [hslot] at hr hget
    rw [hr.1]
    constructor
    · intro he
      exact ⟨_, hget, name, k, rfl, he⟩
    · rintro ⟨slot, hs, name', k', rfl, hn⟩
      rw [hget] at hs
      cases hs
      exact hn

lemma vacant_iff (h : Listed s.fsData dirEntry n slots) (hi : i < n) :
    dInumber s (entryAt dirEntry i) = -1 ↔ slots[i]? = some none ∨ slots.length ≤ i := by
  by_cases hlt : i < slots.length
  · have hget := List.getElem?_eq_getElem hlt
    have hr := h.reads i _ hget
    cases hslot : slots[i] with
    | none =>
      rw [hslot] at hr hget
      exact iff_of_true hr.2 (.inl hget)
    | some x =>
      rw [hslot] at hr hget
      have hinum : dInumber s (entryAt dirEntry i) = (x.2 : ℤ) := hr.2
      apply iff_of_false
      · rw [hinum]
        omega
      · rw [hget]
        simp
        omega
  · exact iff_of_true (h.fresh i (by omega) hi) (.inr (by omega))

def place (slots : List Slot) (i : ℕ) (slot : Slot) : List Slot :=
  if i < slots.length then slots.set i slot else slots ++ [slot]

lemma place_getElem? {slot : Slot} (hi : i ≤ slots.length) (j : ℕ) :
    (place slots i slot)[j]? = if j = i then some slot else slots[j]? := by
  rw [place]
  split_ifs with hlt hji hji
  · rw [hji, List.getElem?_set_self hlt]
  · rw [List.getElem?_set_ne (Ne.symm hji)]
  · have he : j = slots.length := by omega
    rw [he, List.getElem?_concat_length]
  · by_cases hj : j < slots.length
    · rw [List.getElem?_append_left hj]
    · have hs : slots.length ≤ j := by omega
      have hlen : (slots ++ [slot]).length ≤ j := by
        rw [List.length_append, List.length_singleton]
        omega
      rw [List.getElem?_eq_none hlen, List.getElem?_eq_none hs]

lemma Listed.place {m m' : ℕ → UInt8} {slot : Slot} (h : Listed m dirEntry n slots)
    (hi : i ≤ slots.length) (hn : i < n) (ho : SameOutside m m' (entryAt dirEntry i))
    (hr : Reads m' (entryAt dirEntry i) slot) : Listed m' dirEntry n (place slots i slot) := by
  rw [Fs.place]
  split_ifs with hlt
  · exact h.set hlt ho hr
  · have he : i = slots.length := by omega
    subst he
    exact h.append hn ho hr

def Occupied (slots : List Slot) (i : ℕ) (name : FileName) (k : ℕ) : Prop :=
  slots[i]? = some (some (name, k))

structure Distinct (slots : List Slot) : Prop where
  names : ∀ {i j a b k l}, Occupied slots i a k → Occupied slots j b l → a.bytes = b.bytes → i = j
  inumbers : ∀ {i j a b k}, Occupied slots i a k → Occupied slots j b k → i = j

section Entries

variable {slots : List Slot} {i j k l : ℕ} {a b : FileName}

lemma Occupied.unique (ho : Occupied slots i a k) (ho' : Occupied slots i b l) : a = b ∧ k = l := by
  rw [Occupied, ho'] at ho
  cases ho
  exact ⟨rfl, rfl⟩

lemma Distinct.inumber_eq (h : Distinct slots) (ho : Occupied slots i a k)
    (ho' : Occupied slots j b l) (he : a.bytes = b.bytes) : k = l := by
  obtain rfl := h.names ho ho' he
  exact (ho.unique ho').2

lemma Distinct.name_eq (h : Distinct slots) (ho : Occupied slots i a k)
    (ho' : Occupied slots j b k) : a.bytes = b.bytes := by
  obtain rfl := h.inumbers ho ho'
  rw [(ho.unique ho').1]

end Entries

variable {root : ℕ}

structure Rooted (s : State) (root dirEntry : ℕ) (slots : List Slot) : Prop where
  directory : (s.inodeTable root).iNodeType = .directory
  block : dataBlockGet s (s.inodeTable root).iDataBlock = .ok dirEntry
  room : dirEntry + sizeofDirEntry * s.maxDirEntries ≤ s.dataSize
  listed : Listed s.fsData dirEntry s.maxDirEntries slots

lemma findInDir_cases (h : Rooted s root dirEntry slots) (subName : List UInt8) :
    (∃ i name k, Occupied slots i name k ∧ name.bytes = text subName ∧
        findInDir s root subName = .ok (k : ℤ)) ∨
      ((∀ i name k, Occupied slots i name k → name.bytes ≠ text subName) ∧
        findInDir s root subName = .ok (-1)) := by
  have hfound := fun i hi =>
    @found_iff s dirEntry s.maxDirEntries i slots subName h.listed h.room hi
  simp only [findInDir, h.directory, h.block, ne_eq, not_true_eq_false, if_false, bind, Except.bind]
  cases hf : (List.range s.maxDirEntries).find? (fun i => dInumber s (entryAt dirEntry i) != -1 &&
      strncmp maxFileName (dName s (entryAt dirEntry i)) subName == 0) with
  | some i =>
    obtain ⟨hp, hi, -⟩ := List.find?_range_eq_some.mp hf
    rw [List.mem_range] at hi
    obtain ⟨slot, hget, name, k, rfl, hname⟩ := (hfound i hi).mp (by simpa using hp)
    have hinum : dInumber s (entryAt dirEntry i) = (k : ℤ) := (h.listed.reads i _ hget).2
    exact .inl ⟨i, name, k, hget, hname, congrArg Except.ok hinum⟩
  | none =>
    refine .inr ⟨?_, rfl⟩
    intro i name k hget hname
    have hi := (List.getElem?_eq_some_iff.mp hget).1
    have hroom := h.listed.room
    have hp := (hfound i (by omega)).mpr ⟨_, hget, name, k, rfl, hname⟩
    have hn := List.find?_range_eq_none.mp hf i (by omega)
    simp [hp.1, hp.2] at hn

lemma clearDirEntry_eq (h : Rooted s root dirEntry slots) (hd : Distinct slots) {name : FileName}
    {k : ℕ} (hi : Occupied slots i name k) (hname : name.bytes = text subName) :
    clearDirEntry s root subName =
      .ok ({ s with fsData := clearedData s.fsData (entryAt dirEntry i) }, 0) := by
  have hlt := (List.getElem?_eq_some_iff.mp hi).1
  have hroom := h.listed.room
  have hsub : text subName ≠ [] := hname ▸ name.nonempty
  have hfind : (List.range s.maxDirEntries).find?
      (fun i => strcmp (dName s (entryAt dirEntry i)) subName == 0) = some i := by
    apply List.find?_range_eq_some.mpr
    refine ⟨?_, List.mem_range.mpr (by omega), ?_⟩
    · simpa using (cleared_iff h.listed h.room hsub hlt).mpr ⟨_, hi, name, k, rfl, hname⟩
    · -- an earlier slot of that name would be the same slot
      intro j hj
      have hne : ¬ strcmp (dName s (entryAt dirEntry j)) subName = 0 := by
        rw [cleared_iff h.listed h.room hsub (by omega)]
        rintro ⟨slot, hget, name', k', rfl, hname'⟩
        have he := hd.names hget hi (hname'.trans hname.symm)
        omega
      simpa using hne
  simp only [clearDirEntry, h.directory, h.block, ne_eq, not_true_eq_false, if_false, bind,
    Except.bind, hfind]
  rfl

lemma addDirEntry_cases (h : Rooted s root dirEntry slots) (hs : strlen subName ≠ 0)
    (hl : strlen subName ≤ maxFileName - 1) (k : ℤ) :
    (∃ i, i ≤ slots.length ∧ i < s.maxDirEntries ∧
        (slots[i]? = some none ∨ i = slots.length) ∧
        addDirEntry s root subName k =
          .ok ({ s with fsData := filledData s.fsData (entryAt dirEntry i) subName k }, 0)) ∨
      (addDirEntry s root subName k = .ok (s, -1) ∧ slots.length = s.maxDirEntries ∧
        ∀ i : ℕ, slots[i]? ≠ some none) := by
  have hc : ¬ (strlen subName = 0 ∨ maxFileName - 1 < strlen subName) := by omega
  have hroom := h.listed.room
  have hvacant := fun i hi => vacant_iff (i := i) h.listed hi
  simp only [addDirEntry, hc, h.directory, h.block, ne_eq, not_true_eq_false, if_false, bind,
    Except.bind]
  cases hf : (List.range s.maxDirEntries).find?
      (fun i => dInumber s (entryAt dirEntry i) == -1) with
  | some i =>
    obtain ⟨hp, hi, hmin⟩ := List.find?_range_eq_some.mp hf
    rw [List.mem_range] at hi
    have hv := (hvacant i hi).mp (by simpa using hp)
    have hle : i ≤ slots.length := by
      by_contra hgt
      have hm := hmin slots.length (by omega)
      have hfresh : dInumber s (entryAt dirEntry slots.length) = -1 :=
        h.listed.fresh slots.length le_rfl (by omega)
      simp [hfresh] at hm
    refine .inl ⟨i, hle, hi, ?_, rfl⟩
    rcases hv with hv | hv
    · exact .inl hv
    · exact .inr (by omega)
  | none =>
    have hnone := List.find?_range_eq_none.mp hf
    have hno : ∀ i < s.maxDirEntries, ¬ dInumber s (entryAt dirEntry i) = -1 := by
      intro i hi
      simpa using hnone i hi
    refine .inr ⟨rfl, ?_, ?_⟩
    · by_contra hne
      exact hno slots.length (by omega) ((hvacant _ (by omega)).mpr (.inr le_rfl))
    · intro i hi
      have hlt := (List.getElem?_eq_some_iff.mp hi).1
      exact hno i (by omega) ((hvacant i (by omega)).mpr (.inl hi))

end Searches

end MessageBroker.Fs
