import MessageBroker.Fs.Operations

namespace MessageBroker.Fs

open MessageBroker.Lib

section Params

variable {s t : State} {k : ℤ} {r : Reply}

lemma bind_ok {α β : Type} {x : Except Crash α} {f : α → Except Crash β} {b : β}
    (h : x >>= f = .ok b) : ∃ a, x = .ok a ∧ f a = .ok b := by
  cases x with
  | error c => cases h
  | ok a => exact ⟨a, rfl, h⟩

lemma ok_of_toOption {α : Type} {x : Except Crash α} {a : α} (h : x.toOption = some a) :
    x = .ok a := by
  cases x with
  | error c => cases h
  | ok b => exact congrArg Except.ok (Option.some.inj h)

lemma dataBlockAlloc_params (h : dataBlockAlloc s = .ok (t, k)) : t.fsParams = s.fsParams := by
  rw [dataBlockAlloc] at h
  split at h
  · cases h
  split at h <;> cases h <;> rfl

lemma dataBlockFree_params (h : dataBlockFree s k = .ok t) : t.fsParams = s.fsParams := by
  rw [dataBlockFree] at h
  split at h <;> cases h
  rfl

lemma inodeAlloc_params (h : inodeAlloc s = .ok (t, k)) : t.fsParams = s.fsParams := by
  rw [inodeAlloc] at h
  split at h
  · cases h
  split at h <;> cases h <;> rfl

lemma inodeDelete_params (h : inodeDelete s k = .ok t) : t.fsParams = s.fsParams := by
  rw [inodeDelete] at h
  dsimp only at h
  split_ifs at h
  · obtain ⟨u, hu, h⟩ := bind_ok h
    have hparams : u.fsParams = s.fsParams := dataBlockFree_params hu
    cases h
    exact hparams
  · cases h
    rfl

lemma addDirEntry_params {i : ℕ} {subName : List UInt8} {n : ℤ}
    (h : addDirEntry s i subName n = .ok (t, k)) : t.fsParams = s.fsParams := by
  rw [addDirEntry] at h
  split_ifs at h
  · cases h
    rfl
  · cases h
    rfl
  obtain ⟨dirEntry, -, h⟩ := bind_ok h
  split at h <;> cases h <;> rfl

lemma clearDirEntry_params {i : ℕ} {subName : List UInt8}
    (h : clearDirEntry s i subName = .ok (t, k)) : t.fsParams = s.fsParams := by
  rw [clearDirEntry] at h
  split_ifs at h
  · cases h
    rfl
  obtain ⟨dirEntry, -, h⟩ := bind_ok h
  split at h <;> cases h <;> rfl

lemma inodeCreate_params (h : inodeCreate s .file = .ok (t, k)) : t.fsParams = s.fsParams := by
  rw [inodeCreate] at h
  obtain ⟨⟨u, n⟩, hu, h⟩ := bind_ok h
  have hparams : u.fsParams = s.fsParams := inodeAlloc_params hu
  dsimp only at h
  split_ifs at h <;> cases h <;> exact hparams

lemma addToOpenFileTable_params (s : State) (n : ℤ) (offset : ℕ) :
    (addToOpenFileTable s n offset).1.fsParams = s.fsParams := by
  rw [addToOpenFileTable]
  split <;> rfl

lemma truncate_params {i : ℕ} (h : truncate s i = .ok t) : t.fsParams = s.fsParams := by
  rw [truncate] at h
  dsimp only at h
  split_ifs at h
  · obtain ⟨u, hu, h⟩ := bind_ok h
    have hparams : u.fsParams = s.fsParams := dataBlockFree_params hu
    obtain ⟨v, hv, h⟩ := bind_ok h
    cases hv
    cases h
    exact hparams
  · obtain ⟨u, hu, h⟩ := bind_ok h
    cases hu
    cases h
    rfl

lemma tfsOpen_params {name : Option (List UInt8)} {mode : ℕ}
    (h : tfsOpen s name mode = .ok (t, r)) : t.fsParams = s.fsParams := by
  rw [tfsOpen] at h
  split at h
  · cases h
    rfl
  obtain ⟨root, -, h⟩ := bind_ok h
  obtain ⟨inum, -, h⟩ := bind_ok h
  split at h
  · obtain ⟨inode, -, h⟩ := bind_ok h
    dsimp only at h
    split at h
    · obtain ⟨u, hu, h⟩ := bind_ok h
      have hparams : u.fsParams = s.fsParams := truncate_params hu
      cases h
      exact (addToOpenFileTable_params u _ _).trans hparams
    · cases h
      exact addToOpenFileTable_params s _ _
  split at h
  · obtain ⟨⟨u, k⟩, hu, h⟩ := bind_ok h
    have hcreated : u.fsParams = s.fsParams := inodeCreate_params hu
    dsimp only at h
    split at h
    · cases h
      exact hcreated
    obtain ⟨⟨v, added⟩, hv, h⟩ := bind_ok h
    have hadded : v.fsParams = s.fsParams := (addDirEntry_params hv).trans hcreated
    dsimp only at h
    split at h
    · obtain ⟨w, hw, h⟩ := bind_ok h
      have hdeleted : w.fsParams = s.fsParams := (inodeDelete_params hw).trans hadded
      cases h
      exact hdeleted
    · cases h
      exact (addToOpenFileTable_params _ _ _).trans hadded
  · cases h
    rfl

lemma storeBlock_params {file inode n : ℕ} {buffer : List UInt8}
    (h : storeBlock s file inode buffer n = .ok (t, r)) : t.fsParams = s.fsParams := by
  rw [storeBlock] at h
  obtain ⟨block, -, h⟩ := bind_ok h
  dsimp only at h
  split_ifs at h
  cases h
  rw [raiseSize]
  split_ifs <;> rfl

lemma tfsWrite_params {fh : ℤ} {buffer : List UInt8} {n : ℕ}
    (h : tfsWrite s fh buffer n = .ok (t, r)) : t.fsParams = s.fsParams := by
  rw [tfsWrite] at h
  split at h
  · cases h
    rfl
  obtain ⟨inode, -, h⟩ := bind_ok h
  dsimp only at h
  split_ifs at h
  swap
  · cases h
    rfl
  rw [writeBytes] at h
  split_ifs at h
  · obtain ⟨⟨u, b⟩, hu, h⟩ := bind_ok h
    have hu : u.fsParams = s.fsParams := dataBlockAlloc_params hu
    dsimp only at h
    split_ifs at h
    · cases h
      exact hu
    · exact (storeBlock_params h).trans hu
  · exact storeBlock_params h

lemma tfsRead_params {fh : ℤ} {room len : ℕ}
    (h : tfsRead s fh room len = .ok (t, r)) : t.fsParams = s.fsParams := by
  rw [tfsRead] at h
  split at h
  · cases h
    rfl
  obtain ⟨inode, -, h⟩ := bind_ok h
  dsimp only at h
  split_ifs at h
  · obtain ⟨block, -, h⟩ := bind_ok h
    split_ifs at h
    cases h
    rfl
  · cases h
    rfl

lemma tfsClose_params {fh : ℤ} (h : tfsClose s fh = .ok (t, r)) : t.fsParams = s.fsParams := by
  rw [tfsClose] at h
  split at h
  · cases h
    rfl
  obtain ⟨u, hu, h⟩ := bind_ok h
  rw [removeFromOpenFileTable] at hu
  split_ifs at hu
  cases hu
  cases h
  rfl

lemma tfsUnlink_params {target : Option (List UInt8)}
    (h : tfsUnlink s target = .ok (t, r)) : t.fsParams = s.fsParams := by
  rw [tfsUnlink] at h
  split at h
  · cases h
    rfl
  obtain ⟨root, -, h⟩ := bind_ok h
  obtain ⟨inum, -, h⟩ := bind_ok h
  split at h
  · cases h
    rfl
  obtain ⟨u, hu, h⟩ := bind_ok h
  obtain ⟨⟨v, cleared⟩, hv, h⟩ := bind_ok h
  have hparams : v.fsParams = s.fsParams :=
    (clearDirEntry_params hv).trans (inodeDelete_params hu)
  dsimp only at h
  split_ifs at h <;> cases h <;> exact hparams

lemma tfsCall_params {call : Call} (h : tfsCall s call = .ok (t, r)) :
    t.fsParams = s.fsParams := by
  cases call with
  | «open» name mode => exact tfsOpen_params h
  | close fh => exact tfsClose_params h
  | write fh buffer toWrite => exact tfsWrite_params h
  | read fh room len => exact tfsRead_params h
  | unlink target => exact tfsUnlink_params h

end Params

end MessageBroker.Fs
