import MessageBroker.Lib.Monitor
import MessageBroker.Fs.Refinement

/-! Threads that share TécnicoFS: under g_library_mutex the calls are cut into their accesses to
the tables and to the bytes of the blocks. -/

namespace MessageBroker.Fs

open MessageBroker.Lib

section Accesses

abbrev Access (α : Type) := Code State Crash α

def look {α : Type} (f : State → Except Crash α) : Access α :=
  .atomic (fun s => (f s).map (fun a => (s, a)))

def change (f : State → Except Crash State) : Access Unit :=
  .atomic (fun s => (f s).map (fun t => (t, ())))

/-- memcpy into fs_data, byte by byte. -/
def copyIn (a : ℕ) : List UInt8 → Access Unit
  | [] => pure ()
  | b :: bs => do
    change (fun s => .ok (s.setData a [b]))
    copyIn (a + 1) bs

def copyOut (a : ℕ) : ℕ → Access (List UInt8)
  | 0 => pure []
  | n + 1 => do
    let b ← look (fun s => .ok (s.fsData a))
    let bs ← copyOut (a + 1) n
    pure (b :: bs)

def openCode (name : Option (List UInt8)) (mode : ℕ) : Access Reply :=
  if ¬ validPathname name then pure (.code (-1))
  else do
    let rootDirInode ← look (fun s => inodeGet s rootDirInum)
    let inum ← look (fun s => tfsLookup s name rootDirInode)
    if 0 ≤ inum then do
      let inode ← look (fun s => inodeGet s inum)
      if oTrunc mode then change (fun s => truncate s inode) else pure ()
      let offset ← look (fun s => .ok (if oAppend mode then (s.inodeTable inode).iSize else 0))
      let ret ← .atomic (fun s => .ok (addToOpenFileTable s inum offset))
      pure (.code ret)
    else if oCreat mode then do
      let inum ← .atomic (fun s => inodeCreate s .file)
      if inum = -1 then pure (.code (-1))
      else do
        let added ← .atomic (fun s => addDirEntry s rootDirInode (subName name) inum)
        if added = -1 then do
          change (fun s => inodeDelete s inum)
          pure (.code (-1))
        else do
          change (fun s => .ok { s with history := { s.history with
            linked := text (subName name) :: s.history.linked } })
          let ret ← .atomic (fun s => .ok (addToOpenFileTable s inum 0))
          pure (.code ret)
    else pure (.code (-1))

def closeCode (fhandle : ℤ) : Access Reply := do
  match ← look (fun s => .ok (getOpenFileEntry s fhandle)) with
  | none => pure (.code (-1))
  | some _ => do
    change (fun s => removeFromOpenFileTable s fhandle)
    pure (.code 0)

def storeBlockCode (file inode : ℕ) (buffer : List UInt8) (n : ℕ) : Access Reply := do
  let block ← look (fun s => dataBlockGet s (s.inodeTable inode).iDataBlock)
  let offset ← look (fun s => .ok (s.openFileTable file).ofOffset)
  look (fun s => if s.dataSize < block + offset + n ∨ buffer.length < n then .error .outOfBounds
    else .ok ())
  copyIn (block + offset) (buffer.take n)
  change (fun s => .ok (s.setEntry file
    { s.openFileTable file with ofOffset := (offset + n) % 2 ^ 64 }))
  change (fun s => .ok (raiseSize s inode ((offset + n) % 2 ^ 64)))
  change (fun s => .ok { s with history := { s.history with
    stored := Function.update s.history.stored (s.history.handleFile file)
      (storeBytes (s.history.stored (s.history.handleFile file)) offset (buffer.take n)) } })
  pure (.code n)

def writeBytesCode (file inode : ℕ) (buffer : List UInt8) (n : ℕ) : Access Reply := do
  let iSize ← look (fun s => .ok (s.inodeTable inode).iSize)
  if iSize = 0 then do
    let bnum ← .atomic dataBlockAlloc
    if bnum = -1 then pure (.code (-1))
    else do
      change (fun s => .ok (s.setInode inode { s.inodeTable inode with iDataBlock := bnum }))
      change (fun s => .ok { s with history := { s.history with
        blockFile := Function.update s.history.blockFile bnum.toNat (s.history.handleFile file) } })
      storeBlockCode file inode buffer n
  else storeBlockCode file inode buffer n

def writeCode (fhandle : ℤ) (buffer : List UInt8) (toWrite : ℕ) : Access Reply := do
  match ← look (fun s => .ok (getOpenFileEntry s fhandle)) with
  | none => pure (.code (-1))
  | some file => do
    let inode ← look (fun s => inodeGet s (s.openFileTable file).ofInumber)
    let n ← look (fun s => .ok (writeLength s.fsParams.blockSize (s.openFileTable file).ofOffset
      toWrite))
    if 0 < n then writeBytesCode file inode buffer n else pure (.code n)

def readCode (fhandle : ℤ) (room len : ℕ) : Access Reply := do
  match ← look (fun s => .ok (getOpenFileEntry s fhandle)) with
  | none => pure (.code (-1))
  | some file => do
    let inode ← look (fun s => inodeGet s (s.openFileTable file).ofInumber)
    let offset ← look (fun s => .ok (s.openFileTable file).ofOffset)
    let n ← look (fun s => .ok (readLength (s.inodeTable inode).iSize offset len))
    if 0 < n then do
      let block ← look (fun s => dataBlockGet s (s.inodeTable inode).iDataBlock)
      look (fun s => if s.dataSize < block + offset + n ∨ room < n then .error .outOfBounds
        else .ok ())
      let bytes ← copyOut (block + offset) n
      change (fun s => .ok (s.setEntry file
        { s.openFileTable file with ofOffset := (offset + n) % 2 ^ 64 }))
      pure ⟨n, bytes⟩
    else pure (.code n)

def unlinkCode (target : Option (List UInt8)) : Access Reply :=
  if ¬ validPathname target then pure (.code (-1))
  else do
    let rootDirInode ← look (fun s => inodeGet s rootDirInum)
    let inum ← look (fun s => tfsLookup s target rootDirInode)
    if inum = -1 then pure (.code (-1))
    else do
      change (fun s => inodeDelete s inum)
      let cleared ← .atomic (fun s => clearDirEntry s rootDirInode (subName target))
      if cleared = -1 then pure (.code (-1))
      else do
        change (fun s => .ok { s with history := { s.history with
          linked := s.history.linked.filter (fun name => name != text (subName target)) } })
        pure (.code 0)

def tfsCode : Call → Access Reply
  | .open name mode => openCode name mode
  | .close fhandle => closeCode fhandle
  | .write fhandle buffer toWrite => writeCode fhandle buffer toWrite
  | .read fhandle room len => readCode fhandle room len
  | .unlink target => unlinkCode target

section Runs

variable {α β : Type}

lemma run_look (f : State → Except Crash α) (k : α → Access β) (s : State) :
    (look f >>= k).run s = f s >>= fun a => (k a).run s := by
  rw [Code.run_bind, look, Code.run_atomic]
  cases f s <;> rfl

lemma run_change (f : State → Except Crash State) (k : Unit → Access β) (s : State) :
    (change f >>= k).run s = f s >>= fun t => (k ()).run t := by
  rw [Code.run_bind, change, Code.run_atomic]
  cases f s <;> rfl

lemma run_atomic (f : State → Except Crash (State × α)) (k : α → Access β) (s : State) :
    (Code.atomic f >>= k).run s = f s >>= fun x => (k x.2).run x.1 := by
  rw [Code.run_bind, Code.run_atomic]

lemma run_pure (a : α) (s : State) : (pure a : Access α).run s = .ok (s, a) := rfl

lemma run_ite (c : Prop) [Decidable c] (a b : Access α) (s : State) :
    (if c then a else b).run s = if c then a.run s else b.run s :=
  apply_ite (fun code : Access α => code.run s) c a b

lemma error_bind (e : Crash) (k : α → Except Crash β) : (Except.error e >>= k) = .error e := rfl

lemma ok_bind (a : α) (k : α → Except Crash β) : (Except.ok a >>= k) = k a := rfl

lemma writeMem_cons (m : ℕ → UInt8) (a : ℕ) (b : UInt8) (bs : List UInt8) :
    writeMem (writeMem m a [b]) (a + 1) bs = writeMem m a (b :: bs) := by
  funext x
  rcases lt_trichotomy x a with hx | rfl | hx
  · rw [writeMem_out (.inl (by omega)), writeMem_out (.inl hx), writeMem_out (.inl hx)]
  · rw [writeMem_out (.inl (Nat.lt_succ_self _))]
    simp [writeMem]
  · by_cases hin : x < a + 1 + bs.length
    · obtain ⟨i, rfl⟩ : ∃ i, x = a + 1 + i := ⟨x - (a + 1), by omega⟩
      have hlast : i + 1 < (b :: bs).length := by
        rw [List.length_cons]
        omega
      rw [writeMem_in (by omega), Nat.add_assoc, Nat.add_comm 1 i, writeMem_in hlast]
      rfl
    · rw [writeMem_out (.inr (by omega)), writeMem_out (.inr (by simp; omega)),
        writeMem_out (.inr (by simp; omega))]

lemma copyIn_run (a : ℕ) (bs : List UInt8) (k : Unit → Access β) (s : State) :
    (copyIn a bs >>= k).run s = (k ()).run (s.setData a bs) := by
  have hcopy : (copyIn a bs).run s = .ok (s.setData a bs, ()) := by
    induction bs generalizing a s with
    | nil =>
      have hnone : writeMem s.fsData a [] = s.fsData :=
        funext (fun x => writeMem_out (by simp; omega))
      rw [State.setData, hnone]
      rfl
    | cons b bs ih =>
      rw [copyIn, run_change, ok_bind, ih, State.setData, State.setData, State.setData]
      exact congrArg (fun m => Except.ok ({ s with fsData := m }, ()))
        (writeMem_cons s.fsData a b bs)
  rw [Code.run_bind, hcopy, ok_bind]

lemma copyOut_run (a n : ℕ) (k : List UInt8 → Access β) (s : State) :
    (copyOut a n >>= k).run s = (k (readMem s.fsData a n)).run s := by
  have hcopy : (copyOut a n).run s = .ok (s, readMem s.fsData a n) := by
    induction n generalizing a with
    | zero => rfl
    | succ n ih =>
      rw [copyOut, run_look, ok_bind, Code.run_bind, ih, Nat.add_comm n 1, readMem_add]
      rfl
  rw [Code.run_bind, hcopy, ok_bind]

end Runs

lemma openCode_run (name : Option (List UInt8)) (mode : ℕ) (s : State) :
    (openCode name mode).run s = tfsOpen s name mode := by
  simp only [openCode, tfsOpen, run_ite, run_look, run_change, run_atomic, run_pure, ok_bind]

lemma closeCode_run (fhandle : ℤ) (s : State) : (closeCode fhandle).run s = tfsClose s fhandle := by
  rw [closeCode, tfsClose, run_look, ok_bind]
  cases getOpenFileEntry s fhandle with
  | none => rfl
  | some file => exact run_change _ _ s

lemma storeBlockCode_run (file inode : ℕ) (buffer : List UInt8) (n : ℕ) (s : State) :
    (storeBlockCode file inode buffer n).run s = storeBlock s file inode buffer n := by
  rw [storeBlockCode, storeBlock, run_look]
  cases dataBlockGet s (s.inodeTable inode).iDataBlock with
  | error e => rw [error_bind, error_bind]
  | ok block =>
    rw [ok_bind, ok_bind, run_look, ok_bind, run_look]
    by_cases hroom : s.dataSize < block + (s.openFileTable file).ofOffset + n ∨ buffer.length < n
    · rw [if_pos hroom, if_pos hroom, error_bind]
    · rw [if_neg hroom, if_neg hroom, ok_bind, copyIn_run, run_change, ok_bind, run_change, ok_bind,
        run_change, ok_bind, run_pure]

lemma writeBytesCode_run (file inode : ℕ) (buffer : List UInt8) (n : ℕ) (s : State) :
    (writeBytesCode file inode buffer n).run s = writeBytes s file inode buffer n := by
  simp only [writeBytesCode, writeBytes, run_ite, run_look, run_change, run_atomic, run_pure,
    ok_bind, storeBlockCode_run]

lemma writeCode_run (fhandle : ℤ) (buffer : List UInt8) (toWrite : ℕ) (s : State) :
    (writeCode fhandle buffer toWrite).run s = tfsWrite s fhandle buffer toWrite := by
  rw [writeCode, tfsWrite, run_look, ok_bind]
  cases getOpenFileEntry s fhandle with
  | none => rfl
  | some file =>
    simp only [run_ite, run_look, run_pure, ok_bind, writeBytesCode_run]

lemma readCode_run (fhandle : ℤ) (room len : ℕ) (s : State) :
    (readCode fhandle room len).run s = tfsRead s fhandle room len := by
  rw [readCode, tfsRead, run_look, ok_bind]
  cases getOpenFileEntry s fhandle with
  | none => rfl
  | some file =>
    dsimp only
    rw [run_look]
    cases inodeGet s (s.openFileTable file).ofInumber with
    | error e => rw [error_bind, error_bind]
    | ok inode =>
      rw [ok_bind, ok_bind, run_look, ok_bind, run_look, ok_bind, run_ite]
      generalize readLength (s.inodeTable inode).iSize (s.openFileTable file).ofOffset len = n
      by_cases hn : 0 < n
      · rw [if_pos hn, if_pos hn, run_look]
        cases dataBlockGet s (s.inodeTable inode).iDataBlock with
        | error e => rw [error_bind, error_bind]
        | ok block =>
          rw [ok_bind, ok_bind, run_look]
          by_cases hroom : s.dataSize < block + (s.openFileTable file).ofOffset + n ∨ room < n
          · rw [if_pos hroom, if_pos hroom, error_bind]
          · rw [if_neg hroom, if_neg hroom, ok_bind, copyOut_run, run_change, ok_bind, run_pure]
      · rw [if_neg hn, if_neg hn, run_pure]

lemma unlinkCode_run (target : Option (List UInt8)) (s : State) :
    (unlinkCode target).run s = tfsUnlink s target := by
  rw [unlinkCode, tfsUnlink, run_ite]
  congr 1
  simp only [run_ite, run_look, run_change, run_atomic, run_pure, ok_bind]

lemma tfsCode_run (c : Call) (s : State) : (tfsCode c).run s = tfsCall s c := by
  cases c with
  | «open» name mode => exact openCode_run name mode s
  | close fhandle => exact closeCode_run fhandle s
  | write fhandle buffer toWrite => exact writeCode_run fhandle buffer toWrite s
  | read fhandle room len => exact readCode_run fhandle room len s
  | unlink target => exact unlinkCode_run target s

end Accesses

section Sharing

variable {p : TfsParams} {mallocs : Mallocs} {s s₀ : State} {slots : List Slot} {d : Disk}
  {c : Call} {T : Type} [DecidableEq T] {m : Monitor T Call State Crash Reply}

def Intrudes (s : State) : Call → Prop
  | .open path mode => oTrunc mode = true ∧ ∃ h < s.fsParams.maxOpenFilesCount,
      s.freeOpenFileEntries h = .taken ∧
        tfsLookup s path rootDirInum = .ok (s.openFileTable h).ofInumber
  | .unlink path => ∃ h < s.fsParams.maxOpenFilesCount, s.freeOpenFileEntries h = .taken ∧
      tfsLookup s path rootDirInum = .ok (s.openFileTable h).ofInumber
  | _ => False

instance (s : State) (c : Call) : Decidable (Intrudes s c) :=
  match c with
  | .open _ _ => inferInstanceAs (Decidable (_ ∧ ∃ h < _, _))
  | .unlink _ => inferInstanceAs (Decidable (∃ h < _, _))
  | .close _ | .write _ _ _ | .read _ _ _ => inferInstanceAs (Decidable False)

def Considerate (s : State) (c : Call) : Prop := c.Stated s.fsParams ∧ ¬ Intrudes s c

instance (s : State) (c : Call) : Decidable (Considerate s c) :=
  inferInstanceAs (Decidable (_ ∧ ¬ _))

lemma Matches.lookup_held (hm : Matches p s slots d) (hs : Sound s slots)
    {path : Option (List UInt8)} (hv : validPathname path) (hh : d.held p (text (subName path))) :
    ∃ h < s.fsParams.maxOpenFilesCount, s.freeOpenFileEntries h = .taken ∧
      tfsLookup s path rootDirInum = .ok (s.openFileTable h).ofInumber := by
  obtain ⟨h, -, hname⟩ := hh
  have ho : s.Open h := by
    by_contra hclosed
    rw [hm.closed hclosed] at hname
    cases hname
  obtain ⟨i, fname, hocc, he⟩ := hm.handles ho
  rw [he] at hname
  refine ⟨h, ho.1, ho.2, ?_⟩
  rw [lookup_eq hs hv hocc (Option.some.inj hname), (hs.handles ho).1]

lemma Matches.intrudes (hm : Matches p s slots d) (hs : Sound s slots) (hd : d.Disturbs p c) :
    Intrudes s c := by
  cases c with
  | «open» path mode => exact ⟨hd.2.1, hm.lookup_held hs hd.1 hd.2.2⟩
  | unlink path => exact hm.lookup_held hs hd.1 hd.2
  | close | write | read => exact hd

def Represents (p : TfsParams) (s : State) (d : Disk) : Prop :=
  ∃ slots, Matches p s slots d ∧ Orderly.Inv s slots

def disk (p : TfsParams) : Object Disk Call Reply Empty where
  start := .empty
  effect d c := some (d.call p c)
  act _ o := o.elim

lemma tfs_implements {code : Call → Access Reply} (hcode : ∀ c s, (code c).run s = tfsCall s c) :
    Implements code (disk p) (Represents p) Considerate := by
  rintro s d c ⟨slots, hm, hi⟩ ⟨hc, hn⟩
  have hd : ¬ d.Disturbs p c := fun hd => hn (hm.intrudes hi.sound hd)
  rw [hm.params] at hc
  obtain ⟨ha, hstated⟩ := hc.admissible hm.params
  obtain ⟨t, r, slots', he, hh⟩ := hi.sound.returns hi.inside ha hstated
  obtain ⟨e, hcall, hm'⟩ := hh.matches hm hi hd
  exact ⟨t, e, r, (hcode c s).trans he, congrArg some hcall, slots', hm', hi.step hm hd hh⟩

omit [DecidableEq T] in
lemma fits_of_stands {code : Call → Access Reply}
    (h : Stands code (Represents p) Considerate m d) : d.Fits p := by
  have hfits : ∀ {s}, Represents p s d → d.Fits p := by
    rintro s ⟨slots, hm, hi⟩
    exact hm.fits hi.sound
  cases h with
  | idle _ hR => exact hfits hR
  | busy _ _ hR => exact hfits hR

theorem threads_linearize {code : Call → Access Reply}
    (hcode : ∀ c s, (code c).run s = tfsCall s c) (hp : p.InRange)
    (h0 : tfsInit p mallocs = .ok (s₀, 0))
    (h : (monitor T code s₀).ReachableBy (Admitted Considerate) m) :
    m.failed = none ∧ ∃ d, (shared (T × ℕ) (disk p)).Reachable d ∧
      Linearized (disk p) d ∧ d.trace = m.trace ∧ d.state.Fits p := by
  obtain ⟨hm, hi⟩ := Matches.init hp h0
  obtain ⟨d, hd, ht⟩ := monitor_linearizes (tfs_implements hcode) ⟨[], hm, hi⟩ h
  exact ⟨ht.running, d, hd, reachable_linearized hd, ht.follows.trace, fits_of_stands ht.stands⟩

def sharing : List (MonitorEvent Bool Call) :=
  [.call true (.open (some [47, 97]) 1), .call false (.open (some [47, 98]) 1), .lock true] ++
    List.replicate 6 (.access true) ++
    [.unlock true, .answer true, .call true (.write 0 [1, 2] 2), .lock true] ++
    List.replicate 15 (.access true) ++ [.unlock true, .lock false, .answer true] ++
    List.replicate 6 (.access false) ++ [.unlock false, .answer false]

theorem threads_linearize_sharing :
    ∃ m, (monitor Bool tfsCode smallDisk).runIf (Admitted Considerate)
        (monitor Bool tfsCode smallDisk).init sharing = some m ∧ m.trace.length = 6 ∧
      m.failed = none ∧ ∃ d, (shared (Bool × ℕ) (disk smallParams)).Reachable d ∧
        Linearized (disk smallParams) d ∧ d.trace = m.trace ∧
        d.state.Fits smallParams := by
  have hrun : ((monitor Bool tfsCode smallDisk).runIf (Admitted Considerate)
      (monitor Bool tfsCode smallDisk).init sharing).map (fun m => m.trace.length) = some 6 := by
    decide +kernel
  obtain ⟨m, hm, hlen⟩ := Option.map_eq_some_iff.mp hrun
  exact ⟨m, hm, hlen, threads_linearize tfsCode_run smallParams_inRange smallDisk_init
    (.runIf .init hm)⟩

end Sharing

end MessageBroker.Fs
