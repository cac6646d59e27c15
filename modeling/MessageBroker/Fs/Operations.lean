import MessageBroker.Lib.TransitionSystem
import MessageBroker.Fs.State

/-! The calls of TécnicoFS, as in fs/operations.c. Each runs under g_library_mutex, so a run is a
sequence of whole calls. -/

namespace MessageBroker.Fs

open MessageBroker.Lib

/-- The bits of tfs_file_mode_t. -/
def oCreat (mode : ℕ) : Bool := mode.testBit 0
def oTrunc (mode : ℕ) : Bool := mode.testBit 1
def oAppend (mode : ℕ) : Bool := mode.testBit 2

/-- A caller's memory: the bytes of a name or of a buffer from the pointer on. -/
inductive Call
  | open (name : Option (List UInt8)) (mode : ℕ)
  | close (fhandle : ℤ)
  | write (fhandle : ℤ) (buffer : List UInt8) (toWrite : ℕ)
  | read (fhandle : ℤ) (room : ℕ) (len : ℕ)
  | unlink (target : Option (List UInt8))
  deriving DecidableEq

/-- What a call returns, with the bytes tfs_read stores in the caller's buffer. -/
structure Reply where
  ret : ℤ
  bytes : List UInt8
  deriving DecidableEq

def Reply.code (ret : ℤ) : Reply := ⟨ret, []⟩

def tfsInit (params : TfsParams) (mallocs : Mallocs) : Except Crash (State × ℤ) := do
  let (s, root) ← inodeCreate (stateInit params mallocs) .directory
  if root ≠ rootDirInum then .ok (s, -1) else .ok (s, 0)

def formatted (params : TfsParams) (mallocs : Mallocs) : State :=
  match tfsInit params mallocs with
  | .ok (s, _) => s
  | .error _ => stateInit params mallocs

def validPathname : Option (List UInt8) → Bool
  | none => false
  | some name => decide (1 < strlen name) && name.headD 0 == 47

def subName (name : Option (List UInt8)) : List UInt8 := (name.getD []).drop 1

def tfsLookup (s : State) (name : Option (List UInt8)) (rootInode : ℕ) : Except Crash ℤ :=
  if ¬ validPathname name then .ok (-1)
  else findInDir s rootInode (subName name)

/-- The block of tfs_open under `mode & TFS_O_TRUNC`. -/
def truncate (s : State) (k : ℕ) : Except Crash State := do
  let s ← if 0 < (s.inodeTable k).iSize then do
      let s ← dataBlockFree s (s.inodeTable k).iDataBlock
      .ok (s.setInode k { s.inodeTable k with iSize := 0 })
    else .ok s
  .ok { s with history := { s.history with
    stored := Function.update s.history.stored (s.history.inodeFile k) (fun _ => none) } }

def tfsOpen (s : State) (name : Option (List UInt8)) (mode : ℕ) : Except Crash (State × Reply) :=
  if ¬ validPathname name then .ok (s, .code (-1))
  else do
    let rootDirInode ← inodeGet s rootDirInum
    let inum ← tfsLookup s name rootDirInode
    if 0 ≤ inum then
      let inode ← inodeGet s inum
      let s ← if oTrunc mode then truncate s inode else .ok s
      let offset := if oAppend mode then (s.inodeTable inode).iSize else 0
      let (s, ret) := addToOpenFileTable s inum offset
      .ok (s, .code ret)
    else if oCreat mode then
      let (s, inum) ← inodeCreate s .file
      if inum = -1 then .ok (s, .code (-1))
      else
        let (s, added) ← addDirEntry s rootDirInode (subName name) inum
        if added = -1 then
          let s ← inodeDelete s inum
          .ok (s, .code (-1))
        else
          let s := { s with history := { s.history with
            linked := text (subName name) :: s.history.linked } }
          let (s, ret) := addToOpenFileTable s inum 0
          .ok (s, .code ret)
    else .ok (s, .code (-1))

def tfsClose (s : State) (fhandle : ℤ) : Except Crash (State × Reply) :=
  match getOpenFileEntry s fhandle with
  | none => .ok (s, .code (-1))
  | some _ => do
    let s ← removeFromOpenFileTable s fhandle
    .ok (s, .code 0)

/-- `to_write`, clipped to the block, in size_t arithmetic. -/
def writeLength (blockSize offset toWrite : ℕ) : ℕ :=
  if blockSize < (toWrite + offset) % 2 ^ 64 then (blockSize + 2 ^ 64 - offset) % 2 ^ 64
  else toWrite

/-- `to_read`, in size_t arithmetic. -/
def readLength (iSize offset len : ℕ) : ℕ :=
  let toRead := (iSize + 2 ^ 64 - offset) % 2 ^ 64
  if len < toRead then len else toRead

def storeBytes (stored : ℕ → Option UInt8) (offset : ℕ) (bs : List UInt8) : ℕ → Option UInt8 :=
  fun i => if offset ≤ i ∧ i < offset + bs.length then bs[i - offset]? else stored i

def raiseSize (s : State) (inode offset : ℕ) : State :=
  if (s.inodeTable inode).iSize < offset then
    s.setInode inode { s.inodeTable inode with iSize := offset }
  else s

/-- The part of tfs_write from data_block_get on. -/
def storeBlock (s : State) (file : ℕ) (inode : ℕ) (buffer : List UInt8) (n : ℕ) :
    Except Crash (State × Reply) := do
  let block ← dataBlockGet s (s.inodeTable inode).iDataBlock
  let offset := (s.openFileTable file).ofOffset
  if s.dataSize < block + offset + n ∨ buffer.length < n then .error .outOfBounds
  else
    let s := s.setData (block + offset) (buffer.take n)
    let offset' := (offset + n) % 2 ^ 64
    let s := s.setEntry file { s.openFileTable file with ofOffset := offset' }
    let s := raiseSize s inode offset'
    .ok ({ s with history := { s.history with
      stored := Function.update s.history.stored (s.history.handleFile file)
        (storeBytes (s.history.stored (s.history.handleFile file)) offset (buffer.take n)) } },
      .code n)

/-- The part of tfs_write behind the clipping, for `n > 0` bytes. -/
def writeBytes (s : State) (file : ℕ) (inode : ℕ) (buffer : List UInt8) (n : ℕ) :
    Except Crash (State × Reply) :=
  if (s.inodeTable inode).iSize = 0 then do
    let (s, bnum) ← dataBlockAlloc s
    if bnum = -1 then .ok (s, .code (-1))
    else
      let s := s.setInode inode { s.inodeTable inode with iDataBlock := bnum }
      storeBlock { s with history := { s.history with
        blockFile := Function.update s.history.blockFile bnum.toNat (s.history.handleFile file) } }
        file inode buffer n
  else storeBlock s file inode buffer n

def tfsWrite (s : State) (fhandle : ℤ) (buffer : List UInt8) (toWrite : ℕ) :
    Except Crash (State × Reply) :=
  match getOpenFileEntry s fhandle with
  | none => .ok (s, .code (-1))
  | some file => do
    let inode ← inodeGet s (s.openFileTable file).ofInumber
    let n := writeLength s.fsParams.blockSize (s.openFileTable file).ofOffset toWrite
    if 0 < n then writeBytes s file inode buffer n else .ok (s, .code n)

def tfsRead (s : State) (fhandle : ℤ) (room len : ℕ) : Except Crash (State × Reply) :=
  match getOpenFileEntry s fhandle with
  | none => .ok (s, .code (-1))
  | some file => do
    let inode ← inodeGet s (s.openFileTable file).ofInumber
    let offset := (s.openFileTable file).ofOffset
    let n := readLength (s.inodeTable inode).iSize offset len
    if 0 < n then
      let block ← dataBlockGet s (s.inodeTable inode).iDataBlock
      if s.dataSize < block + offset + n ∨ room < n then .error .outOfBounds
      else .ok (s.setEntry file { s.openFileTable file with ofOffset := (offset + n) % 2 ^ 64 },
        ⟨n, readMem s.fsData (block + offset) n⟩)
    else .ok (s, .code n)

def tfsUnlink (s : State) (target : Option (List UInt8)) : Except Crash (State × Reply) :=
  if ¬ validPathname target then .ok (s, .code (-1))
  else do
    let rootDirInode ← inodeGet s rootDirInum
    let inum ← tfsLookup s target rootDirInode
    if inum = -1 then .ok (s, .code (-1))
    else
      let s ← inodeDelete s inum
      let (s, cleared) ← clearDirEntry s rootDirInode (subName target)
      if cleared = -1 then .ok (s, .code (-1))
      else .ok ({ s with history := { s.history with
        linked := s.history.linked.filter (fun name => name != text (subName target)) } }, .code 0)

def tfsCall (s : State) : Call → Except Crash (State × Reply)
  | .open name mode => tfsOpen s name mode
  | .close fhandle => tfsClose s fhandle
  | .write fhandle buffer toWrite => tfsWrite s fhandle buffer toWrite
  | .read fhandle room len => tfsRead s fhandle room len
  | .unlink target => tfsUnlink s target

/-- The caller's buffer and fs_data are apart in one address space, and lengths are size_t. -/
def Call.admissible (s : State) : Call → Prop
  | .write _ buffer toWrite => buffer.length + s.dataSize < 2 ^ 64 ∧ toWrite < 2 ^ 64
  | .read _ room len => room + s.dataSize < 2 ^ 64 ∧ len < 2 ^ 64
  | _ => True

instance (s : State) (call : Call) : Decidable (call.admissible s) :=
  match call with
  | .write _ buffer toWrite =>
    inferInstanceAs (Decidable (buffer.length + s.dataSize < 2 ^ 64 ∧ toWrite < 2 ^ 64))
  | .read _ room len => inferInstanceAs (Decidable (room + s.dataSize < 2 ^ 64 ∧ len < 2 ^ 64))
  | .open _ _ | .close _ | .unlink _ => inferInstanceAs (Decidable True)

/-- The runs from `s₀`; a run stops at a call that crashes. -/
def tecnicofs (s₀ : State) : System State Call where
  init := s₀
  step s call :=
    if call.admissible s then (tfsCall s call).toOption.map Prod.fst else none

structure TfsParams.InRange (params : TfsParams) : Prop where
  inodes : params.maxInodeCount < 2 ^ 31
  blocks : params.maxBlockCount < 2 ^ 31
  openFiles : params.maxOpenFilesCount < 2 ^ 31
  data : params.maxBlockCount * params.blockSize < 2 ^ 64

def smallParams : TfsParams := ⟨3, 3, 3, 88⟩

def soiled : Mallocs := ⟨fun _ => ⟨.file, 7, 7⟩, fun _ => 65, fun _ => ⟨7, 7⟩⟩

def smallDisk : State := formatted smallParams soiled

lemma smallParams_inRange : smallParams.InRange :=
  ⟨by decide, by decide, by decide, by decide⟩

lemma smallDisk_init : tfsInit smallParams soiled = .ok (smallDisk, 0) := rfl

end MessageBroker.Fs
