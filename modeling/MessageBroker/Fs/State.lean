import MessageBroker.Lib.LittleEndian
import MessageBroker.Lib.Memory
import MessageBroker.Lib.Strings

/-! The state of TécnicoFS, as in fs/state.c: the inode table, the data blocks with the root
directory packed into one of them, the open file table and their allocation maps. Every loop
over a table takes the first entry that meets its test. -/

namespace MessageBroker.Fs

open MessageBroker.Lib

def rootDirInum : ℕ := 0
def maxFileName : ℕ := 40
-- the name and an int
def sizeofDirEntry : ℕ := 44

structure TfsParams where
  maxInodeCount : ℕ
  maxBlockCount : ℕ
  maxOpenFilesCount : ℕ
  blockSize : ℕ
  deriving DecidableEq

inductive InodeType
  | file
  | directory
  deriving DecidableEq

inductive AllocationState
  | free
  | taken
  deriving DecidableEq

structure Inode where
  iNodeType : InodeType
  iSize : ℕ
  iDataBlock : ℤ
  deriving DecidableEq

structure OpenFileEntry where
  ofInumber : ℤ
  ofOffset : ℕ
  deriving DecidableEq

inductive Crash
  | assertion
  | outOfBounds
  | divisionByZero
  deriving DecidableEq

/-- What happened so far, which no function of the source reads. A file is a number of its own
for each regular inode created. -/
structure History where
  inodesCreated : ℕ
  -- the file an inode, or a data block, was last given to
  inodeFile : ℕ → ℕ
  blockFile : ℕ → ℕ
  -- the file a handle was opened on
  handleFile : ℕ → ℕ
  -- the byte last stored at a position of a file since it was created or truncated
  stored : ℕ → ℕ → Option UInt8
  -- the names created and not unlinked since
  linked : List (List UInt8)

structure State where
  fsParams : TfsParams
  inodeTable : ℕ → Inode
  freeinodeTs : ℕ → AllocationState
  fsData : ℕ → UInt8
  freeBlocks : ℕ → AllocationState
  openFileTable : ℕ → OpenFileEntry
  freeOpenFileEntries : ℕ → AllocationState
  history : History

namespace State

variable (s : State)

def maxDirEntries : ℕ := s.fsParams.blockSize / sizeofDirEntry

def dataSize : ℕ := s.fsParams.maxBlockCount * s.fsParams.blockSize

def setInode (k : ℕ) (inode : Inode) : State :=
  { s with inodeTable := Function.update s.inodeTable k inode }

def setInodeState (k : ℕ) (a : AllocationState) : State :=
  { s with freeinodeTs := Function.update s.freeinodeTs k a }

def setBlockState (b : ℕ) (a : AllocationState) : State :=
  { s with freeBlocks := Function.update s.freeBlocks b a }

def setEntry (h : ℕ) (e : OpenFileEntry) : State :=
  { s with openFileTable := Function.update s.openFileTable h e }

def setEntryState (h : ℕ) (a : AllocationState) : State :=
  { s with freeOpenFileEntries := Function.update s.freeOpenFileEntries h a }

def setData (a : ℕ) (bs : List UInt8) : State := { s with fsData := writeMem s.fsData a bs }

end State

def validInumber (s : State) (inumber : ℤ) : Bool :=
  decide (0 ≤ inumber ∧ inumber < s.fsParams.maxInodeCount)

def validBlockNumber (s : State) (blockNumber : ℤ) : Bool :=
  decide (0 ≤ blockNumber ∧ blockNumber < s.fsParams.maxBlockCount)

def validFileHandle (s : State) (fileHandle : ℤ) : Bool :=
  decide (0 ≤ fileHandle ∧ fileHandle < s.fsParams.maxOpenFilesCount)

def dataBlockAlloc (s : State) : Except Crash (State × ℤ) :=
  if s.fsParams.blockSize = 0 ∧ 0 < s.fsParams.maxBlockCount then .error .divisionByZero
  else match (List.range s.fsParams.maxBlockCount).find? (fun i => s.freeBlocks i == .free) with
    | some i => .ok (s.setBlockState i .taken, i)
    | none => .ok (s, -1)

def dataBlockFree (s : State) (blockNumber : ℤ) : Except Crash State :=
  if validBlockNumber s blockNumber then .ok (s.setBlockState blockNumber.toNat .free)
  else .error .assertion

def dataBlockGet (s : State) (blockNumber : ℤ) : Except Crash ℕ :=
  if validBlockNumber s blockNumber then .ok (blockNumber.toNat * s.fsParams.blockSize)
  else .error .assertion

def inodeAlloc (s : State) : Except Crash (State × ℤ) :=
  if s.fsParams.blockSize = 0 ∧ 0 < s.fsParams.maxInodeCount then .error .divisionByZero
  else match (List.range s.fsParams.maxInodeCount).find? (fun i => s.freeinodeTs i == .free) with
    | some inumber => .ok (s.setInodeState inumber .taken, inumber)
    | none => .ok (s, -1)

def inodeGet (s : State) (inumber : ℤ) : Except Crash ℕ :=
  if validInumber s inumber then .ok inumber.toNat else .error .assertion

def inodeDelete (s : State) (inumber : ℤ) : Except Crash State :=
  if ¬ validInumber s inumber then .error .assertion
  else if s.freeinodeTs inumber.toNat ≠ .taken then .error .assertion
  else do
    let inode := s.inodeTable inumber.toNat
    let s ← if 0 < inode.iSize then dataBlockFree s inode.iDataBlock else .ok s
    .ok (s.setInodeState inumber.toNat .free)

def int32Bytes (v : ℤ) : List UInt8 := toBytes 4 (v % 2 ^ 32).toNat

def toInt32 (v : ℕ) : ℤ := if v < 2 ^ 31 then v else (v : ℤ) - 2 ^ 32

def entryAt (dirEntry i : ℕ) : ℕ := dirEntry + sizeofDirEntry * i

def dName (s : State) (entry : ℕ) : List UInt8 := readMem s.fsData entry (s.dataSize - entry)

def dInumber (s : State) (entry : ℕ) : ℤ :=
  toInt32 (ofBytes (readMem s.fsData (entry + maxFileName) 4))

def clearEntries (s : State) (dirEntry : ℕ) : ℕ → State
  | 0 => s
  | n + 1 =>
    (clearEntries s dirEntry n).setData (entryAt dirEntry n + maxFileName) (int32Bytes (-1))

def inodeCreate (s : State) (iType : InodeType) : Except Crash (State × ℤ) := do
  let (s, inumber) ← inodeAlloc s
  if inumber = -1 then .ok (s, -1)
  else
    let k := inumber.toNat
    let s := s.setInode k { s.inodeTable k with iNodeType := iType }
    match iType with
    | .directory =>
      let (s, b) ← dataBlockAlloc s
      if b = -1 then
        let s ← inodeDelete (s.setInode k ⟨.directory, 0, -1⟩) inumber
        .ok (s, -1)
      else
        let s := s.setInode k ⟨.directory, s.fsParams.blockSize, b⟩
        let dirEntry ← dataBlockGet s b
        .ok (clearEntries s dirEntry s.maxDirEntries, inumber)
    | .file =>
      let s := s.setInode k ⟨.file, 0, -1⟩
      .ok ({ s with history := { s.history with
        inodesCreated := s.history.inodesCreated + 1
        inodeFile := Function.update s.history.inodeFile k s.history.inodesCreated
        stored := Function.update s.history.stored s.history.inodesCreated (fun _ => none) } },
        inumber)

def clearDirEntry (s : State) (inode : ℕ) (subName : List UInt8) : Except Crash (State × ℤ) :=
  if (s.inodeTable inode).iNodeType ≠ .directory then .ok (s, -1)
  else do
    let dirEntry ← dataBlockGet s (s.inodeTable inode).iDataBlock
    match (List.range s.maxDirEntries).find?
        (fun i => strcmp (dName s (entryAt dirEntry i)) subName == 0) with
    | some i => .ok ((s.setData (entryAt dirEntry i + maxFileName) (int32Bytes (-1))).setData
        (entryAt dirEntry i) (List.replicate maxFileName 0), 0)
    | none => .ok (s, -1)

def strlen (name : List UInt8) : ℕ := (text name).length

def strncpyBytes (src : List UInt8) (n : ℕ) : List UInt8 :=
  (text src).take n ++ List.replicate (n - (text src).length) 0

def addDirEntry (s : State) (inode : ℕ) (subName : List UInt8) (subInumber : ℤ) :
    Except Crash (State × ℤ) :=
  if strlen subName = 0 ∨ maxFileName - 1 < strlen subName then .ok (s, -1)
  else if (s.inodeTable inode).iNodeType ≠ .directory then .ok (s, -1)
  else do
    let dirEntry ← dataBlockGet s (s.inodeTable inode).iDataBlock
    match (List.range s.maxDirEntries).find? (fun i => dInumber s (entryAt dirEntry i) == -1) with
    | some i =>
      let entry := entryAt dirEntry i
      .ok (((s.setData (entry + maxFileName) (int32Bytes subInumber)).setData entry
        (strncpyBytes subName (maxFileName - 1))).setData (entry + (maxFileName - 1)) [0], 0)
    | none => .ok (s, -1)

def findInDir (s : State) (inode : ℕ) (subName : List UInt8) : Except Crash ℤ :=
  if (s.inodeTable inode).iNodeType ≠ .directory then .ok (-1)
  else do
    let dirEntry ← dataBlockGet s (s.inodeTable inode).iDataBlock
    match (List.range s.maxDirEntries).find? (fun i =>
        dInumber s (entryAt dirEntry i) != -1 &&
          strncmp maxFileName (dName s (entryAt dirEntry i)) subName == 0) with
    | some i => .ok (dInumber s (entryAt dirEntry i))
    | none => .ok (-1)

def addToOpenFileTable (s : State) (inumber : ℤ) (offset : ℕ) : State × ℤ :=
  match (List.range s.fsParams.maxOpenFilesCount).find?
      (fun i => s.freeOpenFileEntries i == .free) with
  | some i =>
    let s := (s.setEntryState i .taken).setEntry i ⟨inumber, offset⟩
    ({ s with history := { s.history with
      handleFile := Function.update s.history.handleFile i (s.history.inodeFile inumber.toNat) } },
      i)
  | none => (s, -1)

def removeFromOpenFileTable (s : State) (fhandle : ℤ) : Except Crash State :=
  if ¬ validFileHandle s fhandle then .error .assertion
  else if s.freeOpenFileEntries fhandle.toNat ≠ .taken then .error .assertion
  else .ok (s.setEntryState fhandle.toNat .free)

def getOpenFileEntry (s : State) (fhandle : ℤ) : Option ℕ :=
  if ¬ validFileHandle s fhandle then none
  else if s.freeOpenFileEntries fhandle.toNat ≠ .taken then none
  else some fhandle.toNat

structure Mallocs where
  inodeTable : ℕ → Inode
  fsData : ℕ → UInt8
  openFileTable : ℕ → OpenFileEntry

/-- state_init in a process without a file system, when every malloc succeeds. -/
def stateInit (params : TfsParams) (mallocs : Mallocs) : State where
  fsParams := params
  inodeTable := mallocs.inodeTable
  freeinodeTs := fun _ => .free
  fsData := mallocs.fsData
  freeBlocks := fun _ => .free
  openFileTable := mallocs.openFileTable
  freeOpenFileEntries := fun _ => .free
  history := ⟨0, fun _ => 0, fun _ => 0, fun _ => 0, fun _ _ => none, []⟩

end MessageBroker.Fs
