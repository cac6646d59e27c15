import MessageBroker.Fs.Operations

/-! What TécnicoFS is for: a finite map from names to byte strings, and handles that hold a file's
name and an offset. Resources are counts. -/

namespace MessageBroker.Fs

open MessageBroker.Lib

structure Disk where
  names : List (List UInt8)
  bytes : List UInt8 → List UInt8
  handles : ℕ → Option (List UInt8 × ℕ)

namespace Disk

def empty : Disk := ⟨[], fun _ => [], fun _ => none⟩

variable (p : TfsParams) (d : Disk)

def setBytes (name bs : List UInt8) : Disk := { d with bytes := Function.update d.bytes name bs }

def setHandle (h : ℕ) (e : Option (List UInt8 × ℕ)) : Disk :=
  { d with handles := Function.update d.handles h e }

def nonempty : ℕ := (d.names.filter (fun name => d.bytes name != [])).length

def noInode : Prop := p.maxInodeCount ≤ d.names.length + 1

def noEntry : Prop := p.blockSize / sizeofDirEntry ≤ d.names.length

def noBlock : Prop := p.maxBlockCount ≤ d.nonempty + 1

def noHandle : Prop := ∀ h < p.maxOpenFilesCount, d.handles h ≠ none

instance : Decidable (d.noInode p) := inferInstanceAs (Decidable (_ ≤ _))
instance : Decidable (d.noEntry p) := inferInstanceAs (Decidable (_ ≤ _))
instance : Decidable (d.noBlock p) := inferInstanceAs (Decidable (_ ≤ _))

def take (name : List UInt8) (offset : ℕ) : Disk × Reply :=
  match (List.range p.maxOpenFilesCount).find? (fun h => (d.handles h).isNone) with
  | some h => (d.setHandle h (some (name, offset)), .code h)
  | none => (d, .code (-1))

def openFile (path : Option (List UInt8)) (mode : ℕ) : Disk × Reply :=
  let name := text (subName path)
  if ¬ validPathname path then (d, .code (-1))
  else if name ∈ d.names then
    let d := if oTrunc mode then d.setBytes name [] else d
    d.take p name (if oAppend mode then (d.bytes name).length else 0)
  else if ¬ oCreat mode ∨ d.noInode p ∨ maxFileName ≤ name.length ∨ d.noEntry p then
    (d, .code (-1))
  else
    let d := { d with names := name :: d.names }
    (d.setBytes name []).take p name 0

def handleAt (fh : ℤ) : Option (List UInt8 × ℕ) := if 0 ≤ fh then d.handles fh.toNat else none

def close (fh : ℤ) : Disk × Reply :=
  match d.handleAt fh with
  | none => (d, .code (-1))
  | some _ => (d.setHandle fh.toNat none, .code 0)

def overwrite (old : List UInt8) (offset : ℕ) (new : List UInt8) : List UInt8 :=
  old.take offset ++ new ++ old.drop (offset + new.length)

def write (fh : ℤ) (buffer : List UInt8) (len : ℕ) : Disk × Reply :=
  match d.handleAt fh with
  | none => (d, .code (-1))
  | some (name, offset) =>
    let n := min len (p.blockSize - offset)
    if n = 0 then (d, .code 0)
    else if d.bytes name = [] ∧ d.noBlock p then (d, .code (-1))
    else ((d.setBytes name (overwrite (d.bytes name) offset (buffer.take n))).setHandle fh.toNat
      (some (name, offset + n)), .code n)

def read (fh : ℤ) (len : ℕ) : Disk × Reply :=
  match d.handleAt fh with
  | none => (d, .code (-1))
  | some (name, offset) =>
    let bs := ((d.bytes name).drop offset).take len
    (d.setHandle fh.toNat (some (name, offset + bs.length)), ⟨bs.length, bs⟩)

def unlink (path : Option (List UInt8)) : Disk × Reply :=
  let name := text (subName path)
  if validPathname path ∧ name ∈ d.names then
    ({ d with names := d.names.filter (fun other => other != name) }, .code 0)
  else (d, .code (-1))

def call : Call → Disk × Reply
  | .open path mode => d.openFile p path mode
  | .close fh => d.close fh
  | .write fh buffer len => d.write p fh buffer len
  | .read fh _ len => d.read fh len
  | .unlink path => d.unlink path

def held (name : List UInt8) : Prop :=
  ∃ h < p.maxOpenFilesCount, (d.handles h).map Prod.fst = some name

def Disturbs : Call → Prop
  | .open path mode =>
    validPathname path = true ∧ oTrunc mode = true ∧ d.held p (text (subName path))
  | .unlink path => validPathname path = true ∧ d.held p (text (subName path))
  | _ => False

instance (name : List UInt8) : Decidable (d.held p name) :=
  inferInstanceAs (Decidable (∃ h < _, _))

instance (c : Call) : Decidable (d.Disturbs p c) :=
  match c with
  | .open _ _ | .unlink _ => inferInstanceAs (Decidable (_ ∧ _))
  | .close _ | .write _ _ _ | .read _ _ _ => inferInstanceAs (Decidable False)

end Disk

/-- Lengths are size_t, and a buffer has the length stated and lies beside fs_data. -/
def Call.Stated (p : TfsParams) : Call → Prop
  | .write _ buffer len => len ≤ buffer.length ∧
      buffer.length + p.maxBlockCount * p.blockSize < 2 ^ 64
  | .read _ room len => len ≤ room ∧ room + p.maxBlockCount * p.blockSize < 2 ^ 64
  | _ => True

instance (p : TfsParams) (c : Call) : Decidable (c.Stated p) :=
  match c with
  | .write _ _ _ | .read _ _ _ => inferInstanceAs (Decidable (_ ∧ _))
  | .open _ _ | .close _ | .unlink _ => inferInstanceAs (Decidable True)

def Orderly (p : TfsParams) : Disk → List Call → Prop
  | _, [] => True
  | d, c :: cs => (c.Stated p ∧ ¬ d.Disturbs p c) ∧ Orderly p (d.call p c).1 cs

instance decidableOrderly (p : TfsParams) : ∀ d calls, Decidable (Orderly p d calls)
  | _, [] => inferInstanceAs (Decidable True)
  | d, c :: cs =>
    have := decidableOrderly p (d.call p c).1 cs
    inferInstanceAs (Decidable (_ ∧ _))

def Disk.Fits (p : TfsParams) (d : Disk) : Prop :=
  ∀ name ∈ d.names, (d.bytes name).length ≤ p.blockSize

def Disk.after (p : TfsParams) : Disk → List Call → Disk
  | d, [] => d
  | d, c :: cs => Disk.after p (d.call p c).1 cs

def Disk.replies (p : TfsParams) : Disk → List Call → List Reply
  | _, [] => []
  | d, c :: cs => (d.call p c).2 :: Disk.replies p (d.call p c).1 cs

def tfsReplies : State → List Call → Option (List Reply)
  | _, [] => some []
  | s, c :: cs =>
    match tfsCall s c with
    | .ok (t, r) => (tfsReplies t cs).map (fun rs => r :: rs)
    | .error _ => none

section Failures

variable {p : TfsParams} {d : Disk} {c : Call}

lemma Disk.take_failed {name : List UInt8} {offset : ℕ}
    (hr : (d.take p name offset).2.ret = -1) : d.noHandle p := by
  intro h hh hnone
  have hfind : (List.range p.maxOpenFilesCount).find? (fun h => (d.handles h).isNone) ≠ none := by
    intro hf
    have hsome := List.find?_range_eq_none.mp hf h hh
    rw [hnone] at hsome
    cases hsome
  obtain ⟨j, hj⟩ := Option.ne_none_iff_exists'.mp hfind
  rw [Disk.take, hj] at hr
  exact absurd hr (show (j : ℤ) ≠ -1 by omega)

lemma Disk.openFile_failed {path : Option (List UInt8)} {mode : ℕ}
    (hr : (d.openFile p path mode).2.ret = -1) :
    (d.openFile p path mode).1 = d ∨ d.noHandle p := by
  by_cases hv : ¬ validPathname path
  · exact .inl (congrArg Prod.fst (if_pos hv))
  by_cases hmem : text (subName path) ∈ d.names
  · right
    simp only [Disk.openFile, if_neg hv, if_pos hmem] at hr
    have hfull := Disk.take_failed hr
    split_ifs at hfull <;> exact hfull
  · simp only [Disk.openFile, if_neg hv, if_neg hmem] at hr ⊢
    split_ifs at hr ⊢
    · exact .inl rfl
    · have hfull := Disk.take_failed hr
      exact .inr hfull

lemma Disk.call_failed (hr : (d.call p c).2.ret = -1) :
    (d.call p c).1 = d ∨ d.noHandle p ∧ ∃ path mode, c = .open path mode := by
  have hne : ∀ n : ℕ, (n : ℤ) ≠ -1 := fun n => by omega
  cases c with
  | «open» path mode => exact (Disk.openFile_failed hr).imp_right (fun h => ⟨h, path, mode, rfl⟩)
  | close fh =>
    simp only [Disk.call, Disk.close] at hr ⊢
    split at hr
    · exact .inl rfl
    · cases hr
  | write fh buffer len =>
    simp only [Disk.call, Disk.write] at hr ⊢
    split at hr
    · exact .inl rfl
    · split_ifs at hr ⊢
      · cases hr
      · exact .inl rfl
      · exact absurd hr (hne _)
  | read fh room len =>
    simp only [Disk.call, Disk.read] at hr ⊢
    split at hr
    · exact .inl rfl
    · exact absurd hr (hne _)
  | unlink path =>
    simp only [Disk.call, Disk.unlink] at hr ⊢
    split_ifs at hr ⊢ with hc
    · cases hr
    · exact .inl rfl

end Failures

end MessageBroker.Fs
