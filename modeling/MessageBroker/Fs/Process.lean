import MessageBroker.Fs.Params
import MessageBroker.Fs.Sound

/-! The global variables of fs/state.c in a process: tfs_init and tfs_destroy from any state of
the six tables, when any malloc may fail, and the runs of the calls between them. -/

namespace MessageBroker.Fs

open MessageBroker.Lib

def sizeofInode : ℕ := 24
def sizeofAllocationState : ℕ := 4
def sizeofOpenFileEntry : ℕ := 16

def sizeTimes (count size : ℕ) : ℕ := count * size % 2 ^ 64

def TfsParams.tableBytes (params : TfsParams) : List ℕ :=
  [sizeTimes params.maxInodeCount sizeofInode, sizeTimes params.maxInodeCount sizeofAllocationState,
    sizeTimes params.maxBlockCount params.blockSize,
    sizeTimes params.maxBlockCount sizeofAllocationState,
    sizeTimes params.maxOpenFilesCount sizeofOpenFileEntry,
    sizeTimes params.maxOpenFilesCount sizeofAllocationState]

/-- What malloc returned, and how many bytes were asked for. -/
structure Allocation where
  address : ℕ
  bytes : ℕ
  deriving DecidableEq

/-- The pointers of the six tables, none for NULL, and the rest of the globals with what the
tables hold. -/
structure Process where
  inodeTable : Option Allocation
  freeinodeTs : Option Allocation
  fsData : Option Allocation
  freeBlocks : Option Allocation
  openFileTable : Option Allocation
  freeOpenFileEntries : Option Allocation
  state : State

structure InitMallocs where
  inodeTable : Option ℕ
  freeinodeTs : Option ℕ
  fsData : Option ℕ
  freeBlocks : Option ℕ
  openFileTable : Option ℕ
  freeOpenFileEntries : Option ℕ
  garbage : State

namespace InitMallocs

variable (m : InitMallocs)

def results : List (Option ℕ) :=
  [m.inodeTable, m.freeinodeTs, m.fsData, m.freeBlocks, m.openFileTable, m.freeOpenFileEntries]

def AllSucceed : Prop := ∀ r ∈ m.results, r ≠ none

def AllFail : Prop := ∀ r ∈ m.results, r = none

def contents : Mallocs := ⟨m.garbage.inodeTable, m.garbage.fsData, m.garbage.openFileTable⟩

end InitMallocs

def tfsDefaultParams : TfsParams := ⟨64, 1024, 16, 1024⟩

namespace Process

variable (p : Process)

def pointers : List (Option Allocation) :=
  [p.inodeTable, p.freeinodeTs, p.fsData, p.freeBlocks, p.openFileTable, p.freeOpenFileEntries]

def setParams (params : TfsParams) : Process :=
  { p with state := { p.state with fsParams := params } }

/-- The six mallocs of state_init, for the parameters just stored. -/
def allocate (m : InitMallocs) : Process where
  inodeTable := m.inodeTable.map (⟨·, sizeTimes p.state.fsParams.maxInodeCount sizeofInode⟩)
  freeinodeTs :=
    m.freeinodeTs.map (⟨·, sizeTimes p.state.fsParams.maxInodeCount sizeofAllocationState⟩)
  fsData := m.fsData.map (⟨·, sizeTimes p.state.fsParams.maxBlockCount p.state.fsParams.blockSize⟩)
  freeBlocks :=
    m.freeBlocks.map (⟨·, sizeTimes p.state.fsParams.maxBlockCount sizeofAllocationState⟩)
  openFileTable :=
    m.openFileTable.map (⟨·, sizeTimes p.state.fsParams.maxOpenFilesCount sizeofOpenFileEntry⟩)
  freeOpenFileEntries := m.freeOpenFileEntries.map
    (⟨·, sizeTimes p.state.fsParams.maxOpenFilesCount sizeofAllocationState⟩)
  state := { p.state with
    inodeTable := if m.inodeTable.isSome then m.garbage.inodeTable else p.state.inodeTable
    freeinodeTs := if m.freeinodeTs.isSome then m.garbage.freeinodeTs else p.state.freeinodeTs
    fsData := if m.fsData.isSome then m.garbage.fsData else p.state.fsData
    freeBlocks := if m.freeBlocks.isSome then m.garbage.freeBlocks else p.state.freeBlocks
    openFileTable :=
      if m.openFileTable.isSome then m.garbage.openFileTable else p.state.openFileTable
    freeOpenFileEntries :=
      if m.freeOpenFileEntries.isSome then m.garbage.freeOpenFileEntries
      else p.state.freeOpenFileEntries }

def mapsFit (params : TfsParams) : Bool :=
  decide (params.maxInodeCount * sizeofAllocationState < 2 ^ 64) &&
    decide (params.maxBlockCount * sizeofAllocationState < 2 ^ 64) &&
    decide (params.maxOpenFilesCount * sizeofAllocationState < 2 ^ 64)

def stateInit (params : TfsParams) (m : InitMallocs) : Except Crash (Process × ℤ) :=
  let p := p.setParams params
  if p.inodeTable ≠ none then .ok (p, -1)
  else
    let p := p.allocate m
    if none ∈ p.pointers then .ok (p, -1)
    else if ¬ mapsFit params then .error .outOfBounds
    else .ok ({ p with state := Fs.stateInit params m.contents }, 0)

def stateDestroy : Process × ℤ :=
  ({ p with
    inodeTable := none
    freeinodeTs := none
    fsData := none
    freeBlocks := none
    openFileTable := none
    freeOpenFileEntries := none }, 0)

/-- inode_create stays inside the inode table and the data blocks when it makes the root. -/
def rootFits (params : TfsParams) : Bool :=
  decide (0 < params.maxInodeCount → sizeofInode ≤ sizeTimes params.maxInodeCount sizeofInode) &&
    decide (0 < params.maxInodeCount → 0 < params.maxBlockCount →
      sizeofDirEntry * (params.blockSize / sizeofDirEntry) ≤
        sizeTimes params.maxBlockCount params.blockSize)

def tfsInit (paramsPtr : Option TfsParams) (m : InitMallocs) : Except Crash (Process × ℤ) := do
  let params := paramsPtr.getD tfsDefaultParams
  let (p, initialised) ← p.stateInit params m
  if initialised ≠ 0 then .ok (p, -1)
  else if ¬ rootFits params then .error .outOfBounds
  else
    let (s, root) ← inodeCreate p.state .directory
    let p := { p with state := s }
    if root ≠ rootDirInum then .ok (p, -1) else .ok (p, 0)

def tfsDestroy : Process × ℤ := if p.stateDestroy.2 ≠ 0 then (p, -1) else (p.stateDestroy.1, 0)

/-- malloc returns no memory that is in use. -/
def Fresh (m : InitMallocs) : Prop :=
  ∀ a, some a ∈ m.results → ∀ x, some x ∈ p.pointers → x.address ≠ a

def Rootless (params : TfsParams) : Prop :=
  params.maxInodeCount = 0 ∨ (params.maxBlockCount = 0 ∧ 0 < params.blockSize)

structure Unfailing (params : TfsParams) (m : InitMallocs) : Prop where
  uninitialised : p.inodeTable = none
  allocated : m.AllSucceed
  rooted : mapsFit params = true → rootFits params = true → ¬ Rootless params

structure Idle (params : TfsParams) (m : InitMallocs) : Prop where
  params : params = p.state.fsParams
  tables : p.inodeTable ≠ none ∨ ((∀ x ∈ p.pointers, x = none) ∧ m.AllFail)

def TablesMatch : Prop :=
  (∀ x ∈ p.pointers, x = none) ∨
    p.pointers.map (Option.map Allocation.bytes) = p.state.fsParams.tableBytes.map some

end Process

structure TfsParams.Formattable (params : TfsParams) : Prop where
  maps : Process.mapsFit params = true
  root : Process.rootFits params = true
  inodes : 0 < params.maxInodeCount
  blocks : 0 < params.maxBlockCount
  blockSize : 0 < params.blockSize

inductive ApiCall
  | init (paramsPtr : Option TfsParams) (m : InitMallocs)
  | destroy
  | call (call : Call)

/-- The calls of a process from its start. Without tables the calls on files are left out: each
crashes or returns before it changes anything. -/
def library (s : State) : System Process ApiCall where
  init := ⟨none, none, none, none, none, none, s⟩
  step p
    | .init paramsPtr m => (p.tfsInit paramsPtr m).toOption.map Prod.fst
    | .destroy => some p.tfsDestroy.1
    | .call call =>
      if p.inodeTable ≠ none ∧ call.admissible p.state then
        (tfsCall p.state call).toOption.map (fun x => { p with state := x.1 })
      else none

def Process.InitsSafely (p : Process) : ApiCall → Prop
  | .init paramsPtr m => p.Fresh m ∧ (p.Unfailing (paramsPtr.getD tfsDefaultParams) m ∨
      p.Idle (paramsPtr.getD tfsDefaultParams) m)
  | _ => True

section Init

variable {p p' : Process} {params : TfsParams} {m : InitMallocs}

lemma setParams_eq : p.setParams params = p ↔ params = p.state.fsParams := by
  constructor
  · intro h
    exact congrArg (fun p : Process => p.state.fsParams) h
  · rintro rfl
    rfl

section Allocated

variable {results : List (Option ℕ)} {bytes : List ℕ}

-- the pointers of tables whose mallocs asked for `bytes` and returned `results`
def allocations (results : List (Option ℕ)) (bytes : List ℕ) : List (Option Allocation) :=
  List.zipWith (fun r n => r.map (⟨·, n⟩)) results bytes

lemma allocations_none (hlen : results.length = bytes.length) :
    none ∈ allocations results bytes ↔ none ∈ results := by
  induction results generalizing bytes with
  | nil => simp [allocations]
  | cons r results ih =>
    cases bytes with
    | nil => cases hlen
    | cons n bytes =>
      rw [allocations, List.zipWith_cons_cons, List.mem_cons, List.mem_cons,
        ← ih (Nat.succ.inj hlen), eq_comm, Option.map_eq_none_iff, eq_comm]
      rfl

lemma allocations_bytes (hlen : results.length = bytes.length) (hall : ∀ r ∈ results, r ≠ none) :
    (allocations results bytes).map (Option.map Allocation.bytes) = bytes.map some := by
  induction results generalizing bytes with
  | nil =>
    cases bytes with
    | nil => rfl
    | cons n bytes => cases hlen
  | cons r results ih =>
    cases bytes with
    | nil => cases hlen
    | cons n bytes =>
      obtain ⟨a, rfl⟩ := Option.ne_none_iff_exists'.mp (hall r List.mem_cons_self)
      rw [List.map_cons, ← ih (Nat.succ.inj hlen) (fun r hr => hall r (List.mem_cons_of_mem _ hr))]
      rfl

lemma allocations_old (hlen : results.length = bytes.length)
    (hfresh : ∀ a, some a ∈ results → ∀ x, some x ∈ allocations results bytes → x.address ≠ a) :
    (∀ x ∈ allocations results bytes, x = none) ∧ ∀ r ∈ results, r = none := by
  induction results generalizing bytes with
  | nil => exact ⟨fun x hx => (List.not_mem_nil hx).elim, fun r hr => (List.not_mem_nil hr).elim⟩
  | cons r results ih =>
    cases bytes with
    | nil => cases hlen
    | cons n bytes =>
      have hr : r = none := by
        cases r with
        | none => rfl
        | some a => exact (hfresh a List.mem_cons_self ⟨a, n⟩ List.mem_cons_self rfl).elim
      obtain ⟨hx, hrs⟩ := ih (Nat.succ.inj hlen) (fun a ha x hx =>
        hfresh a (List.mem_cons_of_mem _ ha) x (List.mem_cons_of_mem _ hx))
      refine ⟨List.forall_mem_cons.mpr ⟨?_, hx⟩, List.forall_mem_cons.mpr ⟨hr, hrs⟩⟩
      rw [hr]
      rfl

end Allocated

lemma allocate_pointers :
    (p.allocate m).pointers = allocations m.results p.state.fsParams.tableBytes := rfl

lemma allocate_none : none ∈ (p.allocate m).pointers ↔ ¬ m.AllSucceed := by
  rw [allocate_pointers, allocations_none rfl, InitMallocs.AllSucceed]
  constructor
  · exact fun hmem hall => hall none hmem rfl
  · intro hn
    push Not at hn
    obtain ⟨r, hr, rfl⟩ := hn
    exact hr

lemma allocate_bytes (hall : m.AllSucceed) :
    (p.allocate m).pointers.map (Option.map Allocation.bytes) =
      p.state.fsParams.tableBytes.map some := by
  rw [allocate_pointers]
  exact allocations_bytes rfl hall

lemma allocate_eq (hfresh : p.Fresh m) : (p.setParams params).allocate m = p ↔
    params = p.state.fsParams ∧ (∀ x ∈ p.pointers, x = none) ∧ m.AllFail := by
  constructor
  · intro h
    have hpointers : allocations m.results params.tableBytes = p.pointers :=
      congrArg Process.pointers h
    rw [Process.Fresh, ← hpointers] at hfresh
    rw [← hpointers]
    exact ⟨congrArg (fun p : Process => p.state.fsParams) h, allocations_old rfl hfresh⟩
  · rintro ⟨rfl, hpointers, hfail⟩
    simp only [Process.pointers, List.mem_cons, List.not_mem_nil, or_false, forall_eq_or_imp,
      forall_eq] at hpointers
    simp only [InitMallocs.AllFail, InitMallocs.results, List.mem_cons, List.not_mem_nil, or_false,
      forall_eq_or_imp, forall_eq] at hfail
    obtain ⟨q₁, q₂, q₃, q₄, q₅, q₆, s⟩ := p
    simp_all [Process.allocate, Process.setParams]

inductive Inits (p : Process) (params : TfsParams) (m : InitMallocs) :
    Except Crash (Process × ℤ) → Prop
  | already : p.inodeTable ≠ none → Inits p params m (.ok (p.setParams params, -1))
  | noMemory : p.inodeTable = none → ¬ m.AllSucceed →
      Inits p params m (.ok ((p.setParams params).allocate m, -1))
  | crash {c : Crash} : p.Unfailing params m → ¬ params.Formattable → Inits p params m (.error c)
  | rootless {p' : Process} : p.inodeTable = none → m.AllSucceed → Process.Rootless params →
      Process.mapsFit params = true → Process.rootFits params = true → p'.inodeTable ≠ none →
      Inits p params m (.ok (p', -1))
  | done {s : State} : p.Unfailing params m → s.fsParams = params →
      Inits p params m (.ok ({ (p.setParams params).allocate m with state := s }, 0))

lemma stateInit_already (h : p.inodeTable ≠ none) :
    p.stateInit params m = .ok (p.setParams params, -1) := if_pos h

lemma stateInit_noMemory (h : p.inodeTable = none) (hn : ¬ m.AllSucceed) :
    p.stateInit params m = .ok ((p.setParams params).allocate m, -1) :=
  (if_neg (not_not.mpr h)).trans (if_pos (allocate_none.mpr hn))

lemma stateInit_allocated (h : p.inodeTable = none) (hall : m.AllSucceed) :
    p.stateInit params m = if ¬ Process.mapsFit params then .error .outOfBounds else
      .ok ({ (p.setParams params).allocate m with state := stateInit params m.contents }, 0) :=
  (if_neg (not_not.mpr h)).trans (if_neg (fun hn => allocate_none.mp hn hall))

lemma tfsInit_inits (p : Process) (paramsPtr : Option TfsParams) (m : InitMallocs) :
    Inits p (paramsPtr.getD tfsDefaultParams) m (p.tfsInit paramsPtr m) := by
  generalize hparams : paramsPtr.getD tfsDefaultParams = params
  rw [Process.tfsInit, hparams]
  by_cases hinit : p.inodeTable = none
  · by_cases hall : m.AllSucceed
    · have htable : ((p.setParams params).allocate m).inodeTable ≠ none := by
        intro hnone
        have hmem : none ∈ ((p.setParams params).allocate m).pointers := by
          rw [← hnone]
          exact List.mem_cons_self
        exact allocate_none.mp hmem hall
      rw [stateInit_allocated hinit hall]
      cases hmaps : Process.mapsFit params with
      | false =>
        exact .crash ⟨hinit, hall, fun h => absurd (hmaps.symm.trans h) Bool.false_ne_true⟩
          (fun hf => absurd (hmaps.symm.trans hf.maps) Bool.false_ne_true)
      | true =>
        cases hroot : Process.rootFits params with
        | false =>
          exact .crash ⟨hinit, hall, fun _ h => absurd (hroot.symm.trans h) Bool.false_ne_true⟩
            (fun hf => absurd (hroot.symm.trans hf.root) Bool.false_ne_true)
        | true =>
          have hcreated := inodeCreate_root params m.contents
          simp only [bind, Except.bind, not_true_eq_false, if_false, ne_eq]
          revert hcreated
          generalize inodeCreate (stateInit params m.contents) .directory = created
          intro hcreated
          cases hcreated with
          | noInode hi =>
            exact .rootless hinit hall (.inl hi) hmaps hroot htable
          | noBlock hi hs hb =>
            exact .rootless hinit hall (.inr ⟨hb, hs⟩) hmaps hroot htable
          | noBlockSize hi hs =>
            refine .crash ⟨hinit, hall, fun _ _ hr => ?_⟩ (fun hf => hf.blockSize.ne' hs)
            rcases hr with hr | hr <;> omega
          | root hi hs hb =>
            refine .done ⟨hinit, hall, fun _ _ hr => ?_⟩ rfl
            rcases hr with hr | hr <;> omega
    · rw [stateInit_noMemory hinit hall]
      exact .noMemory hinit hall
  · rw [stateInit_already hinit]
    exact .already hinit

lemma failing_unchanged_iff (hfresh : p.Fresh m) (paramsPtr : Option TfsParams) :
    (∀ p', p.tfsInit paramsPtr m = .ok (p', -1) → p' = p) ↔
      p.Unfailing (paramsPtr.getD tfsDefaultParams) m ∨
        p.Idle (paramsPtr.getD tfsDefaultParams) m := by
  have houtcome := tfsInit_inits p paramsPtr m
  generalize paramsPtr.getD tfsDefaultParams = params at houtcome ⊢
  generalize p.tfsInit paramsPtr m = outcome at houtcome ⊢
  cases houtcome with
  | already hinit =>
    constructor
    · intro h
      exact .inr ⟨setParams_eq.mp (h _ rfl), .inl hinit⟩
    · rintro (hun | hidle) p' he
      · exact (hinit hun.uninitialised).elim
      · cases he
        exact setParams_eq.mpr hidle.params
  | noMemory hinit hmem =>
    constructor
    · intro h
      obtain ⟨hparams, htables⟩ := (allocate_eq hfresh).mp (h _ rfl)
      exact .inr ⟨hparams, .inr htables⟩
    · rintro (hun | hidle) p' he
      · exact (hmem hun.allocated).elim
      · cases he
        exact (allocate_eq hfresh).mpr
          ⟨hidle.params, hidle.tables.resolve_left (not_not.mpr hinit)⟩
  | crash hun hf => exact iff_of_true (fun p' he => by cases he) (.inl hun)
  | rootless hinit hall hrootless hmaps hroot htable =>
    refine iff_of_false (fun h => htable ((h _ rfl) ▸ hinit)) ?_
    rintro (hun | hidle)
    · exact hun.rooted hmaps hroot hrootless
    · have hsome := hall m.inodeTable (by simp [InitMallocs.results])
      exact hsome ((hidle.tables.resolve_left (not_not.mpr hinit)).2 m.inodeTable
        (by simp [InitMallocs.results]))
  | done hun hparams => exact iff_of_true (fun p' he => by cases he) (.inl hun)

lemma formattable_inits (hinit : p.inodeTable = none) {paramsPtr : Option TfsParams}
    (hf : (paramsPtr.getD tfsDefaultParams).Formattable) (hall : m.AllSucceed) :
    ∃ p', p.tfsInit paramsPtr m = .ok (p', 0) := by
  have houtcome := tfsInit_inits p paramsPtr m
  generalize p.tfsInit paramsPtr m = outcome at houtcome ⊢
  cases houtcome with
  | already h => exact absurd hinit h
  | noMemory _ hmem => exact absurd hall hmem
  | crash _ hn => exact absurd hf hn
  | rootless _ _ hrootless =>
    have hinodes := hf.inodes
    have hblocks := hf.blocks
    rcases hrootless with hr | hr <;> omega
  | done _ _ => exact ⟨_, rfl⟩

lemma init_tablesMatch {paramsPtr : Option TfsParams} {r : ℤ} (hfresh : p.Fresh m)
    (hsafe : p.Unfailing (paramsPtr.getD tfsDefaultParams) m ∨
      p.Idle (paramsPtr.getD tfsDefaultParams) m)
    (hmatch : p.TablesMatch) (h : p.tfsInit paramsPtr m = .ok (p', r)) : p'.TablesMatch := by
  by_cases hr : r = -1
  · rw [hr] at h
    rw [(failing_unchanged_iff hfresh paramsPtr).mpr hsafe p' h]
    exact hmatch
  · have houtcome := tfsInit_inits p paramsPtr m
    rw [h] at houtcome
    cases houtcome with
    | already | noMemory | rootless => exact absurd rfl hr
    | done hun hparams =>
      refine .inr ((allocate_bytes hun.allocated).trans ?_)
      rw [hparams]
      rfl

lemma library_tablesMatch {s : State} (h : (library s).ReachableBy Process.InitsSafely p) :
    p.TablesMatch := by
  apply h.invariant
  · exact .inl (by simp [Process.pointers, library])
  · intro p call p' hmatch hsafe hstep
    cases call with
    | init paramsPtr m =>
      obtain ⟨⟨q, r⟩, hq, rfl⟩ := Option.map_eq_some_iff.mp hstep
      exact init_tablesMatch hsafe.1 hsafe.2 hmatch (ok_of_toOption hq)
    | destroy =>
      obtain rfl := Option.some.inj hstep
      exact .inl (by simp [Process.tfsDestroy, Process.stateDestroy, Process.pointers])
    | call call =>
      simp only [library] at hstep
      split_ifs at hstep
      obtain ⟨⟨t, r⟩, ht, rfl⟩ := Option.map_eq_some_iff.mp hstep
      have hparams : t.fsParams = p.state.fsParams := tfsCall_params (ok_of_toOption ht)
      rcases hmatch with hnone | hbytes
      · exact .inl hnone
      · exact .inr (hbytes.trans (by rw [hparams]))

theorem failed_init_unchanged_iff (hfresh : p.Fresh m) (paramsPtr : Option TfsParams) :
    ((∀ p', p.tfsInit paramsPtr m = .ok (p', -1) → p' = p) ↔
      p.Unfailing (paramsPtr.getD tfsDefaultParams) m ∨
        p.Idle (paramsPtr.getD tfsDefaultParams) m) ∧
    ∀ s : State, (library s).ReachableBy Process.InitsSafely p → p.TablesMatch ∧
      (p.inodeTable = none → (paramsPtr.getD tfsDefaultParams).Formattable → m.AllSucceed →
        ∃ p', p.tfsInit paramsPtr m = .ok (p', 0)) := by
  refine ⟨failing_unchanged_iff hfresh paramsPtr, ?_⟩
  intro s h
  exact ⟨library_tablesMatch h, fun hinit hf hall => formattable_inits hinit hf hall⟩

def loaded : Process := ⟨none, none, none, none, none, none, stateInit ⟨0, 0, 0, 0⟩ soiled⟩

def mallocsAt (a : ℕ) : InitMallocs :=
  ⟨some a, some (a + 1), some (a + 2), some (a + 3), some (a + 4), some (a + 5),
    stateInit ⟨0, 0, 0, 0⟩ soiled⟩

theorem failed_init_unchanged_iff_loaded :
    ((∀ p', loaded.tfsInit (some smallParams) (mallocsAt 1) = .ok (p', -1) → p' = loaded) ↔
      loaded.Unfailing ((some smallParams).getD tfsDefaultParams) (mallocsAt 1) ∨
        loaded.Idle ((some smallParams).getD tfsDefaultParams) (mallocsAt 1)) ∧
    loaded.TablesMatch ∧
      ∃ p, loaded.tfsInit (some smallParams) (mallocsAt 1) = .ok (p, 0) := by
  have hfresh : loaded.Fresh (mallocsAt 1) := by simp [Process.Fresh, Process.pointers, loaded]
  have hall : (mallocsAt 1).AllSucceed := by
    simp [InitMallocs.AllSucceed, InitMallocs.results, mallocsAt]
  have hf : smallParams.Formattable := ⟨by decide, by decide, by decide, by decide, by decide⟩
  have hstart : (library (stateInit ⟨0, 0, 0, 0⟩ soiled)).ReachableBy Process.InitsSafely loaded :=
    .init
  obtain ⟨hiff, hrun⟩ := failed_init_unchanged_iff hfresh (some smallParams)
  obtain ⟨hmatch, hinit⟩ := hrun _ hstart
  exact ⟨hiff, hmatch, hinit rfl hf hall⟩

def mounted : Process :=
  ⟨some ⟨1, 72⟩, some ⟨2, 12⟩, some ⟨3, 264⟩, some ⟨4, 12⟩, some ⟨5, 48⟩, some ⟨6, 12⟩, smallDisk⟩

theorem second_init_shrinks_table : ∃ p' s t,
    loaded.tfsInit (some smallParams) (mallocsAt 1) = .ok (mounted, 0) ∧
      mounted.Fresh (mallocsAt 7) ∧
      mounted.tfsInit (some ⟨3, 3, 0, 88⟩) (mallocsAt 7) = .ok (p', -1) ∧ p' ≠ mounted ∧
      tfsOpen mounted.state (some [47, 97]) 1 = .ok (s, .code 0) ∧
      tfsOpen p'.state (some [47, 97]) 1 = .ok (t, .code (-1)) := by
  have open_ret {s : State} {ret : ℤ}
      (h : (tfsOpen s (some [47, 97]) 1).toOption.map Prod.snd = some (.code ret)) :
      ∃ t, tfsOpen s (some [47, 97]) 1 = .ok (t, .code ret) := by
    obtain ⟨⟨t, reply⟩, ht, rfl⟩ := Option.map_eq_some_iff.mp h
    exact ⟨t, ok_of_toOption ht⟩
  have hbefore : ∃ s, tfsOpen mounted.state (some [47, 97]) 1 = .ok (s, .code 0) :=
    open_ret (by decide +kernel)
  have hafter : ∃ t, tfsOpen (mounted.setParams ⟨3, 3, 0, 88⟩).state (some [47, 97]) 1 =
      .ok (t, .code (-1)) := open_ret (by decide +kernel)
  obtain ⟨s, hs⟩ := hbefore
  obtain ⟨t, ht⟩ := hafter
  have hfresh : mounted.Fresh (mallocsAt 7) := by
    simp [Process.Fresh, Process.pointers, mounted, InitMallocs.results, mallocsAt]
  have hchanged : mounted.setParams ⟨3, 3, 0, 88⟩ ≠ mounted := by
    intro h
    exact absurd (setParams_eq.mp h) (by decide)
  exact ⟨_, s, t, rfl, hfresh, rfl, hchanged, hs, ht⟩

end Init

end MessageBroker.Fs
