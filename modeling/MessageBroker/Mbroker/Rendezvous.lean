import MessageBroker.Lib.TransitionSystem
import MessageBroker.Lib.Tally
import Mathlib.Data.List.Infix

/-! A client and the handler of its request meet in the client's own FIFO: the steps of pub.c,
sub.c and manager.c up to the unlink, against the way of the request through the broker. -/

namespace MessageBroker.Mbroker

open MessageBroker.Lib

inductive ClientStep
  | writeRequest
  | makeFifo
  | openPipe
  | unlinkPipe
  deriving DecidableEq

inductive ClientKind
  | publisher
  | subscriber
  | manager
  deriving DecidableEq

def program : ClientKind → List ClientStep
  | .publisher => [.writeRequest, .makeFifo, .openPipe, .unlinkPipe]
  | .subscriber => [.writeRequest, .makeFifo, .openPipe, .unlinkPipe]
  | .manager => [.makeFifo, .writeRequest, .openPipe, .unlinkPipe]

structure Client where
  steps : List ClientStep
  running : Bool
  deriving DecidableEq

inductive Handler (N : Type)
  | idle
  | opening (pipe : N)
  | connected (pipe : N)
  deriving DecidableEq

structure Meeting (ι N W : Type) where
  clients : ι → Client
  pipes : N → Bool
  -- a handler has opened the pipe, so the client's own open returns
  met : N → Bool
  register : List N
  main : Option N
  queue : List N
  workers : W → Handler N

inductive MeetingEvent (ι W : Type)
  | client (i : ι)
  | exit (i : ι)
  | readRequest
  | enqueue
  | dequeue (w : W)
  | openPipe (w : W)
  | finish (w : W)

variable {ι N W : Type} [DecidableEq ι] [DecidableEq N] [DecidableEq W]

def clientStep (pipeName : ι → N) (s : Meeting ι N W) (i : ι) (rest : List ClientStep) :
    ClientStep → Option (Meeting ι N W)
  | .writeRequest => some { s with
      clients := Function.update s.clients i ⟨rest, true⟩
      register := s.register ++ [pipeName i] }
  | .makeFifo =>
    if s.pipes (pipeName i) then some { s with
      clients := Function.update s.clients i { s.clients i with running := false } }
    else some { s with
      clients := Function.update s.clients i ⟨rest, true⟩
      pipes := Function.update s.pipes (pipeName i) true }
  | .openPipe =>
    if s.met (pipeName i) then some { s with
      clients := Function.update s.clients i ⟨rest, true⟩ }
    else none
  | .unlinkPipe => some { s with
      clients := Function.update s.clients i ⟨rest, true⟩
      pipes := Function.update s.pipes (pipeName i) false }

def meetingStep (sessions : ℕ) (pipeName : ι → N) (s : Meeting ι N W) :
    MeetingEvent ι W → Option (Meeting ι N W)
  | .client i =>
    match s.clients i with
    | ⟨step :: rest, true⟩ => clientStep pipeName s i rest step
    | _ => none
  | .exit i => some { s with
      clients := Function.update s.clients i { s.clients i with running := false } }
  | .readRequest =>
    match s.main, s.register with
    | none, pipe :: register => some { s with main := some pipe, register := register }
    | _, _ => none
  | .enqueue =>
    match s.main with
    | some pipe =>
      if s.queue.length < sessions then some { s with main := none, queue := s.queue ++ [pipe] }
      else none
    | none => none
  | .dequeue w =>
    match s.workers w, s.queue with
    | .idle, pipe :: queue => some { s with
        queue := queue
        workers := Function.update s.workers w (.opening pipe) }
    | _, _ => none
  | .openPipe w =>
    match s.workers w with
    | .opening pipe =>
      if s.pipes pipe then some { s with
        met := Function.update s.met pipe true
        workers := Function.update s.workers w (.connected pipe) }
      else some { s with workers := Function.update s.workers w .idle }
    | _ => none
  | .finish w =>
    match s.workers w with
    | .connected _ => some { s with workers := Function.update s.workers w .idle }
    | _ => none

def meeting (sessions : ℕ) (kind : ι → ClientKind) (pipeName : ι → N) :
    System (Meeting ι N W) (MeetingEvent ι W) where
  init := ⟨fun i => ⟨program (kind i), true⟩, fun _ => false, fun _ => false, [], none, [],
    fun _ => .idle⟩
  step := meetingStep sessions pipeName

/-- The handler about to open a pipe finds it created and not yet unlinked, if its client runs. -/
def Meets (pipeName : ι → N) (s : Meeting ι N W) (w : W) : Prop :=
  ∀ i, s.workers w = .opening (pipeName i) → (s.clients i).running = true →
    s.pipes (pipeName i) = true ∧ .makeFifo ∉ (s.clients i).steps ∧
      .unlinkPipe ∈ (s.clients i).steps

def Prepared (pipeName : ι → N) (s : Meeting ι N W) (w : W) : Prop :=
  ∀ i, s.workers w = .opening (pipeName i) → (s.clients i).running = true →
    .makeFifo ∉ (s.clients i).steps

def Handler.opens (pipe : N) : Handler N → Bool
  | .opening p => p == pipe
  | _ => false

section Program

variable {k : ClientKind} {l rest : List ClientStep} {a : ClientStep}

lemma unlink_after_open (h : l <:+ program k) (ho : .openPipe ∈ l) : .unlinkPipe ∈ l :=
  have hall : ∀ k : ClientKind, ∀ l ∈ (program k).tails, .openPipe ∈ l → .unlinkPipe ∈ l := by
    intro k
    cases k <;> decide
  hall k l ((List.mem_tails _ _).mpr h) ho

lemma manager_makes_first (h : l <:+ program .manager) (hw : .writeRequest ∉ l) :
    .makeFifo ∉ l :=
  have hall : ∀ l ∈ (program .manager).tails, .writeRequest ∉ l → .makeFifo ∉ l := by decide
  hall l ((List.mem_tails _ _).mpr h) hw

lemma steps_ahead (h : a :: rest <:+ program k) :
    a ∉ rest ∧ (a = .makeFifo → .unlinkPipe ∈ rest ∧ .openPipe ∈ rest) := by
  have hall : ∀ k : ClientKind, ∀ l ∈ (program k).tails, ∀ a ∈ l.head?, a ∉ l.tail ∧
      (a = .makeFifo → .unlinkPipe ∈ l.tail ∧ .openPipe ∈ l.tail) := by
    intro k
    cases k <;> decide
  exact hall k (a :: rest) ((List.mem_tails _ _).mpr h) a rfl

end Program

variable [Fintype W]

def flights (s : Meeting ι N W) (pipe : N) : ℕ :=
  s.register.count pipe + s.main.toList.count pipe + s.queue.count pipe +
    tally (Handler.opens pipe) s.workers

structure Tracked (kind : ι → ClientKind) (pipeName : ι → N) (s : Meeting ι N W) (i : ι) :
    Prop where
  suffix : (s.clients i).steps <:+ program (kind i)
  pipe : s.pipes (pipeName i) = true ↔
    .makeFifo ∉ (s.clients i).steps ∧ .unlinkPipe ∈ (s.clients i).steps
  met : .openPipe ∉ (s.clients i).steps → s.met (pipeName i) = true
  once : flights s (pipeName i) ≤ 1 ∧
    (.writeRequest ∈ (s.clients i).steps → flights s (pipeName i) = 0)
  consumed : s.met (pipeName i) = true →
    flights s (pipeName i) = 0 ∧ .writeRequest ∉ (s.clients i).steps

variable {kind : ι → ClientKind} {pipeName : ι → N} {s t : Meeting ι N W}
  {ev : MeetingEvent ι W} {sessions : ℕ}

omit [DecidableEq ι] [DecidableEq W] in
lemma tracked_frame {i : ι} (h : Tracked kind pipeName s i)
    (hc : (t.clients i).steps = (s.clients i).steps)
    (hp : t.pipes (pipeName i) = s.pipes (pipeName i))
    (hm : t.met (pipeName i) = s.met (pipeName i))
    (hf : flights t (pipeName i) = flights s (pipeName i)) : Tracked kind pipeName t i := by
  obtain ⟨h₁, h₂, h₃, h₄, h₅⟩ := h
  constructor <;> simp only [hc, hp, hm, hf] <;> assumption

omit [DecidableEq W] in
lemma writeRequest_tracked {i j : ι} {rest : List ClientStep} (hinj : pipeName.Injective)
    (h : ∀ j, Tracked kind pipeName s j) (hi : s.clients i = ⟨.writeRequest :: rest, true⟩) :
    Tracked kind pipeName { s with
      clients := Function.update s.clients i ⟨rest, true⟩
      register := s.register ++ [pipeName i] } j := by
  have hf : ∀ p, flights { s with
      clients := Function.update s.clients i ⟨rest, true⟩
      register := s.register ++ [pipeName i] } p =
        flights s p + if pipeName i = p then 1 else 0 := by
    intro p
    simp only [flights, List.count_append, List.count_singleton, beq_iff_eq]
    omega
  by_cases hj : j = i
  · subst hj
    obtain ⟨h₁, h₂, h₃, h₄, h₅⟩ := h j
    have ha := steps_ahead (by rw [hi] at h₁; exact h₁)
    rw [hi] at h₁ h₂ h₃ h₄ h₅
    have hz := h₄.2 List.mem_cons_self
    constructor <;> simp only [Function.update_self]
    · exact (List.suffix_cons _ _).trans h₁
    · simpa using h₂
    · simpa using h₃
    · rw [hf, if_pos rfl, hz]
      exact ⟨le_rfl, fun hw => (ha.1 hw).elim⟩
    · intro hm
      exact ((h₅ hm).2 List.mem_cons_self).elim
  · apply tracked_frame (h j)
    · exact congrArg Client.steps (Function.update_of_ne hj _ _)
    · rfl
    · rfl
    · rw [hf, if_neg (fun he => hj (hinj he).symm)]
      rfl

omit [DecidableEq W] in
lemma clientStep_tracked {i : ι} {rest : List ClientStep} {a : ClientStep}
    (hinj : pipeName.Injective) (h : ∀ j, Tracked kind pipeName s j)
    (hi : s.clients i = ⟨a :: rest, true⟩) (hs : clientStep pipeName s i rest a = some t) (j : ι) :
    Tracked kind pipeName t j := by
  have hsuf : rest <:+ program (kind i) := by
    have hh := (h i).suffix
    rw [hi] at hh
    exact (List.suffix_cons _ _).trans hh
  have ha := steps_ahead (show a :: rest <:+ program (kind i) by
    have hh := (h i).suffix
    rwa [hi] at hh)
  obtain ⟨-, hpipe, hmet, honce, hcons⟩ := h i
  rw [hi] at hpipe hmet honce hcons
  dsimp only at hpipe hmet honce hcons
  cases a with
  | writeRequest =>
    cases hs
    exact writeRequest_tracked hinj h hi
  | makeFifo =>
    have hp : s.pipes (pipeName i) = false := by
      by_contra hp
      exact (hpipe.mp (by simpa using hp)).1 List.mem_cons_self
    simp only [clientStep, hp, Bool.false_eq_true, if_false, Option.some.injEq] at hs
    subst hs
    by_cases hj : j = i
    · subst hj
      constructor <;> simp only [Function.update_self]
      · exact hsuf
      · exact iff_of_true trivial ⟨ha.1, (ha.2 rfl).1⟩
      · exact fun ho => (ho (ha.2 rfl).2).elim
      · exact ⟨honce.1, fun hw => honce.2 (List.mem_cons_of_mem _ hw)⟩
      · exact fun hm => ⟨(hcons hm).1, fun hw => (hcons hm).2 (List.mem_cons_of_mem _ hw)⟩
    · apply tracked_frame (h j)
      · exact congrArg Client.steps (Function.update_of_ne hj _ _)
      · exact Function.update_of_ne (fun he => hj (hinj he)) _ _
      · rfl
      · rfl
  | openPipe =>
    simp only [clientStep] at hs
    split_ifs at hs with hm
    cases hs
    by_cases hj : j = i
    · subst hj
      constructor <;> simp only [Function.update_self]
      · exact hsuf
      · simpa using hpipe
      · exact fun _ => hm
      · exact ⟨honce.1, fun hw => honce.2 (List.mem_cons_of_mem _ hw)⟩
      · exact fun hm => ⟨(hcons hm).1, fun hw => (hcons hm).2 (List.mem_cons_of_mem _ hw)⟩
    · apply tracked_frame (h j)
      · exact congrArg Client.steps (Function.update_of_ne hj _ _)
      · rfl
      · rfl
      · rfl
  | unlinkPipe =>
    cases hs
    by_cases hj : j = i
    · subst hj
      constructor <;> simp only [Function.update_self]
      · exact hsuf
      · exact iff_of_false (by simp) (fun hh => ha.1 hh.2)
      · exact fun ho => hmet (by simpa using ho)
      · exact ⟨honce.1, fun hw => honce.2 (List.mem_cons_of_mem _ hw)⟩
      · exact fun hm => ⟨(hcons hm).1, fun hw => (hcons hm).2 (List.mem_cons_of_mem _ hw)⟩
    · apply tracked_frame (h j)
      · exact congrArg Client.steps (Function.update_of_ne hj _ _)
      · exact Function.update_of_ne (fun he => hj (hinj he)) _ _
      · rfl
      · rfl

omit [DecidableEq ι] in
lemma opens_flights {w : W} {h : Handler N} (pipe : N) :
    tally (Handler.opens pipe) (Function.update s.workers w h) +
      (Handler.opens pipe (s.workers w)).toNat =
        tally (Handler.opens pipe) s.workers + (Handler.opens pipe h).toNat :=
  tally_update _ s.workers w h

omit [DecidableEq ι] in
lemma openPipe_tracked {w : W} {p : N} {h' : Handler N} {m : N → Bool}
    (h : ∀ j, Tracked kind pipeName s j) (hw : s.workers w = .opening p)
    (hh : ∀ q, h'.opens q = false) (hm : ∀ q, m q = true → s.met q = true ∨ q = p)
    (hm' : ∀ q, s.met q = true → m q = true) (j : ι) :
    Tracked kind pipeName
      { s with met := m, workers := Function.update s.workers w h' } j := by
  have hf : ∀ q, flights { s with met := m, workers := Function.update s.workers w h' } q +
      (if p = q then 1 else 0) = flights s q := by
    intro q
    have ht := opens_flights (s := s) (w := w) (h := h') q
    rw [hw, hh] at ht
    simp only [Handler.opens, Bool.toNat_false] at ht
    simp only [flights]
    split_ifs with hq
    · subst hq
      simp only [BEq.rfl, Bool.toNat_true] at ht
      omega
    · simp only [beq_eq_false_iff_ne.mpr hq, Bool.toNat_false] at ht
      omega
  obtain ⟨h₁, h₂, h₃, h₄, h₅⟩ := h j
  have hj := hf (pipeName j)
  refine ⟨h₁, h₂, fun ho => hm' _ (h₃ ho), ⟨by omega, fun hw => ?_⟩, fun hmet => ?_⟩
  · have hz := h₄.2 hw
    omega
  · rcases hm _ hmet with hmet | he
    · obtain ⟨hz, hnw⟩ := h₅ hmet
      exact ⟨by omega, hnw⟩
    · rw [if_pos he.symm] at hj
      refine ⟨by omega, fun hw => ?_⟩
      have hz := h₄.2 hw
      omega

lemma meeting_tracked (hinj : pipeName.Injective) (h : ∀ j, Tracked kind pipeName s j)
    (hs : meetingStep sessions pipeName s ev = some t) (j : ι) : Tracked kind pipeName t j := by
  cases ev with
  | client i =>
    cases hi : s.clients i with
    | mk steps running =>
      cases steps <;> cases running <;> simp only [meetingStep, hi, reduceCtorEq] at hs
      exact clientStep_tracked hinj h hi hs j
  | exit i =>
    cases hs
    apply tracked_frame (h j)
    · by_cases hj : j = i
      · subst hj
        simp
      · exact congrArg Client.steps (Function.update_of_ne hj _ _)
    · rfl
    · rfl
    · rfl
  | readRequest =>
    cases hm : s.main <;> cases hr : s.register <;>
      simp only [meetingStep, hm, hr, reduceCtorEq, Option.some.injEq] at hs
    subst hs
    refine tracked_frame (h j) rfl rfl rfl ?_
    simp only [flights, hm, hr, Option.toList_none, Option.toList_some, List.count_nil,
      List.count_cons]
    omega
  | enqueue =>
    cases hm : s.main <;> simp only [meetingStep, hm, reduceCtorEq] at hs
    split_ifs at hs
    cases hs
    refine tracked_frame (h j) rfl rfl rfl ?_
    simp only [flights, hm, Option.toList_none, Option.toList_some, List.count_nil,
      List.count_append]
    omega
  | dequeue w =>
    cases hw : s.workers w <;> cases hq : s.queue <;>
      simp only [meetingStep, hw, hq, reduceCtorEq, Option.some.injEq] at hs
    rename_i pipe queue
    subst hs
    refine tracked_frame (h j) rfl rfl rfl ?_
    have ht := opens_flights (s := s) (w := w) (h := .opening pipe) (pipeName j)
    simp only [hw, Handler.opens, Bool.toNat_false] at ht
    simp only [flights, hq, List.count_cons]
    cases hp : pipe == pipeName j <;> simp only [hp, Bool.toNat_true, Bool.toNat_false] at ht ⊢ <;>
      simp <;> omega
  | openPipe w =>
    cases hw : s.workers w <;> simp only [meetingStep, hw, reduceCtorEq] at hs
    rename_i pipe
    split_ifs at hs with hp
    · cases hs
      refine openPipe_tracked h hw (fun _ => rfl) (fun q hq => ?_) (fun q hq => ?_) j
      · by_cases he : q = pipe
        · exact .inr he
        · exact .inl (by rwa [Function.update_of_ne he] at hq)
      · by_cases he : q = pipe
        · subst he
          exact Function.update_self _ _ _
        · rwa [Function.update_of_ne he]
    · cases hs
      exact openPipe_tracked h hw (fun _ => rfl) (fun _ => .inl) (fun _ => id) j
  | finish w =>
    cases hw : s.workers w <;> simp only [meetingStep, hw, reduceCtorEq, Option.some.injEq] at hs
    subst hs
    refine tracked_frame (h j) rfl rfl rfl ?_
    have ht := opens_flights (s := s) (w := w) (h := .idle) (pipeName j)
    simp only [hw, Handler.opens] at ht
    simp only [flights]
    omega

lemma reachable_tracked (hinj : pipeName.Injective)
    (h : (meeting sessions kind pipeName).Reachable s) (i : ι) : Tracked kind pipeName s i := by
  revert i
  induction h with
  | init =>
    intro i
    have hz : flights (meeting sessions kind pipeName : System (Meeting ι N W) _).init
        (pipeName i) = 0 := by
      have ht : tally (Handler.opens (pipeName i)) (fun _ : W => Handler.idle) = 0 :=
        tally_const rfl
      simpa [flights, meeting] using ht
    have hk : .makeFifo ∈ program (kind i) ∧ .openPipe ∈ program (kind i) := by
      cases kind i <;> decide
    constructor
    · exact List.suffix_refl _
    · exact iff_of_false (by simp [meeting]) (fun hh => hh.1 hk.1)
    · exact fun ho => (ho hk.2).elim
    · exact ⟨by omega, fun _ => hz⟩
    · exact fun hm => by cases hm
  | step _ _ hst ih => exact meeting_tracked hinj ih hst

omit [DecidableEq ι] [DecidableEq W] in
lemma opening_flights {w : W} {i : ι} (hw : s.workers w = .opening (pipeName i)) :
    0 < flights s (pipeName i) := by
  have ht : 0 < tally (Handler.opens (pipeName i)) s.workers :=
    tally_pos.mpr ⟨w, by rw [hw]; exact beq_self_eq_true _⟩
  simp only [flights]
  omega

omit [DecidableEq ι] [DecidableEq W] in
lemma opening_unlink (h : ∀ i, Tracked kind pipeName s i) {w : W} {i : ι}
    (hw : s.workers w = .opening (pipeName i)) : .unlinkPipe ∈ (s.clients i).steps := by
  have hf := opening_flights hw
  have hopen : .openPipe ∈ (s.clients i).steps := by
    by_contra ho
    have hz := ((h i).consumed ((h i).met ho)).1
    omega
  exact unlink_after_open (h i).suffix hopen

omit [DecidableEq ι] [DecidableEq W] in
lemma meets_iff_prepared (h : ∀ i, Tracked kind pipeName s i) (w : W) :
    Meets pipeName s w ↔ Prepared pipeName s w := by
  refine ⟨fun hm i hw hr => (hm i hw hr).2.1, fun hp i hw hr => ?_⟩
  have hun := opening_unlink h hw
  have hmk := hp i hw hr
  exact ⟨(h i).pipe.mpr ⟨hmk, hun⟩, hmk, hun⟩

omit [DecidableEq ι] [DecidableEq W] in
lemma manager_prepared (h : ∀ i, Tracked kind pipeName s i) {i : ι} (hk : kind i = .manager) {w : W}
    (hw : s.workers w = .opening (pipeName i)) : .makeFifo ∉ (s.clients i).steps := by
  have hf := opening_flights hw
  have hnw : .writeRequest ∉ (s.clients i).steps := by
    intro hwr
    have hz := (h i).once.2 hwr
    omega
  have hsuf := (h i).suffix
  rw [hk] at hsuf
  exact manager_makes_first hsuf hnw

def overtakes (i : ι) (w : W) : List (MeetingEvent ι W) :=
  [.client i, .readRequest, .enqueue, .dequeue w]

omit [Fintype W] in
lemma overtakes_early (pipeName : ι → N) {i : ι} (hn : 0 < sessions) (hk : kind i ≠ .manager)
    (w : W) :
    ∃ s, (meeting sessions kind pipeName).run (meeting sessions kind pipeName).init
        (overtakes i w) = some s ∧
      s.workers w = .opening (pipeName i) ∧ (s.clients i).running = true ∧
      s.pipes (pipeName i) = false := by
  have hprog : program (kind i) = [.writeRequest, .makeFifo, .openPipe, .unlinkPipe] := by
    cases hi : kind i with
    | manager => exact (hk hi).elim
    | publisher => rfl
    | subscriber => rfl
  exact ⟨_, by simp [overtakes, meeting, meetingStep, clientStep, hprog, hn]; rfl, by simp, by simp,
    by simp⟩

theorem rendezvous_iff [Nonempty W] (hn : 0 < sessions) (hinj : pipeName.Injective) :
    ((∀ (s : Meeting ι N W), (meeting sessions kind pipeName).Reachable s →
        ∀ w, Meets pipeName s w) ↔ ∀ i, kind i = .manager) ∧
    (∀ (s : Meeting ι N W), (meeting sessions kind pipeName).Reachable s →
      ∀ w, (Meets pipeName s w ↔ Prepared pipeName s w)) ∧
    ∀ i, ((∀ (s : Meeting ι N W), (meeting sessions kind pipeName).Reachable s → ∀ w,
      s.workers w = .opening (pipeName i) → (s.clients i).running = true →
        s.pipes (pipeName i) = true) ↔ kind i = .manager) := by
  have hearly : ∀ i, kind i ≠ .manager → ∃ s : Meeting ι N W,
      (meeting sessions kind pipeName).Reachable s ∧ ∃ w, s.workers w = .opening (pipeName i) ∧
        (s.clients i).running = true ∧ s.pipes (pipeName i) = false := by
    intro i hk
    obtain ⟨w⟩ := ‹Nonempty W›
    obtain ⟨s, hs, hfound⟩ := overtakes_early pipeName hn hk w
    exact ⟨s, System.reachable_of_run hs, w, hfound⟩
  refine ⟨⟨fun hall i => ?_, fun hk s h w => ?_⟩, fun s h w => ?_, fun i => ⟨fun hall => ?_, ?_⟩⟩
  · by_contra hk
    obtain ⟨s, h, w, hw, hr, hp⟩ := hearly i hk
    rw [(hall s h w i hw hr).1] at hp
    cases hp
  · have ht := reachable_tracked hinj h
    exact (meets_iff_prepared ht w).mpr fun i hw _ => manager_prepared ht (hk i) hw
  · exact meets_iff_prepared (reachable_tracked hinj h) w
  · by_contra hk
    obtain ⟨s, h, w, hw, hr, hp⟩ := hearly i hk
    rw [hall s h w hw hr] at hp
    cases hp
  · intro hk s h w hw hr
    -- the others do not matter to a manager
    have ht := reachable_tracked hinj h
    exact (ht i).pipe.mpr ⟨manager_prepared ht hk hw, opening_unlink ht hw⟩

theorem rendezvous_iff_mixed :
    ((∀ (s : Meeting Bool ℕ Unit), (meeting 1 (fun b => cond b .manager .publisher)
        Bool.toNat).Reachable s → ∀ w, Meets Bool.toNat s w) ↔
      ∀ b, (cond b ClientKind.manager ClientKind.publisher) = .manager) ∧
    (∀ (s : Meeting Bool ℕ Unit), (meeting 1 (fun b => cond b .manager .publisher)
        Bool.toNat).Reachable s → ∀ w, (Meets Bool.toNat s w ↔ Prepared Bool.toNat s w)) ∧
    ∀ b, ((∀ (s : Meeting Bool ℕ Unit), (meeting 1 (fun b => cond b .manager .publisher)
        Bool.toNat).Reachable s → ∀ w, s.workers w = .opening (Bool.toNat b) →
        (s.clients b).running = true → s.pipes (Bool.toNat b) = true) ↔
      (cond b ClientKind.manager ClientKind.publisher) = .manager) :=
  rendezvous_iff Nat.one_pos (by decide)

theorem overtaking_not_meets :
    ¬ ∀ (s : Meeting Unit Unit Unit),
      (meeting 1 (fun _ => .publisher) (fun _ => ())).Reachable s →
        ∀ w, Meets (fun _ => ()) s w := by
  intro h
  obtain ⟨s, hs, hw, hr, hp⟩ := @overtakes_early Unit Unit Unit _ _ _ (fun _ => .publisher)
    1 (fun _ => ()) () Nat.one_pos (by decide) ()
  have hreach := System.reachable_of_run hs
  have hfound := (h s hreach () () hw hr).1
  rw [hfound] at hp
  cases hp

end MessageBroker.Mbroker
