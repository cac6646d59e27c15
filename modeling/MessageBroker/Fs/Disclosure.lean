import MessageBroker.Fs.Isolation
import MessageBroker.Fs.Offsets

namespace MessageBroker.Fs

open MessageBroker.Lib

def TransfersPastEnd (s : State) : Call → Prop
  | .write fh _ toWrite => 0 ≤ fh ∧ fh.toNat < s.fsParams.maxOpenFilesCount ∧
      s.freeOpenFileEntries fh.toNat = .taken ∧ Stores s fh.toNat toWrite ∧
      s.sizeOf (s.inodeOf fh.toNat) < s.offsetOf fh.toNat
  | .read fh _ len => 0 ≤ fh ∧ fh.toNat < s.fsParams.maxOpenFilesCount ∧
      s.freeOpenFileEntries fh.toNat = .taken ∧ 0 < len ∧
      s.sizeOf (s.inodeOf fh.toNat) < s.offsetOf fh.toNat
  | _ => False

instance (s : State) (call : Call) : Decidable (TransfersPastEnd s call) :=
  match call with
  | .write _ _ _ | .read _ _ _ => inferInstanceAs (Decidable (_ ∧ _))
  | .open _ _ | .close _ | .unlink _ => inferInstanceAs (Decidable False)

def AllStored (s : State) : Prop := ∀ k i, s.Linked k → i < s.sizeOf k →
  s.history.stored (s.fileOf k) i = some (s.byteAt k i)

def ReturnsStored (s : State) (r : Reply) : Call → Prop
  | .read fh _ _ => ∀ h : ℕ, fh = h → s.Open h → ∀ j x, r.bytes[j]? = some x →
      s.history.stored (s.fileAt h) (s.offsetOf h + j) = some x
  | _ => True

def HandlesCurrent (s : State) : Prop := ∀ h, s.Open h → s.fileOf (s.inodeOf h) = s.fileAt h

section Current

variable {s t s₀ : State} {slots slots' : List Slot} {call : Call} {r : Reply} {h b n k i : ℕ}
  {bs : List UInt8}

lemma Faithful.allStored (hf : Faithful s) : AllStored s := fun _ _ hk hi =>
  hf.contents (.inl hk) (hf.blocks hk (by omega)) hi

lemma strays_iff (hf : Faithful s) (hl : HandlesLinked s) (hc : HandlesCurrent s) (ho : s.Open h) :
    Strays s h ↔ s.sizeOf (s.inodeOf h) < s.offsetOf h := by
  have hown := hc h ho
  constructor
  · rintro (hne | ⟨hz, hne⟩ | hlt)
    · exact absurd hown hne
    · exact absurd ((hf.blocks (hl h ho) hz).trans hown) hne
    · exact hlt
  · exact fun hlt => .inr (.inr hlt)

lemma not_astray (hf : Faithful s) (hl : HandlesLinked s) (hc : HandlesCurrent s)
    (hp : ¬ TransfersPastEnd s call) : ¬ TransfersAstray s call := by
  cases call with
  | «open» | close | unlink => exact id
  | write fh buffer toWrite =>
    rintro ⟨h0, hlt, ht, hw, hs⟩
    exact hp ⟨h0, hlt, ht, hw, (strays_iff hf hl hc ⟨hlt, ht⟩).mp hs⟩
  | read fh room len =>
    rintro ⟨h0, hlt, ht, hlen, -, hs⟩
    exact hp ⟨h0, hlt, ht, hlen, (strays_iff hf hl hc ⟨hlt, ht⟩).mp hs⟩

lemma opened_fileAt (j : ℕ) :
    (s.opened h k n).fileAt j = if j = h then s.fileOf k else s.fileAt j :=
  Function.update_apply _ _ _ _

lemma HandlesCurrent.opened (hc : HandlesCurrent s) (hh : h < s.fsParams.maxOpenFilesCount) :
    HandlesCurrent (s.opened h k n) := by
  intro j hj
  rw [opened_inodeOf, opened_fileAt]
  split_ifs with hjh
  · rfl
  · exact hc j (((opened_open hh).mp hj).resolve_left hjh)

lemma HandlesCurrent.retrieved (hc : HandlesCurrent s) {mode : ℕ} :
    HandlesCurrent (s.retrieved k mode) := by
  rw [State.retrieved]
  split_ifs
  · exact hc
  · exact hc

lemma HandlesCurrent.spoiled (hc : HandlesCurrent s) (hl : HandlesLinked s)
    (hf : s.freeinodeTs k = .free) : HandlesCurrent (s.newInode k) := by
  intro j hj
  have hne : s.inodeOf j ≠ k := ne_of_free hf (hl j hj)
  rw [newInode_fileOf, if_neg (show (s.newInode k).inodeOf j ≠ k from hne)]
  exact hc j hj

lemma Happens.handlesCurrent (hh : Happens s slots call r t slots') (hl : HandlesLinked s)
    (hc : HandlesCurrent s) : HandlesCurrent t := by
  cases hh with
  | openInvalid | openAbsent | openNoInode | closeBad | writeBad | writeNone | writeFull | readBad
  | readNone | unlinkInvalid | unlinkAbsent | unlink => exact hc
  | openExisting hv ho hname hf =>
    have hlt := hf.1
    rw [← (retrieved_tables s _ _).2] at hlt
    exact hc.retrieved.opened hlt
  | openExistingFull => exact hc.retrieved
  | openNoEntry hv hno hm hk hf => exact hc.spoiled hl hf.2.1
  | @openCreated name mode k i h fname hv hno hm hk hf hname hi hn hvacant hfree =>
    have hcreated : HandlesCurrent (s.created k i (subName name)) := hc.spoiled hl hf.2.1
    exact hcreated.opened hfree.1
  | openCreatedFull hv hno hm hk hf => exact hc.spoiled hl hf.2.1
  | close => exact fun j hj => hc j (closed_open.mp hj).2
  | write =>
    intro j hj
    rw [wrote_inodeOf]
    exact hc j hj
  | read =>
    intro j hj
    rw [advanced_inodeOf]
    exact hc j hj

lemma wrote_hole (hf : Faithful s) (hl : HandlesLinked s) (hc : HandlesCurrent s)
    (hw : Writable s h b bs) (hlt : s.sizeOf (s.inodeOf h) < s.offsetOf h) :
    ¬ AllStored (s.wrote h b bs) := by
  intro hall
  have hk := hl h hw.isOpen
  have hpos := hw.nonempty
  have hhole := hall (s.inodeOf h) (s.sizeOf (s.inodeOf h)) hk
    (by rw [wrote_sizeOf, if_pos rfl]; omega)
  have hnone : (s.wrote h b bs).history.stored (s.fileOf (s.inodeOf h)) (s.sizeOf (s.inodeOf h)) =
      s.history.stored (s.fileOf (s.inodeOf h)) (s.sizeOf (s.inodeOf h)) := by
    rw [hc h hw.isOpen, wrote_stored, if_pos rfl, storeBytes, if_neg (by omega)]
  have hin := hf.within hk (fun he => by
    have hsome := hnone.symm.trans hhole
    rw [he] at hsome
    cases hsome)
  exact lt_irrefl _ hin

lemma read_past_end (hf : Faithful s) (hl : HandlesLinked s) (hc : HandlesCurrent s)
    (ho : s.Open h) (hlt : s.sizeOf (s.inodeOf h) < s.offsetOf h) :
    s.history.stored (s.fileAt h) (s.offsetOf h) = none := by
  by_contra hne
  rw [← hc h ho] at hne
  exact absurd (hf.within (hl h ho) hne) (by omega)

lemma stored_iff (hs : Sound s slots) (hf : Faithful s) (hl : HandlesLinked s)
    (hc : HandlesCurrent s) (hh : Happens s slots call r t slots') :
    ReturnsStored s r call ∧ AllStored t ↔ ¬ TransfersPastEnd s call := by
  constructor
  · rintro ⟨hret, hall⟩ hp
    cases call with
    | «open» | close | unlink => exact hp
    | write fh buffer toWrite =>
      obtain ⟨h0, hlt, ht, hst, hpast⟩ := hp
      rcases hh.write_cases (Int.toNat_of_nonneg h0).symm ⟨hlt, ht⟩ with
        ⟨hno, -⟩ | ⟨b, n, -, -, hw, -, rfl⟩
      · exact hno hst
      · exact wrote_hole hf hl hc hw hpast hall
    | read fh room len =>
      obtain ⟨h0, hlt, ht, hlen, hpast⟩ := hp
      have he := (Int.toNat_of_nonneg h0).symm
      have hnone := read_past_end hf hl hc ⟨hlt, ht⟩ hpast
      rcases hh.read_cases he ⟨hlt, ht⟩ with ⟨hno, -, -⟩ | ⟨n, hpos, hn, rfl, -⟩
      · omega
      · have hfirst := hret _ he ⟨hlt, ht⟩ 0 _ (readMem_getElem? hpos)
        rw [Nat.add_zero, hnone] at hfirst
        cases hfirst
  · intro hp
    have ha := not_astray hf hl hc hp
    refine ⟨?_, (hh.faithful hs hf ha).allStored⟩
    have hi := hh.isolates hs hf ha
    cases call with
    | read fh room len => exact hi
    | _ => trivial

lemma current_of_reachable {p : TfsParams} {mallocs : Mallocs} (hp : p.InRange)
    (h0 : tfsInit p mallocs = .ok (s₀, 0))
    (h : (tecnicofs s₀).ReachableBy (fun s call => NoUnlink call ∧ ¬ TransfersPastEnd s call) s) :
    ∃ slots, Sound s slots ∧ Faithful s ∧ HandlesLinked s ∧ HandlesCurrent s := by
  have hinit : Faithful s₀ ∧ HandlesLinked s₀ ∧ HandlesCurrent s₀ :=
    ⟨Faithful.init hp h0, fun j hj => absurd hj (init_closed h0 j),
      fun j hj => absurd hj (init_closed h0 j)⟩
  apply invariant_of_reachable hp h0 hinit _ h
  rintro s t slots slots' call r hs ⟨hf, hl, hc⟩ hcall hh
  exact ⟨hh.faithful hs hf (not_astray hf hl hc hcall.2),
    hh.handlesLinked hs hl hcall.1.not_unlinksOpen, hh.handlesCurrent hl hc⟩

theorem stored_iff_not_past_end {p : TfsParams} {mallocs : Mallocs} (hp : p.InRange)
    (h0 : tfsInit p mallocs = .ok (s₀, 0))
    (h : (tecnicofs s₀).ReachableBy (fun s call => NoUnlink call ∧ ¬ TransfersPastEnd s call) s) :
    AllStored s ∧ ∀ call t r, call.admissible s → tfsCall s call = .ok (t, r) →
      (ReturnsStored s r call ∧ AllStored t ↔ ¬ TransfersPastEnd s call) := by
  obtain ⟨slots, hs, hf, hl, hc⟩ := current_of_reachable hp h0 h
  refine ⟨hf.allStored, ?_⟩
  intro call t r ha hr
  obtain ⟨slots', hh⟩ := tfsCall_happens hs ha hr
  exact stored_iff hs hf hl hc hh

theorem stored_iff_not_past_end_reread : ∃ s t r,
    (tecnicofs smallDisk).runIf (fun s call => NoUnlink call ∧ ¬ TransfersPastEnd s call) smallDisk
      [.open (some [47, 97]) 1, .write 0 [1, 2, 3] 3, .close 0, .open (some [47, 97]) 2,
        .write 0 [4] 1, .open (some [47, 97]) 0] = some s ∧
    tfsCall s (.read 1 2 2) = .ok (t, r) ∧ ReturnsStored s r (.read 1 2 2) ∧ AllStored t := by
  have hrun : ((tecnicofs smallDisk).runIf
      (fun s call => NoUnlink call ∧ ¬ TransfersPastEnd s call) smallDisk
      [.open (some [47, 97]) 1, .write 0 [1, 2, 3] 3, .close 0, .open (some [47, 97]) 2,
        .write 0 [4] 1, .open (some [47, 97]) 0]).map
      (fun s => (decide ((Call.read 1 2 2).admissible s ∧ ¬ TransfersPastEnd s (.read 1 2 2)),
        (tfsCall s (.read 1 2 2)).toOption.isSome)) = some (true, true) := by
    decide +kernel
  obtain ⟨s, hs, hat⟩ := Option.map_eq_some_iff.mp hrun
  obtain ⟨hcond, hok⟩ := Prod.mk.inj hat
  obtain ⟨ha, hc⟩ := of_decide_eq_true hcond
  obtain ⟨⟨t, r⟩, ht⟩ := Option.isSome_iff_exists.mp hok
  have hr := ok_of_toOption ht
  have h := stored_iff_not_past_end smallParams_inRange smallDisk_init
    (System.ReachableBy.init.runIf hs)
  exact ⟨s, t, r, hs, hr, (h.2 _ t r ha hr).mpr hc⟩

theorem truncated_read_discloses : ∃ s t r, tfsInit smallParams soiled = .ok (smallDisk, 0) ∧
    (tecnicofs smallDisk).runIf (fun _ call => NoUnlink call) smallDisk
      [.open (some [47, 97]) 1, .write 0 [1, 2, 3] 3, .open (some [47, 97]) 2,
        .open (some [47, 98]) 1, .write 2 [7, 8, 9, 10, 11] 5] = some s ∧
    tfsCall s (.read 0 2 2) = .ok (t, r) ∧ r.bytes = [10, 11] ∧
    ¬ ReturnsStored s r (.read 0 2 2) := by
  have hrun : ((tecnicofs smallDisk).runIf (fun _ call => NoUnlink call) smallDisk
      [.open (some [47, 97]) 1, .write 0 [1, 2, 3] 3, .open (some [47, 97]) 2,
        .open (some [47, 98]) 1, .write 2 [7, 8, 9, 10, 11] 5]).map
      (fun s => (decide (0 < s.fsParams.maxOpenFilesCount ∧ s.freeOpenFileEntries 0 = .taken ∧
          s.history.stored (s.fileAt 0) (s.offsetOf 0 + 0) = none),
        (tfsCall s (.read 0 2 2)).toOption.map (fun x => x.2.bytes))) =
      some (true, some [10, 11]) := by
    decide +kernel
  obtain ⟨s, hs, hat⟩ := Option.map_eq_some_iff.mp hrun
  obtain ⟨hcond, hok⟩ := Prod.mk.inj hat
  obtain ⟨hlt, htaken, hnone⟩ := of_decide_eq_true hcond
  obtain ⟨⟨t, r⟩, ht, hbytes⟩ := Option.map_eq_some_iff.mp hok
  refine ⟨s, t, r, smallDisk_init, hs, ok_of_toOption ht, hbytes, ?_⟩
  intro hret
  have hfirst := hret 0 rfl ⟨hlt, htaken⟩ 0 10 (by rw [show r.bytes = [10, 11] from hbytes]; rfl)
  rw [hnone] at hfirst
  cases hfirst

end Current

end MessageBroker.Fs
