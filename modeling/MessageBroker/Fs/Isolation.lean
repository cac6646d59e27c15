import MessageBroker.Fs.Contents

namespace MessageBroker.Fs

open MessageBroker.Lib

/-- A file other than the one the handle was opened on keeps its size and bytes under a write; a
read returns bytes stored in the handle's own file, each at its position. -/
def Isolates (s : State) (t : State) (r : Reply) : Call → Prop
  | .write fh _ _ => ∀ h : ℕ, fh = h → s.Open h → ∀ l, s.Linked l → s.fileOf l ≠ s.fileAt h →
      t.sizeOf l = s.sizeOf l ∧ ∀ i < s.sizeOf l, t.byteAt l i = s.byteAt l i
  | .read fh _ _ => ∀ h : ℕ, fh = h → s.Open h → ∀ j x, r.bytes[j]? = some x →
      s.history.stored (s.fileAt h) (s.offsetOf h + j) = some x
  | _ => True

section Apart

variable {s t s₀ : State} {slots slots' : List Slot} {call : Call} {r : Reply} {h b n l : ℕ}
  {bs : List UInt8}

lemma not_strays_iff : ¬ Strays s h ↔ s.fileOf (s.inodeOf h) = s.fileAt h ∧
    (0 < s.sizeOf (s.inodeOf h) → s.history.blockFile (s.blockOf (s.inodeOf h)) = s.fileAt h) ∧
    s.offsetOf h ≤ s.sizeOf (s.inodeOf h) := by
  rw [Strays]
  push Not
  rfl

lemma wrote_apart (hs : Sound s slots) (hf : Faithful s) (hw : Writable s h b bs)
    (hn : ¬ Strays s h) (hl : s.Linked l) (hne : s.fileOf l ≠ s.fileAt h) :
    (s.wrote h b bs).sizeOf l = s.sizeOf l ∧
      ∀ i < s.sizeOf l, (s.wrote h b bs).byteAt l i = s.byteAt l i := by
  obtain ⟨hown, hblock, -⟩ := not_strays_iff.mp hn
  have hlk : l ≠ s.inodeOf h := by
    rintro rfl
    exact hne hown
  refine ⟨by rw [wrote_sizeOf, if_neg hlk], ?_⟩
  intro i hi
  have hz : 0 < s.sizeOf l := by omega
  have hsize := hs.sizes (.inl hl)
  apply wrote_byteAt_other hlk _ hw.fits (by omega)
  -- the block written was free, or is the handle's own file's
  rintro rfl
  rcases Nat.eq_zero_or_pos (s.sizeOf (s.inodeOf h)) with hk0 | hkp
  · exact ne_of_taken (hs.owned hl hz) (hw.fresh hk0) rfl
  · have hb := hblock hkp
    rw [hw.old hkp, hf.blocks hl hz] at hb
    exact hne hb

lemma read_own (hf : Faithful s) (ho : s.Open h) (hn : ¬ Strays s h)
    (hle : s.offsetOf h + n ≤ s.sizeOf (s.inodeOf h)) {j : ℕ} {x : UInt8}
    (hx : (readMem s.fsData
      (s.blockOf (s.inodeOf h) * s.fsParams.blockSize + s.offsetOf h) n)[j]? = some x) :
    s.history.stored (s.fileAt h) (s.offsetOf h + j) = some x := by
  obtain ⟨hown, hblock, -⟩ := not_strays_iff.mp hn
  have hj : j < n := by
    have hlt := (List.getElem?_eq_some_iff.mp hx).1
    rwa [readMem_length] at hlt
  have hc := hf.contents (.inr ⟨h, ho, rfl⟩) ((hblock (by omega)).trans hown.symm)
    (show s.offsetOf h + j < _ by omega)
  rw [readMem_getElem? hj, Nat.add_assoc] at hx
  rw [hown] at hc
  exact hc.trans hx

lemma Happens.isolates (hh : Happens s slots call r t slots') (hs : Sound s slots)
    (hf : Faithful s) (hc : ¬ TransfersAstray s call) : Isolates s t r call := by
  cases call with
  | «open» | close | unlink => trivial
  | write fh buffer toWrite =>
    rintro h rfl ho l hl hne
    rcases hh.write_cases rfl ho with ⟨-, rfl⟩ | ⟨b, n, hn, hbuf, hw, -, rfl⟩
    · exact ⟨rfl, fun _ _ => rfl⟩
    · exact wrote_apart hs hf hw (write_strays hw hn hc) hl hne
  | read fh room len =>
    rintro h rfl ho j x hx
    rcases hh.read_cases rfl ho with ⟨-, rfl, -⟩ | ⟨n, hpos, hn, rfl, -⟩
    · cases hx
    · have hns : ¬ Strays s h := by
        apply read_strays ho _ _ hc
        · split_ifs at hn <;> omega
        · intro he
          rw [if_pos he.le] at hn
          omega
      rw [if_pos (not_strays_iff.mp hns).2.2] at hn
      exact read_own hf ho hns (by omega) hx

theorem isolated_of_not_astray {p : TfsParams} {mallocs : Mallocs} (hp : p.InRange)
    (h0 : tfsInit p mallocs = .ok (s₀, 0))
    (h : (tecnicofs s₀).ReachableBy (fun s call => ¬ TransfersAstray s call) s)
    (ha : call.admissible s) (hr : tfsCall s call = .ok (t, r)) (hc : ¬ TransfersAstray s call) :
    Isolates s t r call := by
  obtain ⟨slots, hs, hf⟩ := faithful_of_reachable hp h0 (fun _ _ hc => hc) h
  obtain ⟨slots', hh⟩ := tfsCall_happens hs ha hr
  exact hh.isolates hs hf hc

theorem isolated_of_not_astray_reused : ∃ s t r,
    (tecnicofs smallDisk).runIf (fun s call => ¬ TransfersAstray s call) smallDisk
      [.open (some [47, 97]) 1, .write 0 [1, 2] 2, .unlink (some [47, 97]),
        .open (some [47, 98]) 1, .write 1 [7, 8, 9] 3] = some s ∧
    tfsCall s (.write 1 [4] 1) = .ok (t, r) ∧ Isolates s t r (.write 1 [4] 1) := by
  have hrun : ((tecnicofs smallDisk).runIf (fun s call => ¬ TransfersAstray s call) smallDisk
      [.open (some [47, 97]) 1, .write 0 [1, 2] 2, .unlink (some [47, 97]),
        .open (some [47, 98]) 1, .write 1 [7, 8, 9] 3]).map
      (fun s => (decide ((Call.write 1 [4] 1).admissible s ∧ ¬ TransfersAstray s (.write 1 [4] 1)),
        (tfsCall s (.write 1 [4] 1)).toOption.isSome)) = some (true, true) := by
    decide +kernel
  obtain ⟨s, hs, hat⟩ := Option.map_eq_some_iff.mp hrun
  obtain ⟨hcond, hok⟩ := Prod.mk.inj hat
  obtain ⟨ha, hc⟩ := of_decide_eq_true hcond
  obtain ⟨⟨t, r⟩, ht⟩ := Option.isSome_iff_exists.mp hok
  have hr := ok_of_toOption ht
  exact ⟨s, t, r, hs, hr, isolated_of_not_astray smallParams_inRange smallDisk_init
    (System.ReachableBy.init.runIf hs) ha hr hc⟩

theorem unlinked_write_corrupts : ∃ s t r, tfsInit smallParams soiled = .ok (smallDisk, 0) ∧
    (tecnicofs smallDisk).run smallDisk [.open (some [47, 97]) 1, .write 0 [1, 2] 2,
      .unlink (some [47, 97]), .open (some [47, 98]) 1, .write 1 [7, 8, 9] 3] = some s ∧
    tfsCall s (.write 0 [5] 1) = .ok (t, r) ∧ ¬ Isolates s t r (.write 0 [5] 1) := by
  have hrun : ((tecnicofs smallDisk).run smallDisk [.open (some [47, 97]) 1, .write 0 [1, 2] 2,
      .unlink (some [47, 97]), .open (some [47, 98]) 1, .write 1 [7, 8, 9] 3]).map
      (fun s => (decide (0 < s.fsParams.maxOpenFilesCount ∧ s.freeOpenFileEntries 0 = .taken ∧
          1 < s.fsParams.maxInodeCount ∧ s.freeinodeTs 1 = .taken ∧ s.fileOf 1 ≠ s.fileAt 0 ∧
          2 < s.sizeOf 1 ∧ s.byteAt 1 2 = 9),
        (tfsCall s (.write 0 [5] 1)).toOption.map (fun x => x.1.byteAt 1 2))) =
      some (true, some 5) := by
    decide +kernel
  obtain ⟨s, hs, hat⟩ := Option.map_eq_some_iff.mp hrun
  obtain ⟨hcond, hok⟩ := Prod.mk.inj hat
  obtain ⟨h0, ht0, h1, ht1, hfile, hsize, hbyte⟩ := of_decide_eq_true hcond
  obtain ⟨⟨t, r⟩, ht, hbyte'⟩ := Option.map_eq_some_iff.mp hok
  refine ⟨s, t, r, smallDisk_init, hs, ok_of_toOption ht, ?_⟩
  intro hi
  have hsame := (hi 0 rfl ⟨h0, ht0⟩ 1 ⟨Nat.one_pos, h1, ht1⟩ hfile).2 2 hsize
  rw [hbyte] at hsame
  exact absurd (hbyte'.symm.trans hsame) (by decide)

end Apart

end MessageBroker.Fs
