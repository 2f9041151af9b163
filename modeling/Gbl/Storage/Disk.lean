import Gbl.Storage.Write

/-!
# `Disk`: a device with its scratch memory

What a caller of `Disk` gets to know.
-/

namespace Gbl.Storage

open Lib Lib.Exec

namespace Disk

def Splits (d : Disk) : Prop := ∃ parts, splitScratch d.io.info d.scratch.toSlice = .ok parts

def Reaches (d : Disk) (addr offset len : Nat) : Prop :=
  d.Splits ∧ d.io.info.Fits addr offset len

def withContent (d : Disk) (c : Content) : Disk := { d with io := { d.io with content := c } }

structure Ran (P : Access → Prop) (d d' : Disk) : Prop where
  io : BlockIo.Ran P d.io d'.io
  scratchAddr : d'.scratch.addr = d.scratch.addr
  scratchLen : d'.scratch.len = d.scratch.len

namespace Ran

variable {P P' : Access → Prop} {d d' d'' : Disk}

theorem refl (P : Access → Prop) (d : Disk) : Ran P d d := ⟨.refl _ _, rfl, rfl⟩

theorem trans (h : Ran P d d') (h' : Ran P d' d'') : Ran P d d'' :=
  ⟨h.io.trans h'.io, h'.scratchAddr.trans h.scratchAddr, h'.scratchLen.trans h.scratchLen⟩

theorem mono (h : Ran P d d') (hP : ∀ a, P a → P' a) : Ran P' d d' := ⟨h.io.mono hP, h.scratchAddr, h.scratchLen⟩

theorem inMemory (h : Ran P d d') (hd : d.scratch.InMemory) : d'.scratch.InMemory :=
  hd.congr h.scratchAddr h.scratchLen

theorem splits_iff (h : Ran P d d') : d'.Splits ↔ d.Splits := by
  unfold Splits
  have hs : d'.scratch.toSlice = d.scratch.toSlice := by
    unfold Buf.toSlice
    rw [h.scratchAddr, h.scratchLen]
  rw [h.io.info, hs]

theorem reaches_iff (h : Ran P d d') (addr offset len : Nat) :
    d'.Reaches addr offset len ↔ d.Reaches addr offset len := by
  unfold Reaches
  rw [h.splits_iff, h.io.info]

end Ran

structure ReadPost (offset : Nat) (d : Disk) (b : Buf) (r : Result Unit) (d' : Disk) (b' : Buf) :
    Prop where
  ran : d.Ran (fun a => a.IsRead ∧ a.Proper d.io.info) d'
  content : d'.io.content = d.io.content
  addr : b'.addr = b.addr
  len : b'.len = b.len
  returns : d.Splits → r.Returns
  filled : r = .ok () →
    d.Reaches b.addr offset b.len ∧ b'.bytes = slice d.io.content offset b.len
  succeeds : d.io.FaultFree → d.Reaches b.addr offset b.len → r = .ok ()

structure WritePost (offset : Nat) (d : Disk) (b : Buf) (r : Result Unit) (d' : Disk) (b' : Buf) :
    Prop where
  ran : d.Ran (fun a => a.Proper d.io.info) d'
  buf : b' = b
  torn : Torn d.io.content offset b.bytes d'.io.content
  returns : d.Splits → r.Returns
  stored : r = .ok () →
    d.Reaches b.addr offset b.len ∧ d'.io.content = store d.io.content offset b.bytes
  succeeds : d.io.FaultFree → d.Reaches b.addr offset b.len → r = .ok ()

theorem transfer_of_not_splits {d : Disk} {b : Buf} {e : Stop Error} {f : Xfer → Slice × Slice → Exec Error Xfer Unit}
    (he : splitScratch d.io.info d.scratch.toSlice = .error e) :
    transfer (do
      let s ← Exec.get
      let parts ← Exec.lift (splitScratch s.io.info s.scratch.toSlice)
      f s parts) (d, b) = (.error e, d, b) := by
  have hrun : (do
      let s ← Exec.get
      let parts ← Exec.lift (splitScratch s.io.info s.scratch.toSlice)
      f s parts : Exec Error Xfer Unit) ⟨d.io, b, d.scratch⟩ = (.error e, ⟨d.io, b, d.scratch⟩) := by
    refine (bind_run_ok (get_run _)).trans (bind_run_error ?_)
    rw [lift_run, he]
  show (((_ : Exec Error Xfer Unit) ⟨d.io, b, d.scratch⟩).1, _) = _
  rw [hrun]

theorem read_wp {offset : Nat} {d : Disk} {b : Buf} (hd : d.scratch.InMemory) (hb : b.InMemory)
    (ho : offset < 2 ^ 64) :
    wp (read offset) (d, b) fun r p => ReadPost offset d b r p.1 p.2 := by
  rcases hs : splitScratch d.io.info d.scratch.toSlice with e | parts
  · have hno : ¬ d.Splits := by rintro ⟨parts, h⟩; rw [hs] at h; cases h
    unfold wp read readAsync
    rw [transfer_of_not_splits hs]
    exact ⟨.refl _ _, rfl, rfl, rfl, fun h => absurd h hno, nofun, fun _ h => absurd h.1 hno⟩
  · have hsplit : Xfer.Split ⟨d.io, b, d.scratch⟩ parts := ⟨hb, hd, hs⟩
    have hyes : d.Splits := ⟨parts, hs⟩
    unfold read transfer
    apply wp_zoom
    refine wp_mono (readAsync_wp hsplit ho) ?_
    rintro r t ⟨hk, hret, hfilled, hsucc⟩
    exact ⟨⟨hk.ran, hk.scratchAddr, hk.scratchLen⟩, hk.content, hk.bufAddr, hk.bufLen, fun _ => hret,
      fun hr => ⟨⟨hyes, (hfilled hr).1⟩, (hfilled hr).2⟩, fun hff hreach => hsucc hff hreach.2⟩

theorem write_wp {offset : Nat} {d : Disk} {b : Buf} (hd : d.scratch.InMemory) (hb : b.InMemory)
    (ho : offset < 2 ^ 64) :
    wp (write offset) (d, b) fun r p => WritePost offset d b r p.1 p.2 := by
  rcases hs : splitScratch d.io.info d.scratch.toSlice with e | parts
  · have hno : ¬ d.Splits := by rintro ⟨parts, h⟩; rw [hs] at h; cases h
    unfold wp write writeAsync
    rw [transfer_of_not_splits hs]
    exact ⟨.refl _ _, rfl, .refl _ _ _, fun h => absurd h hno, nofun, fun _ h => absurd h.1 hno⟩
  · have hsplit : Xfer.Split ⟨d.io, b, d.scratch⟩ parts := ⟨hb, hd, hs⟩
    have hyes : d.Splits := ⟨parts, hs⟩
    unfold write transfer
    apply wp_zoom
    refine wp_mono (writeAsync_wp hsplit ho) ?_
    rintro r t ⟨hran, hbuf, ha, hl, htorn, hret, hstored, hsucc⟩
    exact ⟨⟨hran, ha, hl⟩, hbuf, htorn, fun _ => hret,
      fun hr => ⟨⟨hyes, (hstored hr).1⟩, (hstored hr).2⟩, fun hff hreach => hsucc hff hreach.2⟩

/-! ## Filling -/

def onPart (i n : Nat) (m : Exec Error (Disk × Buf) Unit) : Exec Error (Disk × Buf) Unit := do
  let p ← Exec.get
  Exec.assert (i + n ≤ p.2.len)
  Exec.zoom (fun p => (p.1, p.2.sub i n)) (fun p t => (t.1, p.2.patch i t.2.bytes)) m

def fillLoop (i sz stop : Nat) : Nat → Nat → Exec Error (Disk × Buf) Unit
  | 0, _ => Exec.lift (.error .hang)
  | fuel + 1, offset =>
    if offset < stop then do
      let toWrite := min sz (stop - offset)
      onPart i toWrite (write offset)
      fillLoop i sz stop fuel (offset + toWrite)
    else pure ()

def fillPart (info : BlockInfo) (scratch : Slice) : Result Slice :=
  match alignedSubslice scratch info.alignment with
  | .ok v =>
    if info.blockSize = 0 then panic
    else if 0 < v.len / info.blockSize then
      .ok ⟨v.addr, v.len / info.blockSize * info.blockSize⟩
    else .ok v
  | .error _ => .ok scratch

def fill (offset size : Nat) (val : UInt8) : Exec Error (Disk × Buf) Unit := do
  let p ← Exec.get
  if p.2.len = 0 then Exec.lift (err .invalidInput) else do
    let part ← Exec.lift (fillPart p.1.io.info p.2.toSlice)
    let i := part.addr - p.2.addr
    let sz := min size part.len
    Exec.modify fun p => (p.1, p.2.patch i (List.replicate sz val))
    let stop ← Exec.lift ((offset : SafeNum) + size).toU64
    fillLoop i sz stop (size + 1) offset

end Disk

/-! ## Is the scratch size enough? -/

def ScratchSuffices (info : BlockInfo) (scratch : Slice) : Prop :=
  ∃ first second, splitScratch info scratch = .ok (first, second) ∧
    first.addr % info.alignment = 0 ∧ first.len = info.alignment - 1 ∧
    second.addr % info.alignment = 0 ∧
    second.len = (if info.blockSize = 1 then 0 else info.blockSize) ∧
    scratch.addr ≤ first.addr ∧ first.addr + first.len ≤ second.addr ∧
    second.addr + second.len ≤ scratch.addr + scratch.len

theorem scratchSuffices_of_split {info : BlockInfo} {scratch : Slice} {parts : Slice × Slice}
    (h : splitScratch info scratch = .ok parts) : ScratchSuffices info scratch := by
  obtain ⟨⟨hal, -, -, hend⟩, rfl⟩ := (splitScratch_eq_ok_iff _ _ _).mp h
  refine ⟨_, _, h, firstAddr_mod _ hal _, rfl, secondAddr_mod _ hal _, ?_, Nat.le_add_right _ _,
    Nat.le_add_right _ _, hend⟩
  show info.blockScratch = _
  unfold BlockInfo.blockScratch
  split
  · next h1 => rw [if_pos h1]
  · next h1 => rw [if_neg h1]

theorem secondAddr_le_iff {info : BlockInfo} (hal : 0 < info.alignment) (addr len : Nat)
    (hlen : (info.alignment - 1) * 2 + info.blockScratch ≤ len) :
    secondAddr info addr + info.blockScratch ≤ addr + len ↔ info.alignment = 1 ∨ addr % info.alignment ≠ 1 ∨
        (info.alignment - 1) * 2 + info.blockScratch < len := by
  have hlt := Nat.mod_lt addr hal
  unfold secondAddr firstAddr BlockInfo.skip
  by_cases h1 : info.alignment = 1
  · have hgap : gap addr info.alignment = 0 := gap_of_aligned (by rw [h1]; exact Nat.mod_one _)
    rw [if_pos h1, hgap]
    simp only [h1, true_or, iff_true]
    omega
  · rw [if_neg h1]
    by_cases h0 : addr % info.alignment = 0
    · rw [gap_of_aligned h0]
      omega
    · rw [gap_of_not_aligned hal h0]
      omega

/-- **When the advertised scratch size is enough.** For a disk that `Disk::new` has accepted: its
scratch can be split as promised, and no read or write ever panics, exactly if the scratch is not
at an address one past a multiple of the alignment with no byte to spare, and its address leaves room
for the two round-ups. -/
theorem scratch_suffices_iff (io : BlockIo) (scratch : Buf) (d : Disk)
    (hnew : Disk.new io scratch = .ok d) (hmem : scratch.InMemory) :
    (ScratchSuffices io.info scratch.toSlice ∧
      ∀ (offset : Nat) (b : Buf), offset < 2 ^ 64 → b.InMemory →
        (Disk.read offset (d, b)).1.Returns ∧ (Disk.write offset (d, b)).1.Returns) ↔
    (io.info.alignment = 1 ∨ scratch.addr % io.info.alignment ≠ 1 ∨
        (io.info.alignment - 1) * 2 + io.info.blockScratch < scratch.len) ∧
      scratch.addr + gap scratch.addr io.info.alignment + 2 * io.info.alignment ≤ 2 ^ 64 := by
  obtain ⟨sz, hsz, hnew⟩ := Res.bind_eq_ok.mp hnew
  obtain ⟨hal, rfl, -⟩ := (scratchSize_eq_ok_iff _ _).mp hsz
  have hlen : (io.info.alignment - 1) * 2 + io.info.blockScratch ≤ scratch.len := by
    by_contra h
    rw [if_pos (by omega)] at hnew
    cases hnew
  rw [if_neg (by omega)] at hnew
  cases hnew
  rw [← secondAddr_le_iff hal scratch.addr scratch.len hlen]
  constructor
  · rintro ⟨⟨first, second, hsplit, -⟩, -⟩
    obtain ⟨⟨-, -, hlt, hend⟩, -⟩ := (splitScratch_eq_ok_iff _ _ _).mp hsplit
    unfold firstAddr at hlt
    exact ⟨hend, by simp only [Buf.toSlice_addr] at hlt; omega⟩
  · rintro ⟨hend, hlt⟩
    have hsplit := (splitScratch_eq_ok_iff io.info scratch.toSlice _).mpr
      ⟨⟨hal, by simp only [Buf.toSlice_addr]; omega, by
        unfold firstAddr
        simp only [Buf.toSlice_addr]
        omega, hend⟩, rfl⟩
    have hsplits : Disk.Splits ⟨io, scratch⟩ := ⟨_, hsplit⟩
    refine ⟨scratchSuffices_of_split hsplit, fun offset b ho hb => ⟨?_, ?_⟩⟩
    · exact (Disk.read_wp hmem hb ho).returns hsplits
    · exact (Disk.write_wp hmem hb ho).returns hsplits

/-- Two-byte alignment, two-byte blocks, and the four bytes of scratch that `scratch_size` asks for,
at an even address. -/
theorem scratch_suffices_even :
    ScratchSuffices ⟨2, 4, 2, by decide, by decide, by decide⟩ ⟨32, 4⟩ :=
  ((scratch_suffices_iff
    ⟨⟨2, 4, 2, by decide, by decide, by decide⟩, fun _ => 0, fun _ => none, []⟩
    ⟨32, [0, 0, 0, 0]⟩ _ rfl ⟨by decide, by decide, by decide⟩).mpr
      ⟨Or.inr (Or.inl (by decide)), by decide⟩).1

/-- At an odd address the same four bytes are one too few: `Disk::new` accepts them, and every read
panics. -/
theorem scratch_one_byte_short :
    ∃ (io : BlockIo) (scratch b : Buf) (d : Disk),
      1 ≤ io.info.blockSize ∧ 1 ≤ io.info.alignment ∧ scratch.InMemory ∧ b.InMemory ∧
      Disk.new io scratch = .ok d ∧ ¬ ScratchSuffices io.info scratch.toSlice ∧
      (Disk.read 0 (d, b)).1 = panic ∧ (Disk.write 0 (d, b)).1 = panic := by
  refine ⟨⟨⟨2, 4, 2, by decide, by decide, by decide⟩, fun _ => 0, fun _ => none, []⟩,
    ⟨33, [0, 0, 0, 0]⟩, ⟨64, [0, 0]⟩, _, by decide, by decide, ⟨by decide, by decide, by decide⟩,
    ⟨by decide, by decide, by decide⟩, rfl, ?_, by decide, by decide⟩
  rintro ⟨first, second, hsplit, -⟩
  have hpanic : splitScratch ⟨2, 4, 2, by decide, by decide, by decide⟩ ⟨33, 4⟩ = panic := by decide
  cases hpanic.symm.trans hsplit

end Gbl.Storage
