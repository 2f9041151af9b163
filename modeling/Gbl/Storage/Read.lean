import Gbl.Storage.Range

/-!
# Unaligned reads are exact

`readAsync` is verified from the inside out, one specification for each function of the source.
-/

namespace Gbl.Storage

open Lib Lib.Exec

/-! ## The common specification -/

structure Xfer.Kept (s s' : Xfer) : Prop where
  ran : BlockIo.Ran (fun a => a.IsRead ∧ a.Proper s.io.info) s.io s'.io
  content : s'.io.content = s.io.content
  bufAddr : s'.buf.addr = s.buf.addr
  bufLen : s'.buf.len = s.buf.len
  scratchAddr : s'.scratch.addr = s.scratch.addr
  scratchLen : s'.scratch.len = s.scratch.len

namespace Xfer.Kept

theorem refl (s : Xfer) : s.Kept s := ⟨.refl _ _, rfl, rfl, rfl, rfl, rfl⟩

theorem trans {s s' s'' : Xfer} (h : s.Kept s') (h' : s'.Kept s'') : s.Kept s'' where
  ran := h.ran.trans (h.ran.info ▸ h'.ran)
  content := h'.content.trans h.content
  bufAddr := h'.bufAddr.trans h.bufAddr
  bufLen := h'.bufLen.trans h.bufLen
  scratchAddr := h'.scratchAddr.trans h.scratchAddr
  scratchLen := h'.scratchLen.trans h.scratchLen

theorem shape {s s' : Xfer} (h : s.Kept s') : s.SameShape s' :=
  ⟨h.ran.info, h.bufAddr, h.bufLen, h.scratchAddr, h.scratchLen⟩

end Xfer.Kept

structure Reads (fits : Prop) (done : Xfer → Prop) (s : Xfer) (r : Result Unit) (s' : Xfer) : Prop where
  kept : s.Kept s'
  returns : r.Returns
  filled : r = .ok () → fits ∧ done s'
  succeeds : s.io.FaultFree → fits → r = .ok ()

variable {fits f g : Prop} {P Q : Xfer → Prop} {offset : Nat} {s s' : Xfer} {n pos : Nat}
  {m : Exec Error Xfer Unit} {parts : Slice × Slice} {i j u : Nat}

namespace Reads

theorem of_err {e : Error} (h : ¬ fits) : Reads fits P s (err e) s :=
  ⟨.refl s, trivial, nofun, fun _ hf => absurd hf h⟩

theorem of_ok (hf : fits) (h : P s) : Reads fits P s (.ok ()) s := ⟨.refl s, trivial, fun _ => ⟨hf, h⟩, fun _ _ => rfl⟩

theorem mono {r : Result Unit} (h : Reads f P s r s') (hf : f ↔ g) (hP : s.Kept s' → f → P s' → Q s') :
    Reads g Q s r s' :=
  ⟨h.kept, h.returns, fun hr => ⟨hf.1 (h.filled hr).1, hP h.kept (h.filled hr).1 (h.filled hr).2⟩,
    fun hff hg => h.succeeds hff (hf.2 hg)⟩

end Reads

theorem wp_read_then {m' : Unit → Exec Error Xfer Unit} (hfits : fits ↔ f ∧ g) (h : wp m s (Reads f P s))
    (h' : ∀ s₁, s.Kept s₁ → f → P s₁ → wp (m' ()) s₁ (Reads g Q s₁)) :
    wp (m >>= m') s (Reads fits Q s) := by
  refine wp_bind h ?_ ?_
  · rintro ⟨⟩ s₁ h₁
    obtain ⟨hf, hP⟩ := h₁.filled rfl
    refine wp_mono (h' s₁ h₁.kept hf hP) fun r s₂ h₂ => ?_
    exact ⟨h₁.kept.trans h₂.kept, h₂.returns, fun hr => ⟨hfits.2 ⟨hf, (h₂.filled hr).1⟩, (h₂.filled hr).2⟩,
      fun hff hfit => h₂.succeeds (h₁.kept.ran.faultFree hff) (hfits.1 hfit).2⟩
  · rintro e s₁ h₁
    exact ⟨h₁.kept, h₁.returns, nofun, fun hff hfit => h₁.succeeds hff (hfits.1 hfit).1⟩

theorem wp_read_at {base : Nat} {m' : Nat → Exec Error Xfer Unit} (hfits : fits ↔ base + n < 2 ^ 64 ∧ g)
    (h : base + n < 2 ^ 64 → wp (m' (base + n)) s (Reads g Q s)) :
    wp (Exec.lift ((base : SafeNum) + n).toU64 >>= m') s (Reads fits Q s) := by
  by_cases hov : base + n < 2 ^ 64
  · exact wp_lift_ok_bind (add_toU64 hov) (wp_mono (h hov) fun r s' hr =>
      hr.mono ⟨fun hg => hfits.2 ⟨hov, hg⟩, fun hf => (hfits.1 hf).2⟩ fun _ _ hQ => hQ)
  · apply wp_lift_overflow_bind (add_eq_error (by omega))
    exact .of_err fun hf => hov (hfits.1 hf).1

theorem wp_copyFromScratch {dst src : Nat} (hd : dst + n ≤ s.buf.len) (hs : src + n ≤ s.scratch.len)
    (h : Q { s with buf := s.buf.patch dst ((s.scratch.bytes.drop src).take n) }) :
    wp (copyFromScratch dst src n) s (Reads True Q s) := by
  have hlen : s.scratch.bytes.length = s.scratch.len := rfl
  rw [wp, copyFromScratch_run hd hs]
  refine ⟨⟨.refl _ _, rfl, rfl, Buf.patch_len _ ?_, rfl, rfl⟩, trivial, fun _ => ⟨trivial, h⟩, fun _ _ => rfl⟩
  rw [List.length_take, List.length_drop]
  omega

/-! ## Whole blocks -/

theorem readAlignedAll_wp {io : BlockIo} {out : Buf} (hb : out.Ready io.info) (hbs : 0 < io.info.blockSize)
    (ho : offset < 2 ^ 64) (hoff : offset % io.info.blockSize = 0) (hlen : out.len % io.info.blockSize = 0) :
    wp (readAlignedAll offset) (io, out) fun r p =>
      BlockIo.Ran (fun a => a.IsRead ∧ a.Proper io.info) io p.1 ∧ p.1.content = io.content ∧
      p.2.addr = out.addr ∧ p.2.len = out.len ∧ r.Returns ∧
      (r = .ok () → offset + out.len ≤ io.info.total ∧ p.2.bytes = slice io.content offset out.len) ∧
      (io.FaultFree → offset + out.len ≤ io.info.total → r = .ok ()) := by
  rw [wp, readAlignedAll]
  rcases checkRange_bind_cases BlockIo.readBlocks hb hbs ho hoff hlen with ⟨hin, hrun⟩ | ⟨hout, e, hrun⟩
  · have hpos : offset / io.info.blockSize * io.info.blockSize = offset :=
      Nat.div_mul_cancel (Nat.dvd_of_mod_eq_zero hoff)
    have hproper : ∀ a ∈ [Access.read (offset / io.info.blockSize) out.addr out.len], a.IsRead ∧ a.Proper io.info := by
      intro a ha
      rw [List.mem_singleton] at ha
      subst ha
      exact ⟨trivial, hb.aligned, hlen, by rw [hpos]; exact hin⟩
    rw [hrun]
    unfold BlockIo.readBlocks
    dsimp only
    rw [hpos]
    cases hf : io.faults io.log.length with
    | none =>
      exact ⟨⟨rfl, rfl, _, rfl, hproper⟩, rfl, rfl, length_slice _ _ _, trivial, fun _ => ⟨hin, rfl⟩,
        fun _ _ => rfl⟩
    | some f =>
      refine ⟨⟨rfl, rfl, _, rfl, hproper⟩, rfl, rfl, length_slice _ _ _, trivial, by rintro ⟨⟩, fun hff => ?_⟩
      rw [hff] at hf
      cases hf
  · rw [hrun]
    exact ⟨.refl _ _, rfl, rfl, rfl, trivial, by rintro ⟨⟩, fun _ h => absurd h hout⟩

theorem readScratchBlock_wp (hs : s.Ready) (hbs : 0 < s.io.info.blockSize) (hne : s.io.info.blockSize ≠ 1)
    (ho : offset < 2 ^ 64) (hoff : offset % s.io.info.blockSize = 0) :
    wp (onScratch s.io.info.blockSize (readAlignedAll offset)) s fun r s' =>
      s'.buf = s.buf ∧ Reads (offset + s.io.info.blockSize ≤ s.io.info.total)
        (fun t => t.buf = s.buf ∧ t.scratch.bytes.take s.io.info.blockSize =
          slice s.io.content offset s.io.info.blockSize) s r s' := by
  obtain ⟨hready, hsub⟩ := hs.scratch_sub hne
  have hlen := hs.scratchLen
  rw [BlockInfo.blockScratch_eq hne] at hlen
  apply wp_onScratch
  refine wp_mono (readAlignedAll_wp hready hbs ho hoff (by rw [hsub, Nat.mod_self])) ?_
  rintro r p ⟨hran, hcont, -, hplen, hret, hfilled, hsucc⟩
  rw [hsub] at hplen hfilled hsucc
  refine ⟨rfl, ⟨hran, hcont, rfl, rfl, rfl, ?_⟩, hret, fun hr => ?_, hsucc⟩
  · exact Buf.patch_len _ (by rw [Nat.zero_add]; exact hplen.le.trans hlen)
  · obtain ⟨hin, hbytes⟩ := hfilled hr
    refine ⟨hin, rfl, ?_⟩
    show (splice s.scratch.bytes 0 p.2.bytes).take s.io.info.blockSize = _
    rw [splice_zero, hbytes, List.take_left' (length_slice _ _ _)]

/-! ## Aligned offset and buffer -/

theorem readWholeBlocks_wp (hs : s.Ready) (hbs : 0 < s.io.info.blockSize) (ho : offset < 2 ^ 64)
    (hoff : offset % s.io.info.blockSize = 0) (hn : n = s.buf.len - s.buf.len % s.io.info.blockSize) :
    wp (Exec.when (0 < n) (getMut 0 n (onBuf (readAlignedAll offset)))) s (Reads (n = 0 ∨ offset + n ≤ s.io.info.total)
        (fun t => t.buf.bytes = slice s.io.content offset n ++ s.buf.bytes.drop n) s) := by
  have hnlen : n ≤ s.buf.len := by omega
  refine wp_when (fun hpos => ?_) (fun h0 => ?_)
  · obtain ⟨hready, hsub, hmul⟩ := hs.wholeBlocks hn
    refine wp_window (Nat.zero_le _) hnlen (wp_onBuf ?_)
    refine wp_mono (readAlignedAll_wp hready hbs ho hoff (by rw [hsub]; exact hmul)) ?_
    rintro r p ⟨hran, hcont, haddr, hlen, hret, hex, hsucc⟩
    rw [hsub] at hlen hex hsucc
    refine ⟨⟨hran, hcont, rfl, Buf.patch_len _ (by rw [Nat.zero_add]; exact hlen.le.trans hnlen), rfl, rfl⟩,
      hret, fun hr => ?_, fun hff hin => hsucc hff (hin.resolve_left (by omega))⟩
    obtain ⟨hin, hbytes⟩ := hex hr
    refine ⟨Or.inr hin, ?_⟩
    show splice s.buf.bytes 0 p.2.bytes = _
    rw [hbytes, splice_zero, length_slice]
  · rw [show n = 0 by omega]
    exact .of_ok (Or.inl rfl) rfl

theorem readLastBlock_wp (hs : s.Ready) (hbs : 0 < s.io.info.blockSize) (hpos : pos < 2 ^ 64)
    (hmod : pos % s.io.info.blockSize = 0) (hn : n < s.buf.len) (hrest : s.buf.len - n < s.io.info.blockSize) :
    wp (do
        onScratch s.io.info.blockSize (readAlignedAll pos)
        copyFromScratch n 0 (s.buf.len - n)) s
      (Reads (pos + (s.buf.len - n) ≤ s.io.info.total)
        (fun t => t.buf.bytes = s.buf.bytes.take n ++ slice s.io.content pos (s.buf.len - n)) s) := by
  have hne : s.io.info.blockSize ≠ 1 := by omega
  have hscr := hs.scratchLen
  rw [BlockInfo.blockScratch_eq hne] at hscr
  rw [BlockInfo.add_le_total_iff hmod (by omega) (by omega)]
  refine wp_read_then (and_iff_left trivial).symm
    (wp_mono (readScratchBlock_wp hs hbs hne hpos hmod) fun _ _ h => h.2) ?_
  rintro s₁ hk - ⟨hbuf, hblock⟩
  refine wp_copyFromScratch (by rw [hbuf]; omega) (by rw [hk.scratchLen]; omega) ?_
  rw [take_drop_of_take_eq_slice hblock (by omega)]
  show splice s₁.buf.bytes n _ = _
  rw [splice_tail (by rw [length_slice, hbuf]; exact Nat.add_sub_cancel' hn.le), hbuf]
  rfl

theorem readAlignedOffsetAndBuffer_wp (hs : s.Ready) (hbs : 0 < s.io.info.blockSize) (ho : offset < 2 ^ 64)
    (hoff : offset % s.io.info.blockSize = 0) :
    wp (readAlignedOffsetAndBuffer offset) s (Reads (s.io.info.AlignedFits offset s.buf.len)
      (fun t => t.buf.bytes = slice s.io.content offset s.buf.len) s) := by
  apply wp_get_bind
  refine wp_alignedOffsetAndBuffer hs hbs ho hoff fun n hn => ?_
  have hmod := Nat.mod_le s.buf.len s.io.info.blockSize
  have hlt := Nat.mod_lt s.buf.len hbs
  have hwhole := readWholeBlocks_wp hs hbs ho hoff hn
  by_cases h0 : s.buf.len - n = 0
  · -- the range ends at a block boundary
    refine wp_read_then (BlockInfo.alignedFits_whole_iff hn (by omega)) hwhole fun s₁ hk _ hbytes => ?_
    rw [if_pos h0]
    refine wp_pure (.of_ok trivial ?_)
    rw [hbytes, show n = s.buf.len by omega,
      List.drop_of_length_le (show s.buf.bytes.length ≤ s.buf.len from Nat.le_refl _), List.append_nil]
  · refine wp_read_then (BlockInfo.alignedFits_iff hn (by omega)) hwhole fun s₁ hk _ hbytes => ?_
    rw [if_neg h0]
    have hscr := hs.scratchLen
    rw [BlockInfo.blockScratch_eq (by intro h1; rw [h1] at hlt hn; omega)] at hscr
    apply wp_indexScratch_bind (by rw [hk.scratchLen]; exact hscr)
    refine wp_read_at Iff.rfl fun hov => ?_
    have hnmod : (offset + n) % s.io.info.blockSize = 0 := by
      rw [Nat.add_mod, hoff, hn, Nat.mod_eq_zero_of_dvd (Nat.dvd_sub_mod _)]
      rfl
    have hlast := readLastBlock_wp (n := n) (hs.of_shape hk.shape) (by rw [hk.ran.info]; exact hbs) hov
      (by rw [hk.ran.info]; exact hnmod) (by rw [hk.bufLen]; omega) (by rw [hk.bufLen, hk.ran.info]; omega)
    rw [hk.bufLen, hk.ran.info, hk.content] at hlast
    refine wp_mono hlast fun r s₂ h => h.mono Iff.rfl fun _ _ hbytes' => ?_
    rw [hbytes', hbytes, List.take_left' (length_slice _ _ _), ← slice_add]
    congr 1
    omega

/-! ## Aligned buffer -/

theorem wp_window_read {stop : Stop Error} {lo hi : Nat} (hlo : lo ≤ hi) (hhi : hi ≤ s.buf.len)
    (h : wp m { s with buf := s.buf.sub lo (hi - lo) } (Reads fits P { s with buf := s.buf.sub lo (hi - lo) })) :
    wp (window stop lo hi m) s
      (Reads fits (fun t => ∃ t', P t' ∧ t.buf.bytes = splice s.buf.bytes lo t'.buf.bytes) s) := by
  refine wp_window hlo hhi (wp_mono h ?_)
  rintro r t ⟨hk, hret, hfilled, hsucc⟩
  have hlen : t.buf.bytes.length = hi - lo := hk.bufLen.trans (Buf.sub_len _ (by omega))
  exact ⟨⟨hk.ran, hk.content, rfl, Buf.patch_len _ (by omega), hk.scratchAddr, hk.scratchLen⟩,
    hret, fun hr => ⟨(hfilled hr).1, t, (hfilled hr).2, rfl⟩, hsucc⟩

theorem readBehindHead_wp {rel : Nat} (hs : s.Ready) (hbs : 0 < s.io.info.blockSize) (hrel : rel < s.buf.len)
    (hmod : pos % s.io.info.blockSize = 0) (hend : pos + (s.buf.len - rel) < 2 ^ 64) :
    wp (do
        if ← Exec.lift (isBufferAligned (s.buf.sub rel (s.buf.len - rel)).toSlice s.io.info.alignment) then
          getMut rel s.buf.len (readAlignedOffsetAndBuffer pos)
        else do
          let readLen ← Exec.lift ((s.buf.len : SafeNum) - rel).toU64
          getMut 0 readLen (readAlignedOffsetAndBuffer pos)
          copyWithin 0 readLen rel) s
      (Reads (pos + (s.buf.len - rel) ≤ s.io.info.total)
        (fun t => t.buf.bytes.drop rel = slice s.io.content pos (s.buf.len - rel)) s) := by
  have haddr : s.buf.addr + rel < 2 ^ 64 := by have := hs.buf.end_le; omega
  have hlen : s.buf.bytes.length = s.buf.len := rfl
  have hfits : s.io.info.AlignedFits pos (s.buf.len - rel) ↔
      pos + (s.buf.len - rel) ≤ s.io.info.total := BlockInfo.alignedFits_of_lt (by omega) hend
  -- overwriting the buffer from `rel` on by a list that reaches to its end
  have hdrop : ∀ {l d : List UInt8}, l.length = s.buf.len → d.length = s.buf.len - rel →
      (splice l rel d).drop rel = d := by
    intro l d hl hd
    rw [splice_tail (by omega), List.drop_left' (by rw [List.length_take]; omega)]
  apply wp_lift_ok_bind (isAligned_ofNat haddr hs.buf.pos s.io.info.alignment_lt)
  refine wp_ite (fun hal => ?_) (fun _ => ?_)
  · have hread := readAlignedOffsetAndBuffer_wp (hs.narrow (i := rel) (n := s.buf.len - rel) (by omega) haddr
      (beq_iff_eq.mp hal)) hbs (show pos < 2 ^ 64 by omega) hmod
    rw [Buf.sub_len _ (by omega), hfits] at hread
    refine wp_mono (wp_window_read hrel.le (Nat.le_refl _) hread) fun r s₁ h => h.mono Iff.rfl ?_
    rintro - - ⟨t, ht, hbytes⟩
    rw [hbytes, ht, hdrop hlen (length_slice _ _ _)]
  · apply wp_lift_ok_bind (sub_toU64 hs.buf.len_lt hrel.le)
    have hread := readAlignedOffsetAndBuffer_wp (hs.narrow (i := 0) (n := s.buf.len - rel - 0) (by omega)
      hs.buf.addr_lt hs.buf.aligned) hbs (show pos < 2 ^ 64 by omega) hmod
    rw [Buf.sub_len _ (by omega), show s.buf.len - rel - 0 = s.buf.len - rel from rfl, hfits] at hread
    refine wp_read_then (and_iff_left trivial).symm (wp_window_read (Nat.zero_le _) (Nat.sub_le _ _) hread) ?_
    rintro s₁ hk - ⟨t, ht, hbytes⟩
    have hfront : (s₁.buf.bytes.drop 0).take (s.buf.len - rel) = slice s.io.content pos (s.buf.len - rel) := by
      rw [List.drop_zero, hbytes, ht, splice_zero, List.take_left' (length_slice _ _ _)]
    rw [wp, copyWithin_run (by rw [hk.bufLen]; omega) (by rw [hk.bufLen]; omega)]
    unfold Buf.copyWithin
    rw [hfront]
    refine ⟨⟨.refl _ _, rfl, rfl, Buf.patch_len _ ?_, rfl, rfl⟩, trivial,
      fun _ => ⟨trivial, hdrop hk.bufLen (length_slice _ _ _)⟩, fun _ _ => rfl⟩
    rw [length_slice, hk.bufLen]
    omega

theorem readFirstBlock_wp (rel : Nat) (hs : s.Ready) (ho : offset < 2 ^ 64) (hbs : 0 < s.io.info.blockSize)
    (hal : offset % s.io.info.blockSize ≠ 0) (hrel : rel ≤ s.buf.len)
    (hrel' : offset % s.io.info.blockSize + rel ≤ s.io.info.blockSize) :
    wp (do
        indexScratch s.io.info.blockSize
        let roundDownOffset ← Exec.lift (SafeNum.roundDown offset s.io.info.blockSize).toU64
        onScratch s.io.info.blockSize (readAlignedAll roundDownOffset)
        let offsetRelative ← Exec.lift ((offset : SafeNum) - roundDownOffset).toU64
        copyFromScratch 0 offsetRelative rel) s
      (Reads (offset - offset % s.io.info.blockSize + s.io.info.blockSize ≤ s.io.info.total)
        (fun t => t.buf.bytes = slice s.io.content offset rel ++ s.buf.bytes.drop rel) s) := by
  have hmle := Nat.mod_le offset s.io.info.blockSize
  have hne : s.io.info.blockSize ≠ 1 := by
    intro h1; rw [h1, Nat.mod_one] at hal; exact hal rfl
  have hscr := hs.scratchLen
  rw [BlockInfo.blockScratch_eq hne] at hscr
  apply wp_indexScratch_bind hscr
  apply wp_lift_ok_bind (roundDown_toU64 ho hbs s.io.info.blockSize_lt)
  refine wp_read_then (and_iff_left trivial).symm (wp_mono (readScratchBlock_wp hs hbs hne (by omega)
    (Nat.mod_eq_zero_of_dvd (Nat.dvd_sub_mod _))) fun _ _ h => h.2) ?_
  rintro s₁ hk - ⟨hbuf, hblock⟩
  apply wp_lift_ok_bind (a := offset % s.io.info.blockSize) (by rw [sub_toU64 ho (Nat.sub_le _ _)]; congr 1; omega)
  refine wp_copyFromScratch (by rw [hk.bufLen]; omega) (by rw [hk.scratchLen]; omega) ?_
  rw [take_drop_of_take_eq_slice hblock hrel', Nat.sub_add_cancel hmle]
  show splice s₁.buf.bytes 0 _ = _
  rw [splice_zero, length_slice, hbuf]

theorem readAlignedBuffer_wp (hs : s.Ready) (ho : offset < 2 ^ 64) :
    wp (readAlignedBuffer offset) s (Reads (s.io.info.PieceFits offset s.buf.len)
      (fun t => t.buf.bytes = slice s.io.content offset s.buf.len) s) := by
  apply wp_get_bind
  refine wp_alignedBuffer hs ho (fun e h => Reads.of_err h) (fun hbs hal => ?_) fun rel hbs hal hup hstop hrel => ?_
  · rw [BlockInfo.pieceFits_of_aligned hbs hal]
    exact readAlignedOffsetAndBuffer_wp hs hbs ho hal
  have hmlt := Nat.mod_lt offset hbs
  have hgap := gap_of_not_aligned hbs hal
  rw [BlockInfo.pieceFits_of_not_aligned hbs hal hup hstop, Nat.add_min_add_left, ← hrel]
  refine wp_read_then (BlockInfo.unaligned_le_total_iff hbs hal hrel)
    (P := fun t => t.buf.bytes.drop rel = slice s.io.content (offset + rel) (s.buf.len - rel)) ?_ ?_
  · refine wp_when (fun hlt => ?_) (fun hge => ?_)
    · have hmod : (offset + rel) % s.io.info.blockSize = 0 := by
        rw [show rel = gap offset s.io.info.blockSize by omega]
        exact add_gap_mod _ hbs
      exact wp_mono (readBehindHead_wp hs hbs hlt hmod (by omega)) fun r s' h =>
        h.mono ⟨Or.inr, fun h => h.resolve_left (by omega)⟩ fun _ _ hb => hb
    · have heq : rel = s.buf.len := by omega
      refine .of_ok (Or.inl heq) ?_
      rw [heq, Nat.sub_self, slice_zero]
      exact List.drop_of_length_le (Nat.le_refl _)
  · intro s₁ hk _ hbytes
    have hfirst := readFirstBlock_wp rel (hs.of_shape hk.shape) ho (by rw [hk.ran.info]; exact hbs)
      (by rw [hk.ran.info]; exact hal) (by rw [hk.bufLen]; omega) (by rw [hk.ran.info]; omega)
    rw [hk.ran.info, hk.content, hbytes, ← slice_add, Nat.add_sub_cancel' (by omega)] at hfirst
    exact hfirst

/-! ## Any buffer -/

theorem wp_withScratch_read (hl : Xfer.Split.Layout s parts i j)
    (h : wp m ⟨s.io, s.buf, s.scratch.sub j s.io.info.blockScratch⟩
      (Reads fits P ⟨s.io, s.buf, s.scratch.sub j s.io.info.blockScratch⟩)) :
    wp (withScratch parts.2 m) s (Reads fits (fun t => ∃ t', P t' ∧ t.buf = t'.buf) s) := by
  apply wp_withScratch
  rw [hl.second_pos, hl.second_len]
  refine wp_mono h ?_
  rintro r t ⟨hk, hret, hfilled, hsucc⟩
  have hlen : t.scratch.bytes.length = s.io.info.blockScratch := hk.scratchLen.trans (Buf.sub_len _ hl.inside)
  exact ⟨⟨hk.ran, hk.content, hk.bufAddr, hk.bufLen, rfl,
    Buf.patch_len _ (by rw [hlen]; exact hl.inside)⟩, hret, fun hr => ⟨(hfilled hr).1, t, (hfilled hr).2, rfl⟩,
    hsucc⟩

theorem readThroughScratch_wp (hl : Xfer.Split.Layout s parts i j) (hscr : s.scratch.InMemory)
    (ho : offset < 2 ^ 64) (hu : u ≤ s.io.info.alignment - 1) (hu' : u ≤ s.buf.len) :
    wp (do
        withScratchAsBuf ⟨parts.1.addr, u⟩ parts.2 (readAlignedBuffer offset)
        copyFromScratch 0 (parts.1.addr - s.scratch.addr) u) s
      (Reads (s.io.info.PieceFits offset u)
        (fun t => t.buf.bytes = slice s.io.content offset u ++ s.buf.bytes.drop u) s) := by
  have hin := hl.inside
  have hord := hl.ordered
  have hlt := hl.second_lt
  have hsub : (s.scratch.sub i u).len = u := Buf.sub_len _ (by omega)
  have hfirst : (s.scratch.sub i u).InMemory := hscr.sub (by omega) (by omega)
  have hread := readAlignedBuffer_wp (hl.ready hscr hfirst hl.first_mod) ho
  refine wp_read_then (and_iff_left trivial).symm (P := fun t => t.buf = s.buf ∧
    (t.scratch.bytes.drop i).take u = slice s.io.content offset u) ?_ ?_
  · apply wp_zoom
    dsimp only
    rw [hl.first_pos, hl.second_pos, hl.second_len]
    refine wp_mono hread ?_
    rintro r t ⟨hk, hret, hfilled, hsucc⟩
    simp only [hsub] at hfilled hsucc
    have hblen : t.buf.bytes.length = u := hk.bufLen.trans hsub
    have hslen : t.scratch.bytes.length = s.io.info.blockScratch := hk.scratchLen.trans (Buf.sub_len _ hl.inside)
    have hlen₁ : (s.scratch.patch i t.buf.bytes).len = s.scratch.len := Buf.patch_len _ (by omega)
    refine ⟨⟨hk.ran, hk.content, rfl, rfl, rfl, ?_⟩, hret, fun hr => ?_, hsucc⟩
    · rw [Buf.patch_len _ (by omega), hlen₁]
    · obtain ⟨hfits, hbytes⟩ := hfilled hr
      refine ⟨hfits, rfl, ?_⟩
      show ((splice (splice s.scratch.bytes i t.buf.bytes) j t.scratch.bytes).drop i).take u = _
      have hlen₂ : (splice s.scratch.bytes i t.buf.bytes).length = s.scratch.len := hlen₁
      have hlen₃ : i + t.buf.bytes.length ≤ s.scratch.bytes.length := by
        show _ ≤ s.scratch.len
        omega
      rw [take_drop_splice_of_le (by omega) (by omega), ← hbytes]
      exact hblen ▸ take_drop_splice hlen₃
  · rintro s₁ hk - ⟨hbuf, hbytes⟩
    rw [hl.first_pos]
    refine wp_copyFromScratch (by rw [hk.bufLen]; omega) (by rw [hk.scratchLen]; omega) ?_
    rw [hbytes]
    show splice s₁.buf.bytes 0 _ = _
    rw [splice_zero, length_slice, hbuf]

theorem readAlignedRest_wp (hl : Xfer.Split.Layout s parts i j) (hscr : s.scratch.InMemory)
    (hbuf : s.buf.InMemory) (hpos : pos < 2 ^ 64) (hu : u < s.buf.len)
    (hal : (s.buf.addr + u) % s.io.info.alignment = 0) :
    wp (withScratch parts.2 (getMut u s.buf.len (readAlignedBuffer pos))) s
      (Reads (s.io.info.PieceFits pos (s.buf.len - u))
        (fun t => t.buf.bytes = s.buf.bytes.take u ++ slice s.io.content pos (s.buf.len - u)) s) := by
  have hend := hbuf.end_le
  have hsub : (s.buf.sub u (s.buf.len - u)).len = s.buf.len - u := Buf.sub_len _ (by omega)
  have hread := readAlignedBuffer_wp (hl.ready hscr
    (hbuf.sub (show u + (s.buf.len - u) ≤ s.buf.len by omega) (by omega)) hal) hpos
  rw [hsub] at hread
  refine wp_mono (wp_withScratch_read hl (wp_window_read hu.le (Nat.le_refl _) hread)) fun r t h =>
    h.mono Iff.rfl ?_
  rintro - - ⟨t₁, ⟨t₂, hslice, hbytes⟩, hbuf⟩
  rw [hbuf, hbytes, hslice, splice_tail (by rw [length_slice]; exact Nat.add_sub_cancel' hu.le)]

theorem readAsync_wp (hs : s.Split parts) (ho : offset < 2 ^ 64) :
    wp (readAsync offset) s (Reads (s.io.info.Fits s.buf.addr offset s.buf.len)
      (fun t => t.buf.bytes = slice s.io.content offset s.buf.len) s) := by
  obtain ⟨i, j, hl⟩ := hs.layout
  apply wp_get_bind
  refine wp_async hs hl (fun hal => ?_) (fun e hal hov => ?_) fun u hal hov hu hle => ?_
  · rw [BlockInfo.Fits, if_pos hal]
    refine wp_mono (wp_withScratch_read hl (readAlignedBuffer_wp (hl.ready hs.scratch hs.buf hal) ho))
      fun r t h => h.mono Iff.rfl ?_
    rintro - - ⟨t', hbytes, hbuf⟩
    rw [hbuf, hbytes]
  · rw [BlockInfo.Fits, if_neg hal]
    exact .of_err fun h => hov h.1
  rw [BlockInfo.fits_of_not_aligned hal hov hu, ← hu, ← bind_assoc]
  refine wp_read_then Iff.rfl (readThroughScratch_wp hl hs.scratch ho hle (by omega)) fun s₁ hk _ hbytes => ?_
  refine wp_ite (fun hall => wp_pure (.of_ok (fun h => by omega) ?_)) (fun hrest => ?_)
  · -- the buffer ends before its first aligned address
    rw [hbytes, hall, List.drop_of_length_le (show s.buf.bytes.length ≤ s.buf.len from Nat.le_refl _), List.append_nil]
  refine wp_read_at ⟨fun h => h (by omega), fun h _ => h⟩ fun hov' => ?_
  have hread := readAlignedRest_wp (u := u) (hl.of_shape hk.shape)
    (hs.scratch.congr hk.scratchAddr hk.scratchLen) (hs.buf.congr hk.bufAddr hk.bufLen) hov'
    (by rw [hk.bufLen]; omega) (by
      rw [hk.bufAddr, hk.ran.info, show u = gap s.buf.addr s.io.info.alignment by omega]
      exact add_gap_mod _ hl.pos)
  rw [hk.bufLen, hk.ran.info, hk.content, hbytes, List.take_left' (length_slice _ _ _), ← slice_add,
    Nat.add_sub_cancel' (by omega)] at hread
  exact hread

/-! ## The result -/

/-- **An unaligned read is exact.** For every geometry with room for one more block, every scratch
that can be split, every buffer and every offset: the read succeeds on a fault-free device if the
range is inside the device and the next aligned address behind a misaligned buffer can be computed,
and is an error if not; where it succeeds the buffer holds the bytes of the range; and all it ever
does to the device, faulty or not, is proper reads. -/
theorem readAsync_exact (s : Xfer) (parts : Slice × Slice) (offset : Nat)
    (hsplit : splitScratch s.io.info s.scratch.toSlice = .ok parts) (hbuf : s.buf.InMemory)
    (hscratch : s.scratch.InMemory) (ho : offset < 2 ^ 64) (hne : 0 < s.buf.len)
    (hgeom : (s.io.info.numBlocks + 1) * s.io.info.blockSize ≤ 2 ^ 64) :
    let reachable := offset + s.buf.len ≤ s.io.info.total ∧
      (s.buf.addr % s.io.info.alignment = 0 ∨ s.buf.addr + s.io.info.alignment < 2 ^ 64)
    (s.io.FaultFree → reachable → (readAsync offset s).1 = .ok ()) ∧
    ((readAsync offset s).1 = .ok () →
      (readAsync offset s).2.buf.bytes = slice s.io.content offset s.buf.len) ∧
    (¬ reachable → (readAsync offset s).1.IsErr) ∧
    (∃ calls, (readAsync offset s).2.io.log = s.io.log ++ calls ∧
      ∀ a ∈ calls, a.IsRead ∧ a.Proper s.io.info) ∧
    (readAsync offset s).2.io.content = s.io.content := by
  intro reachable
  have hs : s.Split parts := ⟨hbuf, hscratch, hsplit⟩
  obtain ⟨i, j, hl⟩ := hs.layout
  have hfits : s.io.info.Fits s.buf.addr offset s.buf.len ↔ reachable :=
    BlockInfo.fits_iff hne hl.pos hgeom
  obtain ⟨hk, hret, hfilled, hsucc⟩ := readAsync_wp hs ho
  refine ⟨fun hff hr => hsucc hff (hfits.mpr hr), fun hr => (hfilled hr).2, fun hno => ?_,
    hk.ran.log, hk.content⟩
  exact hret.isErr_of_not_ok fun _ hr => hno (hfits.mp (hfilled hr).1)

/-- Five bytes from position 3 of a device of four 4-byte blocks, to a buffer one byte past an
aligned address: the read takes three pieces. -/
theorem readAsync_exact_pieces :
    (readAsync 3 ⟨⟨⟨4, 4, 4, by decide, by decide, by decide⟩, fun i => UInt8.ofNat i, fun _ => none, []⟩,
      ⟨17, [0, 0, 0, 0, 0]⟩, ⟨33, List.replicate 11 0⟩⟩).1 = .ok () ∧
    (readAsync 3 ⟨⟨⟨4, 4, 4, by decide, by decide, by decide⟩, fun i => UInt8.ofNat i, fun _ => none, []⟩,
      ⟨17, [0, 0, 0, 0, 0]⟩, ⟨33, List.replicate 11 0⟩⟩).2.buf.bytes = [3, 4, 5, 6, 7] := by
  have h := readAsync_exact
    ⟨⟨⟨4, 4, 4, by decide, by decide, by decide⟩, fun i => UInt8.ofNat i, fun _ => none, []⟩,
      ⟨17, [0, 0, 0, 0, 0]⟩, ⟨33, List.replicate 11 0⟩⟩ (⟨36, 3⟩, ⟨40, 4⟩) 3 (by decide)
    ⟨by decide, by decide, by decide⟩ ⟨by decide, by decide, by decide⟩ (by decide) (by decide)
    (by decide)
  have hok := h.1 (fun _ => rfl) ⟨by decide, Or.inr (by decide)⟩
  exact ⟨hok, h.2.1 hok⟩

/-- Without the condition on the address it fails: a buffer in the last 16 bytes of the address
space, on a device that wants 16-byte alignment. The range is inside the device, but the round-up
of the buffer's address is no `u64`. -/
theorem readAsync_top_of_memory :
    ¬ ∀ (s : Xfer) (parts : Slice × Slice) (offset : Nat),
      splitScratch s.io.info s.scratch.toSlice = .ok parts → s.buf.InMemory → s.scratch.InMemory →
      offset < 2 ^ 64 → 0 < s.buf.len →
      (s.io.info.numBlocks + 1) * s.io.info.blockSize < 2 ^ 64 → s.io.FaultFree →
      offset + s.buf.len ≤ s.io.info.total → (readAsync offset s).1 = .ok () := by
  intro h
  have hbad := h ⟨⟨⟨1, 4, 16, by decide, by decide, by decide⟩, fun _ => 0, fun _ => none, []⟩,
    ⟨2 ^ 64 - 8, [0, 0, 0, 0]⟩, ⟨16, List.replicate 30 0⟩⟩ (⟨16, 15⟩, ⟨32, 0⟩) 0 (by decide)
    ⟨by decide, by decide, by decide⟩ ⟨by decide, by decide, by decide⟩ (by decide) (by decide)
    (by decide) (fun _ => rfl) (by decide)
  revert hbad
  decide

end Gbl.Storage
