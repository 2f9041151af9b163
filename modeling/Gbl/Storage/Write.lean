import Gbl.Storage.Read

/-!
# Unaligned writes are exact and leave everything else alone

The same plan as for reads: one specification for each function of the source, from the inside out.
-/

namespace Gbl.Storage

open Lib Lib.Exec

/-! ## The common specification -/

structure WritePost (fits : Prop) (offset : Nat) (d : List UInt8) (s : Xfer) (r : Result Unit)
    (s' : Xfer) : Prop where
  ran : BlockIo.Ran (fun a => a.Proper s.io.info) s.io s'.io
  buf : s'.buf = s.buf
  scratchAddr : s'.scratch.addr = s.scratch.addr
  scratchLen : s'.scratch.len = s.scratch.len
  torn : Torn s.io.content offset d s'.io.content
  returns : r.Returns
  stored : r = .ok () → fits ∧ s'.io.content = store s.io.content offset d
  succeeds : s.io.FaultFree → fits → r = .ok ()

namespace WritePost

variable {fits : Prop} {offset : Nat} {d : List UInt8} {s s' : Xfer} {r : Result Unit}

theorem shape (h : WritePost fits offset d s r s') : s.SameShape s' :=
  ⟨h.ran.info, by rw [h.buf], by rw [h.buf], h.scratchAddr, h.scratchLen⟩

theorem of_err {e : Error} (h : ¬ fits) : WritePost fits offset d s (err e) s :=
  ⟨.refl _ _, rfl, rfl, rfl, .refl _ _ _, trivial, nofun, fun _ hf => absurd hf h⟩

theorem of_nil (h : fits) : WritePost fits offset [] s (.ok ()) s :=
  ⟨.refl _ _, rfl, rfl, rfl, .refl _ _ _, trivial, fun _ => ⟨h, (store_nil _ _).symm⟩,
    fun _ _ => rfl⟩

theorem congr {fits' : Prop} (h : WritePost fits offset d s r s') (hf : fits ↔ fits') :
    WritePost fits' offset d s r s' :=
  ⟨h.ran, h.buf, h.scratchAddr, h.scratchLen, h.torn, h.returns, fun hr => ⟨hf.mp (h.stored hr).1,
    (h.stored hr).2⟩, fun hff hf' => h.succeeds hff (hf.mpr hf')⟩

end WritePost

variable {fits : Prop} {offset : Nat} {d : List UInt8} {s s' : Xfer} {m : Exec Error Xfer Unit}
  {pos n sz : Nat} {parts : Slice × Slice} {i j u : Nat}

theorem WritePost.of_kept {s₁ : Xfer} {r : Result Unit} (hk : s.Kept s₁) (hbuf : s₁.buf = s.buf)
    (h : WritePost fits offset d s₁ r s') : WritePost fits offset d s r s' := by
  refine ⟨(hk.ran.mono fun _ h => h.2).trans (hk.ran.info ▸ h.ran), h.buf.trans hbuf,
    h.scratchAddr.trans hk.scratchAddr, h.scratchLen.trans hk.scratchLen, hk.content ▸ h.torn,
    h.returns, hk.content ▸ h.stored, fun hff => h.succeeds (hk.ran.faultFree hff)⟩

theorem wp_read_then_write {P : Xfer → Prop} {m' : Unit → Exec Error Xfer Unit}
    (h : wp m s fun r s' => s'.buf = s.buf ∧ Reads fits P s r s')
    (h' : ∀ s₁, s.Kept s₁ → s₁.buf = s.buf → P s₁ → wp (m' ()) s₁ (WritePost fits offset d s₁)) :
    wp (m >>= m') s (WritePost fits offset d s) := by
  refine wp_bind h ?_ ?_
  · rintro ⟨⟩ s₁ ⟨hbuf, hr⟩
    exact wp_mono (h' s₁ hr.kept hbuf (hr.filled rfl).2) fun r s' hw => .of_kept hr.kept hbuf hw
  · rintro e s₁ ⟨hbuf, hr⟩
    exact ⟨hr.kept.ran.mono fun _ h => h.2, hbuf, hr.kept.scratchAddr, hr.kept.scratchLen,
      hr.kept.content ▸ .refl _ _ _, hr.returns, nofun, hr.succeeds⟩

theorem wp_write_at {base : Nat} {g : Prop} {m' : Nat → Exec Error Xfer Unit} (hfits : fits ↔ base + n < 2 ^ 64 ∧ g)
    (h : base + n < 2 ^ 64 → wp (m' (base + n)) s (WritePost g offset d s)) :
    wp (Exec.lift ((base : SafeNum) + n).toU64 >>= m') s (WritePost fits offset d s) := by
  by_cases hov : base + n < 2 ^ 64
  · exact wp_lift_ok_bind (add_toU64 hov) (wp_mono (h hov) fun r s' hr =>
      hr.congr ⟨fun hg => hfits.2 ⟨hov, hg⟩, fun hf => (hfits.1 hf).2⟩)
  · apply wp_lift_overflow_bind (add_eq_error (by omega))
    exact .of_err fun hf => hov (hfits.1 hf).1

section Sequence

variable {f g : Prop} {a b : List UInt8} {m' : Unit → Exec Error Xfer Unit}

theorem wp_write_seq {p q : Nat} (hstore : ∀ c, store (store c p a) q b = store c offset d)
    (htorn : ∀ {c c'}, Torn c p a c' → Torn c offset d c')
    (htorn' : ∀ {c c'}, Torn (store c p a) q b c' → Torn c offset d c') (h : wp m s (WritePost f p a s))
    (h' : ∀ s₁, s.SameShape s₁ → s₁.buf = s.buf → f → wp (m' ()) s₁ (WritePost g q b s₁)) :
    wp (m >>= m') s (WritePost (f ∧ g) offset d s) := by
  refine wp_bind h ?_ ?_
  · rintro ⟨⟩ s₁ h₁
    obtain ⟨hf, hc⟩ := h₁.stored rfl
    refine wp_mono (h' s₁ h₁.shape h₁.buf hf) ?_
    intro r s₂ h₂
    refine ⟨h₁.ran.trans (h₁.ran.info ▸ h₂.ran), h₂.buf.trans h₁.buf,
      h₂.scratchAddr.trans h₁.scratchAddr, h₂.scratchLen.trans h₁.scratchLen,
      htorn' (hc ▸ h₂.torn), h₂.returns, fun hr => ?_,
      fun hff hfits => h₂.succeeds (h₁.ran.faultFree hff) hfits.2⟩
    obtain ⟨hf', hc'⟩ := h₂.stored hr
    exact ⟨⟨hf, hf'⟩, by rw [hc', hc, hstore]⟩
  · rintro e s₁ h₁
    exact ⟨h₁.ran, h₁.buf, h₁.scratchAddr, h₁.scratchLen, htorn h₁.torn, h₁.returns, nofun,
      fun hff hfits => h₁.succeeds hff hfits.1⟩

theorem wp_write_then (h : wp m s (WritePost f offset a s)) (h' : ∀ s₁, s.SameShape s₁ → s₁.buf = s.buf → f →
      wp (m' ()) s₁ (WritePost g (offset + a.length) b s₁)) :
    wp (m >>= m') s (WritePost (f ∧ g) offset (a ++ b) s) :=
  wp_write_seq (fun c => (store_append c offset a b).symm) (fun h => h.append_left b) (fun h => .store_then h) h h'

theorem wp_write_before (h : wp m s (WritePost f (offset + a.length) b s))
    (h' : ∀ s₁, s.SameShape s₁ → s₁.buf = s.buf → f → wp (m' ()) s₁ (WritePost g offset a s₁)) :
    wp (m >>= m') s (WritePost (f ∧ g) offset (a ++ b) s) :=
  wp_write_seq (fun c => by rw [store_append, store_comm _ (Or.inl (Nat.le_refl _))])
    (fun h => h.append_right) (fun h => .then_store h) h h'

end Sequence

/-! ## Whole blocks -/

theorem writeAlignedAll_wp {io : BlockIo} {data : Buf} (hb : data.Ready io.info) (hbs : 0 < io.info.blockSize)
    (ho : offset < 2 ^ 64) (hoff : offset % io.info.blockSize = 0) (hlen : data.len % io.info.blockSize = 0) :
    wp (writeAlignedAll offset) (io, data) fun r p =>
      BlockIo.Ran (fun a => a.Proper io.info) io p.1 ∧ p.2 = data ∧
      Torn io.content offset data.bytes p.1.content ∧ r.Returns ∧
      (r = .ok () → offset + data.len ≤ io.info.total ∧ p.1.content = store io.content offset data.bytes) ∧
      (io.FaultFree → offset + data.len ≤ io.info.total → r = .ok ()) := by
  rw [wp, writeAlignedAll]
  rcases checkRange_bind_cases BlockIo.writeBlocks hb hbs ho hoff hlen with ⟨hin, hrun⟩ | ⟨hout, e, hrun⟩
  · have hpos : offset / io.info.blockSize * io.info.blockSize = offset :=
      Nat.div_mul_cancel (Nat.dvd_of_mod_eq_zero hoff)
    have hproper : ∀ a ∈ [Access.write (offset / io.info.blockSize) data.addr data.len], a.Proper io.info := by
      intro a ha
      rw [List.mem_singleton] at ha
      subst ha
      exact ⟨hb.aligned, hlen, by rw [hpos]; exact hin⟩
    rw [hrun]
    unfold BlockIo.writeBlocks
    dsimp only
    rw [hpos]
    cases hf : io.faults io.log.length with
    | none =>
      exact ⟨⟨rfl, rfl, _, rfl, hproper⟩, rfl, .of_store _ _ _, trivial, fun _ => ⟨hin, rfl⟩,
        fun _ _ => rfl⟩
    | some f =>
      refine ⟨⟨rfl, rfl, _, rfl, hproper⟩, rfl, .of_tear _ _ _ _, trivial, by rintro ⟨⟩, fun hff => ?_⟩
      rw [hff] at hf
      cases hf
  · rw [hrun]
    exact ⟨.refl _ _, rfl, .refl _ _ _, trivial, by rintro ⟨⟩, fun _ h => absurd h hout⟩

theorem wp_window_write {stop : Stop Error} {lo hi : Nat} (hlo : lo ≤ hi) (hhi : hi ≤ s.buf.len)
    (h : wp m { s with buf := s.buf.sub lo (hi - lo) }
      (WritePost fits offset d { s with buf := s.buf.sub lo (hi - lo) })) :
    wp (window stop lo hi m) s (WritePost fits offset d s) := by
  refine wp_window hlo hhi (wp_mono h ?_)
  rintro r t ⟨hran, hbuf, ha, hl, htorn, hret, hstored, hsucc⟩
  refine ⟨hran, ?_, ha, hl, htorn, hret, hstored, hsucc⟩
  -- the window comes back as it was, so the buffer does
  show Buf.patch s.buf lo t.buf.bytes = s.buf
  rw [hbuf]
  unfold Buf.patch Buf.sub
  dsimp only
  rw [splice_take_drop _ _ _ (show lo + (hi - lo) ≤ s.buf.len by omega)]

theorem patchBlock_wp (rel src n : Nat) (hs : s.Ready) (hbs : 0 < s.io.info.blockSize)
    (hne : s.io.info.blockSize ≠ 1) (hpos : pos < 2 ^ 64) (hmod : pos % s.io.info.blockSize = 0)
    (hrel : rel + n ≤ s.io.info.blockSize) (hsrc : src + n ≤ s.buf.len)
    (hcopy : s.scratch.bytes.take s.io.info.blockSize = slice s.io.content pos s.io.info.blockSize) :
    wp (do
        copyToScratch rel src n
        onScratch s.io.info.blockSize (writeAlignedAll pos)) s
      (WritePost (pos + s.io.info.blockSize ≤ s.io.info.total) (pos + rel) ((s.buf.bytes.drop src).take n) s) := by
  have hscr := hs.scratchLen
  rw [BlockInfo.blockScratch_eq hne] at hscr
  obtain ⟨d, hd⟩ : ∃ d, d = (s.buf.bytes.drop src).take n := ⟨_, rfl⟩
  have hdlen : d.length = n := by
    have : s.buf.bytes.length = s.buf.len := rfl
    rw [hd, List.length_take, List.length_drop]
    omega
  rw [← hd]
  have hslen : s.scratch.bytes.length = s.scratch.len := rfl
  have hplen : (s.scratch.patch rel d).len = s.scratch.len := Buf.patch_len _ (by omega)
  refine wp_bind_of_run_ok (copyToScratch_run (by omega) hsrc) ?_
  rw [← hd]
  have hshape : s.SameShape { s with scratch := s.scratch.patch rel d } := ⟨rfl, rfl, rfl, rfl, hplen⟩
  obtain ⟨hready, hsub⟩ := (hs.of_shape hshape).scratch_sub hne
  have hbytes : ((s.scratch.patch rel d).sub 0 s.io.info.blockSize).bytes =
      splice (slice s.io.content pos s.io.info.blockSize) rel d := by
    show ((splice s.scratch.bytes rel d).drop 0).take _ = _
    rw [List.drop_zero, take_splice (by omega) (by omega), hcopy]
  have hstore := store_splice_slice s.io.content pos (show rel + d.length ≤ s.io.info.blockSize by
    omega)
  refine wp_onScratch (wp_mono (writeAlignedAll_wp hready hbs hpos hmod (by rw [hsub]; exact Nat.mod_self _)) ?_)
  rintro r p ⟨hran, hbuf, htorn, hret, hstored, hsucc⟩
  simp only [hsub, hbytes, hstore] at hstored hsucc
  rw [hbytes] at htorn
  refine ⟨hran, rfl, rfl, ?_, ?_, hret, hstored, hsucc⟩
  · rw [hbuf]
    refine (Buf.patch_len _ ?_).trans hplen
    rw [Nat.zero_add, hplen]
    exact hsub.le.trans hscr
  · unfold Torn at htorn ⊢
    rw [hstore] at htorn
    exact htorn

/-! ## Aligned offset and buffer -/

theorem writeWholeBlocks_wp (hs : s.Ready) (hbs : 0 < s.io.info.blockSize) (ho : offset < 2 ^ 64)
    (hoff : offset % s.io.info.blockSize = 0) (hn : n = s.buf.len - s.buf.len % s.io.info.blockSize) :
    wp (Exec.when (0 < n) (index 0 n (onBuf (writeAlignedAll offset)))) s
      (WritePost (n = 0 ∨ offset + n ≤ s.io.info.total) offset (s.buf.bytes.take n) s) := by
  refine wp_when (fun hpos => ?_) (fun h0 => ?_)
  · obtain ⟨hready, hsub, hmul⟩ := hs.wholeBlocks hn
    refine wp_window_write (Nat.zero_le _) (by omega) (wp_onBuf (wp_mono
      (writeAlignedAll_wp hready hbs ho hoff (by rw [hsub]; exact hmul)) ?_))
    rintro r p ⟨hran, hbuf, htorn, hret, hstored, hsucc⟩
    rw [hsub] at hstored hsucc
    refine ⟨hran, hbuf, rfl, rfl, htorn, hret, fun hr => ⟨Or.inr (hstored hr).1, (hstored hr).2⟩,
      fun hff hin => hsucc hff (hin.resolve_left (by omega))⟩
  · rw [show n = 0 by omega]
    exact .of_nil (Or.inl rfl)

theorem writeLastBlock_wp (hs : s.Ready) (hbs : 0 < s.io.info.blockSize) (hpos : pos < 2 ^ 64)
    (hmod : pos % s.io.info.blockSize = 0) (hn : n < s.buf.len) (hrest : s.buf.len - n < s.io.info.blockSize) :
    wp (do
        onScratch s.io.info.blockSize (readAlignedAll pos)
        copyToScratch 0 n (s.buf.len - n)
        onScratch s.io.info.blockSize (writeAlignedAll pos)) s
      (WritePost (pos + (s.buf.len - n) ≤ s.io.info.total) pos (s.buf.bytes.drop n) s) := by
  have hne : s.io.info.blockSize ≠ 1 := by omega
  rw [BlockInfo.add_le_total_iff hmod (by omega) (by omega)]
  refine wp_read_then_write (readScratchBlock_wp hs hbs hne hpos hmod) fun s₁ hk hbuf hfilled => ?_
  have hwrite := patchBlock_wp 0 n (s.buf.len - n)
    (hs.of_shape hk.shape) (by rw [hk.ran.info]; exact hbs) (by rw [hk.ran.info]; exact hne) hpos
    (by rw [hk.ran.info]; exact hmod) (by rw [hk.ran.info]; omega) (by rw [hbuf]; omega)
    (by rw [hk.ran.info, hk.content]; exact hfilled.2)
  rw [hk.ran.info, hbuf, Nat.add_zero, List.take_of_length_le
    (by rw [List.length_drop]; exact Nat.le_refl _)] at hwrite
  exact hwrite

theorem writeAlignedOffsetAndBuffer_wp (hs : s.Ready) (hbs : 0 < s.io.info.blockSize) (ho : offset < 2 ^ 64)
    (hoff : offset % s.io.info.blockSize = 0) :
    wp (writeAlignedOffsetAndBuffer offset) s
      (WritePost (s.io.info.AlignedFits offset s.buf.len) offset s.buf.bytes s) := by
  apply wp_get_bind
  refine wp_alignedOffsetAndBuffer hs hbs ho hoff fun n hn => ?_
  have hmod := Nat.mod_le s.buf.len s.io.info.blockSize
  have hlt := Nat.mod_lt s.buf.len hbs
  have hlen : s.buf.bytes.length = s.buf.len := rfl
  have htake : (s.buf.bytes.take n).length = n := by rw [List.length_take]; omega
  have hwhole := writeWholeBlocks_wp hs hbs ho hoff hn
  rw [← List.take_append_drop n s.buf.bytes]
  by_cases h0 : s.buf.len - n = 0
  · -- the range ends at a block boundary
    rw [BlockInfo.alignedFits_whole_iff hn (by omega)]
    refine wp_write_then hwhole fun s₁ hshape hbuf _ => ?_
    rw [if_pos h0, List.drop_of_length_le (by omega)]
    exact wp_pure (.of_nil trivial)
  · rw [BlockInfo.alignedFits_iff hn (by omega)]
    refine wp_write_then hwhole fun s₁ hshape hbuf _ => ?_
    rw [if_neg h0, htake]
    have hscr := hs.scratchLen
    rw [BlockInfo.blockScratch_eq (by intro h1; rw [h1] at hlt hn; omega)] at hscr
    refine wp_write_at Iff.rfl fun hov => ?_
    apply wp_indexScratch_bind (by rw [hshape.scratchLen]; exact hscr)
    have hnmod : (offset + n) % s.io.info.blockSize = 0 := by
      rw [Nat.add_mod, hoff, hn, Nat.mod_eq_zero_of_dvd (Nat.dvd_sub_mod _)]
      rfl
    have hlast := writeLastBlock_wp (n := n) (hs.of_shape hshape) (by rw [hshape.info]; exact hbs)
      hov (by rw [hshape.info]; exact hnmod) (by rw [hshape.bufLen]; omega)
      (by rw [hshape.bufLen, hshape.info]; omega)
    rw [hshape.bufLen, hshape.info, hbuf] at hlast
    exact hlast

/-! ## Rotating the data buffer -/

theorem rotateLeft_run (hsz : sz ≤ s.buf.len) (hscr : sz ≤ s.scratch.len) : rotateLeft sz s = (.ok (), { s with
      buf := ⟨s.buf.addr, s.buf.bytes.drop sz ++ s.buf.bytes.take sz⟩
      scratch := s.scratch.patch 0 (s.buf.bytes.take sz) }) := by
  have hlen : s.buf.bytes.length = s.buf.len := rfl
  have htake : (s.buf.bytes.take sz).length = sz := by rw [List.length_take]; omega
  have hmoved : s.buf.copyWithin sz (s.buf.len - sz) 0 =
      ⟨s.buf.addr, s.buf.bytes.drop sz ++ s.buf.bytes.drop (s.buf.len - sz)⟩ := by
    unfold Buf.copyWithin Buf.patch
    rw [List.take_of_length_le (by rw [List.length_drop]; omega), splice_zero, List.length_drop, hlen]
  have hmid : (s.buf.bytes.drop sz ++ s.buf.bytes.drop (s.buf.len - sz)).length = s.buf.len := by
    rw [List.length_append, List.length_drop, List.length_drop]; omega
  refine (bind_run_ok (get_run _)).trans ?_
  refine (bind_run_ok (copyToScratch_run (by omega) (by omega))).trans ?_
  refine (bind_run_ok (copyWithin_run (by dsimp only; omega) (by dsimp only; omega))).trans ?_
  refine (assert_bind_run_true (decide_eq_true hsz)).trans ?_
  dsimp only
  rw [hmoved, List.drop_zero]
  refine (copyFromScratch_run (by show _ ≤ List.length _; rw [hmid]; omega)
    (by rw [Buf.patch_len _ (by rw [htake]; omega)]; omega)).trans ?_
  have hback : ((s.scratch.patch 0 (s.buf.bytes.take sz)).bytes.drop 0).take sz = s.buf.bytes.take sz := by
    show ((splice s.scratch.bytes 0 (s.buf.bytes.take sz)).drop 0).take sz = _
    rw [List.drop_zero, splice_zero, List.take_left' htake]
  dsimp only
  rw [hback]
  unfold Buf.patch
  dsimp only
  rw [splice_tail (by rw [htake, hmid]; omega), List.take_left' (by rw [List.length_drop]; omega)]

theorem rotateRight_run {a b : List UInt8} (hbytes : s.buf.bytes = a ++ b) (hb : b.length = sz)
    (hscr : sz ≤ s.scratch.len) : rotateRight sz s =
      (.ok (), { s with buf := ⟨s.buf.addr, b ++ a⟩, scratch := s.scratch.patch 0 b }) := by
  have hlen : s.buf.len = a.length + sz := by
    show s.buf.bytes.length = _
    rw [hbytes, List.length_append, hb]
  have htail : (s.buf.bytes.drop (s.buf.len - sz)).take sz = b := by
    rw [hbytes, List.drop_left' (by omega), List.take_of_length_le hb.le]
  have hmoved : s.buf.copyWithin 0 (s.buf.len - sz) sz = ⟨s.buf.addr, (a ++ b).take sz ++ a⟩ := by
    unfold Buf.copyWithin Buf.patch
    rw [hbytes, List.drop_zero, List.take_left' (by omega), splice_tail]
    rw [List.length_append]
    omega
  have htake : ((a ++ b).take sz).length = sz := by
    rw [List.length_take, List.length_append]; omega
  refine (bind_run_ok (get_run _)).trans ?_
  refine (assert_bind_run_true (decide_eq_true (by omega))).trans ?_
  refine (bind_run_ok (copyToScratch_run (by omega) (by omega))).trans ?_
  refine (bind_run_ok (copyWithin_run (by dsimp only; omega) (by dsimp only; omega))).trans ?_
  dsimp only
  rw [hmoved, htail]
  refine (copyFromScratch_run (by show _ ≤ List.length _; rw [List.length_append]; omega)
    (by rw [Buf.patch_len _ (by omega)]; omega)).trans ?_
  have hback : ((s.scratch.patch 0 b).bytes.drop 0).take sz = b := by
    show ((splice s.scratch.bytes 0 b).drop 0).take sz = _
    rw [List.drop_zero, splice_zero, List.take_left' hb]
  dsimp only
  rw [hback]
  unfold Buf.patch
  dsimp only
  rw [splice_zero, hb, List.drop_left' htake]

/-! ## Aligned buffer -/

theorem wp_attempt_write (h : wp m s (WritePost fits offset d s)) : wp (Exec.attempt m) s fun r s' =>
      ∃ res, r = .ok res ∧ WritePost fits offset d s (.ofExcept res) s' := by
  refine wp_attempt h ?_ ?_ ?_ ?_
  · intro a s' h
    exact ⟨.ok a, rfl, h⟩
  · intro e s' h
    exact ⟨.error e, rfl, h⟩
  · intro s' h
    exact absurd h.returns id
  · intro s' h
    exact absurd h.returns id

theorem writeBehindHead_wp {rel : Nat} (hs : s.Ready) (hbs : 0 < s.io.info.blockSize) (hrel : rel < s.buf.len)
    (hscr : rel ≤ s.scratch.len) (hmod : pos % s.io.info.blockSize = 0)
    (hend : pos + (s.buf.len - rel) < 2 ^ 64) :
    wp (do
        if ← Exec.lift (isBufferAligned (s.buf.sub rel (s.buf.len - rel)).toSlice s.io.info.alignment) then
          index rel s.buf.len (writeAlignedOffsetAndBuffer pos)
        else do
          let writeLen ← Exec.lift ((s.buf.len : SafeNum) - rel).toU64
          rotateLeft rel
          let res ← Exec.attempt (index 0 writeLen (writeAlignedOffsetAndBuffer pos))
          rotateRight rel
          Exec.lift (.ofExcept res)) s
      (WritePost (pos + (s.buf.len - rel) ≤ s.io.info.total) pos (s.buf.bytes.drop rel) s) := by
  have haddr : s.buf.addr + rel < 2 ^ 64 := by have := hs.buf.end_le; omega
  have hlen : s.buf.bytes.length = s.buf.len := rfl
  have hfits : s.io.info.AlignedFits pos (s.buf.len - rel) ↔
      pos + (s.buf.len - rel) ≤ s.io.info.total := BlockInfo.alignedFits_of_lt (by omega) hend
  apply wp_lift_ok_bind (isAligned_ofNat haddr hs.buf.pos s.io.info.alignment_lt)
  refine wp_ite (fun hal => ?_) (fun _ => ?_)
  · have hwrite := writeAlignedOffsetAndBuffer_wp (hs.narrow (i := rel) (n := s.buf.len - rel) (by omega) haddr
      (beq_iff_eq.mp hal)) hbs (show pos < 2 ^ 64 by omega) hmod
    rw [Buf.sub_len _ (by omega), hfits] at hwrite
    have hbytes : (s.buf.sub rel (s.buf.len - rel)).bytes = s.buf.bytes.drop rel :=
      List.take_of_length_le (by rw [List.length_drop]; omega)
    rw [hbytes] at hwrite
    exact wp_window_write hrel.le (Nat.le_refl _) hwrite
  · apply wp_lift_ok_bind (sub_toU64 hs.buf.len_lt hrel.le)
    refine wp_bind_of_run_ok (rotateLeft_run hrel.le hscr) ?_
    obtain ⟨s₁, hs₁⟩ : ∃ s₁, s₁ = Xfer.mk s.io ⟨s.buf.addr, s.buf.bytes.drop rel ++ s.buf.bytes.take rel⟩
      (s.scratch.patch 0 (s.buf.bytes.take rel)) := ⟨_, rfl⟩
    rw [← hs₁]
    have htake : (s.buf.bytes.take rel).length = rel := by rw [List.length_take]; omega
    have hblen : s₁.buf.len = s.buf.len := by
      rw [hs₁]
      show (s.buf.bytes.drop rel ++ s.buf.bytes.take rel).length = s.buf.len
      rw [List.length_append, List.length_drop, htake]
      omega
    have hslen : s₁.scratch.len = s.scratch.len := by
      rw [hs₁]; exact Buf.patch_len _ (by rw [htake]; omega)
    have hshape : s.SameShape s₁ := ⟨by rw [hs₁], by rw [hs₁], hblen, by rw [hs₁]; rfl, hslen⟩
    have hs' := hs.of_shape hshape
    have hwrite := writeAlignedOffsetAndBuffer_wp (hs'.narrow (i := 0) (n := s.buf.len - rel - 0) (by omega)
      hs'.buf.addr_lt hs'.buf.aligned) (by rw [hshape.info]; exact hbs)
      (show pos < 2 ^ 64 by omega) (by rw [hshape.info]; exact hmod)
    have hbytes : (s₁.buf.sub 0 (s.buf.len - rel - 0)).bytes = s.buf.bytes.drop rel := by
      rw [hs₁]
      show ((s.buf.bytes.drop rel ++ s.buf.bytes.take rel).drop 0).take _ = _
      rw [List.drop_zero, List.take_left' (by rw [List.length_drop]; omega)]
    rw [hbytes, Buf.sub_len _ (by omega), Nat.sub_zero, hshape.info, hfits] at hwrite
    refine wp_bind (wp_attempt_write (wp_window_write (Nat.zero_le _) (by omega) hwrite)) ?_ ?_
    · rintro _ s₂ ⟨res, ⟨⟩, hpost⟩
      -- whatever the write returned, the buffer is still the rotated one
      have hbuf₂ : s₂.buf.bytes = s.buf.bytes.drop rel ++ s.buf.bytes.take rel := by
        rw [hpost.buf, hs₁]
      refine wp_bind_of_run_ok (rotateRight_run hbuf₂ htake (by rw [hpost.scratchLen, hslen]; exact hscr)) ?_
      apply wp_lift
      have hio : s₁.io = s.io := by rw [hs₁]
      refine ⟨hio ▸ hpost.ran, ?_, ?_, ?_, hio ▸ hpost.torn, hpost.returns, hio ▸ hpost.stored, hio ▸ hpost.succeeds⟩
      · show Buf.mk s₂.buf.addr _ = s.buf
        rw [hpost.buf, hs₁, List.take_append_drop]
      · exact hpost.scratchAddr.trans hshape.scratchAddr
      · rw [Buf.patch_len _ (by rw [htake, hpost.scratchLen, hslen]; omega), hpost.scratchLen, hslen]
    · rintro e s₂ ⟨res, h, -⟩
      cases h

theorem writeFirstBlock_wp (rel : Nat) (hs : s.Ready) (ho : offset < 2 ^ 64) (hbs : 0 < s.io.info.blockSize)
    (hal : offset % s.io.info.blockSize ≠ 0) (hrel : rel ≤ s.buf.len)
    (hrel' : offset % s.io.info.blockSize + rel ≤ s.io.info.blockSize) :
    wp (do
        indexScratch s.io.info.blockSize
        let roundDownOffset ← Exec.lift (SafeNum.roundDown offset s.io.info.blockSize).toU64
        onScratch s.io.info.blockSize (readAlignedAll roundDownOffset)
        let offsetRelative ← Exec.lift ((offset : SafeNum) - roundDownOffset).toU64
        copyToScratch offsetRelative 0 rel
        onScratch s.io.info.blockSize (writeAlignedAll roundDownOffset)) s
      (WritePost (offset - offset % s.io.info.blockSize + s.io.info.blockSize ≤ s.io.info.total)
        offset (s.buf.bytes.take rel) s) := by
  have hmle := Nat.mod_le offset s.io.info.blockSize
  have hne : s.io.info.blockSize ≠ 1 := by
    intro h1; rw [h1, Nat.mod_one] at hal; exact hal rfl
  have hmod : (offset - offset % s.io.info.blockSize) % s.io.info.blockSize = 0 :=
    Nat.mod_eq_zero_of_dvd (Nat.dvd_sub_mod _)
  have hscr := hs.scratchLen
  rw [BlockInfo.blockScratch_eq hne] at hscr
  apply wp_indexScratch_bind hscr
  apply wp_lift_ok_bind (roundDown_toU64 ho hbs s.io.info.blockSize_lt)
  refine wp_read_then_write (readScratchBlock_wp hs hbs hne (by omega) hmod) fun s₁ hk hbuf hfilled => ?_
  apply wp_lift_ok_bind (a := offset % s.io.info.blockSize) (by rw [sub_toU64 ho (Nat.sub_le _ _)]; congr 1; omega)
  have hwrite := patchBlock_wp (offset % s.io.info.blockSize) 0 rel
    (hs.of_shape hk.shape) (by rw [hk.ran.info]; exact hbs) (by rw [hk.ran.info]; exact hne)
    (show offset - offset % s.io.info.blockSize < 2 ^ 64 by omega)
    (by rw [hk.ran.info]; exact hmod) (by rw [hk.ran.info]; exact hrel') (by rw [hbuf]; omega)
    (by rw [hk.ran.info, hk.content]; exact hfilled.2)
  rw [hk.ran.info, hbuf, List.drop_zero, Nat.sub_add_cancel hmle] at hwrite
  exact hwrite

theorem writeAlignedBuffer_wp (hs : s.Ready) (ho : offset < 2 ^ 64) : wp (writeAlignedBuffer offset) s
      (WritePost (s.io.info.PieceFits offset s.buf.len) offset s.buf.bytes s) := by
  apply wp_get_bind
  refine wp_alignedBuffer hs ho (fun e h => WritePost.of_err h) (fun hbs hal => ?_)
    fun rel hbs hal hup hstop hrel => ?_
  · rw [BlockInfo.pieceFits_of_aligned hbs hal]
    exact writeAlignedOffsetAndBuffer_wp hs hbs ho hal
  have hmlt := Nat.mod_lt offset hbs
  have hgap := gap_of_not_aligned hbs hal
  have hlen : s.buf.bytes.length = s.buf.len := rfl
  have htake : (s.buf.bytes.take rel).length = rel := by rw [List.length_take]; omega
  have hscr := hs.scratchLen
  rw [BlockInfo.blockScratch_eq (by intro h1; rw [h1, Nat.mod_one] at hal; exact hal rfl)] at hscr
  rw [BlockInfo.pieceFits_of_not_aligned hbs hal hup hstop, BlockInfo.unaligned_le_total_iff hbs hal hrel,
    Nat.add_min_add_left, ← hrel, ← List.take_append_drop rel s.buf.bytes]
  -- what is behind the block boundary is written first, then the head
  refine wp_write_before ?_ fun s₁ hshape hbuf _ => ?_
  · rw [htake]
    refine wp_when (fun hlt => ?_) (fun hge => ?_)
    · have hmod : (offset + rel) % s.io.info.blockSize = 0 := by
        rw [show rel = gap offset s.io.info.blockSize by omega]; exact add_gap_mod _ hbs
      refine wp_mono (writeBehindHead_wp hs hbs hlt (by omega) hmod (by omega)) ?_
      intro r s' h
      exact h.congr ⟨Or.inr, fun h => h.resolve_left (by omega)⟩
    · rw [List.drop_of_length_le (by omega)]
      exact .of_nil (Or.inl (by omega))
  · have hfirst := writeFirstBlock_wp rel (hs.of_shape hshape) ho
      (by rw [hshape.info]; exact hbs) (by rw [hshape.info]; exact hal)
      (by rw [hshape.bufLen]; omega) (by rw [hshape.info]; omega)
    rw [hshape.info, hbuf] at hfirst
    exact hfirst

/-! ## Any buffer -/

theorem wp_withScratch_write (hl : Xfer.Split.Layout s parts i j)
    (h : wp m ⟨s.io, s.buf, s.scratch.sub j s.io.info.blockScratch⟩
      (WritePost fits offset d ⟨s.io, s.buf, s.scratch.sub j s.io.info.blockScratch⟩)) :
    wp (withScratch parts.2 m) s (WritePost fits offset d s) := by
  apply wp_withScratch
  rw [hl.second_pos, hl.second_len]
  refine wp_mono h ?_
  intro r t ht
  have hlen : t.scratch.bytes.length = s.io.info.blockScratch := ht.scratchLen.trans (Buf.sub_len _ hl.inside)
  exact ⟨ht.ran, ht.buf, rfl, Buf.patch_len _ (by rw [hlen]; exact hl.inside), ht.torn, ht.returns,
    ht.stored, ht.succeeds⟩

theorem writeThroughScratch_wp (hl : Xfer.Split.Layout s parts i j) (hscr : s.scratch.InMemory)
    (ho : offset < 2 ^ 64) (hu : u ≤ s.io.info.alignment - 1) (hu' : u ≤ s.buf.len) :
    wp (do
        copyToScratch (parts.1.addr - s.scratch.addr) 0 u
        withScratchAsBuf ⟨parts.1.addr, u⟩ parts.2 (writeAlignedBuffer offset)) s
      (WritePost (s.io.info.PieceFits offset u) offset (s.buf.bytes.take u) s) := by
  have hin := hl.inside
  have hord := hl.ordered
  have hlt := hl.second_lt
  have hlen : s.buf.bytes.length = s.buf.len := rfl
  have htake : (s.buf.bytes.take u).length = u := by rw [List.length_take]; omega
  have hplen : (s.scratch.patch i (s.buf.bytes.take u)).len = s.scratch.len := Buf.patch_len _ (by omega)
  rw [hl.first_pos]
  refine wp_bind_of_run_ok (copyToScratch_run (by omega) (by omega)) ?_
  obtain ⟨s₁, hs₁⟩ : ∃ s₁, s₁ = { s with scratch := s.scratch.patch i (s.buf.bytes.take u) } := ⟨_, rfl⟩
  rw [List.drop_zero, ← hs₁]
  have hshape : s.SameShape s₁ := by
    rw [hs₁]; exact ⟨rfl, rfl, rfl, rfl, hplen⟩
  have hl₁ := hl.of_shape hshape
  have hscr₁ := hscr.congr hshape.scratchAddr hshape.scratchLen
  have hslen := hshape.scratchLen
  have hbytes : (s₁.scratch.sub i u).bytes = s.buf.bytes.take u := by
    rw [hs₁]
    have := take_drop_splice (l := s.scratch.bytes) (i := i) (d := s.buf.bytes.take u)
      (by rw [htake]; show _ ≤ s.scratch.len; omega)
    rw [htake] at this
    exact this
  have hsub : (s₁.scratch.sub i u).len = u := Buf.sub_len _ (by omega)
  have hready := hl₁.ready hscr₁
    (hscr₁.sub (i := i) (n := u) (by omega) (by rw [hshape.scratchAddr]; omega)) hl₁.first_mod
  have hwrite := writeAlignedBuffer_wp hready ho
  rw [hsub, hbytes] at hwrite
  apply wp_zoom
  dsimp only
  rw [hl₁.first_pos, hl₁.second_pos, hl₁.second_len]
  refine wp_mono hwrite ?_
  intro r t ht
  have hio : s₁.io = s.io := by rw [hs₁]
  have htb : t.buf.bytes.length = u := by rw [ht.buf]; exact hsub
  have hts : t.scratch.bytes.length = s₁.io.info.blockScratch := ht.scratchLen.trans (Buf.sub_len _ hl₁.inside)
  have hin₁ := hl₁.inside
  have hlen₁ : (s₁.scratch.patch i t.buf.bytes).len = s₁.scratch.len := Buf.patch_len _ (by omega)
  refine ⟨hio ▸ ht.ran, by rw [hs₁], hshape.scratchAddr, ?_, hio ▸ ht.torn, ht.returns,
    hio ▸ ht.stored, hio ▸ ht.succeeds⟩
  rw [Buf.patch_len _ (by omega), hlen₁, hslen]

theorem writeAlignedRest_wp (hl : Xfer.Split.Layout s parts i j) (hscr : s.scratch.InMemory)
    (hbuf : s.buf.InMemory) (hpos : pos < 2 ^ 64) (hu : u < s.buf.len)
    (hal : (s.buf.addr + u) % s.io.info.alignment = 0) :
    wp (withScratch parts.2 (index u s.buf.len (writeAlignedBuffer pos))) s
      (WritePost (s.io.info.PieceFits pos (s.buf.len - u)) pos (s.buf.bytes.drop u) s) := by
  have hend := hbuf.end_le
  have hsub : (s.buf.sub u (s.buf.len - u)).len = s.buf.len - u := Buf.sub_len _ (by omega)
  have hbytes : (s.buf.sub u (s.buf.len - u)).bytes = s.buf.bytes.drop u :=
    List.take_of_length_le (by rw [List.length_drop]; exact Nat.le_refl _)
  have hwrite := writeAlignedBuffer_wp (hl.ready hscr
    (hbuf.sub (show u + (s.buf.len - u) ≤ s.buf.len by omega) (by omega)) hal) hpos
  rw [hsub, hbytes] at hwrite
  exact wp_withScratch_write hl (wp_window_write hu.le (Nat.le_refl _) hwrite)

theorem writeAsync_wp (hs : s.Split parts) (ho : offset < 2 ^ 64) : wp (writeAsync offset) s
      (WritePost (s.io.info.Fits s.buf.addr offset s.buf.len) offset s.buf.bytes s) := by
  obtain ⟨i, j, hl⟩ := hs.layout
  apply wp_get_bind
  refine wp_async hs hl (fun hal => ?_) (fun e hal hov => ?_) fun u hal hov hu hle => ?_
  · rw [BlockInfo.Fits, if_pos hal]
    exact wp_withScratch_write hl (writeAlignedBuffer_wp (hl.ready hs.scratch hs.buf hal) ho)
  · rw [BlockInfo.Fits, if_neg hal]
    exact .of_err fun h => hov h.1
  have hlen : s.buf.bytes.length = s.buf.len := rfl
  have htake : (s.buf.bytes.take u).length = u := by rw [List.length_take]; omega
  rw [BlockInfo.fits_of_not_aligned hal hov hu, ← hu, ← bind_assoc, ← List.take_append_drop u s.buf.bytes]
  refine wp_write_then (writeThroughScratch_wp hl hs.scratch ho hle (by omega)) fun s₁ hshape hbuf _ => ?_
  refine wp_ite (fun hall => wp_pure ?_) (fun hrest => ?_)
  · -- the buffer ends before its first aligned address
    rw [List.drop_of_length_le (by omega)]
    exact .of_nil fun h => by omega
  rw [htake]
  refine wp_write_at ⟨fun h => h (by omega), fun h _ => h⟩ fun hov' => ?_
  have hwrite := writeAlignedRest_wp (u := u) (hl.of_shape hshape)
    (hs.scratch.congr hshape.scratchAddr hshape.scratchLen)
    (hs.buf.congr hshape.bufAddr hshape.bufLen) hov' (by rw [hshape.bufLen]; omega) (by
      rw [hshape.bufAddr, hshape.info, show u = gap s.buf.addr s.io.info.alignment by omega]
      exact add_gap_mod _ hl.pos)
  rw [hshape.bufLen, hshape.info, hbuf] at hwrite
  exact hwrite

/-! ## The result -/

/-- **An unaligned write is exact and leaves everything else alone.** On a fault-free device, a nonempty write to a
range inside the device changes the range to the data and nothing else, if the device leaves room for one more block
below `2 ^ 64` and the next aligned address can be computed. On every path no byte of the device is anything but old
or new. -/
theorem writeAsync_exact (s : Xfer) (parts : Slice × Slice) (offset : Nat)
    (hsplit : splitScratch s.io.info s.scratch.toSlice = .ok parts) (hbuf : s.buf.InMemory)
    (hscratch : s.scratch.InMemory) (ho : offset < 2 ^ 64) (hne : 0 < s.buf.len) :
    (s.io.FaultFree → offset + s.buf.len ≤ s.io.info.total →
      (s.io.info.numBlocks + 1) * s.io.info.blockSize ≤ 2 ^ 64 →
      (s.buf.addr % s.io.info.alignment = 0 ∨ s.buf.addr + s.io.info.alignment < 2 ^ 64) →
      (writeAsync offset s).1 = .ok () ∧
      (writeAsync offset s).2.io.content = store s.io.content offset s.buf.bytes) ∧
    (writeAsync offset s).2.buf = s.buf ∧
    (writeAsync offset s).1.Returns ∧
    Torn s.io.content offset s.buf.bytes (writeAsync offset s).2.io.content := by
  have hs : s.Split parts := ⟨hbuf, hscratch, hsplit⟩
  obtain ⟨i, j, hl⟩ := hs.layout
  have hpost := writeAsync_wp hs ho
  refine ⟨fun hff hin hgeom haddr => ?_, hpost.buf, hpost.returns, hpost.torn⟩
  have hok := hpost.succeeds hff ((BlockInfo.fits_iff hne hl.pos hgeom).mpr ⟨hin, haddr⟩)
  exact ⟨hok, (hpost.stored hok).2⟩

/-- Five bytes to position 3 of a device of four 4-byte blocks, from a buffer one byte past an
aligned address. -/
theorem writeAsync_exact_pieces :
    (writeAsync 3 ⟨⟨⟨4, 4, 4, by decide, by decide, by decide⟩, fun _ => 0, fun _ => none, []⟩,
      ⟨17, [1, 2, 3, 4, 5]⟩, ⟨33, List.replicate 11 0⟩⟩).1 = .ok () ∧
    (writeAsync 3 ⟨⟨⟨4, 4, 4, by decide, by decide, by decide⟩, fun _ => 0, fun _ => none, []⟩,
      ⟨17, [1, 2, 3, 4, 5]⟩, ⟨33, List.replicate 11 0⟩⟩).2.io.content =
      store (fun _ => 0) 3 [1, 2, 3, 4, 5] := by
  have h := writeAsync_exact
    ⟨⟨⟨4, 4, 4, by decide, by decide, by decide⟩, fun _ => 0, fun _ => none, []⟩,
      ⟨17, [1, 2, 3, 4, 5]⟩, ⟨33, List.replicate 11 0⟩⟩ (⟨36, 3⟩, ⟨40, 4⟩) 3 (by decide)
    ⟨by decide, by decide, by decide⟩ ⟨by decide, by decide, by decide⟩ (by decide) (by decide)
  exact h.1 (fun _ => rfl) (by decide) (by decide) (Or.inr (by decide))

structure Xfer.InRange (s : Xfer) (offset : Nat) : Prop where
  split : ∃ parts, splitScratch s.io.info s.scratch.toSlice = .ok parts
  buf : s.buf.InMemory
  scratch : s.scratch.InMemory
  nonempty : 0 < s.buf.len
  faultFree : s.io.FaultFree
  inside : offset + s.buf.len ≤ s.io.info.total

/-- Both conditions are needed: with either one alone a write inside the device may fail. A buffer in
the last 16 bytes of the address space cannot be rounded up to a 16-byte boundary; and on a device of
exactly `2 ^ 64` bytes the block boundary behind an unaligned offset in the last block is no `u64`. -/
theorem writeAsync_fails_in_range :
    (¬ ∀ (s : Xfer) (offset : Nat), offset < 2 ^ 64 → s.InRange offset →
      (s.io.info.numBlocks + 1) * s.io.info.blockSize ≤ 2 ^ 64 → (writeAsync offset s).1 = .ok ()) ∧
    (¬ ∀ (s : Xfer) (offset : Nat), offset < 2 ^ 64 → s.InRange offset →
      s.buf.addr % s.io.info.alignment = 0 → (writeAsync offset s).1 = .ok ()) := by
  constructor
  · intro h
    have hbad := h ⟨⟨⟨1, 4, 16, by decide, by decide, by decide⟩, fun _ => 0, fun _ => none, []⟩,
      ⟨2 ^ 64 - 8, [0, 0, 0, 0]⟩, ⟨16, List.replicate 30 0⟩⟩ 0 (by decide)
      ⟨⟨(⟨16, 15⟩, ⟨32, 0⟩), by decide⟩, ⟨by decide, by decide, by decide⟩,
        ⟨by decide, by decide, by decide⟩, by decide, fun _ => rfl, by decide⟩ (by decide)
    revert hbad
    decide
  · intro h
    have hbad := h ⟨⟨⟨2, 2 ^ 63, 1, by decide, by decide, by decide⟩, fun _ => 0, fun _ => none, []⟩,
      ⟨16, [0]⟩, ⟨32, [0, 0]⟩⟩ (2 ^ 64 - 1) (by decide)
      ⟨⟨(⟨32, 0⟩, ⟨32, 2⟩), by decide⟩, ⟨by decide, by decide, by decide⟩,
        ⟨by decide, by decide, by decide⟩, by decide, fun _ => rfl, by decide⟩ (by decide)
    revert hbad
    decide

end Gbl.Storage
