import Gbl.Storage.Rules

/-!
# Which ranges can be accessed, and from where

What the correctness of reads and of writes share beyond single rules.
-/

namespace Gbl.Storage

open Lib Lib.Exec

/-! ## Ranges -/

variable {info : BlockInfo} {offset len addr len' : Nat} {s : Xfer}

theorem BlockInfo.add_le_total_iff {p r : Nat} (hp : p % info.blockSize = 0) (hr : 0 < r)
    (hr' : r ≤ info.blockSize) : p + r ≤ info.total ↔ p + info.blockSize ≤ info.total := by
  obtain ⟨k, rfl⟩ := Nat.dvd_of_mod_eq_zero hp
  unfold total
  constructor
  · intro h
    have hk : k < info.numBlocks := by
      by_contra hge
      have := Nat.mul_le_mul_left info.blockSize (Nat.le_of_not_lt hge)
      omega
    rw [← Nat.mul_succ]
    exact Nat.mul_le_mul_left _ hk
  · intro h
    omega

def BlockInfo.AlignedFits (info : BlockInfo) (offset len : Nat) : Prop :=
  len = 0 ∨ offset + len ≤ info.total ∧
    (len % info.blockSize = 0 ∨ offset + (len - len % info.blockSize) < 2 ^ 64)

theorem BlockInfo.alignedFits_of_lt (hlen : 0 < len) (h : offset + len < 2 ^ 64) :
    info.AlignedFits offset len ↔ offset + len ≤ info.total := by
  constructor
  · rintro (h | ⟨h, -⟩)
    · omega
    · exact h
  · intro h
    exact Or.inr ⟨h, Or.inr (by omega)⟩

theorem BlockInfo.alignedFits_iff {n : Nat} (hn : n = len - len % info.blockSize) (hrest : n < len) :
    info.AlignedFits offset len ↔ (n = 0 ∨ offset + n ≤ info.total) ∧ offset + n < 2 ^ 64 ∧
        offset + n + (len - n) ≤ info.total := by
  have hmod := Nat.mod_le len info.blockSize
  unfold AlignedFits
  constructor
  · rintro (h | ⟨h, h' | h'⟩)
    · omega
    · omega
    · exact ⟨Or.inr (by omega), by omega, by omega⟩
  · rintro ⟨-, h, h'⟩
    exact Or.inr ⟨by omega, Or.inr (by omega)⟩

theorem BlockInfo.alignedFits_whole_iff {n : Nat} (hn : n = len - len % info.blockSize) (hend : len = n) :
    info.AlignedFits offset len ↔ (n = 0 ∨ offset + n ≤ info.total) ∧ True := by
  have hmod := Nat.mod_le len info.blockSize
  unfold AlignedFits
  constructor
  · rintro (h | ⟨h, -⟩)
    · exact ⟨Or.inl (by omega), trivial⟩
    · exact ⟨Or.inr (by omega), trivial⟩
  · rintro ⟨h | h, -⟩
    · exact Or.inl (by omega)
    · exact Or.inr ⟨by omega, Or.inl (by omega)⟩

def BlockInfo.PieceFits (info : BlockInfo) (offset len : Nat) : Prop :=
  0 < info.blockSize ∧
    if offset % info.blockSize = 0 then info.AlignedFits offset len
    else offset + info.blockSize < 2 ^ 64 ∧ offset + len < 2 ^ 64 ∧ offset + len ≤ info.total

theorem BlockInfo.pieceFits_of_aligned (hbs : 0 < info.blockSize) (h : offset % info.blockSize = 0) :
    info.PieceFits offset len ↔ info.AlignedFits offset len := by
  unfold PieceFits
  rw [if_pos h]
  exact and_iff_right hbs

theorem BlockInfo.pieceFits_of_not_aligned (hbs : 0 < info.blockSize) (h : offset % info.blockSize ≠ 0)
    (hup : offset + info.blockSize < 2 ^ 64) (hstop : offset + len < 2 ^ 64) :
    info.PieceFits offset len ↔ offset + len ≤ info.total := by
  unfold PieceFits
  rw [if_neg h]
  exact ⟨fun hf => hf.2.2.2, fun hf => ⟨hbs, hup, hstop, hf⟩⟩

theorem BlockInfo.unaligned_le_total_iff {rel : Nat} (hbs : 0 < info.blockSize)
    (hal : offset % info.blockSize ≠ 0) (hrel : rel = min (gap offset info.blockSize) len) :
    offset + len ≤ info.total ↔ (rel = len ∨ offset + rel + (len - rel) ≤ info.total) ∧
        offset - offset % info.blockSize + info.blockSize ≤ info.total := by
  have hmlt := Nat.mod_lt offset hbs
  have hmle := Nat.mod_le offset info.blockSize
  have hgap := gap_of_not_aligned hbs hal
  have hblock : offset - offset % info.blockSize + offset % info.blockSize ≤ info.total ↔
      offset - offset % info.blockSize + info.blockSize ≤ info.total :=
    BlockInfo.add_le_total_iff (Nat.mod_eq_zero_of_dvd (Nat.dvd_sub_mod _)) (by omega) (by omega)
  rw [← hblock]
  constructor
  · intro h
    exact ⟨Or.inr (by omega), by omega⟩
  · rintro ⟨h | h, hb⟩
    · rw [hblock] at hb
      omega
    · omega

def BlockInfo.Fits (info : BlockInfo) (addr offset len : Nat) : Prop :=
  if addr % info.alignment = 0 then info.PieceFits offset len
  else addr + info.alignment < 2 ^ 64 ∧
    info.PieceFits offset (min (gap addr info.alignment) len) ∧
    (gap addr info.alignment < len → offset + gap addr info.alignment < 2 ^ 64 ∧
      info.PieceFits (offset + gap addr info.alignment) (len - gap addr info.alignment))

theorem BlockInfo.fits_of_not_aligned {u : Nat} (hal : addr % info.alignment ≠ 0)
    (hov : addr + info.alignment < 2 ^ 64) (hu : u = min (gap addr info.alignment) len) :
    info.Fits addr offset len ↔ info.PieceFits offset u ∧
      (u < len → offset + u < 2 ^ 64 ∧ info.PieceFits (offset + u) (len - u)) := by
  have hlt : gap addr info.alignment < len ↔ u < len := by omega
  have hg : u < len → gap addr info.alignment = u := by omega
  rw [Fits, if_neg hal, ← hu]
  constructor
  · rintro ⟨-, hfirst, hrest⟩
    exact ⟨hfirst, fun h => hg h ▸ hrest (hlt.2 h)⟩
  · rintro ⟨hfirst, hrest⟩
    refine ⟨hov, hfirst, fun h => ?_⟩
    rw [hg (hlt.1 h)]
    exact hrest (hlt.1 h)

theorem BlockInfo.pieceFits_iff (hlen : 0 < len) (hgeom : (info.numBlocks + 1) * info.blockSize ≤ 2 ^ 64) :
    info.PieceFits offset len ↔ offset + len ≤ info.total := by
  have htotal : (info.numBlocks + 1) * info.blockSize = info.total + info.blockSize := by
    rw [BlockInfo.total, Nat.add_mul, Nat.one_mul, Nat.mul_comm]
  unfold PieceFits AlignedFits
  constructor
  · rintro ⟨-, h⟩
    split at h
    · rcases h with h | ⟨h, -⟩
      · omega
      · exact h
    · exact h.2.2
  · intro h
    have hbs : 0 < info.blockSize := by
      by_contra h0
      have : info.total = 0 := by
        rw [BlockInfo.total, show info.blockSize = 0 by omega, Nat.zero_mul]
      omega
    refine ⟨hbs, ?_⟩
    split
    · exact Or.inr ⟨h, Or.inr (by omega)⟩
    · exact ⟨by omega, by omega, h⟩

theorem BlockInfo.fits_iff (hlen : 0 < len) (hal : 0 < info.alignment)
    (hgeom : (info.numBlocks + 1) * info.blockSize ≤ 2 ^ 64) :
    info.Fits addr offset len ↔
      offset + len ≤ info.total ∧ (addr % info.alignment = 0 ∨ addr + info.alignment < 2 ^ 64) := by
  unfold Fits
  split
  · next ha =>
    rw [pieceFits_iff hlen hgeom]
    simp only [ha, true_or, and_true]
  · next ha =>
    have hgap := gap_of_not_aligned hal ha
    have hlt := Nat.mod_lt addr hal
    have htotal : (info.numBlocks + 1) * info.blockSize = info.total + info.blockSize := by
      rw [BlockInfo.total, Nat.add_mul, Nat.one_mul, Nat.mul_comm]
    rw [pieceFits_iff (by omega) hgeom]
    constructor
    · rintro ⟨hov, h₁, h₂⟩
      refine ⟨?_, Or.inr hov⟩
      rcases Nat.lt_or_ge (gap addr info.alignment) len with hg | hg
      · have h₃ := (pieceFits_iff (by omega) hgeom).mp (h₂ hg).2
        omega
      · omega
    · rintro ⟨hin, h | hov⟩
      · exact absurd h ha
      · refine ⟨hov, by omega, fun hg => ⟨by omega, ?_⟩⟩
        exact (pieceFits_iff (by omega) hgeom).mpr (by omega)

theorem BlockInfo.PieceFits.mono (h : info.PieceFits offset len) (hle : len' ≤ len)
    (hlt : offset + len < 2 ^ 64) : info.PieceFits offset len' := by
  obtain ⟨hbs, h⟩ := h
  refine ⟨hbs, ?_⟩
  split at h
  · next hal =>
    rw [if_pos hal]
    rcases Nat.eq_zero_or_pos len' with h0 | hpos
    · exact Or.inl h0
    · refine (alignedFits_of_lt hpos (by omega)).mpr ?_
      have := (alignedFits_of_lt (by omega) hlt).mp h
      omega
  · next hal =>
    rw [if_neg hal]
    exact ⟨h.1, by omega, by omega⟩

theorem BlockInfo.Fits.mono (h : info.Fits addr offset len) (hle : len' ≤ len) (hlt : offset + len < 2 ^ 64) :
    info.Fits addr offset len' := by
  unfold Fits at h ⊢
  split at h
  · next ha =>
    rw [if_pos ha]
    exact h.mono hle hlt
  · next ha =>
    rw [if_neg ha]
    obtain ⟨hov, hfirst, hsecond⟩ := h
    refine ⟨hov, hfirst.mono (by omega) (by omega), fun hg => ?_⟩
    obtain ⟨hlt', hrest⟩ := hsecond (by omega)
    exact ⟨hlt', hrest.mono (by omega) (by omega)⟩

theorem BlockInfo.PieceFits.le_total (h : info.PieceFits offset len) (hlen : 0 < len) : offset + len ≤ info.total := by
  obtain ⟨-, h⟩ := h
  split at h
  · rcases h with h | h
    · omega
    · exact h.1
  · exact h.2.2

theorem BlockInfo.Fits.le_total (h : info.Fits addr offset len) (hlen : 0 < len) : offset + len ≤ info.total := by
  unfold Fits at h
  split at h
  · exact h.le_total hlen
  · obtain ⟨-, hfirst, hsecond⟩ := h
    rcases Nat.lt_or_ge (gap addr info.alignment) len with hg | hg
    · have := (hsecond hg).2.le_total (by omega)
      omega
    · rw [Nat.min_eq_right hg] at hfirst
      exact hfirst.le_total hlen

/-! ## States of a transfer -/

structure Xfer.SameShape (s s' : Xfer) : Prop where
  info : s'.io.info = s.io.info
  bufAddr : s'.buf.addr = s.buf.addr
  bufLen : s'.buf.len = s.buf.len
  scratchAddr : s'.scratch.addr = s.scratch.addr
  scratchLen : s'.scratch.len = s.scratch.len

structure Xfer.Ready (s : Xfer) : Prop where
  buf : s.buf.Ready s.io.info
  scratchAligned : s.scratch.addr % s.io.info.alignment = 0
  scratch : s.scratch.InMemory
  scratchLen : s.io.info.blockScratch ≤ s.scratch.len

theorem BlockInfo.blockScratch_eq (h : info.blockSize ≠ 1) : info.blockScratch = info.blockSize := by
  unfold blockScratch
  split
  · next h1 => exact absurd h1 h
  · rfl

theorem Xfer.Ready.of_shape {s' : Xfer} (hs : s.Ready) (h : s.SameShape s') : s'.Ready := by
  have hi := h.info
  refine ⟨⟨hs.buf.toInMemory.congr h.bufAddr h.bufLen, ?_, ?_⟩, ?_, hs.scratch.congr h.scratchAddr h.scratchLen, ?_⟩
  · rw [hi]; exact hs.buf.pos
  · rw [hi, h.bufAddr]; exact hs.buf.aligned
  · rw [hi, h.scratchAddr]; exact hs.scratchAligned
  · rw [hi, h.scratchLen]; exact hs.scratchLen

theorem Xfer.Ready.scratch_sub (h : s.Ready) (hbs : s.io.info.blockSize ≠ 1) :
    (s.scratch.sub 0 s.io.info.blockSize).Ready s.io.info ∧
      (s.scratch.sub 0 s.io.info.blockSize).len = s.io.info.blockSize := by
  have hlen := h.scratchLen
  rw [BlockInfo.blockScratch_eq hbs] at hlen
  have hsub : (s.scratch.sub 0 s.io.info.blockSize).len = s.io.info.blockSize := Buf.sub_len _ (by omega)
  exact ⟨⟨h.scratch.sub (by omega) h.scratch.addr_lt, h.buf.pos, h.scratchAligned⟩, hsub⟩

theorem Xfer.Ready.wholeBlocks (hs : s.Ready) {n : Nat} (hn : n = s.buf.len - s.buf.len % s.io.info.blockSize) :
    (s.buf.sub 0 (n - 0)).Ready s.io.info ∧ (s.buf.sub 0 (n - 0)).len = n ∧ n % s.io.info.blockSize = 0 := by
  have hsub : (s.buf.sub 0 (n - 0)).len = n := Buf.sub_len _ (by omega)
  refine ⟨⟨hs.buf.toInMemory.sub (by omega) hs.buf.addr_lt, hs.buf.pos, hs.buf.aligned⟩, hsub, ?_⟩
  rw [hn]
  exact Nat.mod_eq_zero_of_dvd (Nat.dvd_sub_mod _)

theorem Xfer.Ready.narrow {i n : Nat} (hs : s.Ready) (hn : i + n ≤ s.buf.len) (hi : s.buf.addr + i < 2 ^ 64)
    (hal : (s.buf.addr + i) % s.io.info.alignment = 0) : Xfer.Ready { s with buf := s.buf.sub i n } :=
  ⟨⟨hs.buf.toInMemory.sub hn hi, hs.buf.pos, hal⟩, hs.scratchAligned, hs.scratch, hs.scratchLen⟩

structure Xfer.Split (s : Xfer) (parts : Slice × Slice) : Prop where
  buf : s.buf.InMemory
  scratch : s.scratch.InMemory
  split : splitScratch s.io.info s.scratch.toSlice = .ok parts

namespace Xfer.Split

variable {s : Xfer} {parts : Slice × Slice}

structure Layout (s : Xfer) (parts : Slice × Slice) (i j : Nat) : Prop where
  pos : 0 < s.io.info.alignment
  first : parts.1 = ⟨s.scratch.addr + i, s.io.info.alignment - 1⟩
  second : parts.2 = ⟨s.scratch.addr + j, s.io.info.blockScratch⟩
  first_mod : (s.scratch.addr + i) % s.io.info.alignment = 0
  second_mod : (s.scratch.addr + j) % s.io.info.alignment = 0
  ordered : i + (s.io.info.alignment - 1) ≤ j
  inside : j + s.io.info.blockScratch ≤ s.scratch.len
  second_lt : s.scratch.addr + j < 2 ^ 64

theorem layout (h : s.Split parts) : ∃ i j, Layout s parts i j := by
  obtain ⟨⟨hal, -, hlt, hend⟩, rfl⟩ := (splitScratch_eq_ok_iff _ _ _).mp h.split
  have hfirst : firstAddr s.io.info s.scratch.addr = s.scratch.addr + gap s.scratch.addr s.io.info.alignment := rfl
  have hskip : s.io.info.skip ≤ 1 := by unfold BlockInfo.skip; split <;> omega
  have hsecond : secondAddr s.io.info s.scratch.addr = s.scratch.addr +
      (gap s.scratch.addr s.io.info.alignment + (s.io.info.alignment - 1) + s.io.info.skip) := by
    unfold secondAddr
    omega
  simp only [Buf.toSlice_addr, Buf.toSlice_len] at hlt hend
  refine ⟨gap s.scratch.addr s.io.info.alignment, _, hal, rfl, congrArg (Slice.mk · _) hsecond,
    firstAddr_mod _ hal _, ?_, by omega,
    by omega, by omega⟩
  rw [← hsecond]
  exact secondAddr_mod _ hal _

end Xfer.Split

namespace Xfer.Split.Layout

variable {s : Xfer} {parts : Slice × Slice} {i j : Nat}

theorem first_pos (h : Layout s parts i j) : parts.1.addr - s.scratch.addr = i := by
  rw [h.first]; exact Nat.add_sub_cancel_left _ _

theorem second_pos (h : Layout s parts i j) : parts.2.addr - s.scratch.addr = j := by
  rw [h.second]; exact Nat.add_sub_cancel_left _ _

theorem second_len (h : Layout s parts i j) : parts.2.len = s.io.info.blockScratch := by
  rw [h.second]

theorem ready (h : Layout s parts i j) (hscr : s.scratch.InMemory) {b : Buf} (hb : b.InMemory)
    (hal : b.addr % s.io.info.alignment = 0) :
    Xfer.Ready ⟨s.io, b, s.scratch.sub j s.io.info.blockScratch⟩ := by
  exact ⟨⟨hb, h.pos, hal⟩, h.second_mod, hscr.sub h.inside h.second_lt, (Buf.sub_len _ h.inside).ge⟩

theorem of_shape (h : Layout s parts i j) {s' : Xfer} (hs : s.SameShape s') :
    Layout s' parts i j := by
  have hi := hs.info
  have ha := hs.scratchAddr
  have hl := hs.scratchLen
  exact ⟨by rw [hi]; exact h.pos, by rw [hi, ha]; exact h.first, by rw [hi, ha]; exact h.second,
    by rw [hi, ha]; exact h.first_mod, by rw [hi, ha]; exact h.second_mod,
    by rw [hi]; exact h.ordered, by rw [hi, hl]; exact h.inside, by rw [ha]; exact h.second_lt⟩

end Xfer.Split.Layout

/-! ## What reads and writes begin with -/

section Beginnings

variable {Q : Result Unit → Xfer → Prop} {direct : Exec Error Xfer Unit}

theorem wp_alignedOffsetAndBuffer {f : Nat → Exec Error Xfer Unit} (hs : s.Ready) (hbs : 0 < s.io.info.blockSize)
    (ho : offset < 2 ^ 64) (hoff : offset % s.io.info.blockSize = 0)
    (h : ∀ n, n = s.buf.len - s.buf.len % s.io.info.blockSize → wp (f n) s Q) :
    wp (do
      Exec.lift (do debugAssert (← isAligned offset s.io.info.blockSize))
      Exec.lift (do debugAssert (← isBufferAligned s.buf.toSlice s.io.info.alignment))
      let n ← Exec.lift (SafeNum.roundDown s.buf.len s.io.info.blockSize).toU64
      f n) s Q := by
  have hbs' := s.io.info.blockSize_lt
  apply wp_lift_ok_bind (debugAssert_isAligned ho hbs hbs' hoff)
  apply wp_lift_ok_bind (debugAssert_isAligned hs.buf.addr_lt hs.buf.pos s.io.info.alignment_lt hs.buf.aligned)
  exact wp_lift_ok_bind (roundDown_toU64 hs.buf.len_lt hbs hbs') (h _ rfl)

theorem wp_alignedBuffer {f : Nat → Nat → Nat → Exec Error Xfer Unit} (hs : s.Ready) (ho : offset < 2 ^ 64)
    (herr : ∀ e, ¬ s.io.info.PieceFits offset s.buf.len → Q (err e) s)
    (hdirect : 0 < s.io.info.blockSize → offset % s.io.info.blockSize = 0 → wp direct s Q)
    (hpieces : ∀ rel, 0 < s.io.info.blockSize → offset % s.io.info.blockSize ≠ 0 →
      offset + s.io.info.blockSize < 2 ^ 64 → offset + s.buf.len < 2 ^ 64 →
      rel = min (gap offset s.io.info.blockSize) s.buf.len →
      wp (f (offset + gap offset s.io.info.blockSize) (offset + s.buf.len) rel) s Q) :
    wp (do
      Exec.lift (do debugAssert (← isBufferAligned s.buf.toSlice s.io.info.alignment))
      if ← Exec.lift (isAligned offset s.io.info.blockSize) then direct else do
        let up ← Exec.lift (SafeNum.roundUp offset s.io.info.blockSize).toU64
        let stop ← Exec.lift ((offset : SafeNum) + s.buf.len).toU64
        let relative ← Exec.lift ((min up stop : Nat) - (offset : SafeNum)).toU64
        f up stop relative) s Q := by
  apply wp_lift_ok_bind (debugAssert_isAligned hs.buf.addr_lt hs.buf.pos s.io.info.alignment_lt hs.buf.aligned)
  rcases Nat.eq_zero_or_pos s.io.info.blockSize with h0 | hbs
  · -- no blocks at all: the remainder by the block size already fails
    refine wp_bind_of_run_error (e := .err .arithmeticOverflow) (show _ = (_, s) from ?_) ?_
    · rw [h0, SafeNum.ofNat_of_lt ho]
      rfl
    · exact herr _ fun h => by have := h.1; omega
  apply wp_lift_ok_bind (isAligned_ofNat ho hbs s.io.info.blockSize_lt)
  refine wp_ite (fun hal => hdirect hbs (beq_iff_eq.mp hal)) (fun hal => ?_)
  rw [beq_iff_eq] at hal
  by_cases hup : offset + s.io.info.blockSize < 2 ^ 64
  swap
  · apply wp_lift_overflow_bind (roundUp_eq_error (by omega))
    exact herr _ fun h => by rw [BlockInfo.PieceFits, if_neg hal] at h; exact hup h.2.1
  apply wp_lift_ok_bind (roundUp_toU64 hbs hup)
  by_cases hstop : offset + s.buf.len < 2 ^ 64
  swap
  · apply wp_lift_overflow_bind (add_eq_error (by omega))
    exact herr _ fun h => by rw [BlockInfo.PieceFits, if_neg hal] at h; exact hstop h.2.2.1
  apply wp_lift_ok_bind (add_toU64 hstop)
  refine wp_lift_ok_bind ?_ (hpieces _ hbs hal hup hstop rfl)
  rw [Nat.add_min_add_left, sub_toU64 (by omega) (by omega), Nat.add_sub_cancel_left]

theorem wp_async {parts : Slice × Slice} {i j : Nat} {direct : Slice × Slice → Exec Error Xfer Unit}
    {f : Slice × Slice → Nat → Exec Error Xfer Unit} (hs : s.Split parts) (hl : Xfer.Split.Layout s parts i j)
    (hdirect : s.buf.addr % s.io.info.alignment = 0 → wp (direct parts) s Q)
    (herr : ∀ e, s.buf.addr % s.io.info.alignment ≠ 0 → ¬ s.buf.addr + s.io.info.alignment < 2 ^ 64 → Q (err e) s)
    (hpieces : ∀ u, s.buf.addr % s.io.info.alignment ≠ 0 → s.buf.addr + s.io.info.alignment < 2 ^ 64 →
      u = min (gap s.buf.addr s.io.info.alignment) s.buf.len → u ≤ s.io.info.alignment - 1 →
      wp (f parts (gap s.buf.addr s.io.info.alignment)) s Q) :
    wp (do
      let parts ← Exec.lift (splitScratch s.io.info s.scratch.toSlice)
      if ← Exec.lift (isBufferAligned s.buf.toSlice s.io.info.alignment) then direct parts else do
        let addr : SafeNum := s.buf.addr
        let gap ← Exec.lift (addr.roundUp s.io.info.alignment - addr).toU64
        Exec.assert (min gap s.buf.len ≤ parts.1.len)
        f parts gap) s Q := by
  apply wp_lift_ok_bind hs.split
  apply wp_lift_ok_bind (isAligned_ofNat hs.buf.addr_lt hl.pos s.io.info.alignment_lt)
  refine wp_ite (fun hal => hdirect (beq_iff_eq.mp hal)) (fun hal => ?_)
  rw [beq_iff_eq] at hal
  by_cases hov : s.buf.addr + s.io.info.alignment < 2 ^ 64
  swap
  · apply wp_lift_overflow_bind (by rw [roundUp_eq_error (by omega)]; rfl)
    exact herr _ hal hov
  apply wp_lift_ok_bind (roundUp_sub_toU64 hl.pos hov)
  have hgap := gap_lt s.buf.addr hl.pos
  have hle : min (gap s.buf.addr s.io.info.alignment) s.buf.len ≤ s.io.info.alignment - 1 := by omega
  exact wp_assert_bind (by rw [hl.first]; exact decide_eq_true hle) (hpieces _ hal hov rfl hle)

end Beginnings

end Gbl.Storage
