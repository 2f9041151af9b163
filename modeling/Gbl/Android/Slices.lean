import Gbl.Android.Load

/-!
# The loader's slices

The specifications of the loader's helpers: how buffers are cut, and how the kernel gets to its place.
-/

namespace Gbl.Android

open Lib Lib.Exec BootParams
open Fastboot (Bytes Text text)

/-! ## Names -/

theorem slottedPart_eq {slot : Nat} {suffix : Text} (h : slotSuffix slot = .ok suffix) (part : String) :
    slottedPart part slot = .ok (text part ++ suffix) := by
  unfold slottedPart
  rw [h]
  rfl

/-! ## Slices -/

variable {b e r x y : Extent} {n size align off : Nat}

theorem split_eq_ok : split b n = .ok (x, y) ↔ n ≤ b.len ∧ x = b.take n ∧ y = b.drop n := by
  unfold split
  split
  · next h => simp [h, eq_comm]
  · next h => simp [h]

theorem splitAtMut_eq_ok : splitAtMut b n = .ok (x, y) ↔ n ≤ b.len ∧ x = b.take n ∧ y = b.drop n := by
  unfold splitAtMut
  split
  · next h => simp [h, eq_comm]
  · next h => simp [h]

theorem indexTo_eq_ok : indexTo b n = .ok x ↔ n ≤ b.len ∧ x = b.take n := by
  unfold indexTo
  split
  · next h => simp [h, eq_comm]
  · next h => simp [h]

theorem getRange_eq_ok : getRange b r = .ok x ↔ r.stop ≤ b.len ∧ x = b.sub r := by
  unfold getRange
  split
  · next h => simp [h, eq_comm]
  · next h => simp [h]

theorem sliceOffset_eq_ok : sliceOffset b e = .ok n ↔ e.start ≤ b.start ∧ n = b.start - e.start := by
  unfold sliceOffset
  rw [subU64_eq_ok]
  exact and_congr_right fun _ => eq_comm

theorem offsetRange_eq_ok : offsetRange r off = .ok x ↔ r.stop + off < 2 ^ 64 ∧ x = ⟨r.start + off, r.len⟩ := by
  unfold offsetRange addU64
  have hle : r.start + off ≤ r.stop + off := Nat.add_le_add_right (Nat.le_add_right ..) off
  by_cases h : r.stop + off < 2 ^ 64
  · rw [if_pos (Nat.lt_of_le_of_lt hle h), if_pos h]
    simp only [Res.ok_bind, h, true_and]
    constructor
    · intro heq
      exact (Except.ok.inj heq).symm
    · rintro rfl
      rfl
  · refine iff_of_false ?_ fun h' => h h'.1
    rw [if_neg h]
    by_cases hstart : r.start + off < 2 ^ 64
    · rw [if_pos hstart]
      exact nofun
    · rw [if_neg hstart]
      exact nofun

theorem alignedTailOffset_eq_ok (halign : 0 < align) (hlt : align < 2 ^ 64) : alignedTailOffset b size align = .ok n ↔
      b.len < 2 ^ 64 ∧ size ≤ b.len ∧ n + (b.start + (b.len - size)) % align = b.len - size := by
  have hmod : (b.start + (b.len - size)) % align < 2 ^ 64 := Nat.lt_trans (Nat.mod_lt _ halign) hlt
  unfold alignedTailOffset
  constructor
  · intro h
    obtain ⟨o, ho, hn⟩ := Res.bind_eq_ok.1 h
    have hoff := SafeNum.toU64_eq_ok.1 ho
    obtain ⟨l, s, hl, hs, hle, rfl⟩ := SafeNum.sub_eq_valid.1 hoff
    obtain ⟨hlen, rfl⟩ := SafeNum.ofNat_eq_valid.1 hl
    obtain ⟨-, rfl⟩ := SafeNum.ofNat_eq_valid.1 hs
    rw [hoff, SafeNum.ofNat_of_lt hmod, SafeNum.toU64_eq_ok] at hn
    obtain ⟨_, _, ⟨⟩, ⟨⟩, hrem, rfl⟩ := SafeNum.sub_eq_valid.1 hn
    exact ⟨hlen, hle, by omega⟩
  · rintro ⟨hlen, hle, hn⟩
    have hoff : SafeNum.ofNat b.len - SafeNum.ofNat size = .valid (b.len - size) := by
      rw [SafeNum.ofNat_of_lt hlen, SafeNum.ofNat_of_lt (Nat.lt_of_le_of_lt hle hlen), SafeNum.valid_sub, if_pos hle]
    rw [hoff]
    simp only [SafeNum.toU64_valid, Res.ok_bind]
    rw [SafeNum.ofNat_of_lt hmod, SafeNum.valid_sub, if_pos (by omega), SafeNum.toU64_valid]
    exact congrArg _ (by omega)

theorem alignedTailOffset_ok (halign : 0 < align) (hlt : align < 2 ^ 64) (h : alignedTailOffset b size align = .ok n) :
    n + size ≤ b.len ∧ (b.start + n) % align = 0 := by
  obtain ⟨-, hle, hn⟩ := (alignedTailOffset_eq_ok halign hlt).1 h
  refine ⟨by omega, ?_⟩
  have hstart : b.start + n = b.start + (b.len - size) - (b.start + (b.len - size)) % align := by omega
  rw [hstart]
  exact Nat.sub_mod_eq_zero_of_mod_eq (Nat.mod_mod _ _).symm

theorem splitAlignedTail_ok (halign : 0 < align) (hlt : align < 2 ^ 64)
    (h : splitAlignedTail b size align = .ok (x, y)) :
    ∃ off, x = b.take off ∧ y = b.drop off ∧ off + size ≤ b.len ∧ (b.start + off) % align = 0 := by
  obtain ⟨off, hoff, hsplit⟩ := Res.bind_eq_ok.1 h
  obtain ⟨hfits, haligned⟩ := alignedTailOffset_ok halign hlt hoff
  obtain ⟨-, rfl, rfl⟩ := split_eq_ok.1 hsplit
  exact ⟨off, rfl, rfl, hfits, haligned⟩

def chunksFrom : Nat → List Nat → List Extent
  | _, [] => []
  | start, size :: sizes => ⟨start, size⟩ :: chunksFrom (start + size) sizes

theorem splitChunks_eq_ok {sizes : List Nat} {chunks : List Extent} : splitChunks b sizes = .ok (chunks, x) ↔
      sizes.sum ≤ b.len ∧ chunks = chunksFrom b.start sizes ∧ x = b.drop sizes.sum := by
  induction sizes generalizing b chunks x with
  | nil =>
    rw [splitChunks, Except.ok.injEq, Prod.mk.injEq]
    simp only [List.sum_nil, Nat.zero_le, true_and, chunksFrom, Extent.drop, Nat.add_zero, Nat.sub_zero]
    exact and_congr eq_comm eq_comm
  | cons size sizes ih =>
    rw [splitChunks, List.sum_cons]
    constructor
    · intro h
      obtain ⟨⟨chunk, remains⟩, hsplit, hrest⟩ := Res.bind_eq_ok.1 h
      obtain ⟨hle, rfl, rfl⟩ := splitAtMut_eq_ok.1 hsplit
      obtain ⟨⟨chunks', y⟩, hchunks, hpure⟩ := Res.bind_eq_ok.1 hrest
      obtain ⟨hsum, rfl, rfl⟩ := ih.1 hchunks
      cases hpure
      simp only [Extent.drop] at hsum
      refine ⟨by omega, rfl, ?_⟩
      simp only [Extent.drop, Extent.mk.injEq]
      omega
    · rintro ⟨hle, rfl, rfl⟩
      have hsplit := (splitAtMut_eq_ok (b := b)).2 ⟨(by omega : size ≤ b.len), rfl, rfl⟩
      have hchunks := (ih (b := b.drop size) (x := b.drop (size + sizes.sum))).2
        ⟨by simp only [Extent.drop]; omega, rfl, by simp only [Extent.drop, Extent.mk.injEq]; omega⟩
      rw [hsplit, Res.ok_bind]
      show (splitChunks (b.drop size) sizes >>= _) = _
      rw [hchunks]
      rfl

/-! ## The kernel -/

variable {C : Codecs} {m m' : Content}

theorem relocateKernel_ok {kernel : Bytes} {dst front tail : Extent}
    (h : relocateKernel C kernel dst m = (.ok (front, tail, n), m')) :
    ∃ off d, front = dst.take off ∧ tail = dst.drop off ∧ decompressed C kernel = some d ∧ n = d.length ∧
      off + n ≤ dst.len ∧ (dst.start + off) % kernelAlignment = 0 ∧ (tail.take n).read m' = d ∧ dst.Changes m m' := by
  obtain ⟨size, m₁, hdec, h₁⟩ := bind_run_eq_ok h
  obtain ⟨out, hout, rfl⟩ := focus_inv hdec
  obtain ⟨d, hd, rfl, hle, hlen, htake⟩ := decompressKernel_ok hout
  obtain ⟨off, hoff, h₂⟩ := lift_bind_run_eq_ok h₁
  obtain ⟨hfits, haligned⟩ := alignedTailOffset_ok (by decide) (by decide) hoff
  obtain ⟨_, m₂, hcopy, h₃⟩ := bind_run_eq_ok h₂
  obtain ⟨-, rfl⟩ := copyWithin_eq_ok.1 hcopy
  obtain ⟨⟨front', tail'⟩, hsplit, hpure⟩ := lift_bind_run_eq_ok h₃
  obtain ⟨-, rfl, rfl⟩ := split_eq_ok.1 hsplit
  cases hpure
  rw [Extent.length_read] at hlen hle
  -- The decompressed kernel is at the start of the buffer when it is copied.
  have hdata : (dst.sub ⟨0, d.length⟩).read (store m dst.start out) = d :=
    ( slice_store_prefix m dst.start (d := out) (n := d.length) (by omega)).trans htake
  refine ⟨off, d, rfl, rfl, hd, rfl, hfits, haligned, ?_, ?_⟩
  · rw [hdata]
    exact slice_store _ _ d
  · rw [hdata]
    refine ((Extent.changes_store m dst.start out).mono ?_).trans ((Extent.changes_store _ _ d).mono ?_)
    · exact ⟨Nat.le_refl _, by simp only [Extent.stop]; omega⟩
    · exact ⟨Nat.le_add_right .., by simp only [Extent.stop]; omega⟩

theorem getRange_readAt_ok {bytes : Bytes}
    (h : (lift (getRange b r) >>= readAt : Exec Error Content Bytes) m = (.ok bytes, m')) :
    r.stop ≤ b.len ∧ bytes = (b.sub r).read m ∧ m = m' := by
  obtain ⟨x, hx, hread⟩ := lift_bind_run_eq_ok h
  obtain ⟨hle, rfl⟩ := getRange_eq_ok.1 hx
  cases hread
  exact ⟨hle, rfl, rfl⟩

structure Placed (load : Extent) (out : LoadedImages) : Prop where
  ramdisk_ge : load.start ≤ out.ramdisk.start
  unused_start : out.unused.start = out.ramdisk.stop
  dtb_start : out.dtb.start = out.unused.stop
  kernel_ge : out.dtb.stop ≤ out.kernel.start
  kernel_le : out.kernel.stop ≤ load.stop
  kernel_aligned : out.kernel.start % kernelAlignment = 0
  dtb_aligned : out.dtb.start % fdtAlignment = 0

end Gbl.Android
