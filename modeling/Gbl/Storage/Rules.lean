import Gbl.Storage.Scratch

/-!
# What the device sees, and rules for windows

Two things that the correctness of reads and of writes share: a description of the calls the
library makes (`Access.Proper`, `BlockIo.Ran`), and one proof rule for each way of running code on a
part of the transfer state.
-/

namespace Gbl.Storage

open Lib Lib.Exec

/-! ## Proper calls -/

namespace Access

def IsRead : Access → Prop
  | .read _ _ _ => True
  | .write _ _ _ => False

instance : (a : Access) → Decidable a.IsRead
  | .read _ _ _ => isTrue trivial
  | .write _ _ _ => isFalse id

def Proper (info : BlockInfo) : Access → Prop
  | .read blk addr len => addr % info.alignment = 0 ∧ len % info.blockSize = 0 ∧
      blk * info.blockSize + len ≤ info.total
  | .write blk addr len => addr % info.alignment = 0 ∧ len % info.blockSize = 0 ∧
      blk * info.blockSize + len ≤ info.total

end Access

structure BlockIo.Ran (P : Access → Prop) (io io' : BlockIo) : Prop where
  info : io'.info = io.info
  faults : io'.faults = io.faults
  log : ∃ l, io'.log = io.log ++ l ∧ ∀ a ∈ l, P a

namespace BlockIo.Ran

variable {P P' : Access → Prop} {io io' io'' : BlockIo}

theorem refl (P : Access → Prop) (io : BlockIo) : Ran P io io := ⟨rfl, rfl, [], (List.append_nil _).symm, by simp⟩

theorem trans (h : Ran P io io') (h' : Ran P io' io'') : Ran P io io'' := by
  obtain ⟨l, hl, hP⟩ := h.log
  obtain ⟨l', hl', hP'⟩ := h'.log
  refine ⟨h'.info.trans h.info, h'.faults.trans h.faults, l ++ l', ?_, ?_⟩
  · rw [hl', hl, List.append_assoc]
  · intro a ha
    rcases List.mem_append.mp ha with ha | ha
    · exact hP a ha
    · exact hP' a ha

theorem mono (h : Ran P io io') (hP : ∀ a, P a → P' a) : Ran P' io io' := by
  obtain ⟨l, hl, hlP⟩ := h.log
  exact ⟨h.info, h.faults, l, hl, fun a ha => hP a (hlP a ha)⟩

theorem faultFree (h : Ran P io io') (hf : io.FaultFree) : io'.FaultFree := fun n => by
  rw [h.faults]; exact hf n

end BlockIo.Ran

/-! ## Checks -/

variable {v a b : Nat}

theorem isAligned_ofNat (hv : v < 2 ^ 64) (ha : 0 < a) (ha' : a < 2 ^ 64) :
    isAligned (SafeNum.ofNat v) (SafeNum.ofNat a) = .ok (v % a == 0) := by
  unfold isAligned
  rw [SafeNum.ofNat_of_lt hv, SafeNum.ofNat_of_lt ha', SafeNum.valid_mod, if_neg (by omega)]
  rfl

theorem debugAssert_isAligned (hv : v < 2 ^ 64) (ha : 0 < a) (ha' : a < 2 ^ 64) (h : v % a = 0) :
    (do debugAssert (← isAligned (SafeNum.ofNat v) (SafeNum.ofNat a))) = .ok () := by
  rw [isAligned_ofNat hv ha ha', h]
  rfl

theorem roundDown_toU64 (ha : a < 2 ^ 64) (hb : 0 < b) (hb' : b < 2 ^ 64) :
    (SafeNum.roundDown (a : SafeNum) b).toU64 = .ok (a - a % b) := by
  rw [SafeNum.ofNat_of_lt ha, SafeNum.ofNat_of_lt hb', SafeNum.roundDown_valid _ hb]
  rfl

theorem add_toU64 (h : a + b < 2 ^ 64) : ((a : SafeNum) + (b : SafeNum)).toU64 = .ok (a + b) := by
  rw [SafeNum.ofNat_of_lt (show a < 2 ^ 64 by omega), SafeNum.ofNat_of_lt (show b < 2 ^ 64 by omega),
    SafeNum.valid_add, SafeNum.toU64_ofNat_of_lt h]

theorem add_eq_error (h : 2 ^ 64 ≤ a + b) : (a : SafeNum) + (b : SafeNum) = .error := by
  rcases Nat.lt_or_ge a (2 ^ 64) with ha | ha
  · rcases Nat.lt_or_ge b (2 ^ 64) with hb | hb
    · rw [SafeNum.ofNat_of_lt ha, SafeNum.ofNat_of_lt hb, SafeNum.valid_add, SafeNum.ofNat_of_ge h]
    · rw [SafeNum.ofNat_of_ge hb, SafeNum.add_error]
  · rw [SafeNum.ofNat_of_ge ha, SafeNum.error_add]

theorem sub_toU64 (ha : a < 2 ^ 64) (h : b ≤ a) : ((a : SafeNum) - (b : SafeNum)).toU64 = .ok (a - b) := by
  rw [SafeNum.ofNat_of_lt ha, SafeNum.ofNat_of_lt (show b < 2 ^ 64 by omega), SafeNum.valid_sub, if_pos h]
  rfl

theorem wp_lift_overflow_bind {σ β : Type} {x : SafeNum} {f : Nat → Exec Error σ β} {s : σ}
    {Q : Result β → σ → Prop} (hx : x = .error) (h : Q (err .arithmeticOverflow) s) :
    wp (Exec.lift x.toU64 >>= f) s Q := by
  subst hx; exact h

theorem roundUp_eq (hb : 0 < b) (h : a + b < 2 ^ 64) : SafeNum.roundUp (a : SafeNum) b = .valid (a + gap a b) := by
  rw [SafeNum.ofNat_of_lt (show a < 2 ^ 64 by omega), SafeNum.ofNat_of_lt (show b < 2 ^ 64 by omega),
    SafeNum.roundUp_valid hb h, add_pred_sub_mod _ hb]

theorem roundUp_toU64 (hb : 0 < b) (h : a + b < 2 ^ 64) :
    (SafeNum.roundUp (a : SafeNum) b).toU64 = .ok (a + gap a b) := by
  rw [roundUp_eq hb h]
  rfl

theorem roundUp_eq_error (h : 2 ^ 64 ≤ a + b) : SafeNum.roundUp (a : SafeNum) b = .error := by
  unfold SafeNum.roundUp
  rw [add_eq_error h]
  rfl

theorem roundUp_sub_toU64 (hb : 0 < b) (h : a + b < 2 ^ 64) :
    (SafeNum.roundUp (a : SafeNum) b - (a : SafeNum)).toU64 = .ok (gap a b) := by
  rw [roundUp_eq hb h, SafeNum.ofNat_of_lt (show a < 2 ^ 64 by omega), SafeNum.valid_sub,
    if_pos (Nat.le_add_right _ _), Nat.add_sub_cancel_left]
  rfl

structure Buf.InMemory (b : Buf) : Prop where
  addr_lt : b.addr < 2 ^ 64
  len_lt : b.len < 2 ^ 64
  end_le : b.addr + b.len ≤ 2 ^ 64

theorem Buf.InMemory.sub {b : Buf} (h : b.InMemory) {i n : Nat} (hn : i + n ≤ b.len)
    (hi : b.addr + i < 2 ^ 64) : (b.sub i n).InMemory := by
  have hlen := Buf.sub_len b hn
  have hend := h.end_le
  have hlt := h.len_lt
  exact ⟨hi, by rw [hlen]; omega, by rw [hlen, sub_addr]; omega⟩

theorem Buf.InMemory.congr {b b' : Buf} (h : b.InMemory) (ha : b'.addr = b.addr)
    (hl : b'.len = b.len) : b'.InMemory := by
  refine ⟨?_, ?_, ?_⟩
  · rw [ha]; exact h.addr_lt
  · rw [hl]; exact h.len_lt
  · rw [ha, hl]; exact h.end_le

structure Buf.Ready (info : BlockInfo) (b : Buf) : Prop extends b.InMemory where
  pos : 0 < info.alignment
  aligned : b.addr % info.alignment = 0

theorem checkRange_cases {info : BlockInfo} {offset : Nat} {b : Buf} (hb : b.Ready info)
    (hbs : 0 < info.blockSize) (ho : offset < 2 ^ 64) (hoff : offset % info.blockSize = 0)
    (hlen : b.len % info.blockSize = 0) :
    (offset + b.len ≤ info.total ∧ checkRange info offset b.toSlice = .ok (offset / info.blockSize)) ∨
      (¬ offset + b.len ≤ info.total ∧ ∃ e, checkRange info offset b.toSlice = err e) := by
  have hbs' := info.blockSize_lt
  have hq : (offset + b.len ≤ info.total) ↔ offset / info.blockSize + b.len / info.blockSize ≤ info.numBlocks := by
    rw [BlockInfo.total, ← Nat.mul_le_mul_left_iff (k := info.blockSize) (m := info.numBlocks) hbs,
      Nat.mul_add, Nat.mul_div_cancel' (Nat.dvd_of_mod_eq_zero hoff),
      Nat.mul_div_cancel' (Nat.dvd_of_mod_eq_zero hlen)]
  have heq : checkRange info offset b.toSlice =
      (SafeNum.ofNat (offset / info.blockSize + b.len / info.blockSize)).toU64 >>= fun e =>
        if e ≤ info.numBlocks then .ok (offset / info.blockSize) else err (.badIndex e) := by
    unfold checkRange isBufferAligned
    rw [isAligned_ofNat ho hbs hbs', hoff]
    simp only [Buf.toSlice_len, Buf.toSlice_addr]
    rw [isAligned_ofNat hb.len_lt hbs hbs', hlen, isAligned_ofNat hb.addr_lt hb.pos info.alignment_lt, hb.aligned]
    rw [SafeNum.ofNat_of_lt ho, SafeNum.ofNat_of_lt hb.len_lt, SafeNum.ofNat_of_lt hbs',
      SafeNum.valid_div, SafeNum.valid_div, if_neg (by omega), if_neg (by omega)]
    rfl
  rw [hq, heq]
  rcases Nat.lt_or_ge (offset / info.blockSize + b.len / info.blockSize) (2 ^ 64) with hlt | hge
  · rw [SafeNum.toU64_ofNat_of_lt hlt, Res.ok_bind]
    split
    · next h => exact Or.inl ⟨h, rfl⟩
    · next h => exact Or.inr ⟨h, _, rfl⟩
  · have := info.numBlocks_lt
    refine Or.inr ⟨by omega, .arithmeticOverflow, ?_⟩
    rw [SafeNum.ofNat_of_ge hge]
    rfl

theorem checkRange_bind_cases {io : BlockIo} {offset : Nat} {b : Buf}
    (op : Nat → Exec Error (BlockIo × Buf) Unit) (hb : b.Ready io.info) (hbs : 0 < io.info.blockSize)
    (ho : offset < 2 ^ 64) (hoff : offset % io.info.blockSize = 0) (hlen : b.len % io.info.blockSize = 0) :
    let run := (do
      let p ← Exec.get
      let blkOffset ← Exec.lift (checkRange p.1.info offset p.2.toSlice)
      op blkOffset : Exec Error (BlockIo × Buf) Unit) (io, b)
    (offset + b.len ≤ io.info.total ∧ run = op (offset / io.info.blockSize) (io, b)) ∨
      (¬ offset + b.len ≤ io.info.total ∧ ∃ e, run = (err e, io, b)) := by
  rcases checkRange_cases hb hbs ho hoff hlen with ⟨hin, hck⟩ | ⟨hout, e, hck⟩
  · exact Or.inl ⟨hin, (bind_run_ok (get_run _)).trans (bind_run_ok (lift_run_ok hck _))⟩
  · refine Or.inr ⟨hout, e, (bind_run_ok (get_run _)).trans (bind_run_error ?_)⟩
    rw [lift_run, hck]

/-! ## Rules for windows -/

section Windows

variable {α : Type} {s : Xfer} {Q : Result α → Xfer → Prop}

theorem wp_onBuf {m : Exec Error (BlockIo × Buf) α}
    (h : wp m (s.io, s.buf) fun r p => Q r { s with io := p.1, buf := p.2 }) :
    wp (onBuf m) s Q := h

variable {m : Exec Error Xfer α} {n lo dst src : Nat}

theorem wp_onScratch {m : Exec Error (BlockIo × Buf) α} (h : wp m (s.io, s.scratch.sub 0 n) fun r p =>
      Q r { s with io := p.1, scratch := s.scratch.patch 0 p.2.bytes }) :
    wp (onScratch n m) s Q := h

theorem wp_window {stop : Stop Error} {hi : Nat} (hlo : lo ≤ hi) (hhi : hi ≤ s.buf.len)
    (h : wp m { s with buf := s.buf.sub lo (hi - lo) } fun r t =>
      Q r { t with buf := s.buf.patch lo t.buf.bytes }) : wp (window stop lo hi m) s Q := by
  unfold window
  exact wp_get_bind (wp_lift_ok_bind (if_pos ⟨hlo, hhi⟩) h)

theorem wp_withScratch {sl : Slice}
    (h : wp m { s with scratch := s.scratch.sub (sl.addr - s.scratch.addr) sl.len } fun r t =>
      Q r { t with scratch := s.scratch.patch (sl.addr - s.scratch.addr) t.scratch.bytes }) :
    wp (withScratch sl m) s Q := h

theorem wp_indexScratch_bind {β : Type} {f : Unit → Exec Error Xfer β} {Q : Result β → Xfer → Prop}
    (hn : n ≤ s.scratch.len) (h : wp (f ()) s Q) : wp (indexScratch n >>= f) s Q :=
  wp_bind_of_run_ok ((bind_run_ok (get_run _)).trans (lift_run_ok (by simp [hn]) s)) h

theorem copyFromScratch_run (hd : dst + n ≤ s.buf.len) (hs : src + n ≤ s.scratch.len) : copyFromScratch dst src n s =
      (.ok (), { s with buf := s.buf.patch dst ((s.scratch.bytes.drop src).take n) }) :=
  (bind_run_ok (get_run _)).trans (assert_bind_run_true (by simp [hd, hs]))

theorem copyToScratch_run (hd : dst + n ≤ s.scratch.len) (hs : src + n ≤ s.buf.len) : copyToScratch dst src n s =
      (.ok (), { s with scratch := s.scratch.patch dst ((s.buf.bytes.drop src).take n) }) :=
  (bind_run_ok (get_run _)).trans (assert_bind_run_true (by simp [hd, hs]))

theorem copyWithin_run (hl : lo + n ≤ s.buf.len) (hd : dst + n ≤ s.buf.len) :
    copyWithin lo n dst s = (.ok (), { s with buf := s.buf.copyWithin lo n dst }) :=
  (bind_run_ok (get_run _)).trans (assert_bind_run_true (by simp [hl, hd]))

end Windows

end Gbl.Storage
