import Gbl.Storage.Disk

/-!
# `Disk::fill`

`fill` writes one and the same piece of the caller's buffer again and again, each time at the offset behind the last
write.
-/

namespace Gbl.Storage

open Lib Lib.Exec

namespace Disk

variable {d d' : Disk} {b : Buf} {addr offset size sz i n : Nat} {val : UInt8}

/-! ## The loop -/

def Covers (d : Disk) (addr offset size sz : Nat) : Prop :=
  ∀ k, k * sz < size → d.Reaches addr (offset + k * sz) (min sz (size - k * sz))

theorem covers_zero (d : Disk) (addr offset sz : Nat) : d.Covers addr offset 0 sz :=
  fun _ hk => absurd hk (Nat.not_lt_zero _)

theorem covers_step (hsize : 0 < size) : d.Covers addr offset size sz ↔ d.Reaches addr offset (min sz size) ∧
      d.Covers addr (offset + min sz size) (size - min sz size) sz := by
  constructor
  · intro h
    refine ⟨by simpa using h 0 (by simpa using hsize), fun k hk => ?_⟩
    have hle : sz ≤ size := by
      by_contra hlt
      have : min sz size = size := by omega
      omega
    have hnext := h (k + 1) (by rw [Nat.add_mul]; omega)
    rw [Nat.add_mul, Nat.one_mul] at hnext
    rw [Nat.min_eq_left hle, Nat.add_assoc, Nat.add_comm sz, Nat.sub_sub, Nat.add_comm sz]
    exact hnext
  · intro h k hk
    cases k with
    | zero => simpa using h.1
    | succ k =>
      rw [Nat.add_mul, Nat.one_mul] at hk ⊢
      have hle : sz ≤ size := by omega
      have hnext := h.2 k (by omega)
      rw [Nat.min_eq_left hle, Nat.add_assoc, Nat.add_comm sz, Nat.sub_sub, Nat.add_comm sz] at hnext
      exact hnext

theorem Ran.covers_iff {P : Access → Prop} (h : Ran P d d') :
    d'.Covers addr offset size sz ↔ d.Covers addr offset size sz :=
  forall_congr' fun _ => imp_congr_right fun _ => h.reaches_iff _ _ _

def CanFill (d : Disk) (addr offset size sz : Nat) : Prop :=
  size = 0 ∨ 0 < sz ∧ d.Covers addr offset size sz

structure FillPost (can : Prop) (offset size : Nat) (val : UInt8) (d : Disk) (r : Result Unit) (d' : Disk) :
    Prop where
  ran : d.Ran (fun a => a.Proper d.io.info) d'
  torn : Torn d.io.content offset (List.replicate size val) d'.io.content
  stored : r = .ok () → can ∧ d'.io.content = store d.io.content offset (List.replicate size val)
  succeeds : d.io.FaultFree → can → r = .ok ()

variable {can : Prop} {e : Stop Error} {r : Result Unit} {stop fuel : Nat} {d₁ : Disk} {info : BlockInfo}
  {part s : Slice}

theorem FillPost.refused (h : ¬ can) : FillPost can offset size val d (.error e) d :=
  ⟨.refl _ _, .refl _ _ _, fun hr => absurd hr Res.error_ne_ok, fun _ hcan => absurd hcan h⟩

theorem FillPost.congr {can' : Prop} (h : FillPost can offset size val d r d') (hiff : can ↔ can') :
    FillPost can' offset size val d r d' :=
  propext hiff ▸ h

theorem onPart_write_wp (hd : d.scratch.InMemory) (hb : b.InMemory) (hn : i + n ≤ b.len)
    (hi : b.addr + i < 2 ^ 64) (ho : offset < 2 ^ 64) :
    wp (onPart i n (write offset)) (d, b) fun r p =>
      p.2 = b ∧ WritePost offset d (b.sub i n) r p.1 (b.sub i n) := by
  unfold onPart
  apply wp_get_bind
  apply wp_assert_bind (by simpa using hn)
  apply wp_zoom
  refine wp_mono (write_wp hd (hb.sub hn hi) ho) ?_
  intro r p hpost
  have hbuf := hpost.buf
  refine ⟨?_, ?_⟩
  · rw [hbuf]
    show Buf.mk b.addr _ = b
    have hback : splice b.bytes i ((b.bytes.drop i).take n) = b.bytes := splice_take_drop _ _ _ hn
    exact congrArg (Buf.mk b.addr) hback
  · rw [hbuf] at hpost
    exact hpost

theorem fillLoop_stuck (hd : d.scratch.InMemory) (hb : b.InMemory) (hi : b.addr + i < 2 ^ 64)
    (hlen : i ≤ b.len) (hlt : offset < stop) (hstop : stop < 2 ^ 64) :
    wp (fillLoop i 0 stop fuel offset) (d, b) fun r p =>
      p.2 = b ∧ r ≠ .ok () ∧ d.Ran (fun a => a.Proper d.io.info) p.1 ∧
        p.1.io.content = d.io.content := by
  induction fuel generalizing d with
  | zero => exact wp_lift ⟨rfl, Res.error_ne_ok, .refl _ _, rfl⟩
  | succ fuel ih =>
    rw [fillLoop, if_pos hlt]
    have hnil : (b.sub i (min 0 (stop - offset))).bytes = [] := by simp [Buf.sub]
    refine wp_bind (onPart_write_wp hd hb (by omega) hi (by omega)) ?_ ?_
    · rintro _ ⟨d₁, _⟩ ⟨rfl, hpost⟩
      have hsame : d₁.io.content = d.io.content := by
        rw [(hpost.stored rfl).2, hnil, store_nil]
      rw [Nat.zero_min, Nat.add_zero]
      refine wp_mono (ih (hpost.ran.inMemory hd)) ?_
      rintro r p ⟨hbuf, hne, hran, hcontent⟩
      refine ⟨hbuf, hne, hpost.ran.trans ?_, hcontent.trans hsame⟩
      rw [hpost.ran.io.info] at hran
      exact hran
    · rintro e ⟨d₁, _⟩ ⟨rfl, hpost⟩
      have htorn := hpost.torn
      rw [hnil] at htorn
      refine ⟨rfl, Res.error_ne_ok, hpost.ran, ?_⟩
      funext j
      exact htorn.eq_of_not_mem (by simp)

theorem FillPost.of_error (hsize : 0 < size) (hran : d.Ran (fun a => a.Proper d.io.info) d₁)
    (htorn : Torn d.io.content offset (List.replicate (min sz size) val) d₁.io.content)
    (hsucc : d.io.FaultFree → ¬ d.Reaches addr offset (min sz size)) :
    FillPost (d.CanFill addr offset size sz) offset size val d (.error e) d₁ where
  ran := hran
  torn := by
    have hsplit : List.replicate size val =
        List.replicate (min sz size) val ++ List.replicate (size - min sz size) val := by
      rw [List.replicate_append_replicate]
      congr 1
      omega
    rw [hsplit]
    exact htorn.append_left _
  stored h := absurd h Res.error_ne_ok
  succeeds hff hcan := by
    rcases hcan with hzero | ⟨-, hcov⟩
    · omega
    · exact absurd ((covers_step hsize).mp hcov).1 (hsucc hff)

theorem FillPost.step {d₂ : Disk} (hsize : 0 < size) (hsz : 0 < sz)
    (hran : d.Ran (fun a => a.Proper d.io.info) d₁) (hreach : d.Reaches addr offset (min sz size))
    (hstored : d₁.io.content = store d.io.content offset (List.replicate (min sz size) val))
    (h : FillPost (d₁.CanFill addr (offset + min sz size) (size - min sz size) sz) (offset + min sz size)
      (size - min sz size) val d₁ r d₂) :
    FillPost (d.CanFill addr offset size sz) offset size val d r d₂ := by
  have hsplit : List.replicate size val =
      List.replicate (min sz size) val ++ List.replicate (size - min sz size) val := by
    rw [List.replicate_append_replicate]
    congr 1
    omega
  have hlen : (List.replicate (min sz size) val).length = min sz size := List.length_replicate
  have hcan : d₁.CanFill addr (offset + min sz size) (size - min sz size) sz ↔
      d.CanFill addr offset size sz := by
    unfold CanFill
    rw [hran.covers_iff, covers_step hsize]
    constructor
    · rintro (hzero | ⟨-, hcov⟩)
      · refine .inr ⟨hsz, hreach, ?_⟩
        rw [hzero]
        exact covers_zero _ _ _ _
      · exact .inr ⟨hsz, hreach, hcov⟩
    · rintro (hzero | ⟨-, -, hcov⟩)
      · omega
      · exact .inr ⟨hsz, hcov⟩
  refine ⟨hran.trans ?_, ?_, ?_, ?_⟩
  · have := h.ran
    rw [hran.io.info] at this
    exact this
  · have htorn := h.torn
    rw [hsplit]
    refine Torn.store_then ?_
    rw [hlen, ← hstored]
    exact htorn
  · intro hr
    obtain ⟨hc, hcontent⟩ := h.stored hr
    refine ⟨hcan.mp hc, ?_⟩
    rw [hcontent, hstored, hsplit, store_append, hlen]
  · intro hff hc
    exact h.succeeds (hran.io.faultFree hff) (hcan.mpr hc)

theorem fillLoop_wp (hd : d.scratch.InMemory) (hb : b.InMemory) (hi : b.addr + i < 2 ^ 64)
    (hlen : i + sz ≤ b.len) (hval : (b.bytes.drop i).take sz = List.replicate sz val) (hstop : stop < 2 ^ 64)
    (hfuel : stop - offset < fuel) (hsz : 0 < sz) :
    wp (fillLoop i sz stop fuel offset) (d, b) fun r p =>
      p.2 = b ∧ FillPost (d.CanFill (b.addr + i) offset (stop - offset) sz) offset (stop - offset) val d r
        p.1 := by
  induction fuel generalizing d offset with
  | zero => omega
  | succ fuel ih =>
    rw [fillLoop]
    by_cases hlt : offset < stop
    · rw [if_pos hlt]
      have hmin : min sz (stop - offset) ≤ sz := Nat.min_le_left _ _
      have hpiece : (b.sub i (min sz (stop - offset))).bytes = List.replicate (min sz (stop - offset)) val := by
        have htake := congrArg (List.take (min sz (stop - offset))) hval
        rw [List.take_take, Nat.min_eq_left hmin, List.take_replicate, Nat.min_eq_left hmin] at htake
        exact htake
      have hpieceLen : (b.sub i (min sz (stop - offset))).len = min sz (stop - offset) := Buf.sub_len b (by omega)
      refine wp_bind (onPart_write_wp hd hb (by omega) hi (by omega)) ?_ ?_
      · rintro _ ⟨d₁, _⟩ ⟨rfl, hpost⟩
        obtain ⟨hreach, hcontent⟩ := hpost.stored rfl
        rw [hpieceLen, Buf.sub_addr] at hreach
        rw [hpiece] at hcontent
        have hrest : stop - (offset + min sz (stop - offset)) < fuel := by omega
        refine wp_mono (ih (hpost.ran.inMemory hd) hrest) ?_
        rintro r p ⟨hbuf, hfill⟩
        rw [Nat.sub_add_eq] at hfill
        exact ⟨hbuf, FillPost.step (by omega) hsz hpost.ran hreach hcontent hfill⟩
      · rintro e ⟨d₁, _⟩ ⟨rfl, hpost⟩
        have htorn := hpost.torn
        rw [hpiece] at htorn
        refine ⟨rfl, FillPost.of_error (by omega) hpost.ran htorn fun hff hreach => ?_⟩
        refine absurd (hpost.succeeds hff ?_) Res.error_ne_ok
        rw [hpieceLen]
        exact hreach
    · rw [if_neg hlt, Nat.sub_eq_zero_of_le (Nat.le_of_not_lt hlt)]
      refine wp_pure ⟨rfl, .refl _ _, .refl _ _ _, fun _ => ⟨.inl rfl, ?_⟩, fun _ _ => rfl⟩
      rw [List.replicate_zero, store_nil]

/-! ## The piece -/

theorem fillPart_eq (info : BlockInfo) (s : Slice) : fillPart info s =
      if 0 < info.alignment ∧ s.addr + info.alignment < 2 ^ 64 ∧ gap s.addr info.alignment ≤ s.len then
        if info.blockSize = 0 then panic
        else .ok ⟨s.addr + gap s.addr info.alignment,
          if 0 < (s.len - gap s.addr info.alignment) / info.blockSize then
            (s.len - gap s.addr info.alignment) / info.blockSize * info.blockSize
          else s.len - gap s.addr info.alignment⟩
      else .ok s := by
  unfold fillPart
  rw [alignedSubslice_eq s info.alignment_lt]
  grind

theorem fillPart_spec (h : fillPart info b.toSlice = .ok part) (hb : b.InMemory) :
    ∃ i, part.addr = b.addr + i ∧ i + part.len ≤ b.len ∧ b.addr + i < 2 ^ 64 := by
  rw [fillPart_eq, Buf.toSlice_addr, Buf.toSlice_len] at h
  by_cases hal : 0 < info.alignment ∧ b.addr + info.alignment < 2 ^ 64 ∧ gap b.addr info.alignment ≤ b.len
  · rw [if_pos hal] at h
    by_cases hbs : info.blockSize = 0
    · rw [if_pos hbs] at h
      cases h
    · rw [if_neg hbs] at h
      obtain rfl := (Except.ok.inj h).symm
      have hgap := gap_lt b.addr hal.1
      refine ⟨gap b.addr info.alignment, rfl, ?_, by omega⟩
      have hblocks := Nat.div_mul_le_self (b.len - gap b.addr info.alignment) info.blockSize
      dsimp only
      split <;> omega
  · rw [if_neg hal] at h
    obtain rfl := (Except.ok.inj h).symm
    exact ⟨0, rfl, by simp, hb.addr_lt⟩

def Fillable (d : Disk) (s : Slice) (offset size : Nat) : Prop :=
  s.len ≠ 0 ∧ offset + size < 2 ^ 64 ∧ ∃ part, fillPart d.io.info s = .ok part ∧
    d.CanFill part.addr offset size (min size part.len)

theorem fill_wp (val : UInt8) (hd : d.scratch.InMemory) (hb : b.InMemory) (ho : offset < 2 ^ 64) (hs : size < 2 ^ 64) :
    wp (fill offset size val) (d, b) fun r p =>
      p.2.addr = b.addr ∧ p.2.len = b.len ∧ FillPost (d.Fillable b.toSlice offset size) offset size val d r p.1 := by
  unfold fill
  apply wp_get_bind
  by_cases hempty : b.len = 0
  · rw [if_pos hempty]
    exact wp_lift ⟨rfl, rfl, .refused fun h => h.1 hempty⟩
  rw [if_neg hempty]
  refine wp_lift_bind (fun part hpart => ?_) (fun e he => ⟨rfl, rfl, .refused ?_⟩)
  swap
  · rintro ⟨-, -, part, hpart, -⟩
    exact Res.error_ne_ok (he.symm.trans hpart)
  have hpart : fillPart d.io.info b.toSlice = .ok part := hpart
  obtain ⟨i, haddr, hlen, hi⟩ := fillPart_spec hpart hb
  have hoff : part.addr - b.addr = i := by omega
  have hsum : ((offset : SafeNum) + size).toU64 =
      if offset + size < 2 ^ 64 then .ok (offset + size) else err .arithmeticOverflow := by
    rw [SafeNum.ofNat_of_lt ho, SafeNum.ofNat_of_lt hs, SafeNum.valid_add]
    split
    · next h => exact SafeNum.toU64_ofNat_of_lt h
    · next h => rw [SafeNum.ofNat_of_ge (by omega), SafeNum.toU64_error]
  dsimp only
  rw [hoff, hsum]
  set sz := min size part.len with hsz
  have hfit : i + (List.replicate sz val).length ≤ b.len := by
    rw [List.length_replicate]
    omega
  have hb₁len : (b.patch i (List.replicate sz val)).len = b.len := Buf.patch_len b hfit
  have hb₁ : (b.patch i (List.replicate sz val)).InMemory := hb.congr rfl hb₁len
  have hpiece : i + sz ≤ (b.patch i (List.replicate sz val)).len := by omega
  apply wp_modify_bind
  by_cases hend : offset + size < 2 ^ 64
  swap
  · rw [if_neg hend]
    exact ⟨rfl, hb₁len, .refused fun h => hend h.2.1⟩
  rw [if_pos hend]
  refine wp_lift_ok_bind rfl ?_
  have hcan : d.CanFill (b.addr + i) offset size sz ↔ d.Fillable b.toSlice offset size := by
    unfold Fillable
    rw [hpart]
    constructor
    · intro h
      exact ⟨hempty, hend, part, rfl, haddr ▸ h⟩
    · rintro ⟨-, -, part', hpart', h⟩
      obtain rfl := Except.ok.inj hpart'
      exact haddr ▸ h
  rcases Nat.eq_zero_or_pos sz with hzero | hpos
  · rcases Nat.eq_zero_or_pos size with rfl | hsize
    · -- nothing to fill
      rw [fillLoop, if_neg (by omega)]
      refine wp_pure ⟨rfl, hb₁len, .refl _ _, .refl _ _ _, fun _ => ⟨hcan.mp (.inl rfl), ?_⟩, fun _ _ => rfl⟩
      rw [List.replicate_zero, store_nil]
    · rw [hzero] at hb₁ hb₁len hpiece ⊢
      refine wp_mono (fillLoop_stuck hd hb₁ hi hpiece (by omega) hend) ?_
      rintro r p ⟨hbuf, hne, hran, hcontent⟩
      refine ⟨by rw [hbuf]; rfl, by rw [hbuf, hb₁len], hran, ?_, fun hr => absurd hr hne, fun _ hc => ?_⟩
      · rw [hcontent]
        exact .refl _ _ _
      · rcases hcan.mpr hc with h | ⟨h, -⟩
        · omega
        · omega
  · have hval : (((b.patch i (List.replicate sz val)).bytes).drop i).take sz = List.replicate sz val := by
      have := take_drop_splice hfit
      rwa [List.length_replicate] at this
    refine wp_mono (fillLoop_wp hd hb₁ hi hpiece hval hend (by omega) hpos) ?_
    rintro r p ⟨hbuf, hfill⟩
    rw [Nat.add_sub_cancel_left] at hfill
    exact ⟨by rw [hbuf]; rfl, by rw [hbuf, hb₁len], hfill.congr hcan⟩

/-! ## On a device with room for one more block -/

structure Usable (d : Disk) : Prop where
  splits : d.Splits
  blockSize_pos : 0 < d.io.info.blockSize
  geometry : (d.io.info.numBlocks + 1) * d.io.info.blockSize ≤ 2 ^ 64

theorem Usable.alignment_pos (h : d.Usable) : 0 < d.io.info.alignment := by
  obtain ⟨parts, hparts⟩ := h.splits
  exact ((splitScratch_eq_ok_iff _ _ _).mp hparts).1.1

theorem Usable.total_lt (h : d.Usable) : d.io.info.total < 2 ^ 64 := by
  have hgeom := h.geometry
  have hpos := h.blockSize_pos
  rw [Nat.add_mul, Nat.one_mul, Nat.mul_comm] at hgeom
  unfold BlockInfo.total
  omega

theorem Usable.reaches (h : d.Usable) {len : Nat} (hlen : 0 < len) (hin : offset + len ≤ d.io.info.total)
    (haddr : addr % d.io.info.alignment = 0 ∨ addr + d.io.info.alignment < 2 ^ 64) :
    d.Reaches addr offset len :=
  ⟨h.splits, (BlockInfo.fits_iff hlen h.alignment_pos h.geometry).mpr ⟨hin, haddr⟩⟩

theorem Usable.canFill (h : d.Usable) (hsz : 0 < sz) (hin : offset + size ≤ d.io.info.total)
    (haddr : addr % d.io.info.alignment = 0 ∨ addr + d.io.info.alignment < 2 ^ 64) :
    d.CanFill addr offset size sz := by
  refine .inr ⟨hsz, fun k hk => h.reaches ?_ ?_ haddr⟩
  · omega
  · omega

theorem exists_fillPart (hbs : 0 < info.blockSize) (hal : 0 < info.alignment) (hne : s.len ≠ 0)
    (haddr : s.addr + info.alignment < 2 ^ 64) :
    ∃ part, fillPart info s = .ok part ∧ (part.len = 0 ↔ s.len = gap s.addr info.alignment) ∧
      (part.addr % info.alignment = 0 ∨ part.addr + info.alignment < 2 ^ 64) := by
  rw [fillPart_eq]
  by_cases hgap : gap s.addr info.alignment ≤ s.len
  · rw [if_pos ⟨hal, haddr, hgap⟩, if_neg (by omega)]
    refine ⟨_, rfl, ?_, .inl (add_gap_mod _ hal)⟩
    dsimp only
    split
    · next hpos =>
      have hmul := Nat.mul_pos hpos hbs
      have hle := Nat.div_mul_le_self (s.len - gap s.addr info.alignment) info.blockSize
      omega
    · omega
  · rw [if_neg (by omega)]
    exact ⟨s, rfl, by omega, .inr haddr⟩

theorem Usable.fillable_iff (h : d.Usable) (hne : s.len ≠ 0) (haddr : s.addr + d.io.info.alignment < 2 ^ 64)
    (hin : offset + size ≤ d.io.info.total) :
    d.Fillable s offset size ↔ size = 0 ∨ s.len ≠ gap s.addr d.io.info.alignment := by
  have htotal := h.total_lt
  obtain ⟨part, hpart, hempty, halign⟩ := exists_fillPart h.blockSize_pos h.alignment_pos hne haddr
  constructor
  · rintro ⟨-, -, part', hpart', hcan⟩
    obtain rfl := Except.ok.inj (hpart.symm.trans hpart')
    rcases hcan with hzero | ⟨hpos, -⟩
    · exact .inl hzero
    · refine .inr fun hlen => ?_
      have := hempty.mpr hlen
      omega
  · intro hcase
    refine ⟨hne, by omega, part, hpart, ?_⟩
    by_cases hzero : size = 0
    · exact .inl hzero
    · have hlen : part.len ≠ 0 := fun h0 => (hcase.resolve_left hzero) (hempty.mp h0)
      exact h.canFill (by omega) hin halign

/-! ## Termination -/

theorem alignedSubslice_ne_hang (s : Slice) (alignment : Nat) : alignedSubslice s alignment ≠ .error .hang := by
  refine Res.bind_ne_hang (SafeNum.toU64_ne_hang _) ?_
  intro n
  split
  · exact nofun
  · exact nofun

theorem splitScratch_ne_hang (info : BlockInfo) (s : Slice) : splitScratch info s ≠ .error .hang := by
  refine Res.bind_ne_hang (alignedSubslice_ne_hang _ _) ?_
  intro aligned
  refine Res.bind_ne_hang (SafeNum.toU64_ne_hang _) ?_
  intro mid
  split
  · refine Res.bind_ne_hang (alignedSubslice_ne_hang _ _) ?_
    intro block
    split
    · exact nofun
    · exact nofun
  · exact nofun

theorem write_ne_hang (hd : d.scratch.InMemory) (hb : b.InMemory) (ho : offset < 2 ^ 64) :
    (write offset (d, b)).1 ≠ .error .hang := by
  intro hhang
  by_cases hs : d.Splits
  · have hret := (write_wp hd hb ho).returns hs
    rw [hhang] at hret
    exact hret
  · cases hsplit : splitScratch d.io.info d.scratch.toSlice with
    | ok parts => exact hs ⟨parts, hsplit⟩
    | error e =>
      unfold write writeAsync at hhang
      rw [transfer_of_not_splits hsplit] at hhang
      cases hhang
      exact splitScratch_ne_hang _ _ hsplit

theorem fillLoop_ne_hang (hd : d.scratch.InMemory) (hb : b.InMemory) (hi : b.addr + i < 2 ^ 64)
    (hlen : i + sz ≤ b.len) (hstop : stop < 2 ^ 64) (hfuel : stop - offset < fuel) (hsz : 0 < sz) :
    (fillLoop i sz stop fuel offset (d, b)).1 ≠ .error .hang := by
  induction fuel generalizing d offset with
  | zero => omega
  | succ fuel ih =>
    rw [fillLoop]
    by_cases hlt : offset < stop
    · rw [if_pos hlt]
      have hpiece : i + min sz (stop - offset) ≤ b.len := by omega
      have hwp := onPart_write_wp (d := d) hd hb hpiece hi (show offset < 2 ^ 64 by omega)
      have hends : (onPart i (min sz (stop - offset)) (write offset) (d, b)).1 ≠ .error .hang := by
        have hrun : (onPart i (min sz (stop - offset)) (write offset) (d, b)).1 =
            (write offset (d, b.sub i (min sz (stop - offset)))).1 := by
          unfold onPart
          rw [bind_run_ok (get_run _), assert_bind_run_true (by simpa using hpiece)]
          rfl
        rw [hrun]
        exact write_ne_hang hd (hb.sub hpiece hi) (by omega)
      rcases hrun : onPart i (min sz (stop - offset)) (write offset) (d, b) with ⟨e | _, d₁, b₁⟩
      · rw [bind_run_error hrun]
        rw [hrun] at hends
        exact hends
      · unfold wp at hwp
        rw [hrun] at hwp
        obtain ⟨rfl, hpost⟩ := hwp
        rw [bind_run_ok hrun]
        exact ih (hpost.ran.inMemory hd) (by omega)
    · rw [if_neg hlt]
      exact nofun

def UsedUp (info : BlockInfo) (s : Slice) : Prop :=
  0 < info.alignment ∧ s.addr + info.alignment < 2 ^ 64 ∧ s.len = gap s.addr info.alignment

theorem usedUp_of_fillPart (h : fillPart info s = .ok part) (hne : s.len ≠ 0) (hzero : part.len = 0) :
    UsedUp info s := by
  rw [fillPart_eq] at h
  by_cases hal : 0 < info.alignment ∧ s.addr + info.alignment < 2 ^ 64 ∧ gap s.addr info.alignment ≤ s.len
  · refine ⟨hal.1, hal.2.1, ?_⟩
    rw [if_pos hal] at h
    by_cases hbs : info.blockSize = 0
    · rw [if_pos hbs] at h
      cases h
    · rw [if_neg hbs] at h
      obtain rfl := (Except.ok.inj h).symm
      have hle := hal.2.2
      dsimp only at hzero
      split at hzero
      · next hpos =>
        have hmul := Nat.mul_pos hpos (Nat.pos_of_ne_zero hbs)
        omega
      · omega
  · rw [if_neg hal] at h
    obtain rfl := (Except.ok.inj h).symm
    exact absurd hzero hne

theorem usedUp_of_hang (hd : d.scratch.InMemory) (hb : b.InMemory) (hne : b.len ≠ 0)
    (h : (fill offset size val (d, b)).1 = .error .hang) :
    size ≠ 0 ∧ UsedUp d.io.info b.toSlice := by
  have hrun : fill offset size val (d, b) = (do
      let part ← Exec.lift (fillPart d.io.info b.toSlice)
      Exec.modify fun p => (p.1, p.2.patch (part.addr - b.addr) (List.replicate (min size part.len) val))
      let stop ← Exec.lift ((offset : SafeNum) + size).toU64
      fillLoop (part.addr - b.addr) (min size part.len) stop (size + 1) offset : Exec Error (Disk × Buf) Unit)
        (d, b) := by
    unfold fill
    rw [bind_run_ok (get_run _), if_neg hne]
  rw [hrun] at h
  cases hpart : fillPart d.io.info b.toSlice with
  | error e =>
    rw [bind_run_error (show Exec.lift _ (d, b) = (.error e, d, b) by rw [lift_run, hpart])] at h
    cases h
    rw [fillPart_eq] at hpart
    split at hpart
    · split at hpart
      · cases hpart
      · cases hpart
    · cases hpart
  | ok part =>
    rw [bind_run_ok (lift_run_ok hpart _), bind_run_ok (modify_run _ _)] at h
    cases hstop : ((offset : SafeNum) + size).toU64 with
    | error e =>
      rw [bind_run_error (show Exec.lift _ _ = (.error e, _) by rw [lift_run, hstop])] at h
      cases h
      exact absurd hstop (SafeNum.toU64_ne_hang _)
    | ok stop =>
      rw [bind_run_ok (lift_run_ok hstop _)] at h
      obtain ⟨x, y, hx, hy, hlt, rfl⟩ := SafeNum.add_eq_valid.1 (SafeNum.toU64_eq_ok.1 hstop)
      obtain ⟨-, rfl⟩ := SafeNum.ofNat_eq_valid.1 hx
      obtain ⟨-, rfl⟩ := SafeNum.ofNat_eq_valid.1 hy
      obtain ⟨i, haddr, hlen, hi⟩ := fillPart_spec hpart hb
      rw [show part.addr - b.addr = i by omega] at h
      by_cases hsize : size = 0
      · subst hsize
        rw [fillLoop, if_neg (by omega)] at h
        cases h
      refine ⟨hsize, usedUp_of_fillPart hpart hne ?_⟩
      by_contra hpos
      have hfit : i + (List.replicate (min size part.len) val).length ≤ b.len := by
        rw [List.length_replicate]
        omega
      have hlen₁ : (b.patch i (List.replicate (min size part.len) val)).len = b.len := Buf.patch_len b hfit
      have hends : (fillLoop i (min size part.len) (offset + size) (size + 1) offset
          (d, b.patch i (List.replicate (min size part.len) val))).1 ≠ .error .hang :=
        fillLoop_ne_hang hd (hb.congr rfl hlen₁) hi (by omega) hlt (by omega) (by omega)
      exact hends h

/-- **Filling a range.** A fill of a range of the device that no operation fails on succeeds, and changes exactly that
range, if and only if each of its writes can be carried out and the piece of the buffer that it writes is not empty.
On no device does a fill with a nonempty piece go on forever. -/
theorem fill_exact_iff (d : Disk) (b : Buf) (offset size : Nat) (val : UInt8) (hd : d.scratch.InMemory)
    (hb : b.InMemory) (hne : b.len ≠ 0) (ho : offset < 2 ^ 64) (hs : size < 2 ^ 64)
    (hin : offset + size ≤ d.io.info.total) :
    (d.io.FaultFree →
      ((fill offset size val (d, b)).1 = .ok () ∧
          (fill offset size val (d, b)).2.1.io.content = store d.io.content offset (List.replicate size val) ↔
        d.Fillable b.toSlice offset size)) ∧
    (d.Usable → b.addr + d.io.info.alignment < 2 ^ 64 →
      (d.Fillable b.toSlice offset size ↔ size = 0 ∨ b.len ≠ gap b.addr d.io.info.alignment)) ∧
    ((fill offset size val (d, b)).1 = .error .hang → size ≠ 0 ∧ UsedUp d.io.info b.toSlice) := by
  have hpost := (fill_wp val hd hb ho hs).2.2
  refine ⟨?_, ?_, usedUp_of_hang hd hb hne⟩
  · intro hff
    constructor
    · intro h
      exact (hpost.stored h.1).1
    · intro hcan
      have hok := hpost.succeeds hff hcan
      exact ⟨hok, (hpost.stored hok).2⟩
  · intro huse haddr
    exact huse.fillable_iff hne haddr hin

def evenDisk : Disk :=
  ⟨⟨⟨2, 4, 2, by decide, by decide, by decide⟩, fun _ => 0, fun _ => none, []⟩, ⟨32, [0, 0, 0, 0]⟩⟩

theorem fill_exact_two :
    (fill 1 4 7 (evenDisk, ⟨65, [0, 0]⟩)).1 = .ok () := by
  have hd : evenDisk.scratch.InMemory := ⟨by decide, by decide, by decide⟩
  have huse : evenDisk.Usable := ⟨⟨_, rfl⟩, by decide, by decide⟩
  have h := fill_exact_iff evenDisk ⟨65, [0, 0]⟩ 1 4 7 hd ⟨by decide, by decide, by decide⟩ (by decide) (by decide)
    (by decide) (by decide)
  exact ((h.1 fun _ => rfl).2 ((h.2.1 huse (by decide)).2 (.inr (by decide)))).1

/-- A buffer of one byte at an odd address has no aligned part: the fill never ends. -/
theorem fill_never_ends :
    evenDisk.Usable ∧ evenDisk.io.FaultFree ∧ (fill 1 4 7 (evenDisk, ⟨65, [0]⟩)).1 = .error .hang := by
  refine ⟨⟨⟨_, rfl⟩, by decide, by decide⟩, fun _ => rfl, by decide⟩

end Disk

end Gbl.Storage
