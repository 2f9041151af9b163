import Gbl.Lib.Align
import Gbl.Efi.Allocation

/-!
# `gbl_malloc` and `gbl_free` (`libc`, `lib.rs`)

C code allocates through Rust's global allocator.
-/

namespace Gbl.Libc

open Lib Lib.Exec Efi

section Model

variable {γ : Type} (G : GlobalAlloc γ)

def headSize : Nat := 8 + 8

def gblMallocChecked (requestSize alignment : Nat) : Exec Error (γ × Content) Nat := do
  let pad ← lift ((alignment : SafeNum) + headSize).toU64
  let size ← lift ((requestSize : SafeNum) + pad).toU64
  match Layout.fromSizeAlign size 1 with
  | none => lift (err .invalidInput)
  | some layout => do
    let ptr ← G.alloc layout
    if ptr = 0 then lift (err .invalidInput)
    else do
      let retAddress := ((ptr : SafeNum) + headSize).roundUp alignment
      let retOffset := retAddress - ptr
      let alignOffset ← lift (retOffset - 8).toU64
      let sizeOffset ← lift ((alignOffset : SafeNum) - 8).toU64
      let offset ← lift retOffset.toU64
      modify fun w =>
        (w.1, store (store w.2 (ptr + sizeOffset) (leBytes 8 size)) (ptr + alignOffset) (leBytes 8 offset))
      pure (ptr + offset)

def gblMalloc (requestSize alignment : Nat) : Exec Error (γ × Content) Nat :=
  orNull <$> attempt (gblMallocChecked G requestSize alignment)

def freeArgs (m : Content) (ptr alignment : Nat) : Result (Nat × Layout) :=
  let offset := leValue (slice m (ptr - 8) 8)
  let size := leValue (slice m (ptr - 16) 8)
  match Layout.fromSizeAlign size alignment with
  | none => panic
  | some layout => .ok ((ptr + (2 ^ 64 - offset)) % 2 ^ 64, layout)

def gblFree (ptr alignment : Nat) : Exec Error (γ × Content) Unit :=
  if ptr = 0 then pure ()
  else do
    let w ← get
    let args ← lift (freeArgs w.2 ptr alignment)
    G.dealloc args.1 args.2

end Model

/-! ## What a successful call has done -/

section Calls

variable {γ : Type} {G : GlobalAlloc γ} {w w' : γ × Content} {requestSize alignment ptr base : Nat}
  {layout : Layout}

def InMemory (G : GlobalAlloc γ) : Prop :=
  ∀ layout w base w', G.alloc layout w = (.ok base, w') → base ≠ 0 → base + layout.size ≤ 2 ^ 64

theorem fromSizeAlign_eq_some {size align : Nat} (h : Layout.fromSizeAlign size align = some layout) :
    layout.size = size ∧ layout.align = align ∧ size + align ≤ 2 ^ 63 := by
  unfold Layout.fromSizeAlign at h
  split at h
  · next hc =>
    obtain rfl := Option.some.inj h
    exact ⟨rfl, rfl, hc.2⟩
  · exact absurd h nofun

theorem fromSizeAlign_of_le {size align : Nat} (hpow : align.isPowerOfTwo) (hle : size + align ≤ 2 ^ 63) :
    ∃ layout, Layout.fromSizeAlign size align = some layout :=
  ⟨_, dif_pos ⟨hpow, hle⟩⟩

def blockStart (base alignment : Nat) : Nat := base + headSize + gap (base + headSize) alignment

def withHead (m : Content) (base alignment size : Nat) : Content :=
  store (store m (blockStart base alignment - 16) (leBytes 8 size)) (blockStart base alignment - 8)
    (leBytes 8 (blockStart base alignment - base))

theorem blockStart_bounds (base : Nat) (hpos : 0 < alignment) :
    base + 16 ≤ blockStart base alignment ∧ blockStart base alignment < base + 16 + alignment := by
  have hgap := gap_lt (base + headSize) hpos
  unfold blockStart headSize at *
  omega

theorem retAddress_eq (hpos : 0 < alignment) (hroom : base + headSize + alignment < 2 ^ 64) :
    ((base : SafeNum) + headSize).roundUp alignment = .valid (blockStart base alignment) := by
  rw [SafeNum.ofNat_of_lt (by omega : base < 2 ^ 64), SafeNum.ofNat_of_lt (by decide : headSize < 2 ^ 64),
    SafeNum.valid_add, SafeNum.ofNat_of_lt (by omega), SafeNum.ofNat_of_lt (by omega),
    SafeNum.roundUp_valid hpos hroom, add_pred_sub_mod _ hpos]
  rfl

theorem gblMalloc_run (hpos : 0 < alignment)
    (hlayout : Layout.fromSizeAlign (requestSize + (alignment + headSize)) 1 = some layout)
    (halloc : G.alloc layout w = (.ok base, w')) (hne : base ≠ 0)
    (hroom : base + headSize + alignment < 2 ^ 64) :
    gblMalloc G requestSize alignment w =
      (.ok (blockStart base alignment), (w'.1, withHead w'.2 base alignment layout.size)) := by
  obtain ⟨hsize, -, hle⟩ := fromSizeAlign_eq_some hlayout
  obtain ⟨hlo, hhi⟩ := blockStart_bounds base hpos
  have hpad : ((alignment : SafeNum) + headSize).toU64 = .ok (alignment + headSize) := by
    rw [SafeNum.ofNat_of_lt (by omega : alignment < 2 ^ 64), SafeNum.ofNat_of_lt (by decide : headSize < 2 ^ 64),
      SafeNum.valid_add]
    exact SafeNum.toU64_ofNat_of_lt (by omega)
  have htotal : ((requestSize : SafeNum) + (alignment + headSize : Nat)).toU64 =
      .ok (requestSize + (alignment + headSize)) := by
    rw [SafeNum.ofNat_of_lt (by omega : requestSize < 2 ^ 64), SafeNum.ofNat_of_lt (by omega), SafeNum.valid_add]
    exact SafeNum.toU64_ofNat_of_lt (by omega)
  have hoff : ((base : SafeNum) + headSize).roundUp alignment - (base : SafeNum) =
      .valid (blockStart base alignment - base) := by
    rw [retAddress_eq hpos hroom, SafeNum.ofNat_of_lt (by omega : base < 2 ^ 64), SafeNum.valid_sub, if_pos (by omega)]
  have hword : ∀ n, 8 ≤ n → ((SafeNum.valid n) - 8).toU64 = .ok (n - 8) := by
    intro n hn
    show (SafeNum.valid n - SafeNum.valid 8).toU64 = _
    rw [SafeNum.valid_sub, if_pos hn, SafeNum.toU64_valid]
  have hchecked : gblMallocChecked G requestSize alignment w =
      (.ok (blockStart base alignment), (w'.1, withHead w'.2 base alignment layout.size)) := by
    unfold gblMallocChecked
    rw [bind_run_ok (lift_run_ok hpad w), bind_run_ok (lift_run_ok htotal w), hlayout]
    dsimp only
    rw [bind_run_ok halloc, if_neg hne, hoff, bind_run_ok (lift_run_ok (hword _ (by omega)) w'),
      SafeNum.ofNat_of_lt (by omega), bind_run_ok (lift_run_ok (hword _ (by omega)) w'),
      bind_run_ok (lift_run_ok (SafeNum.toU64_valid _) w'), bind_run_ok (modify_run _ w'), withHead, hsize,
      show base + (blockStart base alignment - base - 8 - 8) = blockStart base alignment - 16 by omega,
      show base + (blockStart base alignment - base - 8) = blockStart base alignment - 8 by omega,
      show base + (blockStart base alignment - base) = blockStart base alignment by omega]
    rfl
  rw [gblMalloc, map_eq_pure_bind, bind_run_ok (attempt_run_ok hchecked)]
  rfl

theorem gblMalloc_eq_ok (hpos : 0 < alignment) (halign : alignment < 2 ^ 64) (hreq : requestSize < 2 ^ 64)
    (hG : InMemory G) (hrun : gblMalloc G requestSize alignment w = (.ok ptr, w')) (hne : ptr ≠ 0) :
    ∃ layout base w₁, Layout.fromSizeAlign (requestSize + (alignment + headSize)) 1 = some layout ∧
      G.alloc layout w = (.ok base, w₁) ∧ base ≠ 0 ∧ base + headSize + alignment < 2 ^ 64 ∧
      ptr = blockStart base alignment ∧ w' = (w₁.1, withHead w₁.2 base alignment layout.size) := by
  have hchecked := orNull_eq_ok hrun hne
  unfold gblMallocChecked at hchecked
  obtain ⟨pad, hpad, hchecked⟩ := lift_bind_run_eq_ok hchecked
  rw [SafeNum.ofNat_of_lt halign, SafeNum.ofNat_of_lt (by decide : headSize < 2 ^ 64), SafeNum.valid_add,
    SafeNum.toU64_ofNat_eq_ok] at hpad
  obtain ⟨hpadlt, rfl⟩ := hpad
  obtain ⟨size, hsize, hchecked⟩ := lift_bind_run_eq_ok hchecked
  rw [SafeNum.ofNat_of_lt hreq, SafeNum.ofNat_of_lt hpadlt, SafeNum.valid_add, SafeNum.toU64_ofNat_eq_ok] at hsize
  obtain ⟨-, rfl⟩ := hsize
  cases hlayout : Layout.fromSizeAlign (requestSize + (alignment + headSize)) 1 with
  | none =>
    rw [hlayout] at hchecked
    exact absurd (congrArg Prod.fst hchecked) Res.error_ne_ok
  | some layout =>
    rw [hlayout] at hchecked
    obtain ⟨base, w₁, halloc, hrest⟩ := bind_run_eq_ok hchecked
    by_cases h0 : base = 0
    · rw [if_pos h0] at hrest
      exact absurd (congrArg Prod.fst hrest) Res.error_ne_ok
    have hsize := (fromSizeAlign_eq_some hlayout).1
    have hstop := hG layout w base w₁ halloc h0
    have hroom : base + headSize + alignment < 2 ^ 64 := by
      -- A block that ends with the address space and has nothing but the padding cannot be rounded up.
      by_contra hge
      have herr : ((base : SafeNum) + headSize).roundUp alignment = .error := by
        rw [SafeNum.ofNat_of_lt (by omega : base < 2 ^ 64), SafeNum.ofNat_of_lt (by decide : headSize < 2 ^ 64),
          SafeNum.valid_add]
        by_cases hfits : base + headSize < 2 ^ 64
        · rw [SafeNum.ofNat_of_lt hfits, SafeNum.ofNat_of_lt halign]
          exact SafeNum.roundUp_error_of_ge (by omega)
        · rw [SafeNum.ofNat_of_ge (by omega)]
          rfl
      rw [if_neg h0, herr] at hrest
      exact absurd (congrArg Prod.fst hrest) Res.error_ne_ok
    have hrun' := gblMalloc_run hpos hlayout halloc h0 hroom
    obtain ⟨hptr, hw⟩ := Prod.mk.inj (hrun.symm.trans hrun')
    exact ⟨layout, base, w₁, rfl, halloc, h0, hroom, Except.ok.inj hptr, hw⟩

theorem freeArgs_withHead {m m' : Content} {size : Nat} (hpos : 0 < alignment)
    (hroom : base + headSize + alignment < 2 ^ 64) (hsize : size < 2 ^ 64)
    (hkeep : ∀ i, blockStart base alignment - 16 ≤ i → i < blockStart base alignment →
      m' i = withHead m base alignment size i) :
    freeArgs m' (blockStart base alignment) alignment =
      match Layout.fromSizeAlign size alignment with
      | none => panic
      | some layout => .ok (base, layout) := by
  obtain ⟨hlo, hhi⟩ := blockStart_bounds base hpos
  have hword : ∀ (c : Content) off n, n < 2 ^ 64 → leValue (slice (store c off (leBytes 8 n)) off 8) = n := by
    intro c off n hn
    have hslice := slice_store c off (leBytes 8 n)
    rw [length_leBytes] at hslice
    rw [hslice]
    exact leValue_leBytes hn
  have hoffset : leValue (slice m' (blockStart base alignment - 8) 8) = blockStart base alignment - base := by
    rw [slice_congr (d := withHead m base alignment size) fun i h h' => hkeep i (by omega) (by omega)]
    unfold headSize at hroom
    exact hword _ _ _ (by omega)
  have htotal : leValue (slice m' (blockStart base alignment - 16) 8) = size := by
    rw [slice_congr (d := withHead m base alignment size) fun i h h' => hkeep i (by omega) (by omega), withHead,
      slice_store_of_disjoint _ (by rw [length_leBytes]; omega)]
    exact hword _ _ _ hsize
  have hback : (blockStart base alignment + (2 ^ 64 - (blockStart base alignment - base))) % 2 ^ 64 = base := by
    unfold headSize at hroom
    rw [show blockStart base alignment + (2 ^ 64 - (blockStart base alignment - base)) = base + 2 ^ 64 by omega,
      Nat.add_mod_right]
    exact Nat.mod_eq_of_lt (by omega)
  unfold freeArgs
  dsimp only
  rw [hoffset, htotal, hback]

theorem gblFree_run {args : Nat × Layout} (hne : ptr ≠ 0) (hargs : freeArgs w.2 ptr alignment = .ok args) :
    gblFree G ptr alignment w = G.dealloc args.1 args.2 w := by
  rw [gblFree, if_neg hne, bind_run_ok (get_run w)]
  exact bind_run_ok (lift_run_ok hargs w)

end Calls

/-! ## Whether the two match -/

section Matching

variable {γ φ : Type} {G : GlobalAlloc γ} {P : BootServices φ} {requestSize alignment ptr base : Nat}
  {layout : Layout}

def Spared (allocation block : Extent) (m m' : Content) : Prop := ∀ i ∈ allocation, i ∉ block → m' i = m i

def parts (ptr requestSize : Nat) : List Extent := [⟨ptr - 16, 8⟩, ⟨ptr - 8, 8⟩, ⟨ptr, requestSize⟩]

def Matches (G : GlobalAlloc γ) (requestSize alignment : Nat) (w : γ × Content) : Prop :=
  ∀ ptr w', gblMalloc G requestSize alignment w = (.ok ptr, w') → ptr ≠ 0 →
    ∃ layout base w₁, Layout.fromSizeAlign (requestSize + (alignment + headSize)) 1 = some layout ∧
      G.alloc layout w = (.ok base, w₁) ∧ alignment ∣ ptr ∧
      (∀ e ∈ parts ptr requestSize, e.Within ⟨base, layout.size⟩) ∧
      (parts ptr requestSize).Pairwise Extent.Disjoint ∧
      ∀ m, Spared ⟨base, layout.size⟩ ⟨ptr, requestSize⟩ w'.2 m → freeArgs m ptr alignment = .ok (base, layout)

def EfiMatches (P : BootServices φ) (requestSize alignment : Nat) (w : EfiAllocator φ × Content) : Prop :=
  ∀ ptr w', gblMalloc (efiAllocator P) requestSize alignment w = (.ok ptr, w') → ptr ≠ 0 →
    ∃ base f, P.allocatePool (requestSize + (alignment + headSize)) w.1.firmware = (.ok base, f) ∧
      ∀ m, Spared ⟨base, requestSize + (alignment + headSize)⟩ ⟨ptr, requestSize⟩ w'.2 m →
        gblFree (efiAllocator P) ptr alignment (w'.1, m) = deallocate P base (w'.1, m) ∧
          (gblFree (efiAllocator P) ptr alignment (w'.1, m)).2.1.firmware = (P.freePool base w'.1.firmware).2

theorem parts_within (base : Nat) (hpos : 0 < alignment) : ∀ e ∈ parts (blockStart base alignment) requestSize,
      e.Within ⟨base, requestSize + (alignment + headSize)⟩ := by
  obtain ⟨hlo, hhi⟩ := blockStart_bounds base hpos
  intro e he
  simp only [parts, List.mem_cons, List.not_mem_nil, or_false] at he
  rcases he with rfl | rfl | rfl
  all_goals simp only [Extent.Within, Extent.stop, headSize]; omega

theorem parts_disjoint (h : 16 ≤ ptr) : (parts ptr requestSize).Pairwise Extent.Disjoint := by
  simp only [parts, List.pairwise_cons, List.mem_cons, List.not_mem_nil, or_false, forall_eq_or_imp, forall_eq,
    Extent.disjoint_iff, Extent.stop]
  simp
  omega

theorem Spared.head {m m' : Content} (hpos : 0 < alignment) (hsize : layout.size = requestSize + (alignment + headSize))
    (h : Spared ⟨base, layout.size⟩ ⟨blockStart base alignment, requestSize⟩ m m') :
    ∀ i, blockStart base alignment - 16 ≤ i → i < blockStart base alignment → m' i = m i := by
  obtain ⟨hlo, hhi⟩ := blockStart_bounds base hpos
  intro i hi hi'
  refine h i ⟨?_, ?_⟩ fun hin => ?_
  · show base ≤ i
    omega
  · show i < base + layout.size
    rw [hsize]
    unfold headSize
    omega
  · have hge : blockStart base alignment ≤ i := hin.1
    omega

theorem matches_of_unaligned (hreq : requestSize < 2 ^ 64) (hG : InMemory G) (w : γ × Content) :
    Matches G requestSize 1 w := by
  intro ptr w' hrun hne
  obtain ⟨layout, base, w₁, hlayout, halloc, h0, hroom, rfl, rfl⟩ :=
    gblMalloc_eq_ok (by decide) (by decide) hreq hG hrun hne
  have hsize := (fromSizeAlign_eq_some hlayout).1
  have hlo := (blockStart_bounds base Nat.one_pos).1
  refine ⟨layout, base, w₁, hlayout, halloc, Nat.one_dvd _, ?_, parts_disjoint (by omega), fun m hspared => ?_⟩
  · rw [hsize]
    exact parts_within base (by decide)
  · rw [freeArgs_withHead (by decide) hroom layout.size_lt (hspared.head (by decide) hsize), hsize, hlayout]

theorem gblMalloc_of_large (hpos : 0 < alignment) (halign : alignment < 2 ^ 64) (hreq : requestSize < 2 ^ 64)
    (hG : InMemory G) (hlarge : 2 ^ 63 ≤ requestSize + (alignment + headSize)) {w w' : γ × Content}
    (hrun : gblMalloc G requestSize alignment w = (.ok ptr, w')) : ptr = 0 := by
  by_contra hne
  obtain ⟨layout, base, w₁, hlayout, -⟩ := gblMalloc_eq_ok hpos halign hreq hG hrun hne
  have hle := (fromSizeAlign_eq_some hlayout).2.2
  omega

theorem efiAllocator_inMemory (pool : P.Pool) : InMemory (efiAllocator P) := by
  intro layout w base w' hrun hne
  rcases alloc_cases pool layout w with ⟨f, hnull, -⟩ | ⟨start, f, -, hstart, hcall, hsome⟩
  · exact absurd (Except.ok.inj (congrArg Prod.fst (hrun.symm.trans hnull))) hne
  · obtain rfl := Except.ok.inj (congrArg Prod.fst (hrun.symm.trans hsome))
    have hstop := (pool.granted hcall hstart).2.1
    have hshift := layout.shift_le start
    omega

theorem efiAllocator_unaligned (pool : P.Pool) {w w' : EfiAllocator φ × Content}
    (hrun : (efiAllocator P).alloc layout w = (.ok base, w')) (hne : base ≠ 0)
    (halign : layout.align ≤ efiAllocatePoolAlignment) :
    w'.1.state = .initialized ∧ ∃ f, P.allocatePool layout.size w.1.firmware = (.ok base, f) := by
  rcases alloc_cases pool layout w with ⟨f, hnull, -⟩ | ⟨start, f, -, -, hcall, hsome⟩
  · exact absurd (Except.ok.inj (congrArg Prod.fst (hrun.symm.trans hnull))) hne
  · have hbase := Except.ok.inj (congrArg Prod.fst (hrun.symm.trans hsome))
    rw [Layout.shift, if_pos halign, Nat.add_zero] at hbase
    subst hbase
    rw [Layout.poolSize, if_pos halign] at hcall
    have hw : w' = _ := congrArg Prod.snd (hrun.symm.trans hsome)
    exact ⟨hw ▸ rfl, f, hcall⟩

theorem dealloc_unaligned (base : Nat) (halign : layout.align ≤ efiAllocatePoolAlignment) :
    dealloc P base layout = deallocate P base := if_pos halign

theorem efiMatches_of_unaligned (hreq : requestSize < 2 ^ 64) (pool : P.Pool) (w : EfiAllocator φ × Content) :
    EfiMatches P requestSize 1 w := by
  intro ptr w' hrun hne
  obtain ⟨layout, base, w₁, hlayout, halloc, -, -, -, hfree⟩ :=
    matches_of_unaligned hreq (efiAllocator_inMemory pool) w ptr w' hrun hne
  obtain ⟨hsize, halign, -⟩ := fromSizeAlign_eq_some hlayout
  have hsmall : layout.align ≤ efiAllocatePoolAlignment := by
    rw [halign]
    decide
  obtain ⟨h0, hkeep⟩ : base ≠ 0 ∧ w'.1 = w₁.1 := by
    obtain ⟨layout', base', w₂, hlayout', halloc', h0, -, -, rfl⟩ :=
      gblMalloc_eq_ok (by decide) (by decide) hreq (efiAllocator_inMemory pool) hrun hne
    obtain rfl : layout = layout' := Option.some.inj (hlayout.symm.trans hlayout')
    obtain ⟨hbase, rfl⟩ := Prod.mk.inj (halloc.symm.trans halloc')
    exact ⟨Except.ok.inj hbase ▸ h0, rfl⟩
  obtain ⟨hstate, f, hcall⟩ := efiAllocator_unaligned pool halloc h0 hsmall
  rw [hsize] at hcall hfree
  refine ⟨base, f, hcall, fun m hspared => ?_⟩
  have hargs : freeArgs (w'.1, m).2 ptr 1 = .ok (base, layout) := hfree m hspared
  have heq : gblFree (efiAllocator P) ptr 1 (w'.1, m) = deallocate P base (w'.1, m) :=
    (gblFree_run hne hargs).trans (congrFun (dealloc_unaligned base hsmall) (w'.1, m))
  refine ⟨heq, ?_⟩
  rw [heq, deallocate_snd]
  exact if_pos (hkeep ▸ hstate)

def fixedAlloc : GlobalAlloc Unit where
  alloc layout := pure (if 16 + layout.size ≤ 2 ^ 64 then 16 else 0)
  dealloc _ _ := pure ()

theorem fixedAlloc_inMemory : InMemory fixedAlloc := by
  intro layout w base w' hrun hne
  have hbase : (if 16 + layout.size ≤ 2 ^ 64 then 16 else 0) = base := Except.ok.inj (congrArg Prod.fst hrun)
  split at hbase
  · next hle =>
    subst hbase
    exact hle
  · exact absurd hbase.symm hne

theorem eq_one_of_matches (hpow : alignment.isPowerOfTwo) (hfits : requestSize + (alignment + headSize) < 2 ^ 63)
    (h : Matches fixedAlloc requestSize alignment ((), fun _ => 0)) : alignment = 1 := by
  have hpos : 0 < alignment := by
    obtain ⟨k, rfl⟩ := hpow
    exact Nat.two_pow_pos k
  obtain ⟨layout, hlayout⟩ :=
    fromSizeAlign_of_le ⟨0, rfl⟩ (show requestSize + (alignment + headSize) + 1 ≤ 2 ^ 63 by omega)
  have hsize := (fromSizeAlign_eq_some hlayout).1
  have halloc : fixedAlloc.alloc layout ((), fun _ => 0) = (.ok 16, ((), fun _ => 0)) := by
    show (Except.ok (if 16 + layout.size ≤ 2 ^ 64 then 16 else 0), _) = _
    rw [if_pos (by omega)]
  have hrun := gblMalloc_run hpos hlayout halloc (by decide) (by unfold headSize at hfits ⊢; omega)
  have hne : blockStart 16 alignment ≠ 0 := by
    have hlo := (blockStart_bounds 16 hpos).1
    omega
  obtain ⟨layout', base, w₁, hlayout', -, -, -, -, hfree⟩ := h _ _ hrun hne
  -- The layout of the allocation is byte-aligned, that of the free is not.
  have hargs := hfree _ fun _ _ _ => rfl
  unfold freeArgs at hargs
  dsimp only at hargs
  split at hargs
  · exact absurd hargs nofun
  · next layout₂ hlayout₂ =>
    have hsame : layout₂ = layout' := congrArg Prod.snd (Except.ok.inj hargs)
    rw [← (fromSizeAlign_eq_some hlayout₂).2.1, hsame, (fromSizeAlign_eq_some hlayout').2.1]

/-- `gbl_malloc` and `gbl_free` match, for every allocator and for the EFI allocator, exactly where the
alignment is 1 — or where the request is so large that nothing is allocated. -/
theorem malloc_matches_iff (hreq : requestSize < 2 ^ 64) (halign : alignment < 2 ^ 64)
    (hpow : alignment.isPowerOfTwo) :
    ((∀ (γ : Type) (G : GlobalAlloc γ) (w : γ × Content), InMemory G → Matches G requestSize alignment w) ∧
      (∀ (φ : Type) (P : BootServices φ) (w : EfiAllocator φ × Content), Nonempty P.Pool →
        EfiMatches P requestSize alignment w)) ↔
    (alignment = 1 ∨ 2 ^ 63 ≤ requestSize + (alignment + headSize)) := by
  have hpos : 0 < alignment := by
    obtain ⟨k, rfl⟩ := hpow
    exact Nat.two_pow_pos k
  constructor
  · rintro ⟨hall, -⟩
    by_cases hfits : requestSize + (alignment + headSize) < 2 ^ 63
    · exact .inl (eq_one_of_matches hpow hfits (hall Unit fixedAlloc _ fixedAlloc_inMemory))
    · exact .inr (Nat.not_lt.mp hfits)
  · rintro (rfl | hlarge)
    · refine ⟨fun γ G w hG => matches_of_unaligned hreq hG w, fun φ P w => ?_⟩
      rintro ⟨pool⟩
      exact efiMatches_of_unaligned hreq pool w
    · refine ⟨fun γ G w hG ptr w' hrun hne => ?_, fun φ P w => ?_⟩
      · exact absurd (gblMalloc_of_large hpos halign hreq hG hlarge hrun) hne
      · rintro ⟨pool⟩ ptr w' hrun hne
        exact absurd (gblMalloc_of_large hpos halign hreq (efiAllocator_inMemory pool) hlarge hrun) hne

theorem malloc_matches_iff_bytes :
    (100 < 2 ^ 64 ∧ 1 < 2 ^ 64 ∧ Nat.isPowerOfTwo 1) ∧ Matches fixedAlloc 100 1 ((), fun _ => 0) ∧
      EfiMatches BumpPool.services 100 1 (Heap.initial BumpPool.empty fun _ => 0).machine := by
  have hmatch := (malloc_matches_iff (by decide : 100 < 2 ^ 64) (by decide) ⟨0, rfl⟩).mpr (.inl rfl)
  exact ⟨⟨by decide, by decide, 0, rfl⟩, hmatch.1 Unit fixedAlloc _ fixedAlloc_inMemory,
    hmatch.2 _ BumpPool.services _ ⟨BumpPool.pool⟩⟩

/-- An aligned block, and an eight in the byte behind the block of the pool: the free is of another layout,
and the EFI allocator frees eight bytes too low. -/
theorem malloc_aligned_mismatch :
    ¬ Matches fixedAlloc 100 16 ((), fun _ => 0) ∧
      ¬ EfiMatches BumpPool.services 100 16 (Heap.initial BumpPool.empty fun _ => 0).machine := by
  refine ⟨fun h => absurd (eq_one_of_matches ⟨4, rfl⟩ (by decide) h) (by decide), fun h => ?_⟩
  obtain ⟨base, f, hcall, hfree⟩ := h 32 _ rfl (by decide)
  obtain rfl : 8 = base := Except.ok.inj (congrArg Prod.fst hcall)
  let m : Content := fun i =>
    if i = 140 then 8
    else (gblMalloc (efiAllocator BumpPool.services) 100 16 (Heap.initial BumpPool.empty fun _ => 0).machine).2.2 i
  have hspared : Spared ⟨8, 100 + (16 + headSize)⟩ ⟨32, 100⟩
      (gblMalloc (efiAllocator BumpPool.services) 100 16 (Heap.initial BumpPool.empty fun _ => 0).machine).2.2 m := by
    intro i hi _
    have hlt : i < 8 + 132 := hi.2
    exact if_neg (by omega)
  have hblocks := congrArg (fun r => r.2.1.firmware.blocks) (hfree m hspared).1
  exact absurd hblocks (by decide +kernel)

end Matching

end Gbl.Libc
