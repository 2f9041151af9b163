import Gbl.Lib.Extent
import Gbl.SafeMath

/-!
# The EFI global allocator (`libefi`, `allocation.rs`)

The firmware's pool aligns to eight bytes. For a larger alignment the allocator moves the pointer up and leaves the
distance behind the caller's block. Memory is a store of bytes by address, null is address 0, and the firmware is a
parameter.
-/

namespace Gbl.Efi

open Lib Lib.Exec

/-! ## The allocator -/

structure Layout where
  size : Nat
  align : Nat
  size_lt : size < 2 ^ 64
  align_lt : align < 2 ^ 64
  isPowerOfTwo : align.isPowerOfTwo
  deriving DecidableEq

def Layout.fromSizeAlign (size align : Nat) : Option Layout :=
  if h : align.isPowerOfTwo ∧ size + align ≤ 2 ^ 63 then
    some ⟨size, align, by omega, by omega, h.1⟩
  else none

structure GlobalAlloc (γ : Type) where
  alloc : Layout → Exec Error (γ × Content) Nat
  dealloc : Nat → Layout → Exec Error (γ × Content) Unit

inductive EfiState where
  /-- No UEFI entry point has been set, global hooks will not work. -/
  | uninitialized
  /-- Global hooks are active. -/
  | initialized
  /-- ExitBootServices has been called, global hooks will not work. -/
  | exited
  deriving DecidableEq, Repr

structure BootServices (φ : Type) where
  allocatePool : Nat → Exec Error φ Nat
  freePool : Nat → Exec Error φ Unit

structure EfiAllocator (φ : Type) where
  state : EfiState
  firmware : φ

variable {φ : Type}

def onFirmware {α : Type} (m : Exec Error φ α) : Exec Error (EfiAllocator φ × Content) α :=
  zoom (fun w => w.1.firmware) (fun w f => ({ w.1 with firmware := f }, w.2)) m

def orNull : Except Error Nat → Nat
  | .ok ptr => ptr
  | .error _ => 0

theorem orNull_eq_ok {σ : Type} {m : Exec Error σ Nat} {s s' : σ} {ptr : Nat}
    (hrun : (orNull <$> attempt m) s = (.ok ptr, s')) (hne : ptr ≠ 0) : m s = (.ok ptr, s') := by
  rw [map_eq_pure_bind] at hrun
  obtain ⟨r, t, hattempt, hpure⟩ := bind_run_eq_ok hrun
  obtain ⟨hr, rfl⟩ := Prod.mk.inj hpure
  have hptr := Except.ok.inj hr
  rcases hbody : m s with ⟨(e | _ | _) | p, t'⟩
  · rw [attempt_run_err hbody] at hattempt
    rw [← Except.ok.inj (congrArg Prod.fst hattempt)] at hptr
    exact absurd hptr.symm hne
  · rw [attempt, hbody] at hattempt
    exact absurd (congrArg Prod.fst hattempt) Res.error_ne_ok
  · rw [attempt, hbody] at hattempt
    exact absurd (congrArg Prod.fst hattempt) Res.error_ne_ok
  · rw [attempt_run_ok hbody] at hattempt
    obtain ⟨hok, rfl⟩ := Prod.mk.inj hattempt
    rw [← Except.ok.inj hok] at hptr
    rw [← hptr]
    rfl

def efiAllocatePoolAlignment : Nat := 8

section Allocator

variable (P : BootServices φ)

def allocate (size : Nat) : Exec Error (EfiAllocator φ × Content) Nat := do
  let w ← get
  match w.1.state with
  | .initialized => orNull <$> attempt (onFirmware (P.allocatePool size))
  | _ => pure 0

def deallocate (ptr : Nat) : Exec Error (EfiAllocator φ × Content) Unit := do
  let w ← get
  match w.1.state with
  | .initialized => do
    let _ ← attempt (onFirmware (P.freePool ptr))
    pure ()
  -- After ExitBootServices() all allocated memory is leaked.
  | _ => pure ()

def allocChecked (layout : Layout) : Exec Error (EfiAllocator φ × Content) Nat :=
  if layout.align ≤ efiAllocatePoolAlignment then do
    let ptr ← allocate P layout.size
    assert (ptr % efiAllocatePoolAlignment = 0)
    pure ptr
  else do
    let extraSize := (layout.align : SafeNum) + 8
    let size ← lift ((layout.size : SafeNum) + extraSize).toU64
    let unalignedPtr ← allocate P size
    if unalignedPtr = 0 then lift (err (.other (some "Allocation failed")))
    else do
      let offset := layout.align - unalignedPtr % layout.align
      let ptr := unalignedPtr + offset
      modify fun w => (w.1, store w.2 (ptr + layout.size) (leBytes 8 offset))
      pure ptr

def alloc (layout : Layout) : Exec Error (EfiAllocator φ × Content) Nat :=
  orNull <$> attempt (allocChecked P layout)

def dealloc (ptr : Nat) (layout : Layout) : Exec Error (EfiAllocator φ × Content) Unit :=
  if layout.align ≤ efiAllocatePoolAlignment then deallocate P ptr
  else do
    let w ← get
    let offset := leValue (slice w.2 (ptr + layout.size) 8)
    deallocate P ((ptr + (2 ^ 64 - offset)) % 2 ^ 64)

def efiAllocator : GlobalAlloc (EfiAllocator φ) where
  alloc := alloc P
  dealloc := dealloc P

end Allocator

/-! ## The firmware -/

structure BootServices.Pool (P : BootServices φ) where
  blocks : φ → List Extent
  returns : ∀ n f, (P.allocatePool n f).1.Returns
  granted : ∀ {n f p f'}, P.allocatePool n f = (.ok p, f') → p ≠ 0 →
    p % efiAllocatePoolAlignment = 0 ∧ p + n ≤ 2 ^ 64 ∧
      (∀ b ∈ blocks f, b.Disjoint ⟨p, n⟩ ∧ b.start ≠ p) ∧ blocks f' = ⟨p, n⟩ :: blocks f
  refused : ∀ {n f r f'}, P.allocatePool n f = (r, f') → (∀ p, r = .ok p → p = 0) → blocks f' = blocks f
  freed : ∀ p f b, b ∈ blocks f → b.start ≠ p → b ∈ blocks (P.freePool p f).2

/-! ## What a single call does -/

section Calls

variable {P : BootServices φ} {w w' : EfiAllocator φ × Content} {layout : Layout} {ptr : Nat}

theorem Layout.align_pos (layout : Layout) : 0 < layout.align := by
  obtain ⟨k, hk⟩ := layout.isPowerOfTwo
  rw [hk]
  exact Nat.two_pow_pos k

def Layout.poolSize (layout : Layout) : Nat :=
  if layout.align ≤ efiAllocatePoolAlignment then layout.size else layout.size + (layout.align + 8)

def Layout.shift (layout : Layout) (base : Nat) : Nat :=
  if layout.align ≤ efiAllocatePoolAlignment then 0 else layout.align - base % layout.align

theorem Layout.align_dvd (layout : Layout) {base : Nat} (hbase : base % efiAllocatePoolAlignment = 0) :
    layout.align ∣ base + layout.shift base := by
  unfold shift
  split
  · next hle =>
    -- The powers of two up to eight divide eight.
    obtain ⟨k, hk⟩ := layout.isPowerOfTwo
    have hk3 : k ≤ 3 := by
      by_contra hlt
      have hpow : 2 ^ 4 ≤ 2 ^ k := Nat.pow_le_pow_right (by decide) (by omega)
      rw [hk, efiAllocatePoolAlignment] at hle
      omega
    rw [hk, Nat.add_zero]
    exact (Nat.pow_dvd_pow 2 hk3).trans (Nat.dvd_of_mod_eq_zero hbase)
  · have hlt := Nat.mod_lt base layout.align_pos
    have hdecomp : base + (layout.align - base % layout.align) =
        layout.align * (base / layout.align) + layout.align := by
      have hdiv := Nat.div_add_mod base layout.align
      omega
    rw [hdecomp]
    exact Nat.dvd_add (Nat.dvd_mul_right ..) (Nat.dvd_refl _)

theorem Layout.shift_le (layout : Layout) (base : Nat) :
    layout.shift base + layout.size + (if layout.align ≤ efiAllocatePoolAlignment then 0 else 8) ≤ layout.poolSize := by
  unfold shift poolSize
  split
  · simp
  · have hle := Nat.sub_le layout.align (base % layout.align)
    omega

theorem allocate_run (pool : P.Pool) (n : Nat) (hstate : w.1.state = .initialized) :
    ∃ base f, allocate P n w = (.ok base, (⟨.initialized, f⟩, w.2)) ∧
      (base ≠ 0 → P.allocatePool n w.1.firmware = (.ok base, f)) ∧
      (base = 0 → pool.blocks f = pool.blocks w.1.firmware ∧
        ∀ p, (P.allocatePool n w.1.firmware).1 = .ok p → p = 0) := by
  obtain ⟨⟨state, firmware⟩, m⟩ := w
  obtain rfl : state = .initialized := hstate
  have hret := pool.returns n firmware
  rcases hcall : P.allocatePool n firmware with ⟨r, f⟩
  have hrun : onFirmware (P.allocatePool n) (⟨.initialized, firmware⟩, m) = (r, (⟨.initialized, f⟩, m)) := by
    rw [onFirmware, zoom, hcall]
  have hunfold : allocate P n (⟨.initialized, firmware⟩, m) =
      (orNull <$> attempt (onFirmware (P.allocatePool n))) (⟨.initialized, firmware⟩, m) := rfl
  rw [hcall] at hret
  rcases r with (e | _ | _) | p
  · have hnull : ∀ p, (Except.error (.err e) : Result Nat) = .ok p → p = 0 := fun _ h => absurd h Res.error_ne_ok
    refine ⟨0, f, ?_, fun h => absurd rfl h, fun _ => ⟨pool.refused hcall hnull, hnull⟩⟩
    rw [hunfold, map_eq_pure_bind, bind_run_ok (attempt_run_err hrun)]
    rfl
  · exact absurd hret id
  · exact absurd hret id
  · refine ⟨p, f, ?_, fun _ => rfl, ?_⟩
    · rw [hunfold, map_eq_pure_bind, bind_run_ok (attempt_run_ok hrun)]
      rfl
    · rintro rfl
      have hnull : ∀ p, (.ok 0 : Result Nat) = .ok p → p = 0 := fun p hp => (Except.ok.inj hp).symm
      exact ⟨pool.refused hcall hnull, hnull⟩

theorem allocate_run_idle (n : Nat) (hstate : w.1.state ≠ .initialized) : allocate P n w = (.ok 0, w) := by
  obtain ⟨⟨state, firmware⟩, m⟩ := w
  cases state with
  | uninitialized => rfl
  | initialized => exact absurd rfl hstate
  | exited => rfl

theorem alloc_run_ok (h : allocChecked P layout w = (.ok ptr, w')) : alloc P layout w = (.ok ptr, w') := by
  rw [alloc, map_eq_pure_bind, bind_run_ok (attempt_run_ok h)]
  rfl

theorem alloc_run_err {e : Error} (h : allocChecked P layout w = (.error (.err e), w')) :
    alloc P layout w = (.ok 0, w') := by
  rw [alloc, map_eq_pure_bind, bind_run_ok (attempt_run_err h)]
  rfl

theorem alloc_overflows (halign : ¬ layout.align ≤ efiAllocatePoolAlignment)
    (hover : 2 ^ 64 ≤ layout.size + (layout.align + 8)) : alloc P layout w = (.ok 0, w) := by
  have hsize : (((layout.size : SafeNum) + ((layout.align : SafeNum) + 8)).toU64 : Result Nat) =
      err .arithmeticOverflow := by
    rw [SafeNum.ofNat_of_lt layout.size_lt, SafeNum.ofNat_of_lt layout.align_lt]
    show (SafeNum.valid layout.size + SafeNum.ofNat (layout.align + 8)).toU64 = _
    by_cases hfits : layout.align + 8 < 2 ^ 64
    · rw [SafeNum.ofNat_of_lt hfits, SafeNum.valid_add, SafeNum.ofNat_of_ge hover]
      rfl
    · rw [SafeNum.ofNat_of_ge (by omega)]
      rfl
  apply alloc_run_err
  rw [allocChecked, if_neg halign]
  refine bind_run_error ?_
  rw [lift_run, hsize]

theorem poolSize_toU64 (halign : ¬ layout.align ≤ efiAllocatePoolAlignment)
    (hfits : layout.size + (layout.align + 8) < 2 ^ 64) :
    ((layout.size : SafeNum) + ((layout.align : SafeNum) + 8)).toU64 = .ok layout.poolSize := by
  rw [SafeNum.ofNat_of_lt layout.size_lt, SafeNum.ofNat_of_lt layout.align_lt]
  show (SafeNum.valid layout.size + SafeNum.ofNat (layout.align + 8)).toU64 = _
  rw [SafeNum.ofNat_of_lt (by omega), SafeNum.valid_add, Layout.poolSize, if_neg halign]
  exact SafeNum.toU64_ofNat_of_lt hfits

def Layout.marked (layout : Layout) (base : Nat) (m : Content) : Content :=
  if layout.align ≤ efiAllocatePoolAlignment then m
  else store m (base + layout.shift base + layout.size) (leBytes 8 (layout.shift base))

theorem alloc_cases (pool : P.Pool) (layout : Layout) (w : EfiAllocator φ × Content) :
    (∃ f, alloc P layout w = (.ok 0, (⟨w.1.state, f⟩, w.2)) ∧ pool.blocks f = pool.blocks w.1.firmware ∧
      (w.1.state = .initialized → layout.poolSize < 2 ^ 64 →
        ∀ p, (P.allocatePool layout.poolSize w.1.firmware).1 = .ok p → p = 0)) ∨
    (∃ base f, w.1.state = .initialized ∧ base ≠ 0 ∧ P.allocatePool layout.poolSize w.1.firmware = (.ok base, f) ∧
      alloc P layout w = (.ok (base + layout.shift base), (⟨.initialized, f⟩, layout.marked base w.2))) := by
  by_cases halign : layout.align ≤ efiAllocatePoolAlignment
  · have hsize : layout.poolSize = layout.size := if_pos halign
    by_cases hstate : w.1.state = .initialized
    · obtain ⟨base, f, hrun, hgrant, hnull⟩ := allocate_run pool layout.poolSize hstate
      have haligned : base % efiAllocatePoolAlignment = 0 := by
        by_cases h0 : base = 0
        · rw [h0, Nat.zero_mod]
        · exact (pool.granted (hgrant h0) h0).1
      have halloc : alloc P layout w = (.ok base, (⟨.initialized, f⟩, w.2)) := by
        apply alloc_run_ok
        rw [allocChecked, if_pos halign, ← hsize, bind_run_ok hrun]
        exact assert_bind_run_true (by simpa using haligned)
      by_cases h0 : base = 0
      · subst h0
        exact .inl ⟨f, by rw [halloc, hstate], (hnull rfl).1, fun _ _ => (hnull rfl).2⟩
      · refine .inr ⟨base, f, hstate, h0, hgrant h0, ?_⟩
        rw [halloc, Layout.shift, if_pos halign, Layout.marked, if_pos halign]
        rfl
    · refine .inl ⟨w.1.firmware, alloc_run_ok ?_, rfl, fun h => absurd h hstate⟩
      rw [allocChecked, if_pos halign, bind_run_ok (allocate_run_idle _ hstate)]
      exact assert_bind_run_true (by simp)
  · by_cases hfits : layout.size + (layout.align + 8) < 2 ^ 64
    · have hsize := poolSize_toU64 halign hfits
      by_cases hstate : w.1.state = .initialized
      · obtain ⟨base, f, hrun, hgrant, hnull⟩ := allocate_run pool layout.poolSize hstate
        by_cases h0 : base = 0
        · subst h0
          refine .inl ⟨f, ?_, (hnull rfl).1, fun _ _ => (hnull rfl).2⟩
          rw [hstate]
          apply alloc_run_err
          rw [allocChecked, if_neg halign, bind_run_ok (lift_run_ok hsize w), bind_run_ok hrun, if_pos rfl]
          rfl
        · refine .inr ⟨base, f, hstate, h0, hgrant h0, alloc_run_ok ?_⟩
          rw [allocChecked, if_neg halign, bind_run_ok (lift_run_ok hsize w), bind_run_ok hrun, if_neg h0,
            Layout.marked, if_neg halign, Layout.shift, if_neg halign]
          rfl
      · refine .inl ⟨w.1.firmware, ?_, rfl, fun h => absurd h hstate⟩
        apply alloc_run_err
        rw [allocChecked, if_neg halign, bind_run_ok (lift_run_ok hsize w),
          bind_run_ok (allocate_run_idle _ hstate), if_pos rfl]
        rfl
    · refine .inl ⟨w.1.firmware, alloc_overflows halign (Nat.not_lt.mp hfits), rfl, fun _ hlt => ?_⟩
      rw [Layout.poolSize, if_neg halign] at hlt
      exact absurd hlt hfits

theorem alloc_ne_null_iff (pool : P.Pool) (layout : Layout) (w : EfiAllocator φ × Content) :
    (∃ ptr ≠ 0, (alloc P layout w).1 = .ok ptr) ↔ w.1.state = .initialized ∧ layout.poolSize < 2 ^ 64 ∧
      ∃ base ≠ 0, (P.allocatePool layout.poolSize w.1.firmware).1 = .ok base := by
  rcases alloc_cases pool layout w with ⟨f, hnull, -, hrefused⟩ | ⟨base, f, hstate, hne, hcall, hsome⟩
  · refine iff_of_false ?_ ?_
    · rintro ⟨ptr, hptr, hok⟩
      rw [hnull] at hok
      exact hptr (Except.ok.inj hok).symm
    · rintro ⟨hstate, hlt, base, hne, hbase⟩
      exact hne (hrefused hstate hlt base hbase)
  · refine iff_of_true ⟨base + layout.shift base, by omega, by rw [hsome]⟩ ⟨hstate, ?_, base, hne, by rw [hcall]⟩
    have hstop := (pool.granted hcall hne).2.1
    omega

end Calls

/-! ## The allocator and its callers -/

structure Allocation where
  ptr : Nat
  layout : Layout
  block : Extent
  deriving DecidableEq

namespace Allocation

def payload (a : Allocation) : Extent := ⟨a.ptr, a.layout.size⟩

def footprint (a : Allocation) : Extent :=
  ⟨a.ptr, a.layout.size + if a.layout.align ≤ efiAllocatePoolAlignment then 0 else 8⟩

structure Honoured (a : Allocation) (m : Content) : Prop where
  ptr_eq : a.ptr = a.block.start + a.layout.shift a.block.start
  len_eq : a.block.len = a.layout.poolSize
  aligned : a.block.start % efiAllocatePoolAlignment = 0
  stop_le : a.block.stop ≤ 2 ^ 64
  marked : ¬ a.layout.align ≤ efiAllocatePoolAlignment →
    leValue (slice m (a.ptr + a.layout.size) 8) = a.layout.shift a.block.start

def Apart (a b : Allocation) : Prop := a.block.Disjoint b.block ∧ a.block.start ≠ b.block.start

end Allocation

structure Heap (φ : Type) where
  machine : EfiAllocator φ × Content
  live : List Allocation

inductive Step (P : BootServices φ) : Heap φ → Heap φ → Prop
  | alloc {h : Heap φ} (layout : Layout) {ptr base : Nat} {w : EfiAllocator φ × Content}
      (hrun : Efi.alloc P layout h.machine = (.ok ptr, w)) (hne : ptr ≠ 0)
      (hbase : (P.allocatePool layout.poolSize h.machine.1.firmware).1 = .ok base) :
      Step P h ⟨w, ⟨ptr, layout, ⟨base, layout.poolSize⟩⟩ :: h.live⟩
  | refused {h : Heap φ} (layout : Layout) {w : EfiAllocator φ × Content}
      (hrun : Efi.alloc P layout h.machine = (.ok 0, w)) : Step P h ⟨w, h.live⟩
  | write {h : Heap φ} {a : Allocation} (ha : a ∈ h.live) (off : Nat) (data : List UInt8)
      (hfits : off + data.length ≤ a.layout.size) :
      Step P h ⟨(h.machine.1, store h.machine.2 (a.ptr + off) data), h.live⟩
  | elsewhere {h : Heap φ} (m : Content) (hkeep : ∀ a ∈ h.live, ∀ i ∈ a.block, m i = h.machine.2 i) :
      Step P h ⟨(h.machine.1, m), h.live⟩
  | dealloc {h : Heap φ} {a : Allocation} (ha : a ∈ h.live) :
      Step P h ⟨(Efi.dealloc P a.ptr a.layout h.machine).2, h.live.erase a⟩
  | exitBootServices {h : Heap φ} :
      Step P h ⟨({ h.machine.1 with state := .exited }, h.machine.2), h.live⟩

def Heap.initial (f : φ) (m : Content) : Heap φ := ⟨(⟨.initialized, f⟩, m), []⟩

structure Heap.Sound {P : BootServices φ} (pool : P.Pool) (h : Heap φ) : Prop where
  honoured : ∀ a ∈ h.live, a.Honoured h.machine.2
  granted : h.machine.1.state = .initialized → ∀ a ∈ h.live, a.block ∈ pool.blocks h.machine.1.firmware
  apart : h.live.Pairwise Allocation.Apart

section Soundness

variable {P : BootServices φ} {pool : P.Pool} {h h' : Heap φ} {a b : Allocation} {m : Content}

namespace Allocation

theorem Honoured.footprint_within (ha : a.Honoured m) : a.footprint.Within a.block := by
  have hshift := a.layout.shift_le a.block.start
  refine ⟨?_, ?_⟩
  · show a.block.start ≤ a.ptr
    rw [ha.ptr_eq]
    exact Nat.le_add_right ..
  · show a.ptr + (a.layout.size + _) ≤ a.block.start + a.block.len
    rw [ha.ptr_eq, ha.len_eq]
    omega

theorem payload_within_footprint (a : Allocation) : a.payload.Within a.footprint :=
  ⟨Nat.le_refl _, Nat.add_le_add_left (Nat.le_add_right ..) _⟩

theorem Honoured.payload_within (ha : a.Honoured m) : a.payload.Within a.block :=
  ⟨a.payload_within_footprint.1.trans' ha.footprint_within.1, a.payload_within_footprint.2.trans ha.footprint_within.2⟩

theorem Honoured.word_mem (ha : a.Honoured m) (halign : ¬ a.layout.align ≤ efiAllocatePoolAlignment) {i : Nat}
    (hlo : a.ptr + a.layout.size ≤ i) (hhi : i < a.ptr + a.layout.size + 8) : i ∈ a.block := by
  refine ha.footprint_within.mem ⟨?_, ?_⟩
  · exact (Nat.le_add_right ..).trans hlo
  · show i < a.ptr + (a.layout.size + _)
    rw [if_neg halign]
    omega

theorem Honoured.congr {m' : Content} (ha : a.Honoured m)
    (h : ∀ i, a.ptr + a.layout.size ≤ i → i ∈ a.block → m' i = m i) : a.Honoured m' := by
  refine { ha with marked := fun halign => ?_ }
  rw [← ha.marked halign]
  congr 1
  exact slice_congr fun i hlo hhi => h i hlo (ha.word_mem halign hlo hhi)

theorem honoured_marked {layout : Layout} {base : Nat} (hbase : base % efiAllocatePoolAlignment = 0)
    (hstop : base + layout.poolSize ≤ 2 ^ 64) (m : Content) :
    (⟨base + layout.shift base, layout, ⟨base, layout.poolSize⟩⟩ : Allocation).Honoured (layout.marked base m) where
  ptr_eq := rfl
  len_eq := rfl
  aligned := hbase
  stop_le := hstop
  marked := by
    intro halign
    have hshift := layout.shift_le base
    rw [if_neg halign] at hshift
    have hword := slice_store m (base + layout.shift base + layout.size) (leBytes 8 (layout.shift base))
    rw [length_leBytes] at hword
    show leValue (slice (layout.marked base m) (base + layout.shift base + layout.size) 8) = layout.shift base
    rw [Layout.marked, if_neg halign, hword]
    apply leValue_leBytes
    show layout.shift base < 2 ^ 64
    omega

end Allocation

theorem dealloc_eq {w : EfiAllocator φ × Content} (ha : a.Honoured w.2) :
    dealloc P a.ptr a.layout w = deallocate P a.block.start w := by
  have hstop := ha.stop_le
  have hwithin := ha.footprint_within
  unfold dealloc
  split
  · next halign =>
    rw [ha.ptr_eq, Layout.shift, if_pos halign]
    rfl
  · next halign =>
    show deallocate P ((a.ptr + (2 ^ 64 - leValue (slice w.2 (a.ptr + a.layout.size) 8))) % 2 ^ 64) w = _
    rw [ha.marked halign]
    have hback : (a.ptr + (2 ^ 64 - a.layout.shift a.block.start)) % 2 ^ 64 = a.block.start := by
      have hlt : a.ptr < 2 ^ 64 := by
        have hin := ha.word_mem halign (Nat.le_refl _) (Nat.lt_add_of_pos_right (by decide))
        exact (Nat.le_add_right ..).trans_lt (hin.2.trans_le hstop)
      have heq := ha.ptr_eq
      rw [show a.ptr + (2 ^ 64 - a.layout.shift a.block.start) = a.block.start + 2 ^ 64 by omega, Nat.add_mod_right]
      exact Nat.mod_eq_of_lt (by omega)
    rw [hback]

theorem deallocate_snd (w : EfiAllocator φ × Content) (p : Nat) : (deallocate P p w).2 =
      (⟨w.1.state, if w.1.state = .initialized then (P.freePool p w.1.firmware).2 else w.1.firmware⟩, w.2) := by
  obtain ⟨⟨state, firmware⟩, m⟩ := w
  cases state with
  | uninitialized => rfl
  | initialized =>
    show ((attempt (onFirmware (P.freePool p)) >>= fun _ => pure ()) _).2 = _
    rw [bind_snd_of_const (fun _ _ => rfl), attempt_snd]
    rfl
  | exited => rfl

instance : Std.Symm Allocation.Apart := ⟨fun _ _ hab => ⟨hab.1.symm, hab.2.symm⟩⟩

namespace Heap.Sound

theorem initial (f : φ) (m : Content) : (Heap.initial f m).Sound pool where
  honoured := fun _ ha => absurd ha List.not_mem_nil
  granted := fun _ _ ha => absurd ha List.not_mem_nil
  apart := List.Pairwise.nil

theorem apart_of_mem (hs : h.Sound pool) (ha : a ∈ h.live) (hb : b ∈ h.live) (hab : a ≠ b) : a.Apart b :=
  hs.apart.forall ha hb hab

theorem of_memory (hs : h.Sound pool)
    (hkeep : ∀ a ∈ h.live, ∀ i, a.ptr + a.layout.size ≤ i → i ∈ a.block → m i = h.machine.2 i) :
    (⟨(h.machine.1, m), h.live⟩ : Heap φ).Sound pool where
  honoured := fun a ha => (hs.honoured a ha).congr (hkeep a ha)
  granted := hs.granted
  apart := hs.apart

theorem refused (hs : h.Sound pool) (layout : Layout) {w : EfiAllocator φ × Content}
    (hrun : alloc P layout h.machine = (.ok 0, w)) : (⟨w, h.live⟩ : Heap φ).Sound pool := by
  rcases alloc_cases pool layout h.machine with ⟨f, hnull, hblocks, -⟩ | ⟨base, f, -, hne, -, hsome⟩
  · obtain rfl := congrArg Prod.snd (hrun.symm.trans hnull)
    exact ⟨hs.honoured, fun hstate a ha => hblocks ▸ hs.granted hstate a ha, hs.apart⟩
  · have hptr := Except.ok.inj (congrArg Prod.fst (hrun.symm.trans hsome))
    omega

theorem alloc (hs : h.Sound pool) (layout : Layout) {ptr base : Nat} {w : EfiAllocator φ × Content}
    (hrun : Efi.alloc P layout h.machine = (.ok ptr, w)) (hne : ptr ≠ 0)
    (hbase : (P.allocatePool layout.poolSize h.machine.1.firmware).1 = .ok base) :
    (⟨w, ⟨ptr, layout, ⟨base, layout.poolSize⟩⟩ :: h.live⟩ : Heap φ).Sound pool := by
  rcases alloc_cases pool layout h.machine with ⟨f, hnull, -⟩ | ⟨base', f, hstate, hne', hcall, hsome⟩
  · exact absurd (Except.ok.inj (congrArg Prod.fst (hrun.symm.trans hnull))) hne
  obtain rfl : base' = base := by
    rw [hcall] at hbase
    exact Except.ok.inj hbase
  obtain ⟨rfl, rfl⟩ : ptr = base' + layout.shift base' ∧ w = (⟨.initialized, f⟩, layout.marked base' h.machine.2) := by
    have heq := hrun.symm.trans hsome
    exact ⟨Except.ok.inj (congrArg Prod.fst heq), congrArg Prod.snd heq⟩
  obtain ⟨haligned, hstop, hfresh, hblocks⟩ := pool.granted hcall hne'
  have hnew := Allocation.honoured_marked haligned hstop h.machine.2
  refine ⟨?_, ?_, ?_⟩
  · -- The offset is stored inside the new block, away from the others.
    intro a ha
    rcases List.mem_cons.mp ha with rfl | ha
    · exact hnew
    · refine (hs.honoured a ha).congr fun i _ hi => ?_
      show layout.marked base' h.machine.2 i = h.machine.2 i
      unfold Layout.marked
      split
      · rfl
      · next halign =>
        apply store_apply_of_not_mem
        rw [length_leBytes]
        rintro ⟨hlo, hhi⟩
        have hdisj := (hfresh _ (hs.granted hstate a ha)).1
        exact hdisj i hi (hnew.word_mem halign hlo hhi)
  · intro _ a ha
    rw [hblocks]
    rcases List.mem_cons.mp ha with rfl | ha
    · exact List.mem_cons_self ..
    · exact List.mem_cons_of_mem _ (hs.granted hstate a ha)
  · refine List.pairwise_cons.mpr ⟨fun a ha => ?_, hs.apart⟩
    obtain ⟨hdisj, hstart⟩ := hfresh _ (hs.granted hstate a ha)
    exact ⟨hdisj.symm, hstart.symm⟩

theorem write (hs : h.Sound pool) (ha : a ∈ h.live) (off : Nat) (data : List UInt8)
    (hfits : off + data.length ≤ a.layout.size) :
    (⟨(h.machine.1, store h.machine.2 (a.ptr + off) data), h.live⟩ : Heap φ).Sound pool := by
  refine hs.of_memory fun b hb i hword hi => store_apply_of_not_mem _ ?_
  rintro ⟨hlo, hhi⟩
  by_cases hab : a = b
  · subst hab
    omega
  · -- The owner of another block does not reach this one.
    have hin : i ∈ a.payload := by
      refine ⟨?_, ?_⟩
      · show a.ptr ≤ i
        omega
      · show i < a.ptr + a.layout.size
        omega
    exact (hs.apart_of_mem ha hb hab).1 i ((hs.honoured a ha).payload_within.mem hin) hi

theorem dealloc (hs : h.Sound pool) (ha : a ∈ h.live) :
    (⟨(Efi.dealloc P a.ptr a.layout h.machine).2, h.live.erase a⟩ : Heap φ).Sound pool := by
  have hmem : ∀ {b}, b ∈ h.live.erase a → b ∈ h.live := fun hb => List.mem_of_mem_erase hb
  rw [dealloc_eq (hs.honoured a ha), deallocate_snd]
  refine ⟨fun b hb => hs.honoured b (hmem hb), ?_, hs.apart.sublist List.erase_sublist⟩
  intro hstate b hb
  -- Pairwise distinct pointers, so no other block in use is equal to this one.
  have hne : a ≠ b := by
    have hnodup : h.live.Nodup := hs.apart.imp fun hab heq => hab.2 (by rw [heq])
    exact fun heq => (hnodup.mem_erase_iff.mp hb).1 heq.symm
  show b.block ∈ pool.blocks (if h.machine.1.state = .initialized then _ else _)
  rw [if_pos hstate]
  exact pool.freed _ _ _ (hs.granted hstate b (hmem hb)) (hs.apart_of_mem ha (hmem hb) hne).2.symm

theorem step (hs : h.Sound pool) (hstep : Step P h h') : h'.Sound pool := by
  cases hstep with
  | alloc layout hrun hne hbase => exact hs.alloc layout hrun hne hbase
  | refused layout hrun => exact hs.refused layout hrun
  | write ha off data hfits => exact hs.write ha off data hfits
  | elsewhere m hkeep => exact hs.of_memory fun a ha i _ hi => hkeep a ha i hi
  | dealloc ha => exact hs.dealloc ha
  | exitBootServices => exact ⟨hs.honoured, fun hstate => (nomatch hstate), hs.apart⟩

theorem run (hs : h.Sound pool) (hrun : Relation.ReflTransGen (Step P) h h') : h'.Sound pool := by
  induction hrun with
  | refl => exact hs
  | tail _ hstep ih => exact ih.step hstep

end Heap.Sound

theorem alloc_returns (pool : P.Pool) (layout : Layout) (w : EfiAllocator φ × Content) :
    (alloc P layout w).1.Returns := by
  rcases alloc_cases pool layout w with ⟨f, hrun, -⟩ | ⟨base, f, -, -, -, hrun⟩
  · rw [hrun]
    trivial
  · rw [hrun]
    trivial

/-- At any time of any run of the allocator and its callers: every block in use is aligned as its layout
says and lies, with the hidden word, in the block of the pool that was granted for it; blocks in use are
disjoint; giving one back passes the start of its block of the pool to `FreePool`, whatever was written in between;
the allocator does not panic, gives memory exactly if the firmware grants the padded size, and refuses padding that
overflows without a call of the firmware. -/
theorem allocator_honours_layouts (pool : P.Pool) {f : φ}
    (hrun : Relation.ReflTransGen (Step P) (Heap.initial f m) h) :
    (∀ a ∈ h.live, a.layout.align ∣ a.ptr ∧ a.footprint.Within a.block) ∧
    h.live.Pairwise (fun a b => a.payload.Disjoint b.payload) ∧
    (∀ a ∈ h.live, (dealloc P a.ptr a.layout h.machine).2 =
      ({ h.machine.1 with firmware :=
          if h.machine.1.state = .initialized then (P.freePool a.block.start h.machine.1.firmware).2
          else h.machine.1.firmware }, h.machine.2)) ∧
    (∀ layout, (alloc P layout h.machine).1.Returns) ∧
    (∀ layout, (∃ ptr ≠ 0, (alloc P layout h.machine).1 = .ok ptr) ↔
      h.machine.1.state = .initialized ∧ layout.poolSize < 2 ^ 64 ∧
        ∃ base ≠ 0, (P.allocatePool layout.poolSize h.machine.1.firmware).1 = .ok base) ∧
    (∀ layout : Layout, ¬ layout.align ≤ efiAllocatePoolAlignment →
      2 ^ 64 ≤ layout.size + (layout.align + 8) → alloc P layout h.machine = (.ok 0, h.machine)) := by
  have hs : h.Sound pool := (Heap.Sound.initial f m).run hrun
  refine ⟨fun a ha => ?_, ?_, fun a ha => by rw [dealloc_eq (hs.honoured a ha), deallocate_snd],
    fun layout => alloc_returns pool layout _, fun layout => alloc_ne_null_iff pool layout _,
      fun layout halign hover => alloc_overflows halign hover⟩
  · have hhon := hs.honoured a ha
    refine ⟨?_, hhon.footprint_within⟩
    rw [hhon.ptr_eq]
    exact a.layout.align_dvd hhon.aligned
  · refine hs.apart.imp_of_mem fun {a b} ha hb hab => ?_
    exact hab.1.mono (hs.honoured a ha).payload_within (hs.honoured b hb).payload_within

end Soundness

/-! A firmware that hands out ever higher addresses, and a block of a hundred bytes on a cache line. -/

structure BumpPool where
  next : Nat
  blocks : List Extent
  below : ∀ b ∈ blocks, b.start < 8 * (next + 1) ∧ b.stop ≤ 8 * (next + 1)

namespace BumpPool

def empty : BumpPool := ⟨0, [], nofun⟩

theorem below_grant (f : BumpPool) (n : Nat) (b : Extent) (hb : b ∈ ⟨8 * (f.next + 1), n⟩ :: f.blocks) :
    b.start < 8 * (f.next + n / 8 + 1 + 1) ∧ b.stop ≤ 8 * (f.next + n / 8 + 1 + 1) := by
  rcases List.mem_cons.mp hb with rfl | hb
  · simp only [Extent.stop]
    omega
  · have hb := f.below b hb
    omega

def grant (f : BumpPool) (n : Nat) : BumpPool where
  next := f.next + n / 8 + 1
  blocks := ⟨8 * (f.next + 1), n⟩ :: f.blocks
  below := f.below_grant n

def take (f : BumpPool) (p : Nat) : BumpPool where
  next := f.next
  blocks := f.blocks.filter (·.start ≠ p)
  below := fun b hb => f.below b (List.mem_of_mem_filter hb)

def services : BootServices BumpPool where
  allocatePool n := fun f =>
    if 8 * (f.next + 1) + n ≤ 2 ^ 64 then (.ok (8 * (f.next + 1)), f.grant n) else (err .outOfResources, f)
  freePool p := modify (take · p)

def pool : services.Pool where
  blocks := blocks
  returns n f := by
    unfold services
    dsimp only
    split
    · trivial
    · trivial
  granted := by
    intro n f p f' hrun hne
    simp only [services] at hrun
    split at hrun
    · next hfits =>
      obtain ⟨hp, rfl⟩ := Prod.mk.inj hrun
      obtain rfl := Except.ok.inj hp
      refine ⟨Nat.mul_mod_right .., hfits, fun b hb => ?_, rfl⟩
      have hbelow := f.below b hb
      refine ⟨Extent.disjoint_iff.mpr ?_, by omega⟩
      exact .inr (.inr (.inl hbelow.2))
    · exact absurd (congrArg Prod.fst hrun) Res.error_ne_ok
  refused := by
    intro n f r f' hrun hnull
    simp only [services] at hrun
    split at hrun
    · obtain ⟨rfl, rfl⟩ := Prod.mk.inj hrun
      exact absurd (hnull _ rfl) (by omega)
    · rw [← (Prod.mk.inj hrun).2]
  freed p f b hb hne := List.mem_filter.mpr ⟨hb, by simpa using hne⟩

def lineLayout : Layout := ⟨100, 64, by decide, by decide, 6, rfl⟩

def oneLine : Heap BumpPool :=
  ⟨(alloc services lineLayout (Heap.initial empty fun _ => 0).machine).2, [⟨64, lineLayout, ⟨8, 172⟩⟩]⟩

end BumpPool

/-- The pool block at 8 is freed, and not the pointer 64 that the caller had. -/
theorem allocator_honours_layouts_line :
    (dealloc BumpPool.services 64 BumpPool.lineLayout BumpPool.oneLine.machine).2.1.firmware.blocks = [] := by
  have hstep : Step BumpPool.services (Heap.initial BumpPool.empty fun _ => 0) BumpPool.oneLine :=
    .alloc BumpPool.lineLayout rfl (by decide) rfl
  have hfreed := (allocator_honours_layouts BumpPool.pool (.single hstep)).2.2.1 _ (List.mem_singleton_self _)
  rw [hfreed]
  rfl

end Gbl.Efi
