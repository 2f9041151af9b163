import Gbl.Storage.Algorithm
import Gbl.Lib.Align

/-!
# How `split_scratch` cuts the scratch buffer

Two successive round-ups to the alignment: the first finds the part for misaligned buffers, the second starts right
behind its `alignment - 1` bytes and finds the part for partial blocks.
-/

namespace Gbl.Storage

open Lib

theorem alignedSubslice_eq (bytes : Slice) {al : Nat} (hal : al < 2 ^ 64) : alignedSubslice bytes al =
      if 0 < al ∧ bytes.addr + al < 2 ^ 64 then
        if gap bytes.addr al ≤ bytes.len then
          .ok ⟨bytes.addr + gap bytes.addr al, bytes.len - gap bytes.addr al⟩
        else err (.bufferTooSmall (some (gap bytes.addr al)))
      else err .arithmeticOverflow := by
  unfold alignedSubslice
  dsimp only
  rw [SafeNum.ofNat_of_lt hal]
  split
  · next h =>
    obtain ⟨hpos, hlt⟩ := h
    rw [SafeNum.ofNat_of_lt (show bytes.addr < 2 ^ 64 by omega), SafeNum.roundUp_valid hpos hlt,
      add_pred_sub_mod _ hpos, SafeNum.valid_sub, if_pos (by omega), Nat.add_sub_cancel_left]
    rfl
  · next h =>
    have hbad : SafeNum.roundUp (SafeNum.ofNat bytes.addr) (.valid al) = .error := by
      rcases Nat.eq_zero_or_pos al with rfl | hpos
      · exact SafeNum.roundUp_zero _
      · rcases Nat.lt_or_ge bytes.addr (2 ^ 64) with ha | ha
        · rw [SafeNum.ofNat_of_lt ha]
          exact SafeNum.roundUp_error_of_ge (by omega)
        · rw [SafeNum.ofNat_of_ge ha]
          rfl
    rw [hbad]
    rfl

theorem alignedSubslice_eq_ok_iff (bytes out : Slice) {al : Nat} (hal : al < 2 ^ 64) :
    alignedSubslice bytes al = .ok out ↔ 0 < al ∧ bytes.addr + al < 2 ^ 64 ∧ gap bytes.addr al ≤ bytes.len ∧
        out = ⟨bytes.addr + gap bytes.addr al, bytes.len - gap bytes.addr al⟩ := by
  rw [alignedSubslice_eq bytes hal]
  constructor
  · intro h
    split at h
    · split at h
      · next h₁ h₂ => cases h; exact ⟨h₁.1, h₁.2, h₂, rfl⟩
      · cases h
    · cases h
  · rintro ⟨h₁, h₂, h₃, rfl⟩
    rw [if_pos ⟨h₁, h₂⟩, if_pos h₃]

theorem sub_one_toU64 (info : BlockInfo) (hal : 0 < info.alignment) :
    ((info.alignment : SafeNum) - 1).toU64 = .ok (info.alignment - 1) := by
  rw [SafeNum.ofNat_of_lt info.alignment_lt, SafeNum.one_eq, SafeNum.valid_sub, if_pos (by omega)]
  rfl

def BlockInfo.skip (info : BlockInfo) : Nat := if info.alignment = 1 then 0 else 1

theorem gap_behind_first {info : BlockInfo} (hal : 0 < info.alignment) {a : Nat} (ha : a % info.alignment = 0) :
    gap (a + (info.alignment - 1)) info.alignment = info.skip := by
  unfold BlockInfo.skip
  split
  · next h1 => rw [h1]; exact gap_of_aligned (Nat.mod_one _)
  · next h1 =>
    refine gap_of_succ_aligned (by omega) ?_
    rw [Nat.add_assoc, Nat.sub_add_cancel hal, Nat.add_mod_right, ha]

def firstAddr (info : BlockInfo) (addr : Nat) : Nat := addr + gap addr info.alignment

def secondAddr (info : BlockInfo) (addr : Nat) : Nat :=
  firstAddr info addr + (info.alignment - 1) + info.skip

theorem firstAddr_mod (info : BlockInfo) (hal : 0 < info.alignment) (addr : Nat) :
    firstAddr info addr % info.alignment = 0 := add_gap_mod addr hal

theorem secondAddr_mod (info : BlockInfo) (hal : 0 < info.alignment) (addr : Nat) :
    secondAddr info addr % info.alignment = 0 := by
  unfold secondAddr
  rw [← gap_behind_first hal (firstAddr_mod info hal addr)]
  exact add_gap_mod _ hal

theorem splitScratch_eq_ok_iff (info : BlockInfo) (scratch : Slice) (parts : Slice × Slice) :
    splitScratch info scratch = .ok parts ↔ (0 < info.alignment ∧ scratch.addr + info.alignment < 2 ^ 64 ∧
        firstAddr info scratch.addr + (info.alignment - 1) + info.alignment < 2 ^ 64 ∧
        secondAddr info scratch.addr + info.blockScratch ≤ scratch.addr + scratch.len) ∧
      parts = (⟨firstAddr info scratch.addr, info.alignment - 1⟩,
        ⟨secondAddr info scratch.addr, info.blockScratch⟩) := by
  unfold splitScratch
  rw [Res.bind_eq_ok]
  constructor
  · rintro ⟨aligned, haligned, h⟩
    obtain ⟨hal, hlt, hgap, rfl⟩ := (alignedSubslice_eq_ok_iff _ _ info.alignment_lt).mp haligned
    rw [sub_one_toU64 info hal, Res.ok_bind] at h
    split at h
    · next hmid =>
      obtain ⟨block, hblock, h⟩ := Res.bind_eq_ok.mp h
      obtain ⟨-, hlt', hgap', rfl⟩ := (alignedSubslice_eq_ok_iff _ _ info.alignment_lt).mp hblock
      have hskip := gap_behind_first hal (firstAddr_mod info hal scratch.addr)
      unfold secondAddr
      unfold firstAddr at hskip ⊢
      simp only [hskip] at hgap' hmid hlt' h
      split at h
      · next hsize =>
        cases h
        exact ⟨⟨hal, hlt, hlt', by omega⟩, rfl⟩
      · cases h
    · cases h
  · rintro ⟨⟨hal, hlt, hlt', hend⟩, rfl⟩
    have hskip := gap_behind_first hal (firstAddr_mod info hal scratch.addr)
    unfold secondAddr at hend ⊢
    unfold firstAddr at hskip hlt' hend ⊢
    refine ⟨_, (alignedSubslice_eq_ok_iff _ _ info.alignment_lt).mpr ⟨hal, hlt, by omega, rfl⟩, ?_⟩
    rw [sub_one_toU64 info hal, Res.ok_bind, if_pos (by dsimp only; omega), Res.bind_eq_ok]
    refine ⟨_, (alignedSubslice_eq_ok_iff _ _ info.alignment_lt).mpr ⟨hal, hlt', by dsimp only; omega, rfl⟩, ?_⟩
    simp only [hskip]
    rw [if_pos (by omega)]
    rfl

theorem scratchSize_eq_ok_iff (info : BlockInfo) (sz : Nat) : scratchSize info = .ok sz ↔
      0 < info.alignment ∧ sz = (info.alignment - 1) * 2 + info.blockScratch ∧ sz < 2 ^ 64 := by
  have hbs : info.blockScratch < 2 ^ 64 := by
    have := info.blockSize_lt
    unfold BlockInfo.blockScratch
    split <;> omega
  unfold scratchSize
  rw [SafeNum.toU64_eq_ok, SafeNum.ofNat_of_lt info.alignment_lt, SafeNum.ofNat_of_lt hbs,
    SafeNum.one_eq, SafeNum.valid_sub]
  rcases Nat.eq_zero_or_pos info.alignment with h0 | hal
  · rw [if_neg (by omega)]
    constructor
    · intro h; cases h
    · rintro ⟨h, -⟩; omega
  · rw [if_pos (by omega)]
    show SafeNum.ofNat ((info.alignment - 1) * 2) + SafeNum.valid info.blockScratch = .valid sz ↔ _
    rcases Nat.lt_or_ge ((info.alignment - 1) * 2) (2 ^ 64) with h2 | h2
    · rw [SafeNum.ofNat_of_lt h2, SafeNum.valid_add]
      rcases Nat.lt_or_ge ((info.alignment - 1) * 2 + info.blockScratch) (2 ^ 64) with h3 | h3
      · rw [SafeNum.ofNat_of_lt h3]
        constructor
        · intro h; cases h; exact ⟨hal, rfl, h3⟩
        · rintro ⟨-, rfl, -⟩; rfl
      · rw [SafeNum.ofNat_of_ge h3]
        constructor
        · intro h; cases h
        · rintro ⟨-, rfl, h⟩; omega
    · rw [SafeNum.ofNat_of_ge h2, SafeNum.error_add]
      constructor
      · intro h; cases h
      · rintro ⟨-, rfl, h⟩; omega

end Gbl.Storage
