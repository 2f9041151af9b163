import Gbl.Android.Verify

/-!
# What a load that succeeds has done

The stages put together: for each of the two loaders, and then for `android_load_verify`, what is where in memory at
the end, in terms of the bytes the storage answered with and of the result of verification.
-/

namespace Gbl.Android

open Lib Lib.Exec BootParams
open Fastboot (Bytes Text text)
open BootConfigBuilder (Appends)

variable {ω : Type} {P : GblOps ω} {C : Codecs} {s s' : LoadState ω}

theorem onMem_ok {ε α : Type} {f : Exec ε Content α} {a : α} (h : onMem f s = (.ok a, s')) :
    f s.mem = (.ok a, s'.mem) ∧ s'.reads = s.reads ∧ s'.verified = s.verified := by
  obtain ⟨hval, rfl⟩ := Prod.mk.inj h
  exact ⟨Prod.ext hval rfl, rfl, rfl⟩

/-! ## Versions 3 and 4 -/

structure LoadedV3 [Bootimg] (P : GblOps ω) (C : Codecs) (slot : Nat) (additionalPartitions : Preloaded) (added : Bytes)
    (load : Extent) (out : LoadedImages) (images : V3Images) (avb fixup : Bytes) (s s₁ s' : LoadState ω) : Prop where
  read : ReadV3 P slot load images s s₁
  verified_eq : s'.verified = images.preloaded s₁.mem ++ additionalPartitions
  reads_eq : s'.reads = s₁.reads
  avb_parameters : AvbParameters P slot s'.verified s₁.ops avb
  fixup_text : FixupText P (avb ++ added) fixup
  placed : Placed load out
  ramdisk_eq : out.ramdisk.read s'.mem = images.vendorRamdisk.read s₁.mem ++ images.genericRamdisk.read s₁.mem ++
    bootconfigSection (avb ++ added ++ fixup ++ images.vendorBootconfig.read s₁.mem)
  kernel_eq : decompressed C (images.kernel.read s₁.mem) = some (out.kernel.read s'.mem)
  dtb_eq : out.dtb.read s'.mem = images.dtb.read s₁.mem
  bootCmdline_eq : BootImageV3Info.cmdline ((images.boot.take pageSize).read s₁.mem) = .ok out.bootCmdline
  vendorCmdline_eq : VendorBootImageInfo.cmdline ((images.vendorBoot.take images.vendorInfo.headerSize).read s₁.mem) =
    .ok out.vendorCmdline
  changes : load.Changes s.mem s'.mem

namespace V3Images

variable {images : V3Images} {load : Extent}

theorem Loaded.vendor_le (h : images.Loaded load) {r : Extent} (hr : r.stop ≤ images.vendorInfo.imageSize) :
    (images.vendorBoot.sub r).stop ≤ images.remains.start := by
  have hlen := h.vendor_len
  have hboot := h.boot_start
  have hinit := h.init_start
  have hremains := h.remains_start
  simp only [Extent.stop, Extent.sub] at *
  omega

theorem Loaded.boot_le (h : images.Loaded load) {r : Extent} (hr : r.stop ≤ images.bootInfo.imageSize) :
    (images.boot.sub r).stop ≤ images.remains.start := by
  have hlen := h.boot_len
  have hinit := h.init_start
  have hremains := h.remains_start
  simp only [Extent.stop, Extent.sub] at *
  omega

end V3Images

theorem BootImageV3Info.kernel_le (info : BootImageV3Info) : info.kernelRange.stop ≤ info.imageSize := by
  have hstart := info.ramdisk_start
  have hle := info.ramdisk_le
  simp only [Extent.stop] at *
  omega

theorem BootImageV3Info.page_le (info : BootImageV3Info) : pageSize ≤ info.imageSize := by
  have hstart := info.kernel_start
  have hle := info.kernel_le
  simp only [Extent.stop] at hle
  omega

theorem VendorBootImageInfo.dtbRange_le (info : VendorBootImageInfo) : info.dtbRange.stop ≤ info.imageSize := by
  have hge := info.bootconfig_ge
  have hle := info.bootconfig_le
  simp only [Extent.stop] at *
  omega

theorem VendorBootImageInfo.ramdisk_le (info : VendorBootImageInfo) : info.ramdiskRange.stop ≤ info.imageSize := by
  have hstart := info.dtb_start
  have hle := info.dtbRange_le
  simp only [Extent.stop] at *
  omega

theorem VendorBootImageInfo.headerSize_le (info : VendorBootImageInfo) : info.headerSize ≤ info.imageSize := by
  have hstart := info.ramdisk_start
  have hle := info.ramdisk_le
  simp only [Extent.stop] at hle
  omega

variable {slot : Nat} {additionalPartitions : Preloaded} {additional : Exec Error (Building ω) Unit}
  {added : Bytes} {load : Extent} {out : LoadedImages}

theorem loadVerifyV3AndV4_ok [Bootimg] (hadd : Appends additional added)
    (h : loadVerifyV3AndV4 P C slot additionalPartitions additional load s = (.ok out, s')) :
    ∃ images avb fixup s₁, LoadedV3 P C slot additionalPartitions added load out images avb fixup s s₁ s' := by
  obtain ⟨images, s₁, hload, h₁⟩ := bind_run_eq_ok h
  have hR := loadImagesV3_ok (unified_eq_ok hload)
  obtain ⟨n, s₂, hverify, harrange⟩ := bind_run_eq_ok h₁
  obtain ⟨avb, fixup, hV⟩ := verifyV3_ok hadd hverify
  obtain ⟨hrun, hreads, hverified⟩ := onMem_ok (unified_eq_ok harrange)
  have hA := arrangeV3_ok hR.loaded hrun
  have hL := hR.loaded
  -- Verification writes behind the images only.
  have hkeep : ∀ e : Extent, e.stop ≤ images.remains.start → e.read s₂.mem = e.read s₁.mem := fun e he =>
    hV.configured.changes.read_eq (Extent.disjoint_of_le he)
  refine ⟨images, avb, fixup, s₁, ?_⟩
  constructor
  case read => exact hR
  case verified_eq => rw [hverified, hV.verified_eq]
  case reads_eq => rw [hreads, hV.reads_eq]
  case avb_parameters =>
    rw [hverified]
    exact hV.avb_parameters
  case fixup_text => exact hV.fixup_text
  case placed => exact hA.placed
  case ramdisk_eq =>
    rw [hA.ramdisk_eq, hkeep images.vendorRamdisk (hL.vendor_le images.vendorInfo.ramdisk_le),
      hkeep _ hL.generic_between.2, hV.configured.config_eq]
  case kernel_eq =>
    rw [← hkeep images.kernel (hL.boot_le images.bootInfo.kernel_le)]
    exact hA.kernel_eq
  case dtb_eq =>
    rw [hA.dtb_eq, hkeep images.dtb (hL.vendor_le ?_)]
    have hle := images.vendorInfo.dtbRange_le
    have hsz := images.vendorInfo.dtb_le
    simp only [Extent.stop] at *
    omega
  case bootCmdline_eq =>
    have hle : (images.boot.take pageSize).stop ≤ images.remains.start :=
      hL.boot_le (show Extent.stop ⟨0, pageSize⟩ ≤ _ by simpa [Extent.stop] using images.bootInfo.page_le)
    rw [← hkeep _ hle]
    exact hA.bootCmdline_eq
  case vendorCmdline_eq =>
    have hle : (images.vendorBoot.take images.vendorInfo.headerSize).stop ≤ images.remains.start :=
      hL.vendor_le (show Extent.stop ⟨0, images.vendorInfo.headerSize⟩ ≤ _ by
        simpa [Extent.stop] using images.vendorInfo.headerSize_le)
    rw [← hkeep _ hle]
    exact hA.vendorCmdline_eq
  case changes =>
    have hremains : images.remains.Within load := by
      have hstop := hL.remains_stop
      have hle := hL.tiles.le
      refine ⟨?_, Nat.le_of_eq hstop⟩
      have hstart := hL.remains_start
      have hinit := hL.init_start
      have hboot := hL.boot_start
      have hvendor := hL.vendor_start
      simp only [Extent.stop] at *
      omega
    exact (hR.changes.trans (hV.configured.changes.mono hremains)).trans hA.changes

/-! ## Versions 0, 1 and 2 -/

theorem BootImageV2Info.kernel_le (info : BootImageV2Info) : info.kernelRange.stop ≤ info.imageSize := by
  have hramdisk := info.ramdisk_start
  have hle := info.ramdisk_le
  have hsize := info.image_size_eq
  simp only [Extent.stop] at *
  omega

theorem BootImageV2Info.ramdiskRange_le (info : BootImageV2Info) : info.ramdiskRange.stop ≤ info.imageSize := by
  have hle := info.ramdisk_le
  have hsize := info.image_size_eq
  simp only [Extent.stop] at *
  omega

theorem BootImageV2Info.dtbSz_le (info : BootImageV2Info) :
    (⟨info.dtbRange.start, info.dtbSz⟩ : Extent).stop ≤ info.imageSize := by
  have hle := info.dtb_le
  have hsize := info.image_size_eq
  simp only [Extent.stop] at *
  omega

theorem BootImageV2Info.pageSize_le (info : BootImageV2Info) : info.pageSize ≤ info.imageSize := by
  have hstart := info.kernel_start
  have hle := info.kernel_le
  simp only [Extent.stop] at hle
  omega

structure LoadedV2 [Bootimg] (P : GblOps ω) (C : Codecs) (slot : Nat) (additionalPartitions : Preloaded) (added : Bytes)
    (load : Extent) (out : LoadedImages) (first info : BootImageV2Info) (n : Nat) (avb fixup : Bytes)
    (s s₁ s₂ s' : LoadState ω) : Prop where
  first_eq : BootImageV2Info.new (load.read s.mem) = .ok first
  size_le : first.imageSize ≤ load.len
  boot : ∃ part, slottedPart "boot" slot = .ok part ∧ Answers P part 0 ((load.take first.imageSize).read s₁.mem)
  read_changes : (load.take first.imageSize).Changes s.mem s₁.mem
  subset_reads : s.reads ⊆ s'.reads
  verified : VerifiedV2 P slot additionalPartitions added (load.take first.imageSize) (load.drop first.imageSize) n avb
    fixup s₁ s₂
  verified_eq : s'.verified = s₂.verified
  arranged : ArrangedV2 C load first.imageSize n info out s₂.mem s'.mem
  changes : load.Changes s.mem s'.mem

theorem loadVerifyV2AndLower_ok [Bootimg] (hadd : Appends additional added)
    (h : loadVerifyV2AndLower P C slot additionalPartitions additional load s = (.ok out, s')) :
    ∃ first info n avb fixup s₁ s₂,
      LoadedV2 P C slot additionalPartitions added load out first info n avb fixup s s₁ s₂ s' := by
  obtain ⟨t, _, hget, h₁⟩ := bind_run_eq_ok h
  cases hget
  obtain ⟨first, hfirst, h₂⟩ := unified_lift_bind_eq_ok h₁
  obtain ⟨part, hpart, h₃⟩ := unified_lift_bind_eq_ok h₂
  obtain ⟨⟨boot, remains⟩, hsplit, h₄⟩ := unified_lift_bind_eq_ok h₃
  obtain ⟨hle, rfl, rfl⟩ := split_eq_ok.1 hsplit
  obtain ⟨_, s₁, hread, h₅⟩ := bind_run_eq_ok h₄
  obtain ⟨data, hR⟩ := readFromPartitionSync_ok (unified_eq_ok hread)
  obtain ⟨n, s₂, hverify, harrange⟩ := bind_run_eq_ok h₅
  obtain ⟨avb, fixup, hV⟩ := verifyV2_ok hadd hverify
  obtain ⟨hrun, hreads, hverified⟩ := onMem_ok (unified_eq_ok harrange)
  obtain ⟨info, hA⟩ := arrangeV2_ok hrun
  refine ⟨first, info, n, avb, fixup, s₁, s₂, ?_⟩
  constructor
  case first_eq => exact unwrap_eq_ok.1 hfirst
  case size_le => exact hle
  case boot =>
    rw [hR.read_eq]
    exact ⟨part, hpart, hR.answers⟩
  case read_changes => exact hR.changes
  case subset_reads =>
    rw [hreads, hV.reads_eq]
    exact hR.subset_reads
  case verified => exact hV
  case verified_eq => exact hverified
  case arranged => exact hA
  case changes =>
    exact ((hR.changes.mono (Extent.take_within hle)).trans
      (hV.configured.changes.mono (Extent.drop_within hle))).trans hA.changes

end Gbl.Android
