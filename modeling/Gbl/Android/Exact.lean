import Gbl.Android.Answering

/-!
# Loading is exact

If the storage answers reads of the same place alike, a load that succeeds has put the components of the
images in their places: nothing that is still needed is overwritten on the way, whatever the sizes in the
headers and wherever the buffer is.
-/

namespace Gbl.Android

open Lib Lib.Exec BootParams
open Fastboot (Bytes Text text)
open BootConfigBuilder (Appends)

variable {ω : Type} {P : GblOps ω} {C : Codecs} {s s₁ s₂ s' : LoadState ω} {slot : Nat}
  {additionalPartitions : Preloaded}
  {additional : Exec Error (Building ω) Unit} {added avb fixup : Bytes} {load : Extent} {out : LoadedImages}

theorem BootImageV3Info.cmdline_slice [Bootimg] {c : Content} {t : Text} (h : cmdline (slice c 0 pageSize) = .ok t) :
    cstrBytesToStr (BootImgHdrV3.ofBytes (slice c 0 pageSize)).cmdline = .ok t := by
  unfold cmdline at h
  split at h
  · exact h
  · cases h

theorem VendorBootImageInfo.cmdline_slice [B : Bootimg] {c : Content} {n : Nat} {t : Text}
    (h : cmdline (slice c 0 n) = .ok t) :
    cstrBytesToStr (VendorBootImgHdrV3.ofBytes (slice c 0 pageSize)).cmdline = .ok t := by
  unfold cmdline at h
  split at h
  · next hlen =>
    rw [length_slice] at hlen
    have hsame := B.vendorV3.read_congr (Nat.le_refl _) (take_slice_eq c hlen B.vendorV3_le)
    rwa [← show VendorBootImgHdrV3.ofBytes _ = VendorBootImgHdrV3.ofBytes _ from hsame] at h
  · cases h

/-! ## Versions 3 and 4 -/

structure V3Images.Of [Bootimg] (images : V3Images) (version : VendorImageHeader)
    (boot vendor init m : Content) : Prop where
  boot_eq : images.boot.read m = slice boot 0 images.boot.len
  vendor_eq : images.vendorBoot.read m = slice vendor 0 images.vendorBoot.len
  init_eq : images.initBoot.read m = slice init 0 images.initBoot.len
  bootInfo_eq : BootImageV3Info.new (slice boot 0 pageSize) = .ok images.bootInfo
  version_eq : VendorImageHeader.parse (slice vendor 0 pageSize) = .ok version
  vendorInfo_eq : VendorBootImageInfo.new (slice vendor 0 pageSize) = .ok images.vendorInfo
  initInfo_eq : ∀ info, images.initInfo = some info → BootImageV3Info.new (slice init 0 pageSize) = .ok info

variable {images : V3Images} {version : VendorImageHeader} {boot vendor init m : Content}

namespace V3Images.Of

theorem kernel_eq [Bootimg] (h : images.Of version boot vendor init m) (hL : images.Loaded load) :
    images.kernel.read m = (componentsV3 version boot vendor init).kernel := by
  obtain ⟨img, -, hD⟩ := BootImageV3Info.describes_of_new h.bootInfo_eq
  have hle := images.bootInfo.kernel_le
  rw [← hL.boot_len] at hle
  unfold V3Images.kernel
  rw [read_sub_of_read_eq h.boot_eq hle, hD.kernel_eq]
  simp only [componentsV3]

theorem describes [Bootimg] (h : images.Of version boot vendor init m) :
    images.vendorInfo.Describes version (.ofBytes (slice vendor 0 pageSize)) := by
  obtain ⟨version', hversion, hheader⟩ := Res.bind_eq_ok.1 h.vendorInfo_eq
  rw [h.version_eq] at hversion
  cases hversion
  exact VendorBootImageInfo.describes_of_ofHeader hheader

theorem vendorRamdisk_eq [Bootimg] (h : images.Of version boot vendor init m) (hL : images.Loaded load) :
    images.vendorRamdisk.read m = (componentsV3 version boot vendor init).vendorRamdisk := by
  have hle := images.vendorInfo.ramdisk_le
  rw [← hL.vendor_len] at hle
  unfold V3Images.vendorRamdisk
  rw [read_sub_of_read_eq h.vendor_eq hle, h.describes.ramdisk_eq]
  simp only [componentsV3]

theorem dtb_eq [Bootimg] (h : images.Of version boot vendor init m) (hL : images.Loaded load) :
    images.dtb.read m = (componentsV3 version boot vendor init).dtb := by
  have hle : (⟨images.vendorInfo.dtbRange.start, images.vendorInfo.dtbSz⟩ : Extent).stop ≤ images.vendorBoot.len := by
    have hrange := images.vendorInfo.dtbRange_le
    have hsz := images.vendorInfo.dtb_le
    rw [hL.vendor_len]
    simp only [Extent.stop] at *
    omega
  unfold V3Images.dtb
  rw [read_sub_of_read_eq h.vendor_eq hle, h.describes.dtb_eq]
  simp only [componentsV3]

theorem vendorBootconfig_eq [Bootimg] (h : images.Of version boot vendor init m) (hL : images.Loaded load) :
    images.vendorBootconfig.read m = (componentsV3 version boot vendor init).vendorBootconfig := by
  have hle := images.vendorInfo.bootconfig_le
  rw [← hL.vendor_len] at hle
  unfold V3Images.vendorBootconfig
  rw [read_sub_of_read_eq h.vendor_eq hle, h.describes.bootconfig_eq]
  simp only [componentsV3]

theorem ramdiskSize_pos [Bootimg] (h : images.Of version boot vendor init m) :
    0 < images.bootInfo.ramdiskRange.len ↔ 0 < (BootImgHdrV3.ofBytes (slice boot 0 pageSize)).ramdiskSize := by
  obtain ⟨img, -, hD⟩ := BootImageV3Info.describes_of_new h.bootInfo_eq
  rw [hD.ramdisk_eq]
  exact inPages_pos

theorem genericRamdisk_eq [Bootimg] (h : images.Of version boot vendor init m) (hL : images.Loaded load)
    (hinit : InitBoot P slot images s) :
    images.genericRamdisk.read m = (componentsV3 version boot vendor init).genericRamdisk := by
  unfold V3Images.genericRamdisk
  cases hinit with
  | absent hramdisk hinfo hlen =>
    obtain ⟨img, -, hD⟩ := BootImageV3Info.describes_of_new h.bootInfo_eq
    have hle := images.bootInfo.ramdisk_le
    rw [← hL.boot_len] at hle
    simp only [hinfo]
    rw [read_sub_of_read_eq h.boot_eq hle, hD.ramdisk_eq]
    simp only [componentsV3]
    rw [if_pos (h.ramdiskSize_pos.1 hramdisk)]
  | loaded part hdr info hramdisk hpart hhdr hlen hread hnew hinfo himage =>
    obtain ⟨img, -, hD⟩ := BootImageV3Info.describes_of_new (h.initInfo_eq info hinfo)
    have hle := info.ramdisk_le
    rw [← hL.init_len info hinfo] at hle
    have hzero : ¬ 0 < (BootImgHdrV3.ofBytes (slice boot 0 pageSize)).ramdiskSize := by
      rw [← h.ramdiskSize_pos, hramdisk]
      exact Nat.lt_irrefl 0
    simp only [hinfo]
    rw [read_sub_of_read_eq h.init_eq hle, hD.ramdisk_eq]
    simp only [componentsV3]
    rw [if_neg hzero]

end V3Images.Of

theorem LoadedV3.booted [Bootimg] (h : LoadedV3 P C slot additionalPartitions added load out images avb fixup s s₁ s')
    (hof : images.Of version boot vendor init s₁.mem) :
    Booted C (componentsV3 version boot vendor init) (avb ++ added ++ fixup) out s'.mem := by
  have hL := h.read.loaded
  constructor
  case ramdisk_eq =>
    rw [h.ramdisk_eq, hof.vendorRamdisk_eq hL, hof.genericRamdisk_eq hL h.read.init, hof.vendorBootconfig_eq hL]
  case kernel_eq =>
    rw [← hof.kernel_eq hL]
    exact h.kernel_eq
  case dtb_eq => rw [h.dtb_eq, hof.dtb_eq hL]
  case bootCmdline_eq =>
    have hcmdline := h.bootCmdline_eq
    have hpage : pageSize ≤ images.boot.len := by
      rw [hL.boot_len]
      exact images.bootInfo.page_le
    rw [← Extent.take_read hpage, hof.boot_eq, take_slice boot 0 hpage] at hcmdline
    simp only [componentsV3]
    exact BootImageV3Info.cmdline_slice hcmdline
  case vendorCmdline_eq =>
    have hcmdline := h.vendorCmdline_eq
    have hheader : images.vendorInfo.headerSize ≤ images.vendorBoot.len := by
      rw [hL.vendor_len]
      exact images.vendorInfo.headerSize_le
    rw [← Extent.take_read hheader, hof.vendor_eq, take_slice vendor 0 hheader] at hcmdline
    simp only [componentsV3]
    exact VendorBootImageInfo.cmdline_slice hcmdline

def StartsWith (load : Extent) (c m : Content) : Prop :=
  (load.take (min pageSize load.len)).read m = slice c 0 (min pageSize load.len)

theorem StartsWith.page {c m : Content} (h : StartsWith load c m) (hpage : pageSize ≤ load.len) :
    (load.take pageSize).read m = slice c 0 pageSize := by
  unfold StartsWith at h
  rwa [Nat.min_eq_left hpage] at h

theorem ReadV3.of_stable [Bootimg] {content : Text → Content} (hstable : Stable P content) {suffix : Text}
    (hslot : slotSuffix slot = .ok suffix)
    (hpre : StartsWith load (content (text "boot" ++ suffix)) s.mem)
    (h : ReadV3 P slot load images s s₁) :
    ∃ version, images.Of version (content (text "boot" ++ suffix)) (content (text "vendor_boot" ++ suffix))
      (content (text "init_boot" ++ suffix)) s₁.mem := by
  have hname : ∀ name part, slottedPart name slot = .ok part → part = text name ++ suffix := by
    intro name part hpart
    rw [slottedPart_eq hslot] at hpart
    exact (Except.ok.inj hpart).symm
  obtain ⟨bootPart, hbootPart, hboot⟩ := h.boot
  obtain rfl := hname _ _ hbootPart
  obtain ⟨vendorPart, vendorHdr, hvendorPart, hvendorHdr, hlen, -, hvendorInfo, hvendor⟩ := h.vendor
  obtain rfl := hname _ _ hvendorPart
  replace hvendorHdr := hstable.answers_eq hvendorHdr
  rw [hlen] at hvendorHdr
  rw [hvendorHdr] at hvendorInfo
  obtain ⟨version, hversion, -⟩ := Res.bind_eq_ok.1 hvendorInfo
  have hread :
    ∀ (e : Extent) part, Answers P part 0 (e.read s₁.mem) → e.read s₁.mem = slice (content part) 0 e.len := by
    intro e part hanswers
    have hdata := hstable.answers_eq hanswers
    rwa [Extent.length_read] at hdata
  refine ⟨version, ?_⟩
  constructor
  case boot_eq => exact hread _ _ hboot
  case vendor_eq => exact hread _ _ hvendor
  case init_eq =>
    cases h.init with
    | absent hramdisk hinfo hlen =>
      unfold Extent.read
      rw [hlen, slice_zero, slice_zero]
    | loaded part hdr info hramdisk hpart hhdr hlen hmem hnew hinfo himage =>
      obtain rfl := hname _ _ hpart
      exact hread _ _ himage
  case bootInfo_eq =>
    rw [← BootImageV3Info.new_page h.page_le (hpre.page h.page_le)]
    exact h.bootInfo_eq
  case version_eq => exact hversion
  case vendorInfo_eq => exact hvendorInfo
  case initInfo_eq =>
    intro info hinfo
    cases h.init with
    | absent hramdisk hnone hlen =>
      rw [hnone] at hinfo
      cases hinfo
    | loaded part hdr info' hramdisk hpart hhdr hlen hmem hnew hsome himage =>
      obtain rfl := hname _ _ hpart
      rw [hsome] at hinfo
      cases hinfo
      replace hhdr := hstable.answers_eq hhdr
      rw [hlen] at hhdr
      rwa [← hhdr]

/-- **Loading images of version 3 and 4 is exact.** The kernel is decompressed with its padding. -/
theorem loadVerifyV3AndV4_exact [Bootimg] {content : Text → Content} (hstable : Stable P content) {suffix : Text}
    (hslot : slotSuffix slot = .ok suffix) (hadd : Appends additional added)
    (hpre : StartsWith load (content (text "boot" ++ suffix)) s.mem)
    (hrun : loadVerifyV3AndV4 P C slot additionalPartitions additional load s = (.ok out, s')) :
    ∃ version avb fixup w,
      VendorImageHeader.parse (slice (content (text "vendor_boot" ++ suffix)) 0 pageSize) = .ok version ∧
      AvbParameters P slot s'.verified w avb ∧ FixupText P (avb ++ added) fixup ∧
      Booted C (componentsV3 version (content (text "boot" ++ suffix)) (content (text "vendor_boot" ++ suffix))
        (content (text "init_boot" ++ suffix))) (avb ++ added ++ fixup) out s'.mem ∧
      Placed load out ∧ [out.ramdisk, out.unused, out.dtb, out.kernel].Pairwise Extent.Disjoint ∧
      ∀ e ∈ [out.ramdisk, out.unused, out.dtb, out.kernel], e.Within load := by
  obtain ⟨images, avb, fixup, s₁, h⟩ := loadVerifyV3AndV4_ok hadd hrun
  obtain ⟨version, hof⟩ := h.read.of_stable hstable hslot hpre
  exact ⟨version, avb, fixup, s₁.ops, hof.version_eq, h.avb_parameters, h.fixup_text, h.booted hof, h.placed,
    h.placed.pairwise_disjoint, h.placed.within⟩

theorem startsWith_holding (boot : Content) : StartsWith buffer boot (holding boot).mem := read_holding boot _

section Sample

attribute [local instance] sampleBootimg

theorem loadVerifyV3AndV4_sample :
    ∃ out s', loadVerifyV3AndV4 (answering (contents (bootV3 1 1)) (contents (bootV3 1 1))) plainCodecs 0 [] (pure ())
      buffer
      (holding (bootV3 1 1)) = (.ok out, s') :=
  answering_loadV3 BootConfigBuilder.appends_pure BootConfigBuilder.fits_pure (Nat.zero_le _) (by decide) (by decide)
    (by decide) (by decide) (by decide) (read_holding _ _) rfl rfl rfl

theorem loadVerifyV3AndV4_exact_sample :
    ∃ out s' version avb fixup w,
      loadVerifyV3AndV4 (answering (contents (bootV3 1 1)) (contents (bootV3 1 1))) plainCodecs 0 [] (pure ()) buffer
        (holding (bootV3 1 1)) = (.ok out, s') ∧
      VendorImageHeader.parse (slice vendorV3 0 pageSize) = .ok version ∧
      AvbParameters (answering (contents (bootV3 1 1)) (contents (bootV3 1 1))) 0 s'.verified w avb ∧
      Booted plainCodecs (componentsV3 version (bootV3 1 1) vendorV3 vendorV3) (avb ++ [] ++ fixup) out s'.mem ∧
      Placed buffer out := by
  obtain ⟨out, s', hrun⟩ := loadVerifyV3AndV4_sample
  obtain ⟨version, avb, fixup, w, hversion, havb, -, hbooted, hplaced, -⟩ :=
    loadVerifyV3AndV4_exact (stable_answering _) slotSuffix_zero BootConfigBuilder.appends_pure (startsWith_holding _)
      hrun
  exact ⟨out, s', version, avb, fixup, w, hrun, hversion, havb, hbooted, hplaced⟩

theorem decompressed_ne_of_page {c m : Content} {kernel : Extent} (hzero : c pageSize = 0)
    (h : decompressed C (slice c pageSize pageSize) = some (kernel.read m)) :
    decompressed C (slice c pageSize 1) ≠ some (kernel.read m) := by
  rw [decompressed_of_zero (by rw [head?_slice (by decide), hzero])] at h ⊢
  rw [← h]
  intro heq
  have hlen := congrArg List.length (Option.some.inj heq)
  rw [length_slice, length_slice] at hlen
  cases hlen

/-- A kernel of one byte comes out as a page. -/
theorem loadVerifyV3AndV4_pads_kernel :
    ∃ out s', loadVerifyV3AndV4 (answering (contents (bootV3 1 1)) (contents (bootV3 1 1))) plainCodecs 0 [] (pure ())
      buffer
        (holding (bootV3 1 1)) = (.ok out, s') ∧
      (BootImgHdrV3.ofBytes (slice (bootV3 1 1) 0 pageSize)).kernelSize = 1 ∧
      decompressed plainCodecs (slice (bootV3 1 1) pageSize 1) ≠ some (out.kernel.read s'.mem) := by
  obtain ⟨out, s', hrun⟩ := loadVerifyV3AndV4_sample
  obtain ⟨images, avb, fixup, s₁, h⟩ := loadVerifyV3AndV4_ok BootConfigBuilder.appends_pure hrun
  obtain ⟨version, hof⟩ := h.read.of_stable (stable_answering _) slotSuffix_zero (startsWith_holding _)
  obtain ⟨hkernelSize, -⟩ :=
    bootV3_header (n := pageSize) (show 1 < 2 ^ 32 by decide) (show 1 < 2 ^ 32 by decide) (by decide)
  refine ⟨out, s', hrun, hkernelSize, decompressed_ne_of_page (bootV3_zero (by decide)) ?_⟩
  have hkernel := (h.booted hof).kernel_eq
  have hpage : inPages 1 pageSize = pageSize := by decide
  simp only [componentsV3, BootImgHdrV3.kernelAt, contents_boot, hkernelSize, hpage] at hkernel
  exact hkernel

end Sample

/-! ## Versions 0, 1 and 2 -/

section V2

variable {first info : BootImageV2Info} {img : BootImage} {n : Nat}

theorem LoadedV2.booted [B : Bootimg]
    (h : LoadedV2 P C slot additionalPartitions added load out first info n avb fixup s s₁ s₂ s')
    (himage : (load.take first.imageSize).read s₁.mem = slice boot 0 first.imageSize)
    (himg : BootImage.parse (slice boot 0 first.imageSize) = .ok img)
    (hfirst : BootImageV2Info.new (slice boot 0 first.imageSize) = .ok first) :
    Booted C (componentsV2 img boot) (avb ++ added ++ fixup) out s'.mem := by
  have hV := h.verified.configured
  have hA := h.arranged
  -- Verification writes behind the image only.
  have himage₂ : (load.take first.imageSize).read s₂.mem = slice boot 0 first.imageSize :=
    (hV.changes.read_eq (Extent.disjoint_of_le (Nat.le_refl _))).trans himage
  have hinfo : info = first := by
    have heq := hA.info_eq
    rw [Extent.read_take_append (Nat.le_add_right first.imageSize n), himage₂,
      BootImageV2Info.new_append_of_ok hfirst] at heq
    exact (Except.ok.inj heq).symm
  subst hinfo
  obtain ⟨img', himg', hheader⟩ := Res.bind_eq_ok.1 hfirst
  rw [himg] at himg'
  cases himg'
  have hsize := BootImage.size_le_of_parse himg
  rw [length_slice] at hsize
  have hD := BootImageV2Info.describes_of_ofHeader hheader
  have hle := BootImage.le_size_of_not_v3 hD.not_v3
  rw [BootImgHdrV0.ofBytes_slice boot (by omega) (hle.trans (B.size_le img))] at hD
  have hsection : ∀ r : Extent, r.stop ≤ info.imageSize → (load.sub r).read s₂.mem = r.read boot := fun r hr =>
    read_sub_of_read_eq (e := load.take info.imageSize) himage₂ hr
  constructor
  case ramdisk_eq =>
    have hconfig :
      (load.sub ⟨info.imageSize, n⟩).read s₂.mem = bootconfigSection (avb ++ added ++ fixup) := hV.config_eq
    rw [hA.ramdisk_eq info.ramdiskRange_le, hsection _ info.ramdiskRange_le, hconfig, hD.ramdisk_eq]
    simp only [componentsV2, List.nil_append, List.append_nil]
  case kernel_eq =>
    have hkernel := hA.kernel_eq
    rw [hsection _ info.kernel_le, hD.kernel_eq] at hkernel
    simpa only [componentsV2] using hkernel
  case dtb_eq =>
    rw [hA.dtb_eq, hsection _ info.dtbSz_le, hD.dtb_eq]
    simp only [componentsV2]
  case bootCmdline_eq =>
    rw [hA.bootCmdline_eq]
    simpa only [componentsV2] using hD.cmdline_eq
  case vendorCmdline_eq =>
    simp only [componentsV2, hA.vendorCmdline_eq]

theorem StartsWith.newV2_eq [Bootimg] {c m : Content} (h : StartsWith load c m)
    (hnew : BootImageV2Info.new (load.read m) = .ok first) :
    BootImageV2Info.new (slice c 0 pageSize) = .ok first := by
  by_cases hpage : pageSize ≤ load.len
  · exact (BootImageV2Info.new_page hpage (h.page hpage)).1 hnew
  · unfold StartsWith at h
    rw [Nat.min_eq_right (Nat.le_of_not_le hpage)] at h
    replace h : load.read m = slice c 0 load.len := h
    rw [h] at hnew
    obtain ⟨img, himg, -⟩ := Res.bind_eq_ok.1 hnew
    have hsize := BootImage.size_le_of_parse himg
    rw [length_slice] at hsize
    exact (parse_slice himg (by omega)).2.trans hnew

theorem LoadedV2.booted_of_stable [Bootimg]
    (h : LoadedV2 P C slot additionalPartitions added load out first info n avb fixup s s₁ s₂ s')
    {content : Text → Content} (hstable : Stable P content) {suffix : Text} (hslot : slotSuffix slot = .ok suffix)
    (hpre : StartsWith load (content (text "boot" ++ suffix)) s.mem)
    (himg : BootImage.parse (slice (content (text "boot" ++ suffix)) 0 pageSize) = .ok img)
    (hpage : img.size ≤ (BootImgHdrV0.ofBytes (slice (content (text "boot" ++ suffix)) 0 pageSize)).pageSize) :
    Booted C (componentsV2 img (content (text "boot" ++ suffix))) (avb ++ added ++ fixup) out s'.mem := by
  obtain ⟨part, hpart, hanswers⟩ := h.boot
  rw [slottedPart_eq hslot] at hpart
  cases hpart
  have himage := hstable.answers_eq hanswers
  rw [Extent.length_read] at himage
  have hfirst := hpre.newV2_eq h.first_eq
  -- The header is inside the image, which has its first page at least.
  obtain ⟨img', himg', hheader⟩ := Res.bind_eq_ok.1 hfirst
  rw [himg] at himg'
  cases himg'
  have hsize : img.size ≤ first.imageSize := by
    have hle := first.pageSize_le
    rw [(BootImageV2Info.describes_of_ofHeader hheader).pageSize_eq] at hle
    exact Nat.le_trans hpage hle
  obtain ⟨himg₁, hnew⟩ := parse_slice himg hsize
  exact h.booted himage himg₁ (hnew.trans hfirst)

/-- **Loading images of version 2 and lower is exact.** The kernel is decompressed with its padding. -/
theorem loadVerifyV2AndLower_exact [Bootimg] {content : Text → Content} (hstable : Stable P content) {suffix : Text}
    (hslot : slotSuffix slot = .ok suffix) (hadd : Appends additional added)
    (hpre : StartsWith load (content (text "boot" ++ suffix)) s.mem)
    (himg : BootImage.parse (slice (content (text "boot" ++ suffix)) 0 pageSize) = .ok img)
    (hpage : img.size ≤ (BootImgHdrV0.ofBytes (slice (content (text "boot" ++ suffix)) 0 pageSize)).pageSize)
    (hrun : loadVerifyV2AndLower P C slot additionalPartitions additional load s = (.ok out, s')) :
    ∃ avb fixup w, AvbParameters P slot s'.verified w avb ∧ FixupText P (avb ++ added) fixup ∧
      Booted C (componentsV2 img (content (text "boot" ++ suffix))) (avb ++ added ++ fixup) out s'.mem ∧
      Placed load out ∧ [out.ramdisk, out.unused, out.dtb, out.kernel].Pairwise Extent.Disjoint ∧
      ∀ e ∈ [out.ramdisk, out.unused, out.dtb, out.kernel], e.Within load := by
  obtain ⟨first, info, n, avb, fixup, s₁, s₂, h⟩ := loadVerifyV2AndLower_ok hadd hrun
  refine ⟨avb, fixup, s₁.ops, ?_, h.verified.fixup_text, h.booted_of_stable hstable hslot hpre himg hpage,
    h.arranged.placed, h.arranged.placed.pairwise_disjoint, h.arranged.placed.within⟩
  rw [h.verified_eq]
  exact h.verified.avb_parameters

section Sample

attribute [local instance] sampleBootimg

theorem loadVerifyV2AndLower_sample :
    ∃ out s', loadVerifyV2AndLower (answering (contents bootV0) (contents bootV0)) plainCodecs 0 [] (pure ()) buffer
      (holding bootV0) = (.ok out, s') :=
  answering_loadV2 BootConfigBuilder.appends_pure BootConfigBuilder.fits_pure (Nat.zero_le _) (by decide)
    (read_holding _ _) rfl

theorem parse_contents_bootV0 :
    BootImage.parse (slice (contents bootV0 (text "boot" ++ text "_a")) 0 pageSize) = .ok .v0 := by
  rw [contents_boot]
  exact parse_bootV0 (by decide)

theorem size_le_contents_bootV0 : BootImage.size .v0 ≤
    (BootImgHdrV0.ofBytes (slice (contents bootV0 (text "boot" ++ text "_a")) 0 pageSize)).pageSize := by
  rw [contents_boot, bootV0_header (by decide)]
  show 1632 ≤ 4096
  decide

theorem loadVerifyV2AndLower_exact_sample :
    ∃ out s' avb fixup w,
      loadVerifyV2AndLower (answering (contents bootV0) (contents bootV0)) plainCodecs 0 [] (pure ()) buffer
        (holding bootV0) = (.ok out, s') ∧
      AvbParameters (answering (contents bootV0) (contents bootV0)) 0 s'.verified w avb ∧
      Booted plainCodecs (componentsV2 .v0 bootV0) (avb ++ [] ++ fixup) out s'.mem ∧ Placed buffer out := by
  obtain ⟨out, s', hrun⟩ := loadVerifyV2AndLower_sample
  obtain ⟨avb, fixup, w, havb, -, hbooted, hplaced, -⟩ :=
    loadVerifyV2AndLower_exact (stable_answering _) slotSuffix_zero BootConfigBuilder.appends_pure
      (startsWith_holding _)
      parse_contents_bootV0 size_le_contents_bootV0 hrun
  rw [contents_boot] at hbooted
  exact ⟨out, s', avb, fixup, w, hrun, havb, hbooted, hplaced⟩

/-- Here, too, a kernel of one byte comes out as a page. -/
theorem loadVerifyV2AndLower_pads_kernel :
    ∃ out s', loadVerifyV2AndLower (answering (contents bootV0) (contents bootV0)) plainCodecs 0 [] (pure ()) buffer
        (holding bootV0) = (.ok out, s') ∧
      (BootImgHdrV0.ofBytes (slice bootV0 0 pageSize)).kernelSize = 1 ∧
      decompressed plainCodecs (slice bootV0 pageSize 1) ≠ some (out.kernel.read s'.mem) := by
  obtain ⟨out, s', hrun⟩ := loadVerifyV2AndLower_sample
  obtain ⟨first, info, n, avb, fixup, s₁, s₂, h⟩ := loadVerifyV2AndLower_ok BootConfigBuilder.appends_pure hrun
  have hheader := bootV0_header (n := pageSize) (by decide)
  refine ⟨out, s', hrun, by rw [hheader], decompressed_ne_of_page (bootV0_zero (by decide)) ?_⟩
  have hkernel := (h.booted_of_stable (stable_answering _) slotSuffix_zero (startsWith_holding _) parse_contents_bootV0
    size_le_contents_bootV0).kernel_eq
  have hpage : inPages 1 pageSize = pageSize := by decide
  simp only [componentsV2, BootImgHdrV0.kernelAt, contents_boot, hheader, hpage] at hkernel
  exact hkernel

end Sample

end V2

end Gbl.Android
