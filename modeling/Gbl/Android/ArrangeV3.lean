import Gbl.Android.Slices

/-!
# Where everything ends up: versions 3 and 4

What is done after verification, step by step, as for the older versions.
-/

namespace Gbl.Android

open Lib Lib.Exec BootParams
open Fastboot (Bytes Text text)

variable {C : Codecs} {m m' : Content}

/-! ## The images -/

namespace V3Images

structure Loaded (load : Extent) (images : V3Images) : Prop where
  tiles : Extent.Tiles load.start [images.vendorBoot, images.boot, images.initBoot, images.remains] load.stop
  vendor_len : images.vendorBoot.len = images.vendorInfo.imageSize
  boot_len : images.boot.len = images.bootInfo.imageSize
  init_len : ∀ info, images.initInfo = some info → images.initBoot.len = info.imageSize

variable (images : V3Images)

def kernel : Extent := images.boot.sub images.bootInfo.kernelRange

def vendorRamdisk : Extent := images.vendorBoot.sub images.vendorInfo.ramdiskRange

def genericRamdisk : Extent :=
  match images.initInfo with
  | some info => images.initBoot.sub info.ramdiskRange
  | none => images.boot.sub images.bootInfo.ramdiskRange

def dtb : Extent := images.vendorBoot.sub ⟨images.vendorInfo.dtbRange.start, images.vendorInfo.dtbSz⟩

def vendorBootconfig : Extent := images.vendorBoot.sub images.vendorInfo.bootconfigRange

variable {images} {load : Extent}

theorem Loaded.vendor_start (h : images.Loaded load) : images.vendorBoot.start = load.start := h.tiles.1

theorem Loaded.boot_start (h : images.Loaded load) : images.boot.start = images.vendorBoot.stop := h.tiles.2.1

theorem Loaded.init_start (h : images.Loaded load) : images.initBoot.start = images.boot.stop := h.tiles.2.2.1

theorem Loaded.remains_start (h : images.Loaded load) : images.remains.start = images.initBoot.stop := h.tiles.2.2.2.1

theorem Loaded.remains_stop (h : images.Loaded load) : images.remains.stop = load.stop := h.tiles.2.2.2.2

theorem Loaded.generic_between (h : images.Loaded load) :
    images.vendorBoot.stop ≤ images.genericRamdisk.start ∧ images.genericRamdisk.stop ≤ images.remains.start := by
  have hboot := h.boot_start
  have hinit := h.init_start
  have hremains := h.remains_start
  unfold genericRamdisk
  cases hinfo : images.initInfo with
  | none =>
    have hlen := h.boot_len
    have hle := images.bootInfo.ramdisk_le
    simp only [Extent.stop, Extent.sub] at *
    omega
  | some info =>
    have hlen := h.init_len info hinfo
    have hle := info.ramdisk_le
    simp only [Extent.stop, Extent.sub] at *
    omega

theorem Loaded.images_le (h : images.Loaded load) (n : Nat) :
    images.boot.stop ≤ (images.remains.drop n).start ∧ images.vendorBoot.stop ≤ (images.remains.drop n).start := by
  have hboot := h.boot_start
  have hinit := h.init_start
  have hremains := h.remains_start
  simp only [Extent.stop, Extent.drop] at *
  omega

end V3Images

/-! ## The tail -/

structure RelocatedV3 (C : Codecs) (images : V3Images) (remains : Extent) (tail : TailV3) (m m' : Content) : Prop where
  dtb_ge : remains.start ≤ tail.dtb.start
  hdr_start : tail.bootHdr.start = tail.dtb.stop
  hdr_len : tail.bootHdr.len = pageSize
  kernel_start : tail.kernelBuf.start = tail.bootHdr.stop
  kernel_stop : tail.kernelBuf.stop = remains.stop
  kernel_le : tail.kernelSz ≤ tail.kernelBuf.len
  dtb_le : images.vendorInfo.dtbRange.len ≤ tail.dtb.len
  kernel_aligned : tail.kernelBuf.start % kernelAlignment = 0
  dtb_aligned : tail.dtb.start % fdtAlignment = 0
  kernel_eq : decompressed C (images.kernel.read m) = some ((tail.kernelBuf.take tail.kernelSz).read m')
  hdr_eq : tail.bootHdr.read m' = (images.boot.take pageSize).read m
  dtb_eq : (tail.dtb.take images.vendorInfo.dtbRange.len).read m' =
    (images.vendorBoot.sub images.vendorInfo.dtbRange).read m
  changes : remains.Changes m m'

variable {images : V3Images} {tail : TailV3} {load : Extent} {n ramdiskSz : Nat} {out : LoadedImages}
  {bootconfigSize : Nat}

/-- The header of the boot image at `off` of what remains. -/
def withHdr (images : V3Images) (remains : Extent) (off : Nat) (m : Content) : Content :=
  store m (remains.start + off) ((images.boot.take pageSize).read m)

/-- The device tree at `off` of what remains. -/
def withDtb (images : V3Images) (remains : Extent) (off : Nat) (m : Content) : Content :=
  store m (remains.start + off) ((images.vendorBoot.sub images.vendorInfo.dtbRange).read m)

/-- A run of `relocateV3`: the kernel is decompressed to `off`, which leads to `m₁`, the header of the boot image comes
right in front of it, and the device tree in front of that. -/
structure RelocationV3 (C : Codecs) (images : V3Images) (remains : Extent) (m m₁ : Content) (off off₁ off₂ : Nat)
    (kernel : Bytes) : Prop where
  kernel_eq : decompressed C (images.kernel.read m) = some kernel
  kernel_fits : off + kernel.length ≤ remains.len
  kernel_aligned : (remains.start + off) % kernelAlignment = 0
  kernel_read : ((remains.drop off).take kernel.length).read m₁ = kernel
  changes : remains.Changes m m₁
  hdr_in : pageSize ≤ images.boot.len
  hdr_stop : off₁ + pageSize = off
  dtb_in : images.vendorInfo.dtbRange.stop ≤ images.vendorBoot.len
  dtb_fits : off₂ + images.vendorInfo.dtbRange.len ≤ off₁
  dtb_aligned : (remains.start + off₂) % fdtAlignment = 0

theorem relocateV3_run {remains : Extent} (h : relocateV3 C images remains m = (.ok tail, m')) :
    ∃ m₁ off off₁ off₂ kernel, RelocationV3 C images remains m m₁ off off₁ off₂ kernel ∧
      tail = ⟨((remains.take off).take off₁).drop off₂, (remains.take off).drop off₁, remains.drop off, kernel.length⟩ ∧
      m' = withDtb images remains off₂ (withHdr images remains off₁ m₁) := by
  obtain ⟨kernel, _, hkernel, h₁⟩ := bind_run_eq_ok h
  obtain ⟨-, rfl, rfl⟩ := getRange_readAt_ok hkernel
  obtain ⟨⟨front, kernelBuf, n⟩, m₁, hreloc, h₂⟩ := bind_run_eq_ok h₁
  obtain ⟨off, d, rfl, rfl, hd, rfl, hfits, haligned, hread, hchanges⟩ := relocateKernel_ok hreloc
  obtain ⟨⟨front₁, bootHdr⟩, htail₁, h₃⟩ := lift_bind_run_eq_ok h₂
  obtain ⟨off₁, rfl, rfl, hfits₁, -⟩ := splitAlignedTail_ok (by decide) (by decide) htail₁
  obtain ⟨hdrBytes, _, hhdr, h₄⟩ := bind_run_eq_ok h₃
  obtain ⟨hdrSrc, hsrc, hread₁⟩ := lift_bind_run_eq_ok hhdr
  obtain ⟨hpage, rfl⟩ := indexTo_eq_ok.1 hsrc
  obtain ⟨hhdrBytes, rfl⟩ := readAt_eq_ok.1 hread₁
  obtain ⟨_, m₂, hclone₁, h₅⟩ := bind_run_eq_ok h₄
  obtain ⟨hlen₁, rfl⟩ := cloneFromSlice_eq_ok.1 hclone₁
  obtain ⟨dtbSrc, hdtbSrc, h₆⟩ := lift_bind_run_eq_ok h₅
  obtain ⟨hdtbIn, rfl⟩ := getRange_eq_ok.1 hdtbSrc
  obtain ⟨⟨front₂, dtb⟩, htail₂, h₇⟩ := lift_bind_run_eq_ok h₆
  obtain ⟨off₂, -, rfl, hfits₂, haligned₂⟩ := splitAlignedTail_ok (by decide) (by decide) htail₂
  obtain ⟨dtbDst, hdst, h₈⟩ := lift_bind_run_eq_ok h₇
  obtain ⟨-, rfl⟩ := indexTo_eq_ok.1 hdst
  obtain ⟨dtbBytes, _, hread₂, h₉⟩ := bind_run_eq_ok h₈
  obtain ⟨rfl, rfl⟩ := readAt_eq_ok.1 hread₂
  obtain ⟨_, m₃, hclone₂, hpure⟩ := bind_run_eq_ok h₉
  obtain ⟨-, rfl⟩ := cloneFromSlice_eq_ok.1 hclone₂
  cases hpure
  have hhdrLen : hdrBytes.length = pageSize := by
    rw [hhdrBytes, Extent.length_read]
    rfl
  simp only [Extent.take, Extent.drop, Extent.sub] at hlen₁ hfits₁ hfits₂ haligned₂
  refine ⟨m₁, off, off₁, off₂, d, ⟨hd, hfits, haligned, hread, hchanges, hpage, by omega, hdtbIn, hfits₂, haligned₂⟩,
    rfl, ?_⟩
  rw [hhdrBytes]
  rfl

namespace RelocationV3

variable {remains : Extent} {m₁ : Content} {off off₁ off₂ : Nat} {kernel : Bytes}

theorem changes_withHdr (images : V3Images) (remains : Extent) (off : Nat) (m : Content) :
    (⟨remains.start + off, pageSize⟩ : Extent).Changes m (withHdr images remains off m) := by
  have hstore := Extent.changes_store m (remains.start + off) ((images.boot.take pageSize).read m)
  rwa [Extent.length_read] at hstore

theorem changes_withDtb (images : V3Images) (remains : Extent) (off : Nat) (m : Content) :
    (⟨remains.start + off, images.vendorInfo.dtbRange.len⟩ : Extent).Changes m (withDtb images remains off m) := by
  have hstore := Extent.changes_store m (remains.start + off)
    ((images.vendorBoot.sub images.vendorInfo.dtbRange).read m)
  rwa [Extent.length_read] at hstore

variable (h : RelocationV3 C images remains m m₁ off off₁ off₂ kernel)

include h

theorem kernel_kept : ((remains.drop off).take kernel.length).read
    (withDtb images remains off₂ (withHdr images remains off₁ m₁)) = kernel := by
  have hstop := h.hdr_stop
  have hdtb := h.dtb_fits
  refine ((changes_withDtb images remains off₂ _).read_eq ?_).trans
    (((changes_withHdr images remains off₁ m₁).read_eq ?_).trans h.kernel_read)
  · refine (Extent.disjoint_of_le ?_).symm
    simp only [Extent.take, Extent.drop, Extent.stop]
    omega
  · refine (Extent.disjoint_of_le ?_).symm
    simp only [Extent.take, Extent.drop, Extent.stop]
    omega

theorem hdr_eq (hboot : images.boot.stop ≤ remains.start) : ((remains.take off).drop off₁).read
    (withDtb images remains off₂ (withHdr images remains off₁ m₁)) = (images.boot.take pageSize).read m := by
  have hstop := h.hdr_stop
  have hdtb := h.dtb_fits
  have hin := h.hdr_in
  refine ((changes_withDtb images remains off₂ _).read_eq (Extent.disjoint_of_le ?_).symm).trans ?_
  · simp only [Extent.take, Extent.drop, Extent.stop]
    omega
  · refine (Extent.read_store m₁ ?_).trans (h.changes.read_eq (Extent.disjoint_of_le ?_))
    · rw [Extent.length_read]
      simp only [Extent.take, Extent.drop]
      omega
    · simp only [Extent.take, Extent.stop] at *
      omega

theorem dtb_eq (hvendor : images.vendorBoot.stop ≤ remains.start) :
    ((((remains.take off).take off₁).drop off₂).take images.vendorInfo.dtbRange.len).read
      (withDtb images remains off₂ (withHdr images remains off₁ m₁)) =
        (images.vendorBoot.sub images.vendorInfo.dtbRange).read m := by
  have hin := h.dtb_in
  refine (Extent.read_store (e := ⟨remains.start + off₂, images.vendorInfo.dtbRange.len⟩) _
    (Extent.length_read (images.vendorBoot.sub images.vendorInfo.dtbRange) _)).trans ?_
  refine ((changes_withHdr images remains off₁ m₁).read_eq (Extent.disjoint_of_le ?_)).trans
    (h.changes.read_eq (Extent.disjoint_of_le ?_))
  · simp only [Extent.sub, Extent.stop] at *
    omega
  · simp only [Extent.sub, Extent.stop] at *
    omega

theorem changes_all : remains.Changes m (withDtb images remains off₂ (withHdr images remains off₁ m₁)) := by
  have hstop := h.hdr_stop
  have hdtb := h.dtb_fits
  have hfits := h.kernel_fits
  refine (h.changes.trans ((changes_withHdr images remains off₁ m₁).mono ⟨Nat.le_add_right .., ?_⟩)).trans
    ((changes_withDtb images remains off₂ _).mono ⟨Nat.le_add_right .., ?_⟩)
  · simp only [Extent.stop]
    omega
  · simp only [Extent.stop]
    omega

end RelocationV3

theorem relocateV3_ok {remains : Extent} (hboot : images.boot.stop ≤ remains.start)
    (hvendor : images.vendorBoot.stop ≤ remains.start) (h : relocateV3 C images remains m = (.ok tail, m')) :
    RelocatedV3 C images remains tail m m' := by
  obtain ⟨m₁, off, off₁, off₂, kernel, hR, rfl, rfl⟩ := relocateV3_run h
  have hstop := hR.hdr_stop
  have hdtb := hR.dtb_fits
  have hfits := hR.kernel_fits
  constructor
  case dtb_ge => exact Nat.le_add_right ..
  case hdr_start =>
    simp only [Extent.take, Extent.drop, Extent.stop]
    omega
  case hdr_len =>
    simp only [Extent.take, Extent.drop]
    omega
  case kernel_start =>
    simp only [Extent.take, Extent.drop, Extent.stop]
    omega
  case kernel_stop =>
    simp only [Extent.drop, Extent.stop]
    omega
  case kernel_le =>
    simp only [Extent.drop]
    omega
  case dtb_le =>
    simp only [Extent.take, Extent.drop]
    omega
  case kernel_aligned => exact hR.kernel_aligned
  case dtb_aligned => exact hR.dtb_aligned
  case kernel_eq => rw [hR.kernel_eq, hR.kernel_kept]
  case hdr_eq => exact hR.hdr_eq hboot
  case dtb_eq => exact hR.dtb_eq hvendor
  case changes => exact hR.changes_all

/-! ## The ramdisk -/

theorem genericRamdiskRange_ok {r : Extent} (h : genericRamdiskRange load images = .ok r) :
    load.sub r = images.genericRamdisk := by
  unfold genericRamdiskRange at h
  unfold V3Images.genericRamdisk
  cases hinfo : images.initInfo with
  | none =>
    simp only [hinfo] at h
    obtain ⟨off, hoff, hrange⟩ := Res.bind_eq_ok.1 h
    obtain ⟨hle, rfl⟩ := sliceOffset_eq_ok.1 hoff
    obtain ⟨-, rfl⟩ := offsetRange_eq_ok.1 hrange
    simp only [Extent.sub, Extent.mk.injEq, and_true]
    omega
  | some info =>
    simp only [hinfo] at h
    obtain ⟨off, hoff, hrange⟩ := Res.bind_eq_ok.1 h
    obtain ⟨hle, rfl⟩ := sliceOffset_eq_ok.1 hoff
    obtain ⟨-, rfl⟩ := offsetRange_eq_ok.1 hrange
    simp only [Extent.sub, Extent.mk.injEq, and_true]
    omega

theorem moveRamdiskV3_ok {bootconfig : Extent}
    (hapart : load.start + images.vendorInfo.ramdiskRange.stop + images.genericRamdisk.len ≤ bootconfig.start)
    (h : moveRamdiskV3 load images bootconfig m = (.ok n, m')) :
    n = images.vendorInfo.ramdiskRange.len + images.genericRamdisk.len + bootconfig.len ∧
      m' = store m (load.start + images.vendorInfo.ramdiskRange.stop)
        (images.genericRamdisk.read m ++ bootconfig.read m) := by
  obtain ⟨generic, hgeneric, h₁⟩ := lift_bind_run_eq_ok h
  have hG := genericRamdiskRange_ok hgeneric
  have hlen : generic.len = images.genericRamdisk.len := by
    rw [← hG]
    rfl
  obtain ⟨range, hrange, h₂⟩ := lift_bind_run_eq_ok h₁
  obtain ⟨off, hoff, hrange⟩ := Res.bind_eq_ok.1 hrange
  obtain ⟨hle, rfl⟩ := sliceOffset_eq_ok.1 hoff
  obtain ⟨-, rfl⟩ := offsetRange_eq_ok.1 hrange
  have hB : load.sub ⟨0 + (bootconfig.start - load.start), bootconfig.len⟩ = bootconfig := by
    have hstart : load.start + (0 + (bootconfig.start - load.start)) = bootconfig.start := by omega
    simp only [Extent.sub, hstart]
  obtain ⟨_, m₁, hcopy₁, h₃⟩ := bind_run_eq_ok h₂
  obtain ⟨-, hm₁⟩ := copyWithin_eq_ok.1 hcopy₁
  obtain ⟨_, m₂, hcopy₂, hpure⟩ := bind_run_eq_ok h₃
  obtain ⟨-, hm₂⟩ := copyWithin_eq_ok.1 hcopy₂
  cases hpure
  rw [hG] at hm₁
  rw [hB] at hm₂
  -- The ramdisk has been moved down, so it ends in front of the bootconfig.
  have hconfig : bootconfig.read m₁ = bootconfig.read m := by
    rw [hm₁]
    refine Extent.Changes.read_eq (Extent.changes_store m _ _) (Extent.disjoint_of_le ?_).symm
    simp only [Extent.stop, Extent.length_read] at hapart ⊢
    omega
  refine ⟨by rw [hlen], ?_⟩
  rw [hm₂, store_append, Extent.length_read, ← hm₁, hconfig, hlen, Nat.add_assoc]

/-! ## The cut -/

structure CutV3 [Bootimg] (load : Extent) (images : V3Images) (tail : TailV3) (ramdiskSz : Nat) (m : Content)
    (out : LoadedImages) : Prop where
  ramdisk_eq : out.ramdisk = ⟨load.start + images.vendorInfo.headerSize, ramdiskSz⟩
  unused_start : out.unused.start = out.ramdisk.stop
  unused_stop : out.unused.stop = tail.dtb.start
  dtb_eq : out.dtb = tail.dtb.take images.vendorInfo.dtbSz
  kernel_eq : out.kernel = tail.kernelBuf.take tail.kernelSz
  bootCmdline_eq : BootImageV3Info.cmdline (tail.bootHdr.read m) = .ok out.bootCmdline
  vendorCmdline_eq :
    VendorBootImageInfo.cmdline ((load.take images.vendorInfo.headerSize).read m) = .ok out.vendorCmdline

theorem unusedSizeV3_eq_ok {headerSz bootHdrSz dtbSz dtbPad kernelBufLen : Nat} :
    unusedSizeV3 load headerSz ramdiskSz bootHdrSz dtbSz dtbPad kernelBufLen = .ok n ↔
      n + (headerSz + ramdiskSz + bootHdrSz + dtbSz + dtbPad + kernelBufLen) = load.len := by
  unfold unusedSizeV3
  simp only [Res.bind_eq_ok, subU64_eq_ok]
  constructor
  · rintro ⟨_, ⟨h₁, rfl⟩, _, ⟨h₂, rfl⟩, _, ⟨h₃, rfl⟩, _, ⟨h₄, rfl⟩, _, ⟨h₅, rfl⟩, h₆, rfl⟩
    omega
  · intro h
    exact ⟨_, ⟨by omega, rfl⟩, _, ⟨by omega, rfl⟩, _, ⟨by omega, rfl⟩, _, ⟨by omega, rfl⟩, _, ⟨by omega, rfl⟩,
      by omega, by omega⟩

theorem cutV3_ok [Bootimg] (hhdr : tail.bootHdr.start = tail.dtb.stop)
    (hkernel : tail.kernelBuf.start = tail.bootHdr.stop) (hstop : tail.kernelBuf.stop = load.stop)
    (h : cutV3 load images tail ramdiskSz m = (.ok out, m')) :
    CutV3 load images tail ramdiskSz m out ∧ m' = m := by
  obtain ⟨dtbPad, hpad, h₁⟩ := lift_bind_run_eq_ok h
  obtain ⟨hdtb, rfl⟩ := subU64_eq_ok.1 hpad
  obtain ⟨unusedSz, hunused, h₂⟩ := lift_bind_run_eq_ok h₁
  replace hunused := unusedSizeV3_eq_ok.1 hunused
  obtain ⟨⟨chunks, rest⟩, hchunks, h₃⟩ := lift_bind_run_eq_ok h₂
  obtain ⟨-, rfl, -⟩ := splitChunks_eq_ok.1 hchunks
  simp only [chunksFrom] at h₃
  -- The tail ends with the buffer, so the chunks at its end are what was put there.
  simp only [Extent.stop] at hhdr hkernel hstop
  have hdtbStart : load.start + images.vendorInfo.headerSize + ramdiskSz + unusedSz = tail.dtb.start := by omega
  have hhdrStart : load.start + images.vendorInfo.headerSize + ramdiskSz + unusedSz + images.vendorInfo.dtbSz +
      (tail.dtb.len - images.vendorInfo.dtbSz) = tail.bootHdr.start := by omega
  rw [hhdrStart, hdtbStart] at h₃
  obtain ⟨bootCmdline, m₁, hboot, h₄⟩ := bind_run_eq_ok h₃
  obtain ⟨bytes, _, hread, hlift⟩ := bind_run_eq_ok hboot
  obtain ⟨hbytes, rfl⟩ := readAt_eq_ok.1 hread
  obtain ⟨hbootCmdline, rfl⟩ := Prod.mk.inj hlift
  obtain ⟨vendorCmdline, m₂, hvendor, hpure⟩ := bind_run_eq_ok h₄
  obtain ⟨bytes', _, hread', hlift'⟩ := bind_run_eq_ok hvendor
  obtain ⟨hbytes', rfl⟩ := readAt_eq_ok.1 hread'
  obtain ⟨hvendorCmdline, rfl⟩ := Prod.mk.inj hlift'
  rw [hbytes] at hbootCmdline
  rw [hbytes'] at hvendorCmdline
  cases hpure
  refine ⟨?_, rfl⟩
  constructor
  case ramdisk_eq => rfl
  case unused_start => rfl
  case unused_stop => exact hdtbStart
  case dtb_eq => rfl
  case kernel_eq =>
    simp only [Extent.take, Extent.mk.injEq, and_true]
    omega
  case bootCmdline_eq => exact hbootCmdline
  case vendorCmdline_eq => exact hvendorCmdline

/-! ## Before the cut -/

structure StagedV3 (C : Codecs) (load : Extent) (images : V3Images) (bootconfigSize : Nat) (tail : TailV3)
    (m m' : Content) : Prop where
  dtb_ge : images.remains.start + bootconfigSize ≤ tail.dtb.start
  hdr_start : tail.bootHdr.start = tail.dtb.stop
  hdr_len : tail.bootHdr.len = pageSize
  kernel_start : tail.kernelBuf.start = tail.bootHdr.stop
  kernel_stop : tail.kernelBuf.stop = load.stop
  kernel_le : tail.kernelSz ≤ tail.kernelBuf.len
  dtb_le : images.vendorInfo.dtbSz ≤ tail.dtb.len
  kernel_aligned : tail.kernelBuf.start % kernelAlignment = 0
  dtb_aligned : tail.dtb.start % fdtAlignment = 0
  kernel_eq : decompressed C (images.kernel.read m) = some ((tail.kernelBuf.take tail.kernelSz).read m')
  hdr_eq : tail.bootHdr.read m' = (images.boot.take pageSize).read m
  dtb_eq : (tail.dtb.take images.vendorInfo.dtbSz).read m' = images.dtb.read m
  vendorHdr_eq : (load.take images.vendorInfo.headerSize).read m' =
    (images.vendorBoot.take images.vendorInfo.headerSize).read m
  ramdisk_eq : (⟨load.start + images.vendorInfo.headerSize,
      images.vendorInfo.ramdiskRange.len + images.genericRamdisk.len + bootconfigSize⟩ : Extent).read m' =
    images.vendorRamdisk.read m ++ images.genericRamdisk.read m ++ (images.remains.take bootconfigSize).read m
  changes : load.Changes m m'

theorem V3Images.Loaded.ramdisk_le (hL : images.Loaded load) :
    load.start + images.vendorInfo.ramdiskRange.stop + images.genericRamdisk.len ≤ images.remains.start := by
  obtain ⟨hge, hle⟩ := hL.generic_between
  have hstart := hL.vendor_start
  have hlen := hL.vendor_len
  have hdtb := images.vendorInfo.dtb_start
  have hconfig := images.vendorInfo.bootconfig_ge
  have himage := images.vendorInfo.bootconfig_le
  simp only [Extent.stop] at *
  omega

/-- What moving the ramdisk and the bootconfig down leads to, from the state `m₁` behind the relocation. -/
structure MovedV3 (load : Extent) (images : V3Images) (bootconfigSize : Nat) (tail : TailV3) (m m₁ m' : Content) :
    Prop where
  moved : (⟨load.start + images.vendorInfo.ramdiskRange.stop, images.genericRamdisk.len + bootconfigSize⟩ : Extent).read
    m' = images.genericRamdisk.read m ++ (images.remains.take bootconfigSize).read m
  changes : (⟨load.start + images.vendorInfo.ramdiskRange.stop, images.genericRamdisk.len + bootconfigSize⟩ :
    Extent).Changes m₁ m'
  back : ∀ e : Extent, tail.dtb.start ≤ e.start → e.read m' = e.read m₁
  front : ∀ e : Extent, e.stop ≤ load.start + images.vendorInfo.ramdiskRange.stop → e.read m' = e.read m

theorem movedV3 {m₁ : Content} (hL : images.Loaded load)
    (hR : RelocatedV3 C images (images.remains.drop bootconfigSize) tail m m₁)
    (hm' : m' = store m₁ (load.start + images.vendorInfo.ramdiskRange.stop)
      (images.genericRamdisk.read m₁ ++ (images.remains.take bootconfigSize).read m₁)) :
    MovedV3 load images bootconfigSize tail m m₁ m' := by
  have hramdiskLe := hL.ramdisk_le
  have hgenericLe : images.genericRamdisk.start + images.genericRamdisk.len ≤ images.remains.start :=
    hL.generic_between.2
  have htailGe : images.remains.start + bootconfigSize ≤ tail.dtb.start := hR.dtb_ge
  -- What is moved is between the vendor's ramdisk and what was relocated.
  have hfront : ∀ e : Extent, e.stop ≤ images.remains.start + bootconfigSize → e.read m₁ = e.read m := fun e he =>
    hR.changes.read_eq (Extent.disjoint_of_le he)
  have hgeneric : images.genericRamdisk.read m₁ = images.genericRamdisk.read m := by
    refine hfront _ ?_
    simp only [Extent.stop]
    omega
  have hconfig : (images.remains.take bootconfigSize).read m₁ = (images.remains.take bootconfigSize).read m :=
    hfront _ (Nat.le_refl _)
  rw [hgeneric, hconfig] at hm'
  have hlen : (images.genericRamdisk.read m ++ (images.remains.take bootconfigSize).read m).length =
      images.genericRamdisk.len + bootconfigSize := by
    rw [List.length_append, Extent.length_read, Extent.length_read]
    rfl
  have hmoved := Extent.changes_store m₁ (load.start + images.vendorInfo.ramdiskRange.stop)
    (images.genericRamdisk.read m ++ (images.remains.take bootconfigSize).read m)
  rw [hlen, ← hm'] at hmoved
  refine ⟨?_, hmoved, fun e he => ?_, fun e he => ?_⟩
  · rw [hm']
    exact Extent.read_store m₁ hlen
  · exact hmoved.read_eq (Extent.disjoint_of_le (by simp only [Extent.stop] at *; omega)).symm
  · refine (hmoved.read_eq (Extent.disjoint_of_le he)).trans (hfront e ?_)
    simp only [Extent.stop] at *
    omega

theorem MovedV3.ramdisk_eq {m₁ : Content} (hL : images.Loaded load)
    (h : MovedV3 load images bootconfigSize tail m m₁ m') :
    (⟨load.start + images.vendorInfo.headerSize,
        images.vendorInfo.ramdiskRange.len + images.genericRamdisk.len + bootconfigSize⟩ : Extent).read m' =
      images.vendorRamdisk.read m ++ images.genericRamdisk.read m ++ (images.remains.take bootconfigSize).read m := by
  have hramdiskStart := images.vendorInfo.ramdisk_start
  have hvendorRamdisk : images.vendorRamdisk = ⟨load.start + images.vendorInfo.headerSize,
      images.vendorInfo.ramdiskRange.len⟩ := by
    simp only [V3Images.vendorRamdisk, Extent.sub, hL.vendor_start, hramdiskStart]
  have hadj : images.vendorRamdisk.stop = load.start + images.vendorInfo.ramdiskRange.stop := by
    rw [hvendorRamdisk]
    simp only [Extent.stop]
    omega
  rw [List.append_assoc, ← h.moved, ← h.front _ (Nat.le_of_eq hadj), ← Extent.read_append hadj, hvendorRamdisk,
    Nat.add_assoc]

theorem RelocatedV3.dtb_read {remains : Extent} {m₁ : Content} (h : RelocatedV3 C images remains tail m m₁) :
    (tail.dtb.take images.vendorInfo.dtbSz).read m₁ = images.dtb.read m := by
  have hdtbSz := images.vendorInfo.dtb_le
  calc (tail.dtb.take images.vendorInfo.dtbSz).read m₁
      = ((tail.dtb.take images.vendorInfo.dtbRange.len).read m₁).take images.vendorInfo.dtbSz :=
        (Extent.take_read (e := tail.dtb.take images.vendorInfo.dtbRange.len) hdtbSz m₁).symm
    _ = ((images.vendorBoot.sub images.vendorInfo.dtbRange).read m).take images.vendorInfo.dtbSz := by rw [h.dtb_eq]
    _ = images.dtb.read m := Extent.take_read (e := images.vendorBoot.sub images.vendorInfo.dtbRange) hdtbSz m

theorem stagedV3 {m₁ : Content} (hL : images.Loaded load) (hsize : bootconfigSize ≤ images.remains.len)
    (hR : RelocatedV3 C images (images.remains.drop bootconfigSize) tail m m₁)
    (hm' : m' = store m₁ (load.start + images.vendorInfo.ramdiskRange.stop)
      (images.genericRamdisk.read m₁ ++ (images.remains.take bootconfigSize).read m₁)) :
    StagedV3 C load images bootconfigSize tail m m' := by
  have hM := movedV3 hL hR hm'
  -- Numbers of the layout, for what follows.
  have hramdiskLe := hL.ramdisk_le
  have hgenericLe : images.genericRamdisk.start + images.genericRamdisk.len ≤ images.remains.start :=
    hL.generic_between.2
  have hramdiskStart := images.vendorInfo.ramdisk_start
  have hremainsStop : images.remains.start + images.remains.len = load.start + load.len := hL.remains_stop
  have hhdrStart : tail.bootHdr.start = tail.dtb.start + tail.dtb.len := hR.hdr_start
  have hbufStart : tail.kernelBuf.start = tail.bootHdr.start + tail.bootHdr.len := hR.kernel_start
  constructor
  case dtb_ge => exact hR.dtb_ge
  case hdr_start => exact hR.hdr_start
  case hdr_len => exact hR.hdr_len
  case kernel_start => exact hR.kernel_start
  case kernel_stop =>
    rw [hR.kernel_stop]
    simp only [Extent.drop, Extent.stop]
    omega
  case kernel_le => exact hR.kernel_le
  case dtb_le => exact Nat.le_trans images.vendorInfo.dtb_le hR.dtb_le
  case kernel_aligned => exact hR.kernel_aligned
  case dtb_aligned => exact hR.dtb_aligned
  case kernel_eq =>
    rw [hM.back _ (by simp only [Extent.take]; omega)]
    exact hR.kernel_eq
  case hdr_eq =>
    rw [hM.back _ (by omega)]
    exact hR.hdr_eq
  case dtb_eq =>
    rw [hM.back (tail.dtb.take images.vendorInfo.dtbSz) (Nat.le_refl _)]
    exact hR.dtb_read
  case vendorHdr_eq =>
    rw [hM.front _ (by simp only [Extent.take, Extent.stop]; omega)]
    simp only [Extent.take, hL.vendor_start]
  case ramdisk_eq => exact hM.ramdisk_eq hL
  case changes =>
    refine (hR.changes.mono ⟨?_, ?_⟩).trans (hM.changes.mono ⟨Nat.le_add_right .., ?_⟩)
    · simp only [Extent.drop]
      omega
    · simp only [Extent.drop, Extent.stop]
      omega
    · simp only [Extent.stop] at *
      omega

/-! ## All of it -/

structure ArrangedV3 [Bootimg] (C : Codecs) (load : Extent) (images : V3Images) (bootconfigSize : Nat)
    (out : LoadedImages) (m m' : Content) : Prop where
  size_le : bootconfigSize ≤ images.remains.len
  placed : Placed load out
  kernel_eq : decompressed C (images.kernel.read m) = some (out.kernel.read m')
  dtb_eq : out.dtb.read m' = images.dtb.read m
  ramdisk_eq : out.ramdisk.read m' =
    images.vendorRamdisk.read m ++ images.genericRamdisk.read m ++ (images.remains.take bootconfigSize).read m
  bootCmdline_eq : BootImageV3Info.cmdline ((images.boot.take pageSize).read m) = .ok out.bootCmdline
  vendorCmdline_eq : VendorBootImageInfo.cmdline ((images.vendorBoot.take images.vendorInfo.headerSize).read m) =
    .ok out.vendorCmdline
  changes : load.Changes m m'

theorem arrangeV3_ok [Bootimg] (hL : images.Loaded load)
    (h : arrangeV3 C load images bootconfigSize m = (.ok out, m')) :
    ArrangedV3 C load images bootconfigSize out m m' := by
  obtain ⟨⟨bootconfig, remains⟩, hsplit, h₁⟩ := lift_bind_run_eq_ok h
  obtain ⟨hsize, rfl, rfl⟩ := splitAtMut_eq_ok.1 hsplit
  obtain ⟨tail, m₁, hreloc, h₂⟩ := bind_run_eq_ok h₁
  obtain ⟨hboot, hvendor⟩ := hL.images_le bootconfigSize
  have hR := relocateV3_ok hboot hvendor hreloc
  obtain ⟨ramdiskSz, m₂, hmove, hcut⟩ := bind_run_eq_ok h₂
  have hapart : load.start + images.vendorInfo.ramdiskRange.stop + images.genericRamdisk.len ≤
      (images.remains.take bootconfigSize).start := hL.ramdisk_le
  obtain ⟨rfl, hm₂⟩ := moveRamdiskV3_ok hapart hmove
  have hS := stagedV3 hL hsize hR hm₂
  obtain ⟨hK, rfl⟩ := cutV3_ok hS.hdr_start hS.kernel_start hS.kernel_stop hcut
  constructor
  case size_le => exact hsize
  case placed =>
    have hhdr := hS.hdr_start
    have hbuf := hS.kernel_start
    have hstop := hS.kernel_stop
    have hle := hS.kernel_le
    have hdtb := hS.dtb_le
    simp only [Extent.stop] at hhdr hbuf hstop
    constructor
    case ramdisk_ge =>
      rw [hK.ramdisk_eq]
      exact Nat.le_add_right ..
    case unused_start => exact hK.unused_start
    case dtb_start =>
      rw [hK.unused_stop, hK.dtb_eq]
      rfl
    case kernel_ge =>
      rw [hK.kernel_eq, hK.dtb_eq]
      simp only [Extent.take, Extent.stop]
      omega
    case kernel_le =>
      rw [hK.kernel_eq]
      simp only [Extent.take, Extent.stop]
      omega
    case kernel_aligned =>
      rw [hK.kernel_eq]
      exact hS.kernel_aligned
    case dtb_aligned =>
      rw [hK.dtb_eq]
      exact hS.dtb_aligned
  case kernel_eq =>
    rw [hK.kernel_eq]
    exact hS.kernel_eq
  case dtb_eq => rw [hK.dtb_eq, hS.dtb_eq]
  case ramdisk_eq =>
    rw [hK.ramdisk_eq]
    exact hS.ramdisk_eq
  case bootCmdline_eq =>
    rw [← hS.hdr_eq]
    exact hK.bootCmdline_eq
  case vendorCmdline_eq =>
    rw [← hS.vendorHdr_eq]
    exact hK.vendorCmdline_eq
  case changes => exact hS.changes

end Gbl.Android
