import Gbl.Android.Slices

/-!
# Where everything ends up: versions 0, 1 and 2

What is done after verification, step by step.
-/

namespace Gbl.Android

open Lib Lib.Exec BootParams
open Fastboot (Bytes Text text)

variable {C : Codecs} {m m' : Content}

structure RelocatedV2 (C : Codecs) (info : BootImageV2Info) (bootEx remains dtb kernelBuf : Extent) (kernelSz : Nat)
    (m m' : Content) : Prop where
  kernel_in : info.kernelRange.stop ≤ bootEx.len
  dtb_in : info.dtbRange.stop ≤ bootEx.len
  dtb_ge : remains.start ≤ dtb.start
  kernel_start : kernelBuf.start = dtb.stop
  kernel_stop : kernelBuf.stop = remains.stop
  kernel_le : kernelSz ≤ kernelBuf.len
  dtb_le : info.dtbRange.len ≤ dtb.len
  kernel_aligned : kernelBuf.start % kernelAlignment = 0
  dtb_aligned : dtb.start % fdtAlignment = 0
  kernel_eq : decompressed C ((bootEx.sub info.kernelRange).read m) = some ((kernelBuf.take kernelSz).read m')
  dtb_eq : (dtb.take info.dtbRange.len).read m' = (bootEx.sub info.dtbRange).read m
  changes : remains.Changes m m'

variable {info : BootImageV2Info} {bootEx dtb : Extent} {kernelSz bootSize : Nat} {load : Extent}
  {bootconfigSize : Nat} {out : LoadedImages}

theorem relocateV2_ok {remains : Extent} (hapart : bootEx.stop ≤ remains.start)
    (h : relocateV2 C info bootEx remains m = (.ok (dtb, kernelSz), m')) :
    ∃ kernelBuf, RelocatedV2 C info bootEx remains dtb kernelBuf kernelSz m m' := by
  obtain ⟨kernel, _, hkernel, h₁⟩ := bind_run_eq_ok h
  obtain ⟨hkernelIn, rfl, rfl⟩ := getRange_readAt_ok hkernel
  obtain ⟨⟨front, kernelBuf, n⟩, m₁, hreloc, h₂⟩ := bind_run_eq_ok h₁
  obtain ⟨off, d, rfl, rfl, hd, rfl, hfits, haligned, hread, hchanges⟩ := relocateKernel_ok hreloc
  obtain ⟨⟨front', dtb'⟩, htail, h₃⟩ := lift_bind_run_eq_ok h₂
  obtain ⟨off', -, rfl, hfits', haligned'⟩ := splitAlignedTail_ok (by decide) (by decide) htail
  obtain ⟨dtbDst, hdst, h₄⟩ := lift_bind_run_eq_ok h₃
  obtain ⟨-, rfl⟩ := indexTo_eq_ok.1 hdst
  obtain ⟨bytes, _, hdtb, h₅⟩ := bind_run_eq_ok h₄
  obtain ⟨hdtbIn, rfl, rfl⟩ := getRange_readAt_ok hdtb
  obtain ⟨_, m₂, hclone, hpure⟩ := bind_run_eq_ok h₅
  obtain ⟨-, rfl⟩ := cloneFromSlice_eq_ok.1 hclone
  cases hpure
  simp only [Extent.take] at hfits' haligned'
  -- The dtb is copied after the kernel has been moved, but from where nothing has changed.
  have hsrc : (bootEx.sub info.dtbRange).read m₁ = (bootEx.sub info.dtbRange).read m := by
    refine hchanges.read_eq (Extent.disjoint_of_le ?_)
    have hle : info.dtbRange.start + info.dtbRange.len ≤ bootEx.len := hdtbIn
    have hstop : bootEx.start + bootEx.len ≤ remains.start := hapart
    simp only [Extent.sub, Extent.stop]
    omega
  have hlen : ((bootEx.sub info.dtbRange).read m₁).length = info.dtbRange.len := Extent.length_read ..
  refine ⟨remains.drop off, ?_⟩
  constructor
  case kernel_in => exact hkernelIn
  case dtb_in => exact hdtbIn
  case dtb_ge => exact Nat.le_add_right ..
  case kernel_start =>
    simp only [Extent.take, Extent.drop, Extent.stop]
    omega
  case kernel_stop =>
    simp only [Extent.drop, Extent.stop]
    omega
  case kernel_le =>
    simp only [Extent.drop]
    omega
  case dtb_le =>
    simp only [Extent.take, Extent.drop]
    omega
  case kernel_aligned => exact haligned
  case dtb_aligned => exact haligned'
  case kernel_eq =>
    refine hd.trans (congrArg some (hread.symm.trans (Extent.Changes.read_eq (Extent.changes_store m₁ _ _) ?_).symm))
    refine (Extent.disjoint_of_le ?_).symm
    simp only [Extent.take, Extent.drop, Extent.stop, hlen]
    omega
  case dtb_eq =>
    rw [← hsrc]
    exact Extent.read_store m₁ hlen
  case changes =>
    refine hchanges.trans ((Extent.changes_store m₁ _ _).mono ⟨Nat.le_add_right .., ?_⟩)
    simp only [Extent.take, Extent.drop, Extent.stop, hlen]
    omega

theorem moveRamdiskV2_ok (h : moveRamdiskV2 info bootEx bootSize m = (.ok (), m')) :
    ∃ tail : Bytes, tail.length = bootEx.len - bootSize ∧
      m' = store m (bootEx.start + info.kernelRange.start) ((bootEx.sub info.ramdiskRange).read m ++ tail) ∧
      info.kernelRange.start + info.ramdiskRange.len + tail.length ≤ bootEx.len ∧ info.ramdiskRange.stop ≤ bootEx.len ∧
      (info.ramdiskRange.stop ≤ bootSize → tail = (bootEx.drop bootSize).read m) := by
  obtain ⟨_, m₁, hramdisk, hconfig⟩ := bind_run_eq_ok h
  obtain ⟨⟨hin, -⟩, hm₁⟩ := copyWithin_eq_ok.1 hramdisk
  obtain ⟨⟨-, hfits⟩, rfl⟩ := copyWithin_eq_ok.1 hconfig
  have hlen : ((bootEx.sub info.ramdiskRange).read m).length = info.ramdiskRange.len := Extent.length_read ..
  refine ⟨(bootEx.sub ⟨bootSize, bootEx.len - bootSize⟩).read m₁, Extent.length_read .., ?_, ?_, hin, ?_⟩
  · rw [store_append, hlen, ← hm₁, Nat.add_assoc]
  · rw [Extent.length_read]
    exact hfits
  · intro hle
    -- The ramdisk has been moved down, so it ends in front of the bootconfig.
    rw [hm₁]
    refine Extent.Changes.read_eq (Extent.changes_store m _ _) (Extent.disjoint_of_le ?_).symm
    have hstart : info.ramdiskRange.start = info.kernelRange.start + info.kernelRange.len := info.ramdisk_start
    simp only [Extent.stop, Extent.sub, Extent.length_read] at hle ⊢
    omega

structure CutV2 [Bootimg] (info : BootImageV2Info) (load dtb : Extent) (bootconfigSize kernelSz : Nat) (m : Content)
    (out : LoadedImages) : Prop where
  ramdisk_eq : out.ramdisk = ⟨load.start + info.pageSize, info.ramdiskRange.len + bootconfigSize⟩
  unused_start : out.unused.start = out.ramdisk.stop
  unused_stop : out.unused.stop = dtb.start
  dtb_eq : out.dtb = dtb.take info.dtbSz
  kernel_eq : out.kernel = ⟨dtb.stop, kernelSz⟩
  bootCmdline_eq : ∃ hdrInfo, BootImageV2Info.new ((load.take info.pageSize).read m) = .ok hdrInfo ∧
    out.bootCmdline = hdrInfo.cmdline
  vendorCmdline_eq : out.vendorCmdline = []

theorem cutV2_ok [Bootimg] (hstart : bootEx.start = load.start)
    (h : cutV2 info load bootEx dtb bootconfigSize kernelSz m = (.ok out, m')) :
    CutV2 info load dtb bootconfigSize kernelSz m out ∧ m' = m := by
  obtain ⟨dtbOff, hoff, h₁⟩ := lift_bind_run_eq_ok h
  obtain ⟨hge, rfl⟩ := sliceOffset_eq_ok.1 hoff
  obtain ⟨unusedSz, hunused, h₂⟩ := lift_bind_run_eq_ok h₁
  obtain ⟨k, hk, hunused⟩ := Res.bind_eq_ok.1 hunused
  obtain ⟨hpage, rfl⟩ := subU64_eq_ok.1 hk
  obtain ⟨hramdisk, rfl⟩ := subU64_eq_ok.1 hunused
  obtain ⟨dtbPadding, hpad, h₃⟩ := lift_bind_run_eq_ok h₂
  obtain ⟨hdtb, rfl⟩ := subU64_eq_ok.1 hpad
  obtain ⟨⟨chunks, rest⟩, hchunks, h₄⟩ := lift_bind_run_eq_ok h₃
  obtain ⟨-, rfl, -⟩ := splitChunks_eq_ok.1 hchunks
  simp only [chunksFrom] at h₄
  obtain ⟨hdrInfo, m₁, hhdr, hpure⟩ := bind_run_eq_ok h₄
  obtain ⟨bytes, m₂, hread, hlift⟩ := bind_run_eq_ok hhdr
  cases hread
  obtain ⟨hinfo, rfl⟩ := Prod.mk.inj hlift
  cases hpure
  refine ⟨?_, rfl⟩
  constructor
  case ramdisk_eq => rfl
  case unused_start => rfl
  case unused_stop =>
    simp only [Extent.stop]
    omega
  case dtb_eq =>
    simp only [Extent.take, Extent.mk.injEq, and_true]
    omega
  case kernel_eq =>
    simp only [Extent.stop, Extent.mk.injEq, and_true]
    omega
  case bootCmdline_eq => exact ⟨hdrInfo, unwrap_eq_ok.1 hinfo, rfl⟩
  case vendorCmdline_eq => rfl

structure StagedV2 (C : Codecs) (load : Extent) (bootSize bootconfigSize : Nat) (info : BootImageV2Info)
    (dtb kernelBuf : Extent) (kernelSz : Nat) (m m' : Content) : Prop where
  dtb_ge : load.start + (bootSize + bootconfigSize) ≤ dtb.start
  ramdisk_le : info.pageSize + info.ramdiskRange.len + bootconfigSize ≤ bootSize + bootconfigSize
  kernel_start : kernelBuf.start = dtb.stop
  kernel_stop : kernelBuf.stop = load.stop
  kernel_le : kernelSz ≤ kernelBuf.len
  dtb_le : info.dtbSz ≤ dtb.len
  kernel_aligned : kernelBuf.start % kernelAlignment = 0
  dtb_aligned : dtb.start % fdtAlignment = 0
  kernel_eq : decompressed C ((load.sub info.kernelRange).read m) = some ((kernelBuf.take kernelSz).read m')
  dtb_eq : (dtb.take info.dtbSz).read m' = (load.sub ⟨info.dtbRange.start, info.dtbSz⟩).read m
  hdr_eq : (load.take info.pageSize).read m' = (load.take info.pageSize).read m
  ramdisk_eq : info.ramdiskRange.stop ≤ bootSize →
    (⟨load.start + info.pageSize, info.ramdiskRange.len + bootconfigSize⟩ : Extent).read m' =
      (load.sub info.ramdiskRange).read m ++ (load.sub ⟨bootSize, bootconfigSize⟩).read m
  changes : load.Changes m m'

theorem stagedV2 {kernelBuf : Extent} {m₁ : Content} (hsize : bootSize + bootconfigSize ≤ load.len)
    (hR : RelocatedV2 C info (load.take (bootSize + bootconfigSize)) (load.drop (bootSize + bootconfigSize)) dtb
      kernelBuf kernelSz m m₁)
    (hmove : moveRamdiskV2 info (load.take (bootSize + bootconfigSize)) bootSize m₁ = (.ok (), m')) :
    StagedV2 C load bootSize bootconfigSize info dtb kernelBuf kernelSz m m' := by
  obtain ⟨tail, htail, hm', hfits, hin, htailEq⟩ := moveRamdiskV2_ok hmove
  -- Numbers of the layout, for what follows.
  have hpage := info.kernel_start
  have hramdisk : info.ramdiskRange.start + info.ramdiskRange.len ≤ bootSize + bootconfigSize := hin
  have hdtbGe : load.start + (bootSize + bootconfigSize) ≤ dtb.start := hR.dtb_ge
  have hbufStart : kernelBuf.start = dtb.start + dtb.len := hR.kernel_start
  have hdtbLe := hR.dtb_le
  have hdtbSz := info.dtb_le
  simp only [Extent.take] at htail hfits
  -- What is moved is in front of what was relocated and behind the header.
  have hmoved : (⟨load.start + info.pageSize, info.ramdiskRange.len + tail.length⟩ : Extent).Changes m₁ m' := by
    rw [hm', hpage]
    have hstore := Extent.changes_store m₁ (load.start + info.pageSize)
      (((load.take (bootSize + bootconfigSize)).sub info.ramdiskRange).read m₁ ++ tail)
    rwa [List.length_append, Extent.length_read] at hstore
  have hfront : ∀ e : Extent, e.stop ≤ load.start + (bootSize + bootconfigSize) → e.read m₁ = e.read m := fun e he =>
    hR.changes.read_eq (Extent.disjoint_of_le he)
  have hback : ∀ e : Extent, dtb.start ≤ e.start → e.read m' = e.read m₁ := fun e he =>
    hmoved.read_eq (Extent.disjoint_of_le (by simp only [Extent.stop]; omega)).symm
  constructor
  case dtb_ge => exact hdtbGe
  case ramdisk_le => omega
  case kernel_start => exact hR.kernel_start
  case kernel_stop =>
    rw [hR.kernel_stop]
    simp only [Extent.drop, Extent.stop]
    omega
  case kernel_le => exact hR.kernel_le
  case dtb_le => exact Nat.le_trans hdtbSz hdtbLe
  case kernel_aligned => exact hR.kernel_aligned
  case dtb_aligned => exact hR.dtb_aligned
  case kernel_eq =>
    rw [hback _ (by simp only [Extent.take]; omega)]
    exact hR.kernel_eq
  case dtb_eq =>
    rw [hback (dtb.take info.dtbSz) (Nat.le_refl _)]
    calc (dtb.take info.dtbSz).read m₁ = ((dtb.take info.dtbRange.len).read m₁).take info.dtbSz :=
          (Extent.take_read (e := dtb.take info.dtbRange.len) info.dtb_le m₁).symm
      _ = (((load.take (bootSize + bootconfigSize)).sub info.dtbRange).read m).take info.dtbSz := by rw [hR.dtb_eq]
      _ = _ := Extent.take_read (e := (load.take (bootSize + bootconfigSize)).sub info.dtbRange) info.dtb_le m
  case hdr_eq =>
    refine (hmoved.read_eq (Extent.disjoint_of_le (Nat.le_refl _))).trans (hfront _ ?_)
    simp only [Extent.take, Extent.stop]
    omega
  case ramdisk_eq =>
    intro hle
    have hread : (⟨load.start + info.pageSize, info.ramdiskRange.len + bootconfigSize⟩ : Extent).read m' =
        ((load.take (bootSize + bootconfigSize)).sub info.ramdiskRange).read m₁ ++ tail := by
      rw [hm', hpage]
      refine Extent.read_store m₁ ?_
      rw [List.length_append, Extent.length_read, htail]
      simp only [Extent.sub]
      omega
    rw [hread, htailEq hle, hfront _ (by simp only [Extent.take, Extent.sub, Extent.stop]; omega),
      hfront _ (by simp only [Extent.take, Extent.drop, Extent.stop]; omega)]
    refine congrArg _ (congrArg (Extent.read · m) ?_)
    simp only [Extent.take, Extent.drop, Extent.sub, Extent.mk.injEq, true_and]
    omega
  case changes =>
    refine (hR.changes.mono ⟨Nat.le_add_right .., ?_⟩).trans (hmoved.mono ⟨Nat.le_add_right .., ?_⟩)
    · simp only [Extent.drop, Extent.stop]
      omega
    · simp only [Extent.stop]
      omega

structure ArrangedV2 [Bootimg] (C : Codecs) (load : Extent) (bootSize bootconfigSize : Nat) (info : BootImageV2Info)
    (out : LoadedImages) (m m' : Content) : Prop where
  info_eq : BootImageV2Info.new ((load.take (bootSize + bootconfigSize)).read m) = .ok info
  size_le : bootSize + bootconfigSize ≤ load.len
  page_le : info.pageSize ≤ bootSize + bootconfigSize
  header_eq : BootImageV2Info.new ((load.take info.pageSize).read m) = .ok info
  placed : Placed load out
  kernel_eq : decompressed C ((load.sub info.kernelRange).read m) = some (out.kernel.read m')
  dtb_eq : out.dtb.read m' = (load.sub ⟨info.dtbRange.start, info.dtbSz⟩).read m
  ramdisk_eq : info.ramdiskRange.stop ≤ bootSize →
    out.ramdisk.read m' = (load.sub info.ramdiskRange).read m ++ (load.sub ⟨bootSize, bootconfigSize⟩).read m
  bootCmdline_eq : out.bootCmdline = info.cmdline
  vendorCmdline_eq : out.vendorCmdline = []
  changes : load.Changes m m'

theorem arrangeV2_ok [Bootimg] (h : arrangeV2 C load bootSize bootconfigSize m = (.ok out, m')) :
    ∃ info, ArrangedV2 C load bootSize bootconfigSize info out m m' := by
  obtain ⟨⟨bootEx, remains⟩, hsplit, h₁⟩ := lift_bind_run_eq_ok h
  obtain ⟨hsize, rfl, rfl⟩ := splitAtMut_eq_ok.1 hsplit
  obtain ⟨info, m₀, hread, h₂⟩ := bind_run_eq_ok h₁
  obtain ⟨bytes, _, hbytes, hlift⟩ := bind_run_eq_ok hread
  cases hbytes
  obtain ⟨hinfo, rfl⟩ := Prod.mk.inj hlift
  replace hinfo := unwrap_eq_ok.1 hinfo
  obtain ⟨⟨dtb, kernelSz⟩, m₁, hreloc, h₃⟩ := bind_run_eq_ok h₂
  obtain ⟨kernelBuf, hR⟩ := relocateV2_ok (Nat.le_refl _) hreloc
  obtain ⟨_, m₂, hmove, hcut⟩ := bind_run_eq_ok h₃
  have hS := stagedV2 hsize hR hmove
  obtain ⟨hK, rfl⟩ := cutV2_ok (show (load.take (bootSize + bootconfigSize)).start = load.start from rfl) hcut
  have hpage : info.pageSize ≤ bootSize + bootconfigSize := by
    have hle := hS.ramdisk_le
    omega
  have hkernel : out.kernel = kernelBuf.take kernelSz := by
    rw [hK.kernel_eq, ← hS.kernel_start]
    rfl
  have hheader :
    BootImageV2Info.new ((load.take info.pageSize).read m) = .ok info ∧ out.bootCmdline = info.cmdline := by
    obtain ⟨hdrInfo, hdr, hcmdline⟩ := hK.bootCmdline_eq
    rw [hS.hdr_eq] at hdr
    rw [Extent.read_take_append hpage, BootImageV2Info.new_append_of_ok hdr] at hinfo
    cases hinfo
    exact ⟨hdr, hcmdline⟩
  refine ⟨info, ?_⟩
  constructor
  case info_eq => exact hinfo
  case size_le => exact hsize
  case page_le => exact hpage
  case header_eq => exact hheader.1
  case placed =>
    have hunused := hK.unused_stop
    have hbuf := hS.kernel_start
    have hstop := hS.kernel_stop
    have hle := hS.kernel_le
    have hdtb := hS.dtb_le
    simp only [Extent.stop] at hbuf hstop
    constructor
    case ramdisk_ge =>
      rw [hK.ramdisk_eq]
      exact Nat.le_add_right ..
    case unused_start => exact hK.unused_start
    case dtb_start =>
      rw [hunused, hK.dtb_eq]
      rfl
    case kernel_ge =>
      rw [hkernel, hK.dtb_eq]
      simp only [Extent.take, Extent.stop]
      omega
    case kernel_le =>
      rw [hkernel]
      simp only [Extent.take, Extent.stop]
      omega
    case kernel_aligned =>
      rw [hkernel]
      exact hS.kernel_aligned
    case dtb_aligned =>
      rw [hK.dtb_eq]
      exact hS.dtb_aligned
  case kernel_eq =>
    rw [hkernel]
    exact hS.kernel_eq
  case dtb_eq => rw [hK.dtb_eq, hS.dtb_eq]
  case ramdisk_eq =>
    intro hle
    rw [hK.ramdisk_eq]
    exact hS.ramdisk_eq hle
  case bootCmdline_eq => exact hheader.2
  case vendorCmdline_eq => exact hK.vendorCmdline_eq
  case changes => exact hS.changes

end Gbl.Android
