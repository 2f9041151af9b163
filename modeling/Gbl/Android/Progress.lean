import Gbl.Android.Sections

/-!
# Loads that succeed

What has been proved of a load that succeeds is worth something only if loads do succeed. For each stage: if there is
room enough and the platform does its part, then there is a result.
-/

namespace Gbl.Android

open Lib Lib.Exec BootParams
open Fastboot (Bytes Text text)
open BootConfigBuilder (Appends Fits addWith)

/-! ## The kernel -/

section Kernel

variable {C : Codecs} {kernel d out : Bytes} {m : Content}

theorem decompressBlocks_progress {bs : List (Result Bytes)} {pos : Nat} (hd : blocksData C bs = some d)
    (hroom : pos + d.length ≤ out.length) : ∃ out', decompressBlocks C bs pos out = (.ok (pos + d.length), out') := by
  induction bs generalizing pos out d with
  | nil =>
    cases hd
    exact ⟨out, rfl⟩
  | cons b bs ih =>
    cases b with
    | error e => cases hd
    | ok block =>
      obtain ⟨d₁, hd₁, hrest⟩ := Option.bind_eq_some_iff.1 hd
      obtain ⟨d₂, hd₂, hpure⟩ := Option.bind_eq_some_iff.1 hrest
      cases hpure
      rw [List.length_append] at hroom
      have hfits : d₁.length ≤ (out.drop pos).length := by
        rw [List.length_drop]
        omega
      have hinto := (C.into_eq_some block (out.drop pos) d₁.length).2 ⟨d₁, hd₁, hfits, rfl⟩
      have hlen : (out.take pos ++ (C.decompressInto block (out.drop pos)).2).length = out.length := by
        rw [List.length_append, C.length_into, List.length_take_of_le (by omega), List.length_drop]
        omega
      have hroom' : pos + d₁.length + d₂.length ≤
          (out.take pos ++ (C.decompressInto block (out.drop pos)).2).length := by omega
      obtain ⟨out', hrun⟩ := ih hd₂ hroom'
      refine ⟨out', ?_⟩
      unfold decompressBlocks
      rw [bind_run_ok (get_run out), assert_bind_run_true (decide_eq_true (by omega))]
      simp only [hinto]
      rw [bind_run_ok (modify_run _ _), hrun, List.length_append, Nat.add_assoc]

theorem decompressKernel_progress (hd : decompressed C kernel = some d) (hroom : d.length ≤ out.length) :
    ∃ out', decompressKernel C kernel out = (.ok d.length, out') := by
  unfold decompressed at hd
  unfold decompressKernel
  split at hd
  · next hgzip =>
    refine ⟨splice out 0 d, ?_⟩
    rw [if_pos hgzip]
    unfold decompressGzip
    rw [hd]
    exact copyOut_eq_ok.2 ⟨hroom, rfl, rfl⟩
  · next hgzip =>
    rw [if_neg hgzip]
    split at hd
    · next hlz4 =>
      rw [if_pos hlz4]
      have hroom' : 0 + d.length ≤ out.length := by omega
      obtain ⟨out', hrun⟩ := decompressBlocks_progress hd hroom'
      rw [Nat.zero_add] at hrun
      exact ⟨out', hrun⟩
    · next hlz4 =>
      cases hd
      rw [if_neg hlz4]
      exact ⟨splice out 0 kernel, copyOut_eq_ok.2 ⟨hroom, rfl, rfl⟩⟩

variable {b : Extent} {size align : Nat}

theorem alignedTailOffset_progress (halign : 0 < align) (hlt : align < 2 ^ 64) (hroom : size + align ≤ b.len)
    (hlen : b.len < 2 ^ 64) :
    ∃ off, alignedTailOffset b size align = .ok off ∧ off + size ≤ b.len ∧ b.len ≤ off + size + (align - 1) := by
  have hmod := Nat.mod_lt (b.start + (b.len - size)) halign
  refine ⟨b.len - size - (b.start + (b.len - size)) % align, ?_, by omega, by omega⟩
  exact (alignedTailOffset_eq_ok halign hlt).2 ⟨hlen, by omega, by omega⟩

theorem splitAlignedTail_progress (halign : 0 < align) (hlt : align < 2 ^ 64) (hroom : size + align ≤ b.len)
    (hlen : b.len < 2 ^ 64) :
    ∃ off, splitAlignedTail b size align = .ok (b.take off, b.drop off) ∧ off + size ≤ b.len ∧
      b.len ≤ off + size + (align - 1) := by
  obtain ⟨off, hoff, hfits, hfar⟩ := alignedTailOffset_progress halign hlt hroom hlen
  refine ⟨off, ?_, hfits, hfar⟩
  unfold splitAlignedTail
  rw [hoff, Res.ok_bind]
  exact split_eq_ok.2 ⟨by omega, rfl, rfl⟩

theorem relocateKernel_progress {dst : Extent} (m : Content) (hd : decompressed C kernel = some d)
    (hroom : d.length + kernelAlignment ≤ dst.len) (hlen : dst.len < 2 ^ 64) :
    ∃ off m', relocateKernel C kernel dst m = (.ok (dst.take off, dst.drop off, d.length), m') ∧
      off + d.length ≤ dst.len ∧ dst.len ≤ off + d.length + kernelAlignment := by
  have hfits : d.length ≤ (dst.read m).length := by
    rw [Extent.length_read]
    omega
  obtain ⟨out', hrun⟩ := decompressKernel_progress hd hfits
  obtain ⟨off, hoff, hoffLe, hfar⟩ := alignedTailOffset_progress (by decide) (by decide) hroom hlen
  have hsrc : (⟨0, d.length⟩ : Extent).stop ≤ dst.len := by
    simp only [Extent.stop]
    omega
  have hsplit := (split_eq_ok (b := dst)).2 ⟨(by omega : off ≤ dst.len), rfl, rfl⟩
  refine ⟨off, (relocateKernel C kernel dst m).2, Prod.ext ?_ rfl, hoffLe, by omega⟩
  unfold relocateKernel
  rw [bind_run_ok (focus_run hrun), bind_run_ok (lift_run_ok hoff _),
    bind_run_ok (copyWithin_run hsrc hoffLe _), bind_run_ok (lift_run_ok hsplit _)]
  rfl

end Kernel

/-! ## Versions 3 and 4: after verification -/

section ArrangeV3

variable {C : Codecs} {load : Extent} {images : V3Images} {d : Bytes} {m : Content}

theorem getRange_readAt_run {b r : Extent} (h : r.stop ≤ b.len) (m : Content) :
    (lift (getRange b r) >>= readAt : Exec Error Content Bytes) m = (.ok ((b.sub r).read m), m) :=
  bind_run_ok (lift_run_ok (getRange_eq_ok.2 ⟨h, rfl⟩) m)

theorem relocateV3_progress {remains : Extent} (m : Content)
    (hkernel : images.bootInfo.kernelRange.stop ≤ images.boot.len) (hpage : pageSize ≤ images.boot.len)
    (hdtb : images.vendorInfo.dtbRange.stop ≤ images.vendorBoot.len)
    (hd : decompressed C (images.kernel.read m) = some d)
    (hroom : d.length + kernelAlignment + (pageSize + 1) + (images.vendorInfo.dtbRange.len + fdtAlignment)
      ≤ remains.len)
    (hlen : remains.len < 2 ^ 64) : Succeeds (relocateV3 C images remains) m := by
  obtain ⟨off, m₁, hreloc, hfits, hfar⟩ := relocateKernel_progress m hd (by omega) hlen
  have hroom₁ : pageSize + 1 ≤ (remains.take off).len := by
    simp only [Extent.take]
    omega
  have hlen₁ : (remains.take off).len < 2 ^ 64 := by
    simp only [Extent.take]
    omega
  obtain ⟨off₁, htail₁, hfits₁, hfar₁⟩ := splitAlignedTail_progress (by decide) (by decide) hroom₁ hlen₁
  simp only [Extent.take] at hfits₁ hfar₁
  have hhdr : (lift (indexTo images.boot pageSize) >>= readAt : Exec Error Content Bytes) m₁ =
      (.ok ((images.boot.take pageSize).read m₁), m₁) :=
    bind_run_ok (lift_run_ok (indexTo_eq_ok.2 ⟨hpage, rfl⟩) m₁)
  -- With an alignment of 1 the tail is exactly as long as the header.
  have hhdrLen : ((images.boot.take pageSize).read m₁).length = ((remains.take off).drop off₁).len := by
    rw [Extent.length_read]
    simp only [Extent.take, Extent.drop]
    omega
  have hroom₂ : images.vendorInfo.dtbRange.len + fdtAlignment ≤ ((remains.take off).take off₁).len := by
    simp only [Extent.take]
    omega
  have hlen₂ : ((remains.take off).take off₁).len < 2 ^ 64 := by
    simp only [Extent.take]
    omega
  obtain ⟨off₂, htail₂, hfits₂, -⟩ := splitAlignedTail_progress (by decide) (by decide) hroom₂ hlen₂
  simp only [Extent.take] at hfits₂
  have hdst := (indexTo_eq_ok (b := ((remains.take off).take off₁).drop off₂) (n := images.vendorInfo.dtbRange.len)).2
    ⟨by simp only [Extent.take, Extent.drop]; omega, rfl⟩
  unfold relocateV3
  apply succeeds_bind (getRange_readAt_run hkernel m)
  apply succeeds_bind hreloc
  apply succeeds_lift_bind htail₁
  apply succeeds_bind hhdr
  apply succeeds_bind (cloneFromSlice_run hhdrLen m₁)
  apply succeeds_lift_bind (getRange_eq_ok.2 ⟨hdtb, rfl⟩)
  apply succeeds_lift_bind htail₂
  apply succeeds_lift_bind hdst
  apply succeeds_bind (readAt_eq_ok.2 ⟨rfl, rfl⟩)
  apply succeeds_bind (cloneFromSlice_run ?_ _)
  · apply succeeds_pure
  · exact Extent.length_read ..

theorem genericRamdiskRange_progress (hL : images.Loaded load) (hlt : load.stop < 2 ^ 64) :
    ∃ r, genericRamdiskRange load images = .ok r := by
  have hstart := hL.vendor_start
  have hboot := hL.boot_start
  have hinit := hL.init_start
  have hremains := hL.remains_start
  have hstop := hL.remains_stop
  unfold genericRamdiskRange
  cases hinfo : images.initInfo with
  | none =>
    have hlen := hL.boot_len
    have hle := images.bootInfo.ramdisk_le
    simp only [Extent.stop] at *
    refine ⟨_, Res.bind_eq_ok.2 ⟨_, sliceOffset_eq_ok.2 ⟨by omega, rfl⟩, offsetRange_eq_ok.2 ⟨?_, rfl⟩⟩⟩
    simp only [Extent.stop]
    omega
  | some info =>
    have hlen := hL.init_len info hinfo
    have hle := info.ramdisk_le
    simp only [Extent.stop] at *
    refine ⟨_, Res.bind_eq_ok.2 ⟨_, sliceOffset_eq_ok.2 ⟨by omega, rfl⟩, offsetRange_eq_ok.2 ⟨?_, rfl⟩⟩⟩
    simp only [Extent.stop]
    omega

variable {bootconfigSize : Nat} {bootCmdline vendorCmdline : Text}

theorem moveRamdiskV3_progress (m : Content) (hL : images.Loaded load)
    (hsize : bootconfigSize ≤ images.remains.len) (hlt : load.stop < 2 ^ 64) :
    Succeeds (moveRamdiskV3 load images (images.remains.take bootconfigSize)) m := by
  obtain ⟨r, hr⟩ := genericRamdiskRange_progress hL hlt
  have hsub := genericRamdiskRange_ok hr
  have hramdisk := hL.ramdisk_le
  have hbetween := hL.generic_between
  have hboot := hL.boot_start
  have hinit := hL.init_start
  have hvendor := hL.vendor_start
  have hremains := hL.remains_start
  have hstop := hL.remains_stop
  rw [← hsub] at hramdisk hbetween
  simp only [Extent.stop, Extent.sub] at *
  have hoff : (sliceOffset (images.remains.take bootconfigSize) load >>= offsetRange ⟨0, bootconfigSize⟩) =
      .ok ⟨0 + (images.remains.start - load.start), bootconfigSize⟩ := by
    refine Res.bind_eq_ok.2 ⟨_, sliceOffset_eq_ok.2 ⟨?_, rfl⟩, offsetRange_eq_ok.2 ⟨?_, rfl⟩⟩
    · simp only [Extent.take]
      omega
    · simp only [Extent.take, Extent.stop]
      omega
  unfold moveRamdiskV3
  apply succeeds_lift_bind hr
  apply succeeds_lift_bind hoff
  apply succeeds_bind (copyWithin_run ?_ ?_ m)
  · apply succeeds_bind (copyWithin_run ?_ ?_ _)
    · apply succeeds_pure
    · simp only [Extent.stop]
      omega
    · simp only [Extent.stop]
      omega
  · simp only [Extent.stop]
    omega
  · simp only [Extent.stop]
    omega

theorem cutV3_progress [Bootimg] {tail : TailV3} {m₀ : Content} (hL : images.Loaded load)
    (hS : StagedV3 C load images bootconfigSize tail m₀ m)
    (hboot : BootImageV3Info.cmdline (tail.bootHdr.read m) = .ok bootCmdline)
    (hvendor : VendorBootImageInfo.cmdline ((load.take images.vendorInfo.headerSize).read m) = .ok vendorCmdline) :
    Succeeds (cutV3 load images tail
      (images.vendorInfo.ramdiskRange.len + images.genericRamdisk.len + bootconfigSize)) m := by
  have hramdisk := hL.ramdisk_le
  have hheader := images.vendorInfo.ramdisk_start
  have hdtb := hS.dtb_le
  have hge := hS.dtb_ge
  have hhdr := hS.hdr_start
  have hkernel := hS.kernel_start
  have hstop := hS.kernel_stop
  have hle := hS.kernel_le
  simp only [Extent.stop] at hramdisk hhdr hkernel hstop
  -- What nothing takes up is between the ramdisk and the dtb.
  generalize hsz : images.vendorInfo.ramdiskRange.len + images.genericRamdisk.len + bootconfigSize = ramdiskSz
  obtain ⟨unusedSz, hunused⟩ : ∃ n, load.start + images.vendorInfo.headerSize + ramdiskSz + n = tail.dtb.start :=
    ⟨tail.dtb.start - (load.start + images.vendorInfo.headerSize + ramdiskSz), by omega⟩
  have hunusedSz : unusedSizeV3 load images.vendorInfo.headerSize ramdiskSz tail.bootHdr.len images.vendorInfo.dtbSz
      (tail.dtb.len - images.vendorInfo.dtbSz) tail.kernelBuf.len = .ok unusedSz := unusedSizeV3_eq_ok.2 (by omega)
  have hchunks := (splitChunks_eq_ok (b := load)).2 ⟨(show [images.vendorInfo.headerSize, ramdiskSz, unusedSz,
    images.vendorInfo.dtbSz, tail.dtb.len - images.vendorInfo.dtbSz, tail.bootHdr.len, tail.kernelSz].sum ≤ load.len by
      simp only [List.sum_cons, List.sum_nil]; omega), rfl, rfl⟩
  have hhdrStart : load.start + images.vendorInfo.headerSize + ramdiskSz + unusedSz + images.vendorInfo.dtbSz +
      (tail.dtb.len - images.vendorInfo.dtbSz) = tail.bootHdr.start := by omega
  simp only [chunksFrom, hhdrStart] at hchunks
  unfold cutV3
  apply succeeds_lift_bind (subU64_eq_ok.2 ⟨hdtb, rfl⟩)
  apply succeeds_lift_bind hunusedSz
  apply succeeds_lift_bind hchunks
  apply succeeds_bind ((bind_run_ok (readAt_eq_ok.2 ⟨rfl, rfl⟩)).trans (lift_run_ok hboot m))
  apply succeeds_bind ((bind_run_ok (readAt_eq_ok.2 ⟨rfl, rfl⟩)).trans (lift_run_ok hvendor m))
  apply succeeds_pure

theorem arrangeV3_progress [Bootimg] (hL : images.Loaded load) (hlt : load.stop < 2 ^ 64)
    (hd : decompressed C (images.kernel.read m) = some d)
    (hroom : bootconfigSize + (d.length + kernelAlignment + (pageSize + 1) +
      (images.vendorInfo.dtbRange.len + fdtAlignment)) ≤ images.remains.len)
    (hboot : BootImageV3Info.cmdline ((images.boot.take pageSize).read m) = .ok bootCmdline)
    (hvendor : VendorBootImageInfo.cmdline ((images.vendorBoot.take images.vendorInfo.headerSize).read m) =
      .ok vendorCmdline) : Succeeds (arrangeV3 C load images bootconfigSize) m := by
  have hsize : bootconfigSize ≤ images.remains.len := by omega
  have hstop := hL.remains_stop
  obtain ⟨hbootLe, hvendorLe⟩ := hL.images_le bootconfigSize
  have hkernel : images.bootInfo.kernelRange.stop ≤ images.boot.len := by
    rw [hL.boot_len]
    exact images.bootInfo.kernel_le
  have hpage : pageSize ≤ images.boot.len := by
    rw [hL.boot_len]
    exact images.bootInfo.page_le
  have hdtb : images.vendorInfo.dtbRange.stop ≤ images.vendorBoot.len := by
    rw [hL.vendor_len]
    exact images.vendorInfo.dtbRange_le
  unfold arrangeV3
  apply succeeds_lift_bind (splitAtMut_eq_ok.2 ⟨hsize, rfl, rfl⟩)
  apply (relocateV3_progress m hkernel hpage hdtb hd _ _).bind
  · intro tail m₁ hreloc
    have hR := relocateV3_ok hbootLe hvendorLe hreloc
    apply (moveRamdiskV3_progress m₁ hL hsize hlt).bind
    intro ramdiskSz m₂ hmove
    have hapart : load.start + images.vendorInfo.ramdiskRange.stop + images.genericRamdisk.len ≤
        (images.remains.take bootconfigSize).start := hL.ramdisk_le
    obtain ⟨rfl, hm₂⟩ := moveRamdiskV3_ok hapart hmove
    have hS := stagedV3 hL hsize hR hm₂
    rw [← hS.hdr_eq] at hboot
    rw [← hS.vendorHdr_eq] at hvendor
    exact cutV3_progress hL hS hboot hvendor
  · simp only [Extent.drop]
    omega
  · simp only [Extent.drop, Extent.stop] at *
    omega

end ArrangeV3

/-! ## Versions 0, 1 and 2: after verification -/

section ArrangeV2

variable {C : Codecs} {load : Extent} {info : BootImageV2Info} {d : Bytes} {m : Content}

variable {bootEx : Extent} {bootSize bootconfigSize : Nat}

theorem relocateV2_progress {remains : Extent} (m : Content) (hkernel : info.kernelRange.stop ≤ bootEx.len)
    (hdtb : info.dtbRange.stop ≤ bootEx.len)
    (hd : decompressed C ((bootEx.sub info.kernelRange).read m) = some d)
    (hroom : d.length + kernelAlignment + (info.dtbRange.len + fdtAlignment) ≤ remains.len)
    (hlen : remains.len < 2 ^ 64) : Succeeds (relocateV2 C info bootEx remains) m := by
  obtain ⟨off, m₁, hreloc, hfits, hfar⟩ := relocateKernel_progress m hd (by omega) hlen
  have hroom₁ : info.dtbRange.len + fdtAlignment ≤ (remains.take off).len := by
    simp only [Extent.take]
    omega
  have hlen₁ : (remains.take off).len < 2 ^ 64 := by
    simp only [Extent.take]
    omega
  obtain ⟨off₁, htail, hfits₁, -⟩ := splitAlignedTail_progress (by decide) (by decide) hroom₁ hlen₁
  simp only [Extent.take] at hfits₁
  have hdst := (indexTo_eq_ok (b := (remains.take off).drop off₁) (n := info.dtbRange.len)).2
    ⟨by simp only [Extent.take, Extent.drop]; omega, rfl⟩
  unfold relocateV2
  apply succeeds_bind (getRange_readAt_run hkernel m)
  apply succeeds_bind hreloc
  apply succeeds_lift_bind htail
  apply succeeds_lift_bind hdst
  apply succeeds_bind (getRange_readAt_run hdtb m₁)
  apply succeeds_bind (cloneFromSlice_run ?_ _)
  · apply succeeds_pure
  · exact Extent.length_read ..

theorem moveRamdiskV2_progress (m : Content) (hramdisk : info.ramdiskRange.stop ≤ bootSize)
    (hsize : bootSize ≤ bootEx.len) : Succeeds (moveRamdiskV2 info bootEx bootSize) m := by
  have hstart := info.ramdisk_start
  simp only [Extent.stop] at hramdisk hstart
  unfold moveRamdiskV2
  apply succeeds_bind (copyWithin_run ?_ ?_ m)
  · refine .of_run (copyWithin_run ?_ ?_ _)
    · simp only [Extent.stop]
      omega
    · simp only
      omega
  · simp only [Extent.stop]
    omega
  · omega

theorem cutV2_progress [Bootimg] {kernelSz : Nat} {dtb kernelBuf : Extent} {m₀ : Content}
    (hstart : bootEx.start = load.start)
    (hS : StagedV2 C load bootSize bootconfigSize info dtb kernelBuf kernelSz m₀ m)
    {hdrInfo : BootImageV2Info}
    (hheader : BootImageV2Info.new ((load.take info.pageSize).read m) = .ok hdrInfo) :
    Succeeds (cutV2 info load bootEx dtb bootconfigSize kernelSz) m := by
  have hramdisk := hS.ramdisk_le
  have hdtb := hS.dtb_le
  have hge := hS.dtb_ge
  have hkernel := hS.kernel_start
  have hstop := hS.kernel_stop
  have hle := hS.kernel_le
  simp only [Extent.stop] at hkernel hstop
  have hunused :
    (subU64 (dtb.start - bootEx.start) info.pageSize >>= (subU64 · (info.ramdiskRange.len + bootconfigSize))) =
      .ok (dtb.start - bootEx.start - info.pageSize - (info.ramdiskRange.len + bootconfigSize)) :=
    Res.bind_eq_ok.2 ⟨_, subU64_eq_ok.2 ⟨by omega, rfl⟩, subU64_eq_ok.2 ⟨by omega, rfl⟩⟩
  have hchunks := (splitChunks_eq_ok (b := load)).2 ⟨(show [info.pageSize, info.ramdiskRange.len + bootconfigSize,
    dtb.start - bootEx.start - info.pageSize - (info.ramdiskRange.len + bootconfigSize), info.dtbSz,
    dtb.len - info.dtbSz, kernelSz].sum ≤ load.len by simp only [List.sum_cons, List.sum_nil]; omega), rfl, rfl⟩
  simp only [chunksFrom] at hchunks
  unfold cutV2
  apply succeeds_lift_bind (sliceOffset_eq_ok.2 ⟨by omega, rfl⟩)
  apply succeeds_lift_bind hunused
  apply succeeds_lift_bind (subU64_eq_ok.2 ⟨hdtb, rfl⟩)
  apply succeeds_lift_bind hchunks
  apply succeeds_bind ((bind_run_ok (readAt_eq_ok.2 ⟨rfl, rfl⟩)).trans (lift_run_ok (unwrap_eq_ok.2 hheader) m))
  apply succeeds_pure

theorem arrangeV2_progress [Bootimg] (hlt : load.len < 2 ^ 64) (hsize : info.imageSize ≤ bootSize)
    (hinfo : BootImageV2Info.new ((load.take (bootSize + bootconfigSize)).read m) = .ok info)
    (hheader : BootImageV2Info.new ((load.take info.pageSize).read m) = .ok info)
    (hd : decompressed C ((load.sub info.kernelRange).read m) = some d)
    (hroom : bootSize + bootconfigSize + (d.length + kernelAlignment + (info.dtbRange.len + fdtAlignment)) ≤ load.len) :
    Succeeds (arrangeV2 C load bootSize bootconfigSize) m := by
  have hall : bootSize + bootconfigSize ≤ load.len := by omega
  have hkernel : info.kernelRange.stop ≤ (load.take (bootSize + bootconfigSize)).len := by
    have hle := info.kernel_le
    simp only [Extent.take]
    omega
  have hdtb : info.dtbRange.stop ≤ (load.take (bootSize + bootconfigSize)).len := by
    have hle := info.image_size_eq
    simp only [Extent.take]
    omega
  have hramdisk : info.ramdiskRange.stop ≤ bootSize := Nat.le_trans info.ramdiskRange_le hsize
  unfold arrangeV2
  apply succeeds_lift_bind (splitAtMut_eq_ok.2 ⟨hall, rfl, rfl⟩)
  apply succeeds_bind ((bind_run_ok (readAt_eq_ok.2 ⟨rfl, rfl⟩)).trans (lift_run_ok (unwrap_eq_ok.2 hinfo) m))
  apply (relocateV2_progress m hkernel hdtb hd _ _).bind
  · rintro ⟨dtb, kernelSz⟩ m₁ hreloc
    obtain ⟨kernelBuf, hR⟩ := relocateV2_ok (Nat.le_refl _) hreloc
    apply (moveRamdiskV2_progress m₁ hramdisk (Nat.le_add_right ..)).bind
    intro _ m₂ hmove
    have hS := stagedV2 hall hR hmove
    rw [← hS.hdr_eq] at hheader
    exact cutV2_progress rfl hS hheader
  · simp only [Extent.drop]
    omega
  · simp only [Extent.drop]
    omega

end ArrangeV2

/-! ## Verification -/

section Verify

variable {ω : Type} {P : GblOps ω} {b : BootConfigBuilder} {w : ω} {content added avb fixup : Bytes} {slot : Nat}

structure Obliging (P : GblOps ω) : Prop where
  partitionSize : ∀ part w, (P.partitionSize part w).1 = .ok none
  reads : ∀ part off len w, (P.readFromPartitionSync part off len w).1.1 = .ok ()
  unlocked : ∀ w, (P.readIsDeviceUnlocked w).1 = .ok true
  verify : ∀ slot partitions w, ∃ data vbmeta, (P.slotVerify slot partitions true w).1.result = .ok data ∧
    data.cmdline = some [] ∧ findVbmeta data "vbmeta" = some vbmeta
  handle : ∀ color digest properties w, (P.handleVerificationResult color digest properties w).1 = .ok ()
  fixup : ∀ current w space, P.fixupBootconfig current (w, space) = (.ok none, (w, space))

def orangeText : Bytes := (verifiedBootState .orange).flatten

theorem items_nil : CommandlineParser.items [] = [] := by
  unfold CommandlineParser.items
  rfl

theorem Obliging.readIsDeviceUnlocked_run (hP : Obliging P) (w : ω) :
    readIsDeviceUnlocked P w = (.ok true, (P.readIsDeviceUnlocked w).2) := by
  unfold readIsDeviceUnlocked
  rw [hP.unlocked w]
  rfl

theorem Obliging.avb_eq (hP : Obliging P) {partitions : Preloaded} (h : AvbParameters P slot partitions w avb) :
    avb = orangeText := by
  obtain ⟨unlocked, color, data, cmdline, entries, hunlocked, hjudge, hcmdline, hitems, rfl⟩ := h
  rw [hP.readIsDeviceUnlocked_run] at hunlocked hjudge
  cases hunlocked
  obtain ⟨data', vbmeta, hresult, hnil, -⟩ := hP.verify slot partitions (P.readIsDeviceUnlocked w).2
  unfold judge at hjudge
  simp only [hresult] at hjudge
  cases hjudge
  rw [hnil] at hcmdline
  cases hcmdline
  rw [items_nil] at hitems
  obtain rfl := List.map_eq_nil_iff.1 hitems.symm
  rfl

theorem Obliging.fixup_eq (hP : Obliging P) {current : Bytes} (h : FixupText P current fixup) : fixup = [] := by
  obtain ⟨w, space, w', out, r, hrun, rfl⟩ := h
  rw [hP.fixup] at hrun
  cases hrun
  rfl

theorem buildProperties_progress {data : SlotVerifyData} {vbmeta : VbmetaData}
    (h : findVbmeta data "vbmeta" = some vbmeta) : ∃ properties, buildProperties (some data) = .ok properties := by
  unfold buildProperties
  simp only [h]
  exact ⟨_, rfl⟩

theorem Obliging.avbVerifySlot_progress (hP : Obliging P) (hslot : slot = 0 ∨ slot = 1) (partitions : Preloaded)
    (h : b.Holds content) (hroom : content.length + orangeText.length + bootconfigTrailerSize ≤ b.buffer.length)
    (hlt : b.buffer.length < 2 ^ 32) : Succeeds (avbVerifySlot P slot partitions) (w, b) := by
  obtain ⟨data, vbmeta, hresult, hnil, hvbmeta⟩ := hP.verify slot partitions (P.readIsDeviceUnlocked w).2
  have hunlocked : onOps (readIsDeviceUnlocked P) (w, b) = (.ok true, ((P.readIsDeviceUnlocked w).2, b)) := by
    unfold onOps zoom
    rw [mapErr_run_ok (hP.readIsDeviceUnlocked_run w)]
  have hjudge :
    judge true (P.slotVerify slot partitions true (P.readIsDeviceUnlocked w).2).1 = .ok (.orange, some data) := by
    unfold judge
    simp only [hresult]
  unfold avbVerifySlot
  apply succeeds_bind (mapErr_run_ok (lift_run_ok ((ensure_eq_ok (u := ())).2 hslot) (w, b)))
  apply succeeds_bind hunlocked
  apply succeeds_bind rfl
  apply succeeds_lift_bind hjudge
  apply succeeds_bind (a := none)
  · unfold addCmdline
    simp only [hnil, items_nil]
    rfl
  apply Succeeds.bind
  · apply Succeeds.zoom
    apply Succeeds.mapErr
    unfold handleVerificationResult
    obtain ⟨properties, hproperties⟩ := buildProperties_progress hvbmeta
    apply succeeds_lift_bind (Res.ofExcept_eq_ok.2 hproperties)
    apply succeeds_lift_bind rfl
    refine .of_run (a := ()) (Prod.ext ?_ rfl)
    exact Res.ofExcept_eq_ok.2 (hP.handle ..)
  rintro _ ⟨w', b'⟩ hrun
  obtain ⟨-, rfl⟩ := onOps_eq_ok hrun
  exact (BootConfigBuilder.fits_writeFmt _).mapErr w' _ content h hroom hlt

variable {additional : Exec Error (Building ω) Unit} {toVerify additionalPartitions : Preloaded} {s : LoadState ω}

theorem Obliging.verifyAndFixup_progress (hP : Obliging P) (hslot : slot = 0 ∨ slot = 1)
    (hadd : Appends additional added)
    (hfits : Fits additional added) (h : b.Holds [])
    (hroom : orangeText.length + added.length + bootconfigTrailerSize ≤ b.buffer.length)
    (hlt : b.buffer.length < 2 ^ 32) : Succeeds (verifyAndFixup P slot toVerify additional) (w, b) := by
  unfold verifyAndFixup
  apply (hP.avbVerifySlot_progress hslot toVerify h (by simp only [List.length_nil]; omega) hlt).bind
  rintro _ ⟨w₁, b₁⟩ havb
  obtain ⟨avb, hparams, hholds₁, hlen₁⟩ := avbVerifySlot_ok h havb
  obtain rfl := hP.avb_eq hparams
  rw [List.nil_append] at hholds₁
  apply (hfits w₁ b₁ _ hholds₁ (by omega) (by omega)).mapErr.bind
  rintro _ ⟨w₂, b₂⟩ hadded
  obtain ⟨rfl, hholds₂, hlen₂⟩ := hadd _ _ _ _ _ hholds₁ (unified_eq_ok hadded)
  apply Succeeds.mapErr
  have hread : (fixupReader P).run (b₂.buffer.take b₂.currentSize) (w₂, b₂.space) = (.ok 0, (w₂, b₂.space)) :=
    bind_run_ok (hP.fixup _ _ _)
  have hsize := hholds₂.size_eq
  rw [List.length_append] at hsize
  obtain ⟨b', hrun, -⟩ := BootConfigBuilder.addWith_ok hholds₂ hread (Nat.zero_le _) (by omega)
  exact .of_run hrun

theorem configLen_progress (h : b.Holds content) : Succeeds (configLen : Exec Error (Building ω) Nat) (w, b) := by
  unfold configLen
  apply succeeds_bind (get_run _)
  apply succeeds_lift_bind h.configBytes_eq
  apply succeeds_pure

theorem building_progress {α : Type} {remains : Extent} {body : Exec IntegrationError (Building ω) α}
    (h : Succeeds body (s.ops, b)) : Succeeds (building remains b body) s := by
  obtain ⟨a, t, hrun⟩ := h
  refine .of_run (a := a) (Prod.ext ?_ rfl)
  show (body (s.ops, b)).1 = _
  rw [hrun]

theorem newBuilder_progress {remains : Extent} (h : bootconfigTrailerSize ≤ remains.len) :
    Succeeds (newBuilder remains : Exec Error (LoadState ω) BootConfigBuilder) s := by
  rw [← Extent.length_read remains s.mem] at h
  obtain ⟨b, hnew, -⟩ := BootConfigBuilder.new_eq_ok h
  exact .of_run (a := b) (Prod.ext hnew rfl)

theorem Obliging.verifyV2_progress (hP : Obliging P) (hslot : slot = 0 ∨ slot = 1) (hadd : Appends additional added)
    (hfits : Fits additional added) {boot remains : Extent}
      (hpartitions : additionalPartitions.length < maxNumPartition)
    (hroom : orangeText.length + added.length + bootconfigTrailerSize ≤ remains.len) (hlt : remains.len < 2 ^ 32) :
    Succeeds (verifyV2 P slot additionalPartitions additional boot remains) s := by
  unfold verifyV2
  apply (newBuilder_progress (by omega)).mapErr.bind
  intro builder s₁ hnew
  obtain ⟨hholds, hlen, rfl⟩ := newBuilder_ok hnew
  apply succeeds_bind (get_run _)
  have htoVerify : toVerifyV2 (boot.read s.mem) additionalPartitions =
      .ok ([] ++ [(text "boot", boot.read s.mem)] ++ additionalPartitions) := by
    refine Res.bind_eq_ok.2 ⟨_, tryPushPreloaded_eq_ok.2 ⟨by decide, rfl⟩, tryExtendPreloaded_eq_ok.2 ⟨?_, rfl⟩⟩
    simp only [List.nil_append, List.length_singleton]
    omega
  apply succeeds_bind (mapErr_run_ok (lift_run_ok htoVerify s))
  apply succeeds_bind (modify_run _ _)
  apply building_progress
  apply (hP.verifyAndFixup_progress hslot hadd hfits hholds (by omega) (by omega)).bind
  rintro _ ⟨w₁, b₁⟩ hverify
  obtain ⟨avb, fixup, -, -, hholds₁, -⟩ := verifyAndFixup_ok hadd hholds hverify
  exact (configLen_progress hholds₁).mapErr

theorem pushIfLoaded_progress (partitions : Preloaded) (name : Text) (e : Extent) (m : Content)
    (h : partitions.length < maxNumPartition) :
    ∃ partitions', pushIfLoaded partitions name e m = .ok partitions' ∧ partitions'.length ≤ partitions.length + 1 := by
  unfold pushIfLoaded
  split
  · refine ⟨_, tryPushPreloaded_eq_ok.2 ⟨h, rfl⟩, ?_⟩
    rw [List.length_append, List.length_singleton]
  · exact ⟨partitions, rfl, Nat.le_succ _⟩

theorem toVerifyV3_progress (images : V3Images) (m : Content) (h : additionalPartitions.length + 3 ≤ maxNumPartition) :
    ∃ toVerify, toVerifyV3 images m additionalPartitions = .ok toVerify := by
  have hmax : maxNumPartition = 16 := rfl
  have hboot : tryPushPreloaded [] (text "boot") (images.boot.read m) = .ok [(text "boot", images.boot.read m)] :=
    tryPushPreloaded_eq_ok.2 ⟨by decide, rfl⟩
  have hvendor : tryPushPreloaded [(text "boot", images.boot.read m)] (text "vendor_boot") (images.vendorBoot.read m) =
      .ok [(text "boot", images.boot.read m), (text "vendor_boot", images.vendorBoot.read m)] :=
    tryPushPreloaded_eq_ok.2 ⟨by rw [List.length_singleton]; decide, rfl⟩
  obtain ⟨p, hinit, hlen⟩ := pushIfLoaded_progress
    [(text "boot", images.boot.read m), (text "vendor_boot", images.vendorBoot.read m)] (text "init_boot")
      images.initBoot m
    (by simp only [List.length_cons, List.length_nil]; omega)
  simp only [List.length_cons, List.length_nil] at hlen
  refine ⟨p ++ additionalPartitions,
    Res.bind_eq_ok.2 ⟨_, hboot, Res.bind_eq_ok.2 ⟨_, hvendor, Res.bind_eq_ok.2 ⟨_, hinit, ?_⟩⟩⟩⟩
  exact tryExtendPreloaded_eq_ok.2 ⟨by omega, rfl⟩

theorem Obliging.verifyV3_progress (hP : Obliging P) (hslot : slot = 0 ∨ slot = 1) (hadd : Appends additional added)
    (hfits : Fits additional added) {images : V3Images}
      (hpartitions : additionalPartitions.length + 3 ≤ maxNumPartition)
    (hconfig : images.vendorInfo.bootconfigRange.stop ≤ images.vendorBoot.len)
    (hroom : orangeText.length + added.length + images.vendorInfo.bootconfigRange.len + bootconfigTrailerSize ≤
      images.remains.len) (hlt : images.remains.len < 2 ^ 32) :
    Succeeds (verifyV3 P slot additionalPartitions additional images) s := by
  unfold verifyV3
  apply (newBuilder_progress (by omega)).mapErr.bind
  intro builder s₁ hnew
  obtain ⟨hholds, hlen, rfl⟩ := newBuilder_ok hnew
  apply succeeds_bind (get_run _)
  obtain ⟨toVerify, htoVerify⟩ := toVerifyV3_progress images s.mem hpartitions
  apply succeeds_bind (mapErr_run_ok (lift_run_ok htoVerify s))
  apply succeeds_bind (modify_run _ _)
  apply building_progress
  apply (hP.verifyAndFixup_progress hslot hadd hfits hholds (by omega) (by omega)).bind
  rintro _ ⟨w₁, b₁⟩ hverify
  obtain ⟨avb, fixup, hparams, hfixup, hholds₁, hlen₁⟩ := verifyAndFixup_ok hadd hholds hverify
  obtain rfl := hP.avb_eq hparams
  obtain rfl := hP.fixup_eq hfixup
  apply Succeeds.bind
  · apply Succeeds.mapErr
    unfold addVendorBootconfig
    apply succeeds_lift_bind (getRange_eq_ok.2 ⟨hconfig, rfl⟩)
    refine BootConfigBuilder.fits_copy _ _ _ _ _ hholds₁ ?_ (by omega)
    rw [Extent.length_read, List.append_nil, List.length_append]
    simp only [Extent.sub]
    omega
  · rintro _ ⟨w₂, b₂⟩ hvendor
    obtain ⟨rfl, hholds₂, -⟩ := appends_addVendorBootconfig _ _ _ _ _ hholds₁ (unified_eq_ok hvendor)
    exact (configLen_progress hholds₂).mapErr

end Verify

/-! ## All of a load -/

section Loading

variable {ω : Type} {P : GblOps ω} {C : Codecs} {slot kernelMax : Nat} {suffix : Text}
  {additionalPartitions : Preloaded}
  {additional : Exec Error (Building ω) Unit} {added : Bytes} {load : Extent} {s : LoadState ω}

theorem Obliging.read_progress (hP : Obliging P) (part : Text) (out : Extent) (s : LoadState ω) :
    Succeeds (readFromPartitionSync P part 0 out) s :=
  .of_run (a := ()) (Prod.ext (Res.ofExcept_eq_ok.2 (hP.reads ..)) rfl)

def BootReads [Bootimg] (P : GblOps ω) (C : Codecs) (part : Text) (info : BootImageV3Info) (kernelMax : Nat) : Prop :=
  ∀ data, Answers P part 0 data → data.length = info.imageSize →
    (∃ t, BootImageV3Info.cmdline (data.take pageSize) = .ok t) ∧
    ∃ d, decompressed C ((data.drop info.kernelRange.start).take info.kernelRange.len) = some d ∧ d.length ≤ kernelMax

structure VendorReads [Bootimg] (P : GblOps ω) (part : Text) (info : VendorBootImageInfo) : Prop where
  header : ∀ hdr, Answers P part 0 hdr → hdr.length = pageSize → VendorBootImageInfo.new hdr = .ok info
  cmdline : ∀ data, Answers P part 0 data → data.length = info.imageSize →
    ∃ t, VendorBootImageInfo.cmdline (data.take info.headerSize) = .ok t

variable {bootInfo : BootImageV3Info} {vendorInfo : VendorBootImageInfo}

theorem Obliging.loadImagesV3_progress [Bootimg] (hP : Obliging P) (hsuffix : slotSuffix slot = .ok suffix)
    (hboot : BootImageV3Info.new (load.read s.mem) = .ok bootInfo) (hramdisk : 0 < bootInfo.ramdiskRange.len)
    (hvendor : VendorReads P (text "vendor_boot" ++ suffix) vendorInfo) (hpage : pageSize ≤ load.len)
    (hroom : vendorInfo.imageSize + bootInfo.imageSize ≤ load.len) :
    ∃ images s₁, loadImagesV3 P slot load s = (.ok images, s₁) ∧ images.bootInfo = bootInfo ∧
      images.vendorInfo = vendorInfo ∧ images.remains.len = load.len - vendorInfo.imageSize - bootInfo.imageSize := by
  have hrun : Succeeds (loadImagesV3 P slot load) s := by
    unfold loadImagesV3
    apply succeeds_lift_bind (slottedPart_eq hsuffix _)
    apply succeeds_lift_bind (slottedPart_eq hsuffix _)
    apply succeeds_lift_bind (slottedPart_eq hsuffix _)
    apply succeeds_bind (get_run _)
    apply succeeds_lift_bind (unwrap_eq_ok.2 hboot)
    apply succeeds_lift_bind (indexTo_eq_ok.2 ⟨hpage, rfl⟩)
    apply (hP.read_progress _ _ s).bind
    intro _ s₁ hread
    obtain ⟨hdr, hR⟩ := readFromPartitionSync_ok hread
    apply succeeds_bind (get_run _)
    apply succeeds_lift_bind (a := vendorInfo)
    · rw [hR.read_eq]
      exact hvendor.header hdr hR.answers hR.length_eq
    apply succeeds_lift_bind (split_eq_ok.2 ⟨by omega, rfl, rfl⟩)
    apply (hP.read_progress _ _ s₁).bind
    intro _ s₂ _
    apply succeeds_lift_bind (split_eq_ok.2 ⟨by simp only [Extent.drop]; omega, rfl, rfl⟩)
    apply (hP.read_progress _ _ s₂).bind
    intro _ s₃ _
    unfold loadInitBoot
    rw [if_pos hramdisk]
    apply succeeds_pure
  obtain ⟨images, s₁, hload⟩ := hrun
  have hR := loadImagesV3_ok hload
  have hbootInfo := hR.bootInfo_eq
  rw [hboot] at hbootInfo
  cases hbootInfo
  obtain ⟨part, hdr, hpart, hanswers, hlen, -, hnew, -⟩ := hR.vendor
  rw [slottedPart_eq hsuffix] at hpart
  cases hpart
  rw [hvendor.header hdr hanswers hlen] at hnew
  cases hnew
  refine ⟨images, s₁, hload, rfl, rfl, ?_⟩
  -- The boot image has a ramdisk, so there is no third image.
  have hinit : images.initBoot.len = 0 := by
    cases hR.init with
    | absent hpos hinfo hzero => exact hzero
    | loaded part hdr info hzero => exact absurd hramdisk (by rw [hzero]; exact Nat.lt_irrefl 0)
  have hL := hR.loaded
  have h₀ := hL.vendor_start
  have h₁ := hL.boot_start
  have h₂ := hL.init_start
  have h₃ := hL.remains_start
  have h₄ := hL.remains_stop
  have h₅ := hL.vendor_len
  have h₆ := hL.boot_len
  simp only [Extent.stop] at *
  omega

def roomV3 (bootInfo : BootImageV3Info) (vendorInfo : VendorBootImageInfo) (added : Bytes) (kernelMax : Nat) : Nat :=
  vendorInfo.imageSize + bootInfo.imageSize +
    (orangeText.length + added.length + vendorInfo.bootconfigRange.len + bootconfigTrailerSize) +
    (kernelMax + kernelAlignment + (pageSize + 1) + (vendorInfo.dtbRange.len + fdtAlignment))

theorem Obliging.loadVerifyV3AndV4_progress [Bootimg] (hP : Obliging P) (hslot : slot = 0 ∨ slot = 1)
    (hsuffix : slotSuffix slot = .ok suffix) (hadd : Appends additional added) (hfits : Fits additional added)
    (hpartitions : additionalPartitions.length + 3 ≤ maxNumPartition)
    (hboot : BootImageV3Info.new (load.read s.mem) = .ok bootInfo) (hramdisk : 0 < bootInfo.ramdiskRange.len)
    (hkernel : BootReads P C (text "boot" ++ suffix) bootInfo kernelMax)
    (hvendor : VendorReads P (text "vendor_boot" ++ suffix) vendorInfo)
    (hroom : roomV3 bootInfo vendorInfo added kernelMax ≤ load.len) (hlt : load.len < 2 ^ 32)
    (hstop : load.stop < 2 ^ 64) :
    Succeeds (loadVerifyV3AndV4 P C slot additionalPartitions additional load) s := by
  have hpage := bootInfo.page_le
  unfold roomV3 at hroom
  obtain ⟨images, s₁, hload, rfl, rfl, hremains⟩ :=
    hP.loadImagesV3_progress hsuffix hboot hramdisk hvendor (by omega) (by omega)
  have hR := loadImagesV3_ok hload
  have hL := hR.loaded
  unfold loadVerifyV3AndV4
  apply succeeds_bind (mapErr_run_ok hload)
  have hconfig : images.vendorInfo.bootconfigRange.stop ≤ images.vendorBoot.len := by
    rw [hL.vendor_len]
    exact images.vendorInfo.bootconfig_le
  apply (hP.verifyV3_progress hslot hadd hfits hpartitions hconfig (by omega) (by omega)).bind
  intro n s₂ hverify
  obtain ⟨avb, fixup, hV⟩ := verifyV3_ok hadd hverify
  have hsize :
    n = orangeText.length + added.length + images.vendorInfo.bootconfigRange.len + bootconfigTrailerSize := by
    have hlen := congrArg List.length hV.configured.config_eq
    rw [hP.avb_eq hV.avb_parameters, hP.fixup_eq hV.fixup_text, bootconfigSection, List.append_nil] at hlen
    simpa [Extent.take, V3Images.vendorBootconfig, Extent.sub, Nat.add_assoc] using hlen
  -- The images are in memory as they were read.
  have hkeep : ∀ e : Extent, e.stop ≤ images.remains.start → e.read s₂.mem = e.read s₁.mem := fun e he =>
    hV.configured.changes.read_eq (Extent.disjoint_of_le he)
  have hbootLe : images.boot.stop ≤ images.remains.start := (hL.images_le 0).1
  have hvendorLe : images.vendorBoot.stop ≤ images.remains.start := (hL.images_le 0).2
  obtain ⟨part, hpart, hbootData⟩ := hR.boot
  rw [slottedPart_eq hsuffix] at hpart
  cases hpart
  obtain ⟨⟨bootCmdline, hbootCmdline⟩, d, hd, hmax⟩ := hkernel _ hbootData (by rw [Extent.length_read, hL.boot_len])
  obtain ⟨vendorPart, hdr, hvendorPart, -, -, -, -, hvendorData⟩ := hR.vendor
  rw [slottedPart_eq hsuffix] at hvendorPart
  cases hvendorPart
  obtain ⟨vendorCmdline, hvendorCmdline⟩ := hvendor.cmdline _ hvendorData (by rw [Extent.length_read, hL.vendor_len])
  have hkernelIn : images.bootInfo.kernelRange.stop ≤ images.boot.len := by
    rw [hL.boot_len]
    exact images.bootInfo.kernel_le
  rw [← hkeep _ hbootLe, ← Extent.read_sub hkernelIn] at hd
  rw [← hkeep _ hbootLe, Extent.take_read (by rw [hL.boot_len]; exact images.bootInfo.page_le)] at hbootCmdline
  rw [← hkeep _ hvendorLe,
    Extent.take_read (by rw [hL.vendor_len]; exact images.vendorInfo.headerSize_le)] at hvendorCmdline
  apply Succeeds.mapErr
  apply Succeeds.zoom
  exact arrangeV3_progress hL hstop hd (by omega) hbootCmdline hvendorCmdline

def BootReadsV2 [Bootimg] (P : GblOps ω) (C : Codecs) (part : Text) (info : BootImageV2Info) (kernelMax : Nat) : Prop :=
  ∀ data, Answers P part 0 data → data.length = info.imageSize →
    BootImageV2Info.new (data.take info.pageSize) = .ok info ∧
    ∃ d, decompressed C ((data.drop info.kernelRange.start).take info.kernelRange.len) = some d ∧ d.length ≤ kernelMax

def roomV2 (info : BootImageV2Info) (added : Bytes) (kernelMax : Nat) : Nat :=
  info.imageSize + (orangeText.length + added.length + bootconfigTrailerSize) +
    (kernelMax + kernelAlignment + (info.dtbRange.len + fdtAlignment))

theorem Obliging.loadVerifyV2AndLower_progress [Bootimg] (hP : Obliging P) (hslot : slot = 0 ∨ slot = 1)
    (hsuffix : slotSuffix slot = .ok suffix) (hadd : Appends additional added) (hfits : Fits additional added)
    (hpartitions : additionalPartitions.length < maxNumPartition) {info : BootImageV2Info}
    (hinfo : BootImageV2Info.new (load.read s.mem) = .ok info)
    (hboot : BootReadsV2 P C (text "boot" ++ suffix) info kernelMax)
    (hroom : roomV2 info added kernelMax ≤ load.len) (hlt : load.len < 2 ^ 32) :
    Succeeds (loadVerifyV2AndLower P C slot additionalPartitions additional load) s := by
  unfold roomV2 at hroom
  have hpage := info.pageSize_le
  unfold loadVerifyV2AndLower
  apply succeeds_bind (get_run _)
  apply succeeds_bind (mapErr_run_ok (lift_run_ok (unwrap_eq_ok.2 hinfo) s))
  apply succeeds_bind (mapErr_run_ok (lift_run_ok (slottedPart_eq hsuffix "boot") s))
  apply succeeds_bind (mapErr_run_ok (lift_run_ok (split_eq_ok.2 ⟨by omega, rfl, rfl⟩) s))
  apply (hP.read_progress _ _ s).mapErr.bind
  intro _ s₁ hread
  obtain ⟨data, hR⟩ := readFromPartitionSync_ok (unified_eq_ok hread)
  have hroom' : orangeText.length + added.length + bootconfigTrailerSize ≤ (load.drop info.imageSize).len := by
    simp only [Extent.drop]
    omega
  have hlt' : (load.drop info.imageSize).len < 2 ^ 32 := by
    simp only [Extent.drop]
    omega
  apply (hP.verifyV2_progress hslot hadd hfits hpartitions hroom' hlt').bind
  intro n s₂ hverify
  obtain ⟨avb, fixup, hV⟩ := verifyV2_ok hadd hverify
  have hsize : n = orangeText.length + added.length + bootconfigTrailerSize := by
    have hlen := congrArg List.length hV.configured.config_eq
    rw [hP.avb_eq hV.avb_parameters, hP.fixup_eq hV.fixup_text, bootconfigSection, List.append_nil] at hlen
    simpa [Extent.take, Nat.add_assoc] using hlen
  obtain ⟨hheader, d, hd, hmax⟩ := hboot data hR.answers hR.length_eq
  -- The image is in memory as it was read.
  have himage : (load.take info.imageSize).read s₂.mem = data :=
    (hV.configured.changes.read_eq (Extent.disjoint_of_le (Nat.le_refl _))).trans hR.read_eq
  rw [← himage, Extent.take_read (e := load.take info.imageSize) hpage] at hheader
  rw [← himage, ← Extent.read_sub (e := load.take info.imageSize) info.kernel_le] at hd
  have hall : BootImageV2Info.new ((load.take (info.imageSize + n)).read s₂.mem) = .ok info := by
    rw [Extent.read_take_append (show info.pageSize ≤ info.imageSize + n by omega)]
    exact BootImageV2Info.new_append_of_ok hheader
  apply Succeeds.mapErr
  apply Succeeds.zoom
  exact arrangeV2_progress (by omega) (Nat.le_refl _) hall hheader hd (by omega)

end Loading

end Gbl.Android
