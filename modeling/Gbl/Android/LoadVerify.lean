import Gbl.Android.Answering

/-!
# `android_load_verify` on storage that lies

Here a partition may be answered differently each time it is read. What is booted is still cut out of a buffer that
libavb was given, nothing is written over it afterwards, and nothing outside of the load buffer is touched.
-/

namespace Gbl.Android

open Lib Lib.Exec BootParams
open Fastboot (Bytes Text text)
open BootConfigBuilder (Appends)

variable {ω : Type} {P : GblOps ω} {C : Codecs} {s s' : LoadState ω} {slot : Nat} {additionalPartitions : Preloaded}
  {additional : Exec Error (Building ω) Unit} {added : Bytes} {load : Extent} {out : LoadedImages}

def cut (d : Bytes) (r : Extent) : Bytes := (d.drop r.start).take r.len

/-- The data was given to libavb under this name. -/
def Verified (s : LoadState ω) (name : String) (d : Bytes) : Prop := (text name, d) ∈ s.verified

/-! ## Versions 3 and 4 -/

theorem LoadedV3.generic_verified [Bootimg] {images : V3Images} {avb fixup : Bytes} {s₁ : LoadState ω}
    (h : LoadedV3 P C slot additionalPartitions added load out images avb fixup s s₁ s') :
    ∃ name d r, (name = "boot" ∨ name = "init_boot") ∧ Verified s' name d ∧
      images.genericRamdisk.read s₁.mem = cut d r := by
  have hL := h.read.loaded
  unfold Verified
  rw [h.verified_eq]
  unfold V3Images.genericRamdisk
  cases hinfo : images.initInfo with
  | none =>
    have hle := images.bootInfo.ramdisk_le
    rw [← hL.boot_len] at hle
    exact ⟨"boot", _, images.bootInfo.ramdiskRange, .inl rfl, List.mem_cons_self, Extent.read_sub hle _⟩
  | some info =>
    have hle := info.ramdisk_le
    rw [← hL.init_len info hinfo] at hle
    have hpos : 0 < images.initBoot.len := by
      have hpage := info.page_le
      have hpages : 0 < pageSize := by decide
      rw [hL.init_len info hinfo]
      omega
    refine ⟨"init_boot", _, info.ramdiskRange, .inr rfl, ?_, Extent.read_sub hle _⟩
    refine List.mem_append_left _ (List.mem_cons_of_mem _ (List.mem_cons_of_mem _ ?_))
    unfold loadedPart
    rw [if_pos hpos]
    exact List.mem_cons_self

/-- **What is booted is cut out of what was verified**, for images of version 3 and 4 and any storage. -/
theorem loadVerifyV3AndV4_from_verified [Bootimg] (hadd : Appends additional added)
    (hrun : loadVerifyV3AndV4 P C slot additionalPartitions additional load s = (.ok out, s')) :
    ∃ boot vendor generic name avb fixup w kernelRange dtbRange vendorRange genericRange configRange,
      Verified s' "boot" boot ∧ Verified s' "vendor_boot" vendor ∧ (name = "boot" ∨ name = "init_boot") ∧
      Verified s' name generic ∧ AvbParameters P slot s'.verified w avb ∧ FixupText P (avb ++ added) fixup ∧
      decompressed C (cut boot kernelRange) = some (out.kernel.read s'.mem) ∧
      out.dtb.read s'.mem = cut vendor dtbRange ∧
      out.ramdisk.read s'.mem = cut vendor vendorRange ++ cut generic genericRange ++
        bootconfigSection (avb ++ added ++ fixup ++ cut vendor configRange) ∧
      BootImageV3Info.cmdline (cut boot ⟨0, pageSize⟩) = .ok out.bootCmdline ∧
      ∃ n, VendorBootImageInfo.cmdline (cut vendor ⟨0, n⟩) = .ok out.vendorCmdline := by
  obtain ⟨images, avb, fixup, s₁, h⟩ := loadVerifyV3AndV4_ok hadd hrun
  have hL := h.read.loaded
  obtain ⟨name, generic, genericRange, hname, hgeneric, hgenericEq⟩ := h.generic_verified
  have hboot : ∀ r : Extent, r.stop ≤ images.bootInfo.imageSize →
      (images.boot.sub r).read s₁.mem = cut (images.boot.read s₁.mem) r := by
    intro r hr
    rw [← hL.boot_len] at hr
    exact Extent.read_sub hr _
  have hvendor : ∀ r : Extent, r.stop ≤ images.vendorInfo.imageSize →
      (images.vendorBoot.sub r).read s₁.mem = cut (images.vendorBoot.read s₁.mem) r := by
    intro r hr
    rw [← hL.vendor_len] at hr
    exact Extent.read_sub hr _
  have hdtbLe :
    Extent.stop ⟨images.vendorInfo.dtbRange.start, images.vendorInfo.dtbSz⟩ ≤ images.vendorInfo.imageSize := by
    have hle := images.vendorInfo.dtbRange_le
    have hsz := images.vendorInfo.dtb_le
    simp only [Extent.stop] at *
    omega
  have hpage : Extent.stop ⟨0, pageSize⟩ ≤ images.bootInfo.imageSize := by
    simpa [Extent.stop] using images.bootInfo.page_le
  have hheader : Extent.stop ⟨0, images.vendorInfo.headerSize⟩ ≤ images.vendorInfo.imageSize := by
    simpa [Extent.stop] using images.vendorInfo.headerSize_le
  refine ⟨images.boot.read s₁.mem, images.vendorBoot.read s₁.mem, generic, name, avb, fixup, s₁.ops,
    images.bootInfo.kernelRange, ⟨images.vendorInfo.dtbRange.start, images.vendorInfo.dtbSz⟩,
    images.vendorInfo.ramdiskRange, genericRange, images.vendorInfo.bootconfigRange, ?_, ?_, hname, hgeneric,
    h.avb_parameters, h.fixup_text, ?_, ?_, ?_, ?_, images.vendorInfo.headerSize, ?_⟩
  · unfold Verified
    rw [h.verified_eq]
    exact List.mem_cons_self
  · unfold Verified
    rw [h.verified_eq]
    exact List.mem_cons_of_mem _ List.mem_cons_self
  · rw [← hboot _ images.bootInfo.kernel_le]
    exact h.kernel_eq
  · rw [h.dtb_eq, ← hvendor _ hdtbLe]
    rfl
  · rw [h.ramdisk_eq, hgenericEq, ← hvendor _ images.vendorInfo.ramdisk_le, ← hvendor _ images.vendorInfo.bootconfig_le]
    rfl
  · rw [← hboot _ hpage]
    exact h.bootCmdline_eq
  · rw [← hvendor _ hheader]
    exact h.vendorCmdline_eq

section Sample

attribute [local instance] sampleBootimg

theorem loadVerifyV3AndV4_from_verified_sample :
    ∃ out s' boot r, loadVerifyV3AndV4 (answering (contents (bootV3 1 1)) (contents (bootV3 1 1))) plainCodecs 0 []
      (pure ()) buffer (holding (bootV3 1 1)) = (.ok out, s') ∧ Verified s' "boot" boot ∧
      decompressed plainCodecs (cut boot r) = some (out.kernel.read s'.mem) := by
  obtain ⟨out, s', hrun⟩ : Succeeds (loadVerifyV3AndV4 (answering (contents (bootV3 1 1)) (contents (bootV3 1 1)))
      plainCodecs 0 [] (pure ()) buffer) (holding (bootV3 1 1)) :=
    answering_loadV3 BootConfigBuilder.appends_pure BootConfigBuilder.fits_pure (Nat.zero_le _) (by decide) (by decide)
      (by decide) (by decide) (by decide) (read_holding _ _) rfl rfl rfl
  obtain ⟨boot, _, _, _, _, _, _, r, _, _, _, _, hboot, -, -, -, -, -, hkernel, -⟩ :=
    loadVerifyV3AndV4_from_verified BootConfigBuilder.appends_pure hrun
  exact ⟨out, s', boot, r, hrun, hboot, hkernel⟩

end Sample

/-! ## All versions -/

theorem loadEntirePart_ok {part : Text} {e remains : Extent}
    (h : loadEntirePart P part load s = (.ok (e, remains), s')) :
    ∃ n, n ≤ load.len ∧ e = load.take n ∧ remains = load.drop n ∧ e.Changes s.mem s'.mem := by
  obtain ⟨size, s₁, hsize, h₁⟩ := bind_run_eq_ok h
  obtain ⟨-, rfl⟩ := Prod.mk.inj hsize
  cases size with
  | none =>
    cases h₁
    exact ⟨0, Nat.zero_le _, rfl, rfl, .refl _ _⟩
  | some n =>
    obtain ⟨⟨e', remains'⟩, hsplit, h₂⟩ := lift_bind_run_eq_ok h₁
    obtain ⟨hle, rfl, rfl⟩ := split_eq_ok.1 hsplit
    obtain ⟨_, s₂, hread, hpure⟩ := bind_run_eq_ok h₂
    cases hpure
    obtain ⟨data, hR⟩ := readFromPartitionSync_ok hread
    exact ⟨n, hle, rfl, rfl, hR.changes⟩

theorem alignedSubslice_ok {e r : Extent} {align : Nat} (hlt : align < 2 ^ 64)
    (h : alignedSubslice e align = .ok r) : r.Within e ∧ r.start % align = 0 := by
  obtain ⟨slice, hslice, hpure⟩ := Res.bind_eq_ok.1 h
  cases hpure
  obtain ⟨hpos, -, hle, rfl⟩ := (Storage.alignedSubslice_eq_ok_iff _ _ hlt).1 hslice
  refine ⟨⟨Nat.le_add_right .., ?_⟩, add_gap_mod _ hpos⟩
  simp only [Extent.stop] at *
  omega

/-- One of the two loaders, and what it leaves of the memory. -/
structure Arranged (load : Extent) (partitions : Preloaded) (out : LoadedImages) (s s' : LoadState ω) : Prop where
  placed : Placed load out
  verified : ∀ x ∈ partitions, x ∈ s'.verified
  changes : load.Changes s.mem s'.mem

theorem arranged_v3 [Bootimg] (hadd : Appends additional added)
    (h : loadVerifyV3AndV4 P C slot additionalPartitions additional load s = (.ok out, s')) :
    Arranged load additionalPartitions out s s' := by
  obtain ⟨images, avb, fixup, s₁, hV⟩ := loadVerifyV3AndV4_ok hadd h
  refine ⟨hV.placed, ?_, hV.changes⟩
  intro x hx
  rw [hV.verified_eq]
  exact List.mem_append_right _ hx

theorem arranged_v2 [Bootimg] (hadd : Appends additional added)
    (h : loadVerifyV2AndLower P C slot additionalPartitions additional load s = (.ok out, s')) :
    Arranged load additionalPartitions out s s' := by
  obtain ⟨first, info, n, avb, fixup, s₁, s₂, hV⟩ := loadVerifyV2AndLower_ok hadd h
  refine ⟨hV.arranged.placed, ?_, hV.changes⟩
  intro x hx
  rw [hV.verified_eq, hV.verified.verified_eq]
  exact List.mem_cons_of_mem _ hx

def additionalText (isRecovery : Bool) (suffix buildNumber : Text) : Bytes :=
  (if isRecovery = false then text "androidboot.force_normal_boot=1\n" else []) ++
    ([text "androidboot.slot_suffix=", suffix, text "\n"].flatten ++ (text "androidboot.gbl.version=0\n" ++
      [text "androidboot.gbl.build_number=", buildNumber, text "\n"].flatten))

theorem appends_add (d : Bytes) : Appends (BootConfigBuilder.add d : Exec Error (Building ω) Unit) d := by
  intro w b content w' b' h hrun
  obtain ⟨_, _, hget, h₁⟩ := bind_run_eq_ok hrun
  cases hget
  obtain ⟨remains, -, h₂⟩ := lift_bind_run_eq_ok h₁
  split at h₂
  · cases h₂
  · exact BootConfigBuilder.appends_copy d _ w b content w' b' h h₂

theorem appends_addAdditionalBootconfig (isRecovery : Bool) (suffix buildNumber : Text) :
    Appends (addAdditionalBootconfig isRecovery suffix buildNumber : Exec Error (Building ω) Unit)
      (additionalText isRecovery suffix buildNumber) := by
  refine .bind ?_ (.bind (BootConfigBuilder.appends_writeFmt _)
    (.bind (appends_add _) (BootConfigBuilder.appends_writeFmt _)))
  cases isRecovery with
  | true => exact BootConfigBuilder.appends_pure
  | false => exact appends_add _

theorem verified_of_loadedPart {name : String} {e : Extent} {m : Content} {s : LoadState ω}
    (h : ∀ x ∈ loadedPart name e m, x ∈ s.verified) (hpos : 0 < e.len) : Verified s name (e.read m) := by
  refine h _ ?_
  rw [loadedPart, if_pos hpos]
  exact List.mem_cons_self

theorem fits_bind {m m' : Exec Error (Building ω) Unit} {d d' : Bytes} (hadd : Appends m d)
    (hfits : BootConfigBuilder.Fits m d) (hfits' : BootConfigBuilder.Fits m' d') :
    BootConfigBuilder.Fits (m >>= fun _ => m') (d ++ d') := by
  intro w b content h hroom hlt
  rw [List.length_append] at hroom
  refine (hfits w b content h (by omega) hlt).bind ?_
  rintro _ ⟨w', b'⟩ hrun
  obtain ⟨rfl, hholds, hlen⟩ := hadd w b content w' b' h hrun
  exact hfits' _ b' _ hholds (by rw [List.length_append]; omega) (by omega)

theorem fits_add (d : Bytes) : BootConfigBuilder.Fits (BootConfigBuilder.add d : Exec Error (Building ω) Unit) d := by
  intro w b content h hroom hlt
  obtain ⟨hfits, -⟩ := h.room hroom hlt
  obtain ⟨u, t, hrun⟩ := BootConfigBuilder.fits_copy d .panic w b content h hroom hlt
  rw [← BootConfigBuilder.add_eq h hfits] at hrun
  exact ⟨u, t, hrun⟩

theorem fits_addAdditionalBootconfig (suffix buildNumber : Text) :
    BootConfigBuilder.Fits (addAdditionalBootconfig false suffix buildNumber : Exec Error (Building ω) Unit)
      (additionalText false suffix buildNumber) :=
  fits_bind (appends_add _) (fits_add _) (fits_bind (BootConfigBuilder.appends_writeFmt _)
    (BootConfigBuilder.fits_writeFmt _) (fits_bind (appends_add _) (fits_add _) (BootConfigBuilder.fits_writeFmt _)))

theorem alignedSubslice_buffer : alignedSubslice buffer fdtAlignment = .ok buffer := by
  unfold alignedSubslice
  rw [(Storage.alignedSubslice_eq_ok_iff _ _ (by decide)).2 ⟨by decide, by decide, by decide, rfl⟩]
  rfl

theorem loadEntirePart_none {part : Text} (h : P.partitionSize part s.ops = (.ok none, s.ops)) :
    loadEntirePart P part load s = (.ok (load.take 0, load), s) := by
  have hsize : partitionSize P part s = (.ok none, s) := by
    unfold partitionSize
    rw [h]
    rfl
  exact bind_run_ok hsize

theorem androidLoadVerify_progress [Bootimg] (buildNumber : Option Text) (isRecovery : Bool) {suffix : Text}
    {img : BootImage}
    (hslot : slotSuffix slot = .ok suffix) (hnone : ∀ part w, P.partitionSize part w = (.ok none, w))
    (halign : alignedSubslice load fdtAlignment = .ok load) (hpage : pageSize ≤ load.len)
    (hread : Succeeds (readFromPartitionSync P (text "boot" ++ suffix) 0 (load.take pageSize)) s)
    (hold : img.isV3OrV4 = false)
    (hload : ∀ u s₁, readFromPartitionSync P (text "boot" ++ suffix) 0 (load.take pageSize) s = (.ok u, s₁) →
      BootImage.parse (load.read s₁.mem) = .ok img ∧ Succeeds (loadVerifyV2AndLower P C slot []
        (addAdditionalBootconfig isRecovery suffix (buildNumberOf buildNumber)) load) s₁) :
    Succeeds (androidLoadVerify P C buildNumber slot isRecovery load) s := by
  unfold androidLoadVerify
  apply succeeds_bind (mapErr_run_ok (lift_run_ok hslot _))
  apply succeeds_bind (mapErr_run_ok (lift_run_ok (slottedPart_eq hslot "dtbo") _))
  apply succeeds_bind (mapErr_run_ok (loadEntirePart_none (hnone _ _)))
  apply succeeds_bind (get_run _)
  apply succeeds_bind (mapErr_run_ok (lift_run_ok (if_neg (Nat.lt_irrefl 0)) _))
  apply succeeds_bind (mapErr_run_ok (lift_run_ok halign _))
  apply succeeds_bind (mapErr_run_ok (lift_run_ok (slottedPart_eq hslot "dtb") _))
  apply succeeds_bind (mapErr_run_ok (loadEntirePart_none (hnone _ _)))
  apply succeeds_bind (get_run _)
  apply succeeds_bind (mapErr_run_ok (lift_run_ok (if_neg (Nat.lt_irrefl 0)) _))
  apply succeeds_bind (mapErr_run_ok (lift_run_ok (slottedPart_eq hslot "boot") _))
  apply succeeds_bind (mapErr_run_ok (lift_run_ok (indexTo_eq_ok.2 ⟨hpage, rfl⟩) _))
  apply hread.mapErr.bind
  intro u s₁ hrun
  obtain ⟨hparse, hsucceeds⟩ := hload u s₁ (unified_eq_ok hrun)
  apply succeeds_bind (get_run _)
  apply succeeds_bind (mapErr_run_ok (lift_run_ok hparse _))
  simp only [hold, Bool.false_eq_true, if_false]
  exact hsucceeds.bind fun images s₂ _ => succeeds_pure _ _

/-- The stages of a load: the dtbo partition, behind it the dtb partition, and the images in what remains of `load`. -/
structure LoadStages (load rest : Extent) (n₁ n₂ : Nat) (images : LoadedImages) (s s₁ s₂ s₃ s' : LoadState ω) :
    Prop where
  dtbo_le : n₁ ≤ load.len
  dtbo : (load.take n₁).Changes s.mem s₁.mem
  within : rest.Within (load.drop n₁)
  aligned : rest.start % fdtAlignment = 0
  dtb_le : n₂ ≤ rest.len
  dtb : (rest.take n₂).Changes s₁.mem s₂.mem
  header : (rest.drop n₂).Changes s₂.mem s₃.mem
  arranged : Arranged (rest.drop n₂) (([] ++ loadedPart "dtbo" (load.take n₁) s₁.mem) ++
    loadedPart "dtb" (rest.take n₂) s₂.mem) images s₃ s'

theorem loadStages_of_run [Bootimg] {buildNumber : Option Text} {isRecovery : Bool}
    (hrun : androidLoadVerify P C buildNumber slot isRecovery load s = (.ok out, s')) :
    ∃ n₁ n₂ rest images s₁ s₂ s₃, LoadStages load rest n₁ n₂ images s s₁ s₂ s₃ s' ∧
      out = { images with dtbo := load.take n₁, dtbPart := rest.take n₂ } := by
  obtain ⟨suffix, -, h₁⟩ := unified_lift_bind_eq_ok hrun
  obtain ⟨dtboName, -, h₂⟩ := unified_lift_bind_eq_ok h₁
  obtain ⟨⟨dtbo, rest₁⟩, s₁, hdtbo, h₃⟩ := bind_run_eq_ok h₂
  obtain ⟨n₁, hn₁, rfl, rfl, hc₁⟩ := loadEntirePart_ok (unified_eq_ok hdtbo)
  obtain ⟨_, _, hget, h₄⟩ := bind_run_eq_ok h₃
  cases hget
  obtain ⟨p₁, hp₁, h₅⟩ := unified_lift_bind_eq_ok h₄
  obtain rfl := pushIfLoaded_ok hp₁
  obtain ⟨rest₂, halign, h₆⟩ := unified_lift_bind_eq_ok h₅
  obtain ⟨hw₂, hmod⟩ := alignedSubslice_ok (by decide) halign
  obtain ⟨dtbName, -, h₇⟩ := unified_lift_bind_eq_ok h₆
  obtain ⟨⟨dtb, rest₃⟩, s₂, hdtb, h₈⟩ := bind_run_eq_ok h₇
  obtain ⟨n₂, hn₂, rfl, rfl, hc₂⟩ := loadEntirePart_ok (unified_eq_ok hdtb)
  obtain ⟨_, _, hget, h₉⟩ := bind_run_eq_ok h₈
  cases hget
  obtain ⟨p₂, hp₂, h₁₀⟩ := unified_lift_bind_eq_ok h₉
  obtain rfl := pushIfLoaded_ok hp₂
  obtain ⟨bootName, -, h₁₁⟩ := unified_lift_bind_eq_ok h₁₀
  obtain ⟨hdr, hhdr, h₁₂⟩ := unified_lift_bind_eq_ok h₁₁
  obtain ⟨hpage, rfl⟩ := indexTo_eq_ok.1 hhdr
  obtain ⟨_, s₃, hread, h₁₃⟩ := bind_run_eq_ok h₁₂
  obtain ⟨data, hR⟩ := readFromPartitionSync_ok (unified_eq_ok hread)
  obtain ⟨_, _, hget, h₁₄⟩ := bind_run_eq_ok h₁₃
  cases hget
  obtain ⟨header, -, h₁₅⟩ := unified_lift_bind_eq_ok h₁₄
  have hadd := appends_addAdditionalBootconfig (ω := ω) isRecovery suffix (buildNumberOf buildNumber)
  have hheader : (rest₂.drop n₂).Changes s₂.mem s₃.mem := hR.changes.mono (Extent.take_within hpage)
  split at h₁₅ <;> obtain ⟨images, s₄, hload, hpure⟩ := bind_run_eq_ok h₁₅ <;> cases hpure <;>
    refine ⟨n₁, n₂, rest₂, images, s₁, s₂, s₃, ⟨hn₁, hc₁, hw₂, hmod, hn₂, hc₂, hheader, ?_⟩, rfl⟩
  · exact arranged_v3 hadd hload
  · exact arranged_v2 hadd hload

/-- **The parts that are handed over are intact.** Whatever the storage answers and whatever the version of the
images: they do not overlap, lie in the load buffer where their users need them, and the two device tree partitions
are as libavb has seen them, in spite of all that was loaded after them. -/
theorem androidLoadVerify_intact [Bootimg] {buildNumber : Option Text} {isRecovery : Bool}
    (hrun : androidLoadVerify P C buildNumber slot isRecovery load s = (.ok out, s')) :
    [out.dtbo, out.dtbPart, out.ramdisk, out.unused, out.dtb, out.kernel].Pairwise Extent.Disjoint ∧
    (∀ e ∈ [out.dtbo, out.dtbPart, out.ramdisk, out.unused, out.dtb, out.kernel], e.Within load) ∧
    out.kernel.start % kernelAlignment = 0 ∧ out.dtb.start % fdtAlignment = 0 ∧
    out.dtbPart.start % fdtAlignment = 0 ∧
    (0 < out.dtbo.len → Verified s' "dtbo" (out.dtbo.read s'.mem)) ∧
    (0 < out.dtbPart.len → Verified s' "dtb" (out.dtbPart.read s'.mem)) ∧ load.Changes s.mem s'.mem := by
  obtain ⟨n₁, n₂, rest₂, images, s₁, s₂, s₃, ⟨hn₁, hc₁, hw₂, hmod, hn₂, hc₂, hheader, hA⟩, rfl⟩ :=
    loadStages_of_run hrun
  -- Each range is behind the one before, and what is written later is behind both partitions.
  have hw₃ : (rest₂.drop n₂).Within rest₂ := Extent.drop_within hn₂
  have hw₂' : rest₂.Within load := hw₂.trans (Extent.drop_within hn₁)
  have hdisj₁ : (load.take n₁).Disjoint rest₂ := Extent.disjoint_of_le hw₂.1
  have hdisj₂ : (rest₂.take n₂).Disjoint (rest₂.drop n₂) := Extent.disjoint_of_le (Nat.le_refl _)
  have hlater : (rest₂.drop n₂).Changes s₂.mem s'.mem := hheader.trans hA.changes
  have hdtb : (rest₂.take n₂).read s'.mem = (rest₂.take n₂).read s₂.mem := hlater.read_eq hdisj₂
  have hdtbo : (load.take n₁).read s'.mem = (load.take n₁).read s₁.mem :=
    (hlater.read_eq (fun i hi hr => hdisj₁ i hi (hw₃.mem hr))).trans
      ((hc₂.mono (Extent.take_within hn₂)).read_eq hdisj₁)
  have hin := hA.placed.within
  refine ⟨.cons ?_ (.cons ?_ hA.placed.pairwise_disjoint), ?_, hA.placed.kernel_aligned, hA.placed.dtb_aligned,
    hmod, ?_, ?_, ?_⟩
  · intro e he
    rcases List.mem_cons.1 he with rfl | he
    · exact hdisj₁.mono ⟨Nat.le_refl _, Nat.le_refl _⟩ (Extent.take_within hn₂)
    · exact hdisj₁.mono ⟨Nat.le_refl _, Nat.le_refl _⟩ ((hin e he).trans hw₃)
  · intro e he
    exact hdisj₂.mono ⟨Nat.le_refl _, Nat.le_refl _⟩ (hin e he)
  · intro e he
    rcases List.mem_cons.1 he with rfl | he
    · exact Extent.take_within hn₁
    rcases List.mem_cons.1 he with rfl | he
    · exact (Extent.take_within hn₂).trans hw₂'
    · exact ((hin e he).trans hw₃).trans hw₂'
  · intro hpos
    rw [hdtbo]
    exact verified_of_loadedPart (fun x hx => hA.verified x (List.mem_append_left _ hx)) hpos
  · intro hpos
    rw [hdtb]
    exact verified_of_loadedPart (fun x hx => hA.verified x (List.mem_append_right _ hx)) hpos
  · exact ((hc₁.mono (Extent.take_within hn₁)).trans (hc₂.mono ((Extent.take_within hn₂).trans hw₂'))).trans
      (hlater.mono (hw₃.trans hw₂'))

section Sample

attribute [local instance] sampleBootimg

theorem parse_of_bootV0 {m : Content} (h : (buffer.take pageSize).read m = slice bootV0 0 pageSize) :
    BootImage.parse (buffer.read m) = .ok .v0 := by
  obtain ⟨hlen, htake⟩ := take_read_page (show pageSize ≤ buffer.len by decide) h
  exact (BootImage.parse_page (by rw [length_slice]) hlen htake).2 (parse_bootV0 (by decide))

/-- An image of version 0, and no device tree partitions. -/
theorem androidLoadVerify_intact_v0 :
    ∃ out s', androidLoadVerify (answering (contents bootV0) (contents bootV0)) plainCodecs none 0 false buffer
      (holding bootV0) = (.ok out, s') ∧ buffer.Changes (holding bootV0).mem s'.mem := by
  obtain ⟨out, s', hrun⟩ := androidLoadVerify_progress (P := answering (contents bootV0) (contents bootV0))
    (C := plainCodecs) (s := holding bootV0) none false slotSuffix_zero (fun _ _ => rfl) alignedSubslice_buffer
      (by decide)
    ((obliging_answering _ _).read_progress _ _ _) (show BootImage.isV3OrV4 .v0 = false from rfl) (by
      intro u s₁ hread
      obtain ⟨data, hR⟩ := readFromPartitionSync_ok hread
      have hdata := answers_answering hR.answers
      rw [ite_self, contents_boot, hR.length_eq] at hdata
      have hpre : (buffer.take pageSize).read s₁.mem = slice bootV0 0 pageSize := hR.read_eq.trans hdata
      exact ⟨parse_of_bootV0 hpre,
        answering_loadV2 (appends_addAdditionalBootconfig _ _ _) (fits_addAdditionalBootconfig _ _)
        (by decide +kernel) (by decide) hpre (contents_boot bootV0)⟩)
  exact ⟨out, s', hrun, (androidLoadVerify_intact hrun).2.2.2.2.2.2.2⟩

end Sample

end Gbl.Android
