import Gbl.Android.ArrangeV2
import Gbl.Android.ArrangeV3

/-!
# Reading and verifying

What is in memory when the images have been read, and what the bootconfig holds when they have been verified.
-/

namespace Gbl.Android

open Lib Lib.Exec BootParams
open Fastboot (Bytes Text text)
open BootConfigBuilder (Appends addWith)

variable {ω : Type} {P : GblOps ω} {s s' : LoadState ω}

/-! ## Reads -/

def Answers (P : GblOps ω) (part : Text) (off : Nat) (data : Bytes) : Prop :=
  ∃ w, (P.readFromPartitionSync part off data.length w).1.1 = .ok () ∧
    data = slice (P.readFromPartitionSync part off data.length w).1.2 0 data.length

def Stable (P : GblOps ω) (content : Text → Content) : Prop :=
  ∀ part off len w, (P.readFromPartitionSync part off len w).1.1 = .ok () →
    slice (P.readFromPartitionSync part off len w).1.2 0 len = slice (content part) off len

variable {part : Text} {σ α : Type} {m : Content} {t t' : σ} {a : α} {b : BootConfigBuilder}
  {remains : Extent} {slot n : Nat} {additionalPartitions : Preloaded}
  {additional : Exec Error (Building ω) Unit} {added : Bytes} {boot : Extent} {images : V3Images}
  {vendorBoot : Extent}

theorem Stable.answers_eq {content : Text → Content} (h : Stable P content) {off : Nat} {data : Bytes}
    (ha : Answers P part off data) : data = slice (content part) off data.length := by
  obtain ⟨w, hok, hdata⟩ := ha
  exact hdata.trans (h part off data.length w hok)

theorem unified_eq_ok {m : Exec Error σ α} (h : unified m t = (.ok a, t')) : m t = (.ok a, t') := mapErr_run_eq_ok h

theorem unified_lift_bind_eq_ok {β : Type} {r : Result α} {f : α → Exec IntegrationError σ β} {b : β}
    (h : (unified (lift r) >>= f) t = (.ok b, t')) : ∃ a, r = .ok a ∧ f a t = (.ok b, t') := by
  obtain ⟨a, t₁, hlift, hf⟩ := bind_run_eq_ok h
  obtain ⟨rfl, rfl⟩ := Prod.mk.inj (unified_eq_ok hlift)
  exact ⟨a, rfl, hf⟩

structure ReadInto (P : GblOps ω) (part : Text) (out : Extent) (data : Bytes) (s s' : LoadState ω) : Prop where
  answers : Answers P part 0 data
  length_eq : data.length = out.len
  mem_eq : s'.mem = store s.mem out.start data
  reads_eq : s'.reads = s.reads ++ [(part, 0, data)]
  verified_eq : s'.verified = s.verified

theorem readFromPartitionSync_ok {out : Extent} {u : Unit}
    (h : readFromPartitionSync P part 0 out s = (.ok u, s')) : ∃ data, ReadInto P part out data s s' := by
  obtain ⟨hok, rfl⟩ := Prod.mk.inj h
  have hlen : (slice (P.readFromPartitionSync part 0 out.len s.ops).1.2 0 out.len).length = out.len := length_slice ..
  refine ⟨slice (P.readFromPartitionSync part 0 out.len s.ops).1.2 0 out.len, ⟨s.ops, ?_, ?_⟩, hlen, rfl, rfl, rfl⟩
  · rw [hlen]
    exact Res.ofExcept_eq_ok.1 hok
  · rw [hlen]

namespace ReadInto

variable {part : Text} {out e : Extent} {data : Bytes}

theorem read_eq (h : ReadInto P part out data s s') : out.read s'.mem = data := by
  rw [h.mem_eq]
  exact Extent.read_store s.mem h.length_eq

theorem changes (h : ReadInto P part out data s s') : out.Changes s.mem s'.mem := by
  rw [h.mem_eq]
  have hstore := Extent.changes_store s.mem out.start data
  rwa [h.length_eq] at hstore

theorem mem_reads (h : ReadInto P part out data s s') : (part, 0, data) ∈ s'.reads := by
  rw [h.reads_eq]
  exact List.mem_append_right _ List.mem_cons_self

theorem subset_reads (h : ReadInto P part out data s s') : s.reads ⊆ s'.reads := by
  rw [h.reads_eq]
  exact List.subset_append_left ..

end ReadInto

/-! ## The bootconfig -/

def FixupText (P : GblOps ω) (current fixup : Bytes) : Prop :=
  ∃ w space w' out r, P.fixupBootconfig current (w, space) = (.ok r, (w', out)) ∧
    fixup = out.take ((r.map List.length).getD 0)

section Building

variable {b b' : BootConfigBuilder} {w w' : ω} {content added : Bytes}

theorem new_inv {buffer : Bytes} (h : BootConfigBuilder.new buffer = .ok b) :
    b.Holds [] ∧ b.buffer.length = buffer.length := by
  by_cases hlen : bootconfigTrailerSize ≤ buffer.length
  · obtain ⟨b₁, hnew, hholds, hlen₁⟩ := BootConfigBuilder.new_eq_ok hlen
    rw [hnew] at h
    cases h
    exact ⟨hholds, hlen₁⟩
  · unfold BootConfigBuilder.new at h
    rw [if_pos (Nat.not_le.1 hlen)] at h
    cases h

theorem addFixup_ok (h : b.Holds content) (hrun : addWith (fixupReader P) (w, b) = (.ok (), (w', b'))) :
    ∃ fixup, FixupText P content fixup ∧ b'.Holds (content ++ fixup) ∧ b'.buffer.length = b.buffer.length := by
  obtain ⟨size, out, hread, -, hholds, hlen⟩ := BootConfigBuilder.addWith_inv h hrun
  have hcontent : b.buffer.take b.currentSize = content := by
    rw [h.size_eq]
    exact h.content_eq
  rw [hcontent] at hread
  obtain ⟨r, t, hfixup, hpure⟩ := bind_run_eq_ok hread
  cases hpure
  exact ⟨_, ⟨w, b.space, w', out, r, hfixup, rfl⟩, hholds, hlen⟩

theorem verifyAndFixup_ok {slot : Nat} {toVerify : Preloaded} {additional : Exec Error (Building ω) Unit}
    (hadd : Appends additional added) (h : b.Holds [])
    (hrun : verifyAndFixup P slot toVerify additional (w, b) = (.ok (), (w', b'))) :
    ∃ avb fixup, AvbParameters P slot toVerify w avb ∧ FixupText P (avb ++ added) fixup ∧
      b'.Holds (avb ++ added ++ fixup) ∧ b'.buffer.length = b.buffer.length := by
  obtain ⟨_, ⟨w₁, b₁⟩, havb, h₁⟩ := bind_run_eq_ok hrun
  obtain ⟨avb, hparams, hholds₁, hlen₁⟩ := avbVerifySlot_ok h havb
  obtain ⟨_, ⟨w₂, b₂⟩, hadded, hfix⟩ := bind_run_eq_ok h₁
  obtain ⟨rfl, hholds₂, hlen₂⟩ := hadd _ _ _ _ _ hholds₁ (unified_eq_ok hadded)
  obtain ⟨fixup, hfixup, hholds₃, hlen₃⟩ := addFixup_ok hholds₂ (unified_eq_ok hfix)
  exact ⟨avb, fixup, hparams, hfixup, hholds₃, hlen₃.trans (hlen₂.trans hlen₁)⟩

theorem configLen_ok {n : Nat} (h : b.Holds content) (hrun : configLen (w, b) = (.ok n, (w', b'))) :
    n = (bootconfigSection content).length ∧ b = b' := by
  obtain ⟨t, _, hget, h₁⟩ := bind_run_eq_ok hrun
  cases hget
  obtain ⟨bytes, hbytes, hpure⟩ := lift_bind_run_eq_ok h₁
  replace hbytes : b.configBytes = .ok bytes := hbytes
  rw [h.configBytes_eq] at hbytes
  cases hbytes
  cases hpure
  exact ⟨rfl, rfl⟩

end Building

theorem newBuilder_ok (h : unified (newBuilder remains) s = (.ok b, s')) :
    b.Holds [] ∧ b.buffer.length = remains.len ∧ s = s' := by
  obtain ⟨hnew, hs⟩ := Prod.mk.inj (unified_eq_ok h)
  obtain ⟨hholds, hlen⟩ := new_inv hnew
  exact ⟨hholds, hlen.trans (Extent.length_read ..), hs⟩

theorem building_ok {body : Exec IntegrationError (Building ω) α} (h : building remains b body s = (.ok a, s')) :
    ∃ w' b', body (s.ops, b) = (.ok a, (w', b')) ∧
      s' = { s with ops := w', mem := store s.mem remains.start b'.buffer } := by
  obtain ⟨hval, hs⟩ := Prod.mk.inj h
  exact ⟨(body (s.ops, b)).2.1, (body (s.ops, b)).2.2, Prod.ext hval rfl, hs.symm⟩

structure Configured (remains : Extent) (n : Nat) (content : Bytes) (m m' : Content) : Prop where
  size_le : n ≤ remains.len
  config_eq : (remains.take n).read m' = bootconfigSection content
  changes : remains.Changes m m'

theorem configured_of_holds {content : Bytes} (m : Content) (h : b.Holds content)
    (hlen : b.buffer.length = remains.len) :
    Configured remains (bootconfigSection content).length content m (store m remains.start b.buffer) := by
  have hsize : (bootconfigSection content).length = content.length + bootconfigTrailerSize := by
    rw [bootconfigSection, List.length_append, length_trailer]
  have hfits := h.fits
  constructor
  case size_le => omega
  case config_eq =>
    refine ( slice_store_prefix m remains.start (n := (bootconfigSection content).length) (by omega)).trans ?_
    rw [hsize]
    exact h.bytes_eq
  case changes =>
    have hstore := Extent.changes_store m remains.start b.buffer
    rwa [hlen] at hstore

/-! ## Versions 0, 1 and 2 -/

structure VerifiedV2 (P : GblOps ω) (slot : Nat) (additionalPartitions : Preloaded) (added : Bytes)
    (boot remains : Extent) (n : Nat) (avb fixup : Bytes) (s s' : LoadState ω) : Prop where
  verified_eq : s'.verified = (text "boot", boot.read s.mem) :: additionalPartitions
  reads_eq : s'.reads = s.reads
  avb_parameters : AvbParameters P slot s'.verified s.ops avb
  fixup_text : FixupText P (avb ++ added) fixup
  configured : Configured remains n (avb ++ added ++ fixup) s.mem s'.mem

theorem verifyV2_ok (hadd : Appends additional added)
    (h : verifyV2 P slot additionalPartitions additional boot remains s = (.ok n, s')) :
    ∃ avb fixup, VerifiedV2 P slot additionalPartitions added boot remains n avb fixup s s' := by
  obtain ⟨builder, s₁, hnew, h₁⟩ := bind_run_eq_ok h
  obtain ⟨hholds, hlen, rfl⟩ := newBuilder_ok hnew
  obtain ⟨t, _, hget, h₂⟩ := bind_run_eq_ok h₁
  cases hget
  obtain ⟨toVerify, htoVerify, h₃⟩ := unified_lift_bind_eq_ok h₂
  obtain ⟨p, hpush, hextend⟩ := Res.bind_eq_ok.1 htoVerify
  obtain ⟨-, rfl⟩ := tryPushPreloaded_eq_ok.1 hpush
  obtain ⟨-, rfl⟩ := tryExtendPreloaded_eq_ok.1 hextend
  obtain ⟨_, s₂, hmodify, h₄⟩ := bind_run_eq_ok h₃
  cases hmodify
  obtain ⟨w', b', hbody, rfl⟩ := building_ok h₄
  obtain ⟨_, ⟨w₁, b₁⟩, hverify, hconfig⟩ := bind_run_eq_ok hbody
  obtain ⟨avb, fixup, hparams, hfixup, hholds₁, hlen₁⟩ := verifyAndFixup_ok hadd hholds hverify
  obtain ⟨rfl, rfl⟩ := configLen_ok hholds₁ (unified_eq_ok hconfig)
  exact ⟨avb, fixup, rfl, rfl, hparams, hfixup, configured_of_holds s.mem hholds₁ (hlen₁.trans hlen)⟩

/-! ## Versions 3 and 4 -/

def loadedPart (name : String) (e : Extent) (m : Content) : Preloaded :=
  if 0 < e.len then [(text name, e.read m)] else []

theorem pushIfLoaded_ok {partitions partitions' : Preloaded} {name : String} {e : Extent}
    (h : pushIfLoaded partitions (text name) e m = .ok partitions') :
    partitions' = partitions ++ loadedPart name e m := by
  unfold pushIfLoaded at h
  unfold loadedPart
  split at h
  · next hpos =>
    obtain ⟨-, rfl⟩ := tryPushPreloaded_eq_ok.1 h
    rw [if_pos hpos]
  · next hzero =>
    cases h
    rw [if_neg hzero, List.append_nil]

def V3Images.preloaded (images : V3Images) (m : Content) : Preloaded :=
  (text "boot", images.boot.read m) :: (text "vendor_boot", images.vendorBoot.read m) ::
    loadedPart "init_boot" images.initBoot m

theorem toVerifyV3_ok {additional toVerify : Preloaded} (h : toVerifyV3 images m additional = .ok toVerify) :
    toVerify = images.preloaded m ++ additional := by
  obtain ⟨p₁, hboot, h₁⟩ := Res.bind_eq_ok.1 h
  obtain ⟨-, rfl⟩ := tryPushPreloaded_eq_ok.1 hboot
  obtain ⟨p₂, hvendor, h₂⟩ := Res.bind_eq_ok.1 h₁
  obtain ⟨-, rfl⟩ := tryPushPreloaded_eq_ok.1 hvendor
  obtain ⟨p₃, hinit, hextend⟩ := Res.bind_eq_ok.1 h₂
  obtain rfl := pushIfLoaded_ok hinit
  obtain ⟨-, rfl⟩ := tryExtendPreloaded_eq_ok.1 hextend
  rfl

structure VerifiedV3 (P : GblOps ω) (slot : Nat) (additionalPartitions : Preloaded) (added : Bytes) (images : V3Images)
    (n : Nat) (avb fixup : Bytes) (s s' : LoadState ω) : Prop where
  verified_eq : s'.verified = images.preloaded s.mem ++ additionalPartitions
  reads_eq : s'.reads = s.reads
  avb_parameters : AvbParameters P slot s'.verified s.ops avb
  fixup_text : FixupText P (avb ++ added) fixup
  configured :
    Configured images.remains n (avb ++ added ++ fixup ++ images.vendorBootconfig.read s.mem) s.mem s'.mem

theorem appends_addVendorBootconfig {range : Extent} :
    Appends (addVendorBootconfig vendorBoot range m : Exec Error (Building ω) Unit)
      ((vendorBoot.sub range).read m) := by
  intro w b content w' b' h hrun
  obtain ⟨e, he, hadd⟩ := lift_bind_run_eq_ok hrun
  obtain ⟨-, rfl⟩ := getRange_eq_ok.1 he
  exact BootConfigBuilder.appends_copy _ _ w b content w' b' h hadd

theorem verifyV3_ok (hadd : Appends additional added)
    (h : verifyV3 P slot additionalPartitions additional images s = (.ok n, s')) :
    ∃ avb fixup, VerifiedV3 P slot additionalPartitions added images n avb fixup s s' := by
  obtain ⟨builder, s₁, hnew, h₁⟩ := bind_run_eq_ok h
  obtain ⟨hholds, hlen, rfl⟩ := newBuilder_ok hnew
  obtain ⟨t, _, hget, h₂⟩ := bind_run_eq_ok h₁
  cases hget
  obtain ⟨toVerify, htoVerify, h₃⟩ := unified_lift_bind_eq_ok h₂
  obtain rfl := toVerifyV3_ok htoVerify
  obtain ⟨_, s₂, hmodify, h₄⟩ := bind_run_eq_ok h₃
  cases hmodify
  obtain ⟨w', b', hbody, rfl⟩ := building_ok h₄
  obtain ⟨_, ⟨w₁, b₁⟩, hverify, hrest⟩ := bind_run_eq_ok hbody
  obtain ⟨avb, fixup, hparams, hfixup, hholds₁, hlen₁⟩ := verifyAndFixup_ok hadd hholds hverify
  obtain ⟨_, ⟨w₂, b₂⟩, hvendor, hconfig⟩ := bind_run_eq_ok hrest
  obtain ⟨rfl, hholds₂, hlen₂⟩ := appends_addVendorBootconfig _ _ _ _ _ hholds₁ (unified_eq_ok hvendor)
  obtain ⟨rfl, rfl⟩ := configLen_ok hholds₂ (unified_eq_ok hconfig)
  exact ⟨avb, fixup, rfl, rfl, hparams, hfixup, configured_of_holds s.mem hholds₂ (hlen₂.trans (hlen₁.trans hlen))⟩

/-! ### Reading the images -/

inductive InitBoot [Bootimg] (P : GblOps ω) (slot : Nat) (images : V3Images) (s' : LoadState ω) : Prop
  | absent (hramdisk : 0 < images.bootInfo.ramdiskRange.len) (hinfo : images.initInfo = none)
      (hlen : images.initBoot.len = 0)
  | loaded (part : Text) (hdr : Bytes) (info : BootImageV3Info) (hramdisk : images.bootInfo.ramdiskRange.len = 0)
      (hpart : slottedPart "init_boot" slot = .ok part) (hhdr : Answers P part 0 hdr) (hlen : hdr.length = pageSize)
      (hread : (part, 0, hdr) ∈ s'.reads) (hnew : BootImageV3Info.new hdr = .ok info)
      (hinfo : images.initInfo = some info) (himage : Answers P part 0 (images.initBoot.read s'.mem))

structure ReadV3 [Bootimg] (P : GblOps ω) (slot : Nat) (load : Extent) (images : V3Images)
    (s s' : LoadState ω) : Prop where
  loaded : images.Loaded load
  changes : load.Changes s.mem s'.mem
  subset_reads : s.reads ⊆ s'.reads
  page_le : pageSize ≤ load.len
  bootInfo_eq : BootImageV3Info.new (load.read s.mem) = .ok images.bootInfo
  boot : ∃ part, slottedPart "boot" slot = .ok part ∧ Answers P part 0 (images.boot.read s'.mem)
  vendor : ∃ part hdr, slottedPart "vendor_boot" slot = .ok part ∧ Answers P part 0 hdr ∧ hdr.length = pageSize ∧
    (part, 0, hdr) ∈ s'.reads ∧ VendorBootImageInfo.new hdr = .ok images.vendorInfo ∧
    Answers P part 0 (images.vendorBoot.read s'.mem)
  init : InitBoot P slot images s'

structure ReadInitBoot [Bootimg] (P : GblOps ω) (slot : Nat) (remains : Extent) (images : V3Images)
    (s s' : LoadState ω) : Prop where
  start_eq : images.initBoot.start = remains.start
  remains_start : images.remains.start = images.initBoot.stop
  remains_stop : images.remains.stop = remains.stop
  init_len : ∀ info, images.initInfo = some info → images.initBoot.len = info.imageSize
  changes : remains.Changes s.mem s'.mem
  subset_reads : s.reads ⊆ s'.reads
  init : InitBoot P slot images s'

theorem loadInitBoot_ok [Bootimg] {bootInfo : BootImageV3Info} {vendorInfo : VendorBootImageInfo}
    (hpart : slottedPart "init_boot" slot = .ok part)
    (h : loadInitBoot P part bootInfo vendorInfo vendorBoot boot remains s = (.ok images, s')) :
    (images.bootInfo = bootInfo ∧ images.vendorInfo = vendorInfo ∧ images.vendorBoot = vendorBoot ∧
      images.boot = boot) ∧ ReadInitBoot P slot remains images s s' := by
  unfold loadInitBoot at h
  split at h
  · next hpos =>
    cases h
    exact ⟨⟨rfl, rfl, rfl, rfl⟩, rfl, rfl, rfl, nofun, Extent.Changes.refl _ _, List.Subset.refl _,
      .absent hpos rfl rfl⟩
  · next hzero =>
    obtain ⟨hdr, hindex, h₁⟩ := lift_bind_run_eq_ok h
    obtain ⟨hpage, rfl⟩ := indexTo_eq_ok.1 hindex
    obtain ⟨_, s₁, hread₁, h₂⟩ := bind_run_eq_ok h₁
    obtain ⟨data, hR₁⟩ := readFromPartitionSync_ok hread₁
    obtain ⟨t, _, hget, h₃⟩ := bind_run_eq_ok h₂
    cases hget
    obtain ⟨info, hinfo, h₄⟩ := lift_bind_run_eq_ok h₃
    -- The header is in the page that was read; the parser is given more.
    have hlen : data.length = pageSize := hR₁.length_eq
    have hnew : BootImageV3Info.new data = .ok info := by
      have hwhole : remains.read s₁.mem = (remains.take remains.len).read s₁.mem := rfl
      refine (BootImageV3Info.new_eq_ok_page (by rw [hlen]) (by rwa [Extent.length_read]) ?_).1 hinfo
      rw [hwhole, Extent.read_take_append hpage, hR₁.read_eq, List.take_append_of_le_length (by rw [hlen])]
    obtain ⟨⟨initBoot, remains'⟩, hsplit, h₅⟩ := lift_bind_run_eq_ok h₄
    obtain ⟨hle, rfl, rfl⟩ := split_eq_ok.1 hsplit
    obtain ⟨_, s₂, hread₂, hpure⟩ := bind_run_eq_ok h₅
    obtain ⟨image, hR₂⟩ := readFromPartitionSync_ok hread₂
    cases hpure
    refine ⟨⟨rfl, rfl, rfl, rfl⟩, rfl, rfl, ?_, ?_, ?_, ?_, ?_⟩
    · simp only [Extent.drop, Extent.stop]
      omega
    · rintro _ ⟨⟩
      rfl
    · have hhdr : remains.Changes s.mem s₁.mem := hR₁.changes.mono (Extent.take_within hpage)
      exact hhdr.trans (hR₂.changes.mono (Extent.take_within hle))
    · exact List.Subset.trans hR₁.subset_reads hR₂.subset_reads
    · refine .loaded part data info (Nat.eq_zero_of_not_pos hzero) hpart hR₁.answers hlen
        (hR₂.subset_reads hR₁.mem_reads) hnew rfl ?_
      rw [hR₂.read_eq]
      exact hR₂.answers

theorem loadImagesV3_ok [Bootimg] {load : Extent} (h : loadImagesV3 P slot load s = (.ok images, s')) :
    ReadV3 P slot load images s s' := by
  obtain ⟨bootPart, hbootPart, h₁⟩ := lift_bind_run_eq_ok h
  obtain ⟨vendorPart, hvendorPart, h₂⟩ := lift_bind_run_eq_ok h₁
  obtain ⟨initPart, hinitPart, h₃⟩ := lift_bind_run_eq_ok h₂
  obtain ⟨t, _, hget, h₄⟩ := bind_run_eq_ok h₃
  cases hget
  obtain ⟨bootInfo, hbootInfo, h₅⟩ := lift_bind_run_eq_ok h₄
  obtain ⟨hdr, hindex, h₆⟩ := lift_bind_run_eq_ok h₅
  obtain ⟨hpage, rfl⟩ := indexTo_eq_ok.1 hindex
  obtain ⟨_, s₁, hread₁, h₇⟩ := bind_run_eq_ok h₆
  obtain ⟨hdrData, hR₁⟩ := readFromPartitionSync_ok hread₁
  obtain ⟨t', _, hget', h₈⟩ := bind_run_eq_ok h₇
  cases hget'
  obtain ⟨vendorInfo, hvendorInfo, h₉⟩ := lift_bind_run_eq_ok h₈
  rw [hR₁.read_eq] at hvendorInfo
  obtain ⟨⟨vendorBoot, remains₁⟩, hsplit₁, h₁₀⟩ := lift_bind_run_eq_ok h₉
  obtain ⟨hle₁, rfl, rfl⟩ := split_eq_ok.1 hsplit₁
  obtain ⟨_, s₂, hread₂, h₁₁⟩ := bind_run_eq_ok h₁₀
  obtain ⟨vendorData, hR₂⟩ := readFromPartitionSync_ok hread₂
  obtain ⟨⟨boot, remains₂⟩, hsplit₂, h₁₂⟩ := lift_bind_run_eq_ok h₁₁
  obtain ⟨hle₂, rfl, rfl⟩ := split_eq_ok.1 hsplit₂
  obtain ⟨_, s₃, hread₃, hlast⟩ := bind_run_eq_ok h₁₂
  obtain ⟨bootData, hR₃⟩ := readFromPartitionSync_ok hread₃
  obtain ⟨⟨rfl, rfl, hvendorBoot, hboot⟩, hI⟩ := loadInitBoot_ok hinitPart hlast
  simp only [Extent.drop] at hle₂
  -- Each read leaves alone what is in front of it.
  have hbootRead : images.boot.read s'.mem = bootData := by
    rw [hboot, hI.changes.read_eq (Extent.disjoint_of_le (Nat.le_refl _)), hR₃.read_eq]
  have hvendorRead : images.vendorBoot.read s'.mem = vendorData := by
    rw [hvendorBoot, hI.changes.read_eq (Extent.disjoint_of_le ?_), hR₃.changes.read_eq (Extent.disjoint_of_le ?_),
      hR₂.read_eq]
    · exact Nat.le_refl _
    · simp only [Extent.take, Extent.drop, Extent.stop]
      omega
  constructor
  case loaded =>
    have hstart := hI.start_eq
    have hstop := hI.remains_stop
    refine ⟨⟨?_, ?_, ?_, hI.remains_start, ?_⟩, ?_, ?_, hI.init_len⟩
    · rw [hvendorBoot]
      rfl
    · rw [hboot, hvendorBoot]
      rfl
    · rw [hstart, hboot]
      rfl
    · show images.remains.stop = load.stop
      rw [hstop]
      simp only [Extent.drop, Extent.stop]
      omega
    · rw [hvendorBoot]
      rfl
    · rw [hboot]
      rfl
  case changes =>
    have hhdr : load.Changes s.mem s₁.mem := hR₁.changes.mono (Extent.take_within hpage)
    have hvendor : load.Changes s₁.mem s₂.mem := hR₂.changes.mono (Extent.take_within hle₁)
    have hrest :
      load.Changes s₂.mem s₃.mem := hR₃.changes.mono ((Extent.take_within hle₂).trans (Extent.drop_within hle₁))
    exact ((hhdr.trans hvendor).trans hrest).trans
      (hI.changes.mono ((Extent.drop_within hle₂).trans (Extent.drop_within hle₁)))
  case subset_reads =>
    exact List.Subset.trans hR₁.subset_reads (List.Subset.trans hR₂.subset_reads
      (List.Subset.trans hR₃.subset_reads hI.subset_reads))
  case page_le => exact hpage
  case bootInfo_eq => exact unwrap_eq_ok.1 hbootInfo
  case boot =>
    rw [hbootRead]
    exact ⟨bootPart, hbootPart, hR₃.answers⟩
  case vendor =>
    rw [hvendorRead]
    exact ⟨vendorPart, hdrData, hvendorPart, hR₁.answers, hR₁.length_eq,
      hI.subset_reads (hR₃.subset_reads (hR₂.subset_reads hR₁.mem_reads)), hvendorInfo, hR₂.answers⟩
  case init => exact hI.init

end Gbl.Android
