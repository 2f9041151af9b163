import Gbl.Android.Loaded

/-!
# The sections of the images

What the loader is for, said without its arithmetic: where the sections of an image are is worked out here from the
sizes in its header, and `Components` is what a boot takes from the images.
-/

namespace Gbl.Android

open Lib Lib.Exec BootParams
open Fastboot (Bytes Text text)

/-! ## Pages -/

def inPages (n page : Nat) : Nat := n + gap n page

variable {page start : Nat} {info : BootImageV3Info} {img : BootImage} {hdr : BootImgHdrV3} {c : Content}
  {k : Nat} {load : Extent} {m : Content} {version : VendorImageHeader} {out : LoadedImages}

theorem inPages_mod (n : Nat) (hpage : 0 < page) : inPages n page % page = 0 := add_gap_mod n hpage

theorem le_inPages (n page : Nat) : n ≤ inPages n page := Nat.le_add_right ..

theorem inPages_add {a : Nat} (n : Nat) (h : a % page = 0) : inPages (a + n) page = a + inPages n page := by
  unfold inPages gap
  rw [Nat.add_mod, h, Nat.zero_add, Nat.mod_mod, Nat.add_assoc]

theorem inPages_pos {n : Nat} : 0 < inPages n page ↔ 0 < n := by
  constructor
  · intro h
    by_contra hzero
    obtain rfl : n = 0 := Nat.eq_zero_of_not_pos hzero
    unfold inPages at h
    rw [gap_of_aligned (Nat.zero_mod page)] at h
    exact absurd h (Nat.lt_irrefl 0)
  · intro h
    exact Nat.lt_of_lt_of_le h (le_inPages n page)

section Ranges

variable {start sz page : Nat}

variable {a : Nat} {r : { r : Extent // r.start = start ∧ sz ≤ r.len }}

theorem roundUp_toU64_eq_ok {n : Nat} : ((SafeNum.ofNat a).roundUp (SafeNum.ofNat page)).toU64 = .ok n ↔
      0 < page ∧ a + page < 2 ^ 64 ∧ n = inPages a page := by
  rw [SafeNum.toU64_eq_ok, SafeNum.roundUp_eq_valid]
  constructor
  · rintro ⟨a', page', ha, hpage, hpos, hlt, hn⟩
    obtain ⟨-, rfl⟩ := SafeNum.ofNat_eq_valid.1 ha
    obtain ⟨-, rfl⟩ := SafeNum.ofNat_eq_valid.1 hpage
    exact ⟨hpos, hlt, hn.symm⟩
  · rintro ⟨hpos, hlt, rfl⟩
    exact ⟨a, page, SafeNum.ofNat_of_lt (by omega), SafeNum.ofNat_of_lt (by omega), hpos, hlt, rfl⟩

theorem pageAlignedRange_eq (h : pageAlignedRange start sz page = .ok r) :
    0 < page ∧ r.1.stop = inPages (start + sz) page := by
  unfold pageAlignedRange at h
  split at h
  · next stop hstop =>
    obtain ⟨hpos, -, rfl⟩ := roundUp_toU64_eq_ok.1 hstop
    cases h
    have hle := le_inPages (start + sz) page
    refine ⟨hpos, ?_⟩
    simp only [Extent.stop]
    omega
  · cases h

theorem pageAlignedRange_ok (hpage : 0 < page) (hlt : start + sz + page < 2 ^ 64) :
    ∃ r, pageAlignedRange start sz page = .ok r := by
  have hround : ((SafeNum.ofNat (start + sz)).roundUp (SafeNum.ofNat page)).toU64 = .ok (inPages (start + sz) page) :=
    roundUp_toU64_eq_ok.2 ⟨hpage, hlt, rfl⟩
  unfold pageAlignedRange
  split
  · exact ⟨_, rfl⟩
  · next e he =>
    rw [hround] at he
    cases he

theorem pageAlignedRange_of_aligned (h : pageAlignedRange start sz page = .ok r) (haligned : start % page = 0) :
    r.1 = ⟨start, inPages sz page⟩ ∧ r.1.stop % page = 0 := by
  obtain ⟨hpos, hstop⟩ := pageAlignedRange_eq h
  have hmod : r.1.stop % page = 0 := by
    rw [hstop]
    exact inPages_mod _ hpos
  rw [inPages_add sz haligned] at hstop
  obtain ⟨⟨rstart, rlen⟩, hstart, hlen⟩ := r
  simp only [Extent.stop] at hstart hstop hmod ⊢
  refine ⟨?_, hmod⟩
  rw [Extent.mk.injEq]
  omega

theorem roundUpTo_eq {n : { n : Nat // a ≤ n }} (h : roundUpTo a page = .ok n) : 0 < page ∧ n.1 = inPages a page := by
  unfold roundUpTo at h
  split at h
  · next k hk =>
    obtain ⟨hpos, -, rfl⟩ := roundUp_toU64_eq_ok.1 hk
    cases h
    exact ⟨hpos, rfl⟩
  · cases h

theorem roundUpTo_ok (hpage : 0 < page) (hlt : a + page < 2 ^ 64) : ∃ n, roundUpTo a page = .ok n := by
  have hround : ((SafeNum.ofNat a).roundUp (SafeNum.ofNat page)).toU64 = .ok (inPages a page) :=
    roundUp_toU64_eq_ok.2 ⟨hpage, hlt, rfl⟩
  unfold roundUpTo
  split
  · exact ⟨_, rfl⟩
  · next e he =>
    rw [hround] at he
    cases he

end Ranges

/-! ## Boot images of version 2 and lower -/

namespace BootImgHdrV0

variable (hdr : BootImgHdrV0) (img : BootImage)

def kernelAt : Extent := ⟨hdr.pageSize, inPages hdr.kernelSize hdr.pageSize⟩

def ramdiskAt : Extent := ⟨hdr.kernelAt.stop, inPages hdr.ramdiskSize hdr.pageSize⟩

def secondStop : Nat := hdr.ramdiskAt.stop + inPages hdr.secondSize hdr.pageSize

def recoveryDtboStop : Nat :=
  if hdr.secondStop ≤ (img.recoveryDtbo hdr.secondStop).1 then
    inPages ((img.recoveryDtbo hdr.secondStop).1 + (img.recoveryDtbo hdr.secondStop).2) hdr.pageSize
  else hdr.secondStop

def dtbAt : Extent := ⟨hdr.recoveryDtboStop img, img.dtbSize⟩

end BootImgHdrV0

structure BootImageV2Info.Describes (info : BootImageV2Info) (img : BootImage) (hdr : BootImgHdrV0) : Prop where
  not_v3 : img.isV3OrV4 = false
  pageSize_eq : info.pageSize = hdr.pageSize
  kernel_eq : info.kernelRange = hdr.kernelAt
  ramdisk_eq : info.ramdiskRange = hdr.ramdiskAt
  dtb_eq : (⟨info.dtbRange.start, info.dtbSz⟩ : Extent) = hdr.dtbAt img
  imageSize_eq : info.imageSize = inPages (hdr.dtbAt img).stop hdr.pageSize
  cmdline_eq : cstrBytesToStr hdr.cmdline = .ok info.cmdline

theorem recoveryDtboRange_eq {off sz : Nat} {r : { r : Extent // start ≤ r.start }}
    (haligned : start % page = 0) (h : recoveryDtboRange start off sz page = .ok r) :
    r.1.stop = if start ≤ off then inPages (off + sz) page else start := by
  unfold recoveryDtboRange at h
  split at h
  · next hle =>
    obtain ⟨r', hr', hpure⟩ := Res.bind_eq_ok.1 h
    cases hpure
    rw [if_pos hle]
    exact (pageAlignedRange_eq hr').2
  · next hlt =>
    rw [if_neg hlt]
    split at h
    · obtain ⟨r', hr', hpure⟩ := Res.bind_eq_ok.1 h
      cases hpure
      have hstop := (pageAlignedRange_eq hr').2
      rw [Nat.add_zero] at hstop
      rw [hstop]
      unfold inPages
      rw [gap_of_aligned haligned, Nat.add_zero]
    · cases h

theorem BootImageV2Info.describes_of_ofHeader {info : BootImageV2Info} {hdr : BootImgHdrV0}
    (h : ofHeader img hdr = .ok info) : info.Describes img hdr := by
  obtain ⟨_, hnot, h₁⟩ := Res.bind_eq_ok.1 h
  obtain ⟨cmdline, hcmdline, h₂⟩ := Res.bind_eq_ok.1 h₁
  obtain ⟨kernelRange, hkernel, h₃⟩ := Res.bind_eq_ok.1 h₂
  obtain ⟨ramdiskRange, hramdisk, h₄⟩ := Res.bind_eq_ok.1 h₃
  obtain ⟨secondRange, hsecond, h₅⟩ := Res.bind_eq_ok.1 h₄
  obtain ⟨recoveryRange, hrecovery, h₆⟩ := Res.bind_eq_ok.1 h₅
  obtain ⟨dtbRange, hdtb, hpure⟩ := Res.bind_eq_ok.1 h₆
  cases hpure
  -- Each section ends at a page boundary, so the next one starts at one.
  obtain ⟨hkernelEq, hkernelMod⟩ := pageAlignedRange_of_aligned hkernel (Nat.mod_self _)
  obtain ⟨hramdiskEq, hramdiskMod⟩ := pageAlignedRange_of_aligned hramdisk hkernelMod
  obtain ⟨hsecondEq, hsecondMod⟩ := pageAlignedRange_of_aligned hsecond hramdiskMod
  have hkernelAt : kernelRange.1 = hdr.kernelAt := hkernelEq
  have hramdiskAt : ramdiskRange.1 = hdr.ramdiskAt := by
    rw [hramdiskEq, hkernelAt]
    rfl
  have hsecondStop : secondRange.1.stop = hdr.secondStop := by
    rw [hsecondEq, hramdiskAt]
    rfl
  have hrecoveryStop : recoveryRange.1.stop = hdr.recoveryDtboStop img := by
    rw [recoveryDtboRange_eq hsecondMod hrecovery, hsecondStop]
    rfl
  constructor
  case not_v3 => exact (ensure_eq_ok (u := ())).1 hnot
  case pageSize_eq => rfl
  case kernel_eq => exact hkernelAt
  case ramdisk_eq => exact hramdiskAt
  case dtb_eq =>
    show (⟨dtbRange.1.start, img.dtbSize⟩ : Extent) = _
    rw [dtbRange.2.1, hrecoveryStop]
    rfl
  case imageSize_eq =>
    show dtbRange.1.stop = _
    rw [(pageAlignedRange_eq hdtb).2, hrecoveryStop]
    rfl
  case cmdline_eq => exact hcmdline

theorem take_slice_eq {n k l : Nat} (c : Content) (hk : n ≤ k) (hl : n ≤ l) :
    (slice c 0 l).take n = (slice c 0 k).take n := by
  rw [take_slice c 0 hk, take_slice c 0 hl]

section Library

variable [B : Bootimg]

theorem parse_slice {l : Nat} (h : BootImage.parse (slice c 0 k) = .ok img) (hl : img.size ≤ l) :
    BootImage.parse (slice c 0 l) = .ok img ∧ BootImageV2Info.new (slice c 0 l) =
      BootImageV2Info.new (slice c 0 k) := by
  have hk := BootImage.size_le_of_parse h
  rw [length_slice] at hk
  have hlen : img.size ≤ (slice c 0 l).length := by rwa [length_slice]
  exact ⟨B.parse_congr h hlen (take_slice_eq c hk hl), BootImageV2Info.new_congr h hlen (take_slice_eq c hk hl)⟩

theorem BootImgHdrV0.ofBytes_slice (c : Content) (hk : B.v0.size ≤ k) (hpage : B.v0.size ≤ Android.pageSize) :
    ofBytes (slice c 0 k) = ofBytes (slice c 0 Android.pageSize) :=
  B.v0.read_congr (Nat.le_refl _) (take_slice_eq c hpage hk)

end Library

/-! ## Boot images of version 3 and 4 -/

namespace BootImgHdrV3

variable (hdr : BootImgHdrV3)

def kernelAt : Extent := ⟨pageSize, inPages hdr.kernelSize pageSize⟩

def ramdiskAt : Extent := ⟨hdr.kernelAt.stop, inPages hdr.ramdiskSize pageSize⟩

end BootImgHdrV3

structure BootImageV3Info.Describes (info : BootImageV3Info) (img : BootImage) (hdr : BootImgHdrV3) : Prop where
  kernel_eq : info.kernelRange = hdr.kernelAt
  ramdisk_eq : info.ramdiskRange = hdr.ramdiskAt
  imageSize_eq : info.imageSize = hdr.ramdiskAt.stop + inPages img.signatureSize pageSize

theorem BootImageV3Info.describes_of_ofHeader (h : ofHeader img hdr = .ok info) : info.Describes img hdr := by
  obtain ⟨_, -, h₁⟩ := Res.bind_eq_ok.1 h
  obtain ⟨kernelRange, hkernel, h₂⟩ := Res.bind_eq_ok.1 h₁
  obtain ⟨ramdiskRange, hramdisk, h₃⟩ := Res.bind_eq_ok.1 h₂
  obtain ⟨signatureRange, hsignature, hpure⟩ := Res.bind_eq_ok.1 h₃
  cases hpure
  obtain ⟨hkernelEq, hkernelMod⟩ := pageAlignedRange_of_aligned hkernel (Nat.mod_self _)
  obtain ⟨hramdiskEq, hramdiskMod⟩ := pageAlignedRange_of_aligned hramdisk hkernelMod
  obtain ⟨hsignatureEq, -⟩ := pageAlignedRange_of_aligned hsignature hramdiskMod
  have hkernelAt : kernelRange.1 = hdr.kernelAt := hkernelEq
  have hramdiskAt : ramdiskRange.1 = hdr.ramdiskAt := by
    rw [hramdiskEq, hkernelAt]
    rfl
  constructor
  case kernel_eq => exact hkernelAt
  case ramdisk_eq => exact hramdiskAt
  case imageSize_eq =>
    show signatureRange.1.stop = _
    rw [hsignatureEq, ← hramdiskAt]
    rfl

theorem take_read_page (hpage : pageSize ≤ load.len) (h : (load.take pageSize).read m = slice c 0 pageSize) :
    pageSize ≤ (load.read m).length ∧ (load.read m).take pageSize = (slice c 0 pageSize).take pageSize := by
  refine ⟨by rwa [Extent.length_read], ?_⟩
  have hwhole : load.read m = (load.take load.len).read m := rfl
  rw [hwhole, Extent.read_take_append hpage, h, List.take_append_of_le_length (by rw [length_slice])]

section Library

variable [Bootimg]

theorem BootImageV3Info.describes_of_new {b : Bytes} (h : new b = .ok info) :
    ∃ img, BootImage.parse b = .ok img ∧ info.Describes img (.ofBytes b) := by
  obtain ⟨img, hparse, hheader⟩ := Res.bind_eq_ok.1 h
  exact ⟨img, hparse, describes_of_ofHeader hheader⟩

theorem BootImageV3Info.new_page (hpage : pageSize ≤ load.len) (h : (load.take pageSize).read m = slice c 0 pageSize) :
    new (load.read m) = .ok info ↔ new (slice c 0 pageSize) = .ok info :=
  new_eq_ok_page (by rw [length_slice]) (take_read_page hpage h).1 (take_read_page hpage h).2

theorem BootImageV2Info.new_page {info : BootImageV2Info} (hpage : Android.pageSize ≤ load.len)
    (h : (load.take Android.pageSize).read m = slice c 0 Android.pageSize) :
    new (load.read m) = .ok info ↔ new (slice c 0 Android.pageSize) = .ok info :=
  new_eq_ok_page (by rw [length_slice]) (take_read_page hpage h).1 (take_read_page hpage h).2

end Library

/-! ## Vendor images -/

namespace VendorBootImgHdrV3

variable [Bootimg] (hdr : VendorBootImgHdrV3) (version : VendorImageHeader)

def ramdiskAt : Extent := ⟨inPages version.size hdr.pageSize, inPages hdr.vendorRamdiskSize hdr.pageSize⟩

def dtbAt : Extent := ⟨(hdr.ramdiskAt version).stop, hdr.dtbSize⟩

def bootconfigAt : Extent :=
  ⟨(hdr.dtbAt version).start + inPages hdr.dtbSize hdr.pageSize +
    inPages version.tableAndBootconfigSize.1 hdr.pageSize, version.tableAndBootconfigSize.2⟩

end VendorBootImgHdrV3

structure VendorBootImageInfo.Describes [Bootimg] (info : VendorBootImageInfo) (version : VendorImageHeader)
    (hdr : VendorBootImgHdrV3) : Prop where
  header_eq : info.headerSize = inPages version.size hdr.pageSize
  ramdisk_eq : info.ramdiskRange = hdr.ramdiskAt version
  dtb_eq : (⟨info.dtbRange.start, info.dtbSz⟩ : Extent) = hdr.dtbAt version
  bootconfig_eq : info.bootconfigRange = hdr.bootconfigAt version
  imageSize_eq : info.imageSize = inPages (hdr.bootconfigAt version).stop hdr.pageSize

theorem VendorBootImageInfo.describes_of_ofHeader [Bootimg] {info : VendorBootImageInfo} {hdr : VendorBootImgHdrV3}
    (h : ofHeader version hdr = .ok info) : info.Describes version hdr := by
  obtain ⟨headerSize, hheader, h₁⟩ := Res.bind_eq_ok.1 h
  obtain ⟨ramdiskRange, hramdisk, h₂⟩ := Res.bind_eq_ok.1 h₁
  obtain ⟨dtbRange, hdtb, h₃⟩ := Res.bind_eq_ok.1 h₂
  obtain ⟨table, htable, h₄⟩ := Res.bind_eq_ok.1 h₃
  obtain ⟨_, -, h₅⟩ := Res.bind_eq_ok.1 h₄
  obtain ⟨imageSize, himage, hpure⟩ := Res.bind_eq_ok.1 h₅
  cases hpure
  obtain ⟨hpos, hheaderEq⟩ := roundUpTo_eq hheader
  have hheaderMod : headerSize.1 % hdr.pageSize = 0 := by
    rw [hheaderEq]
    exact inPages_mod _ hpos
  obtain ⟨hramdiskEq, hramdiskMod⟩ := pageAlignedRange_of_aligned hramdisk hheaderMod
  obtain ⟨hdtbEq, hdtbMod⟩ := pageAlignedRange_of_aligned hdtb hramdiskMod
  obtain ⟨htableEq, -⟩ := pageAlignedRange_of_aligned htable hdtbMod
  have hramdiskAt : ramdiskRange.1 = hdr.ramdiskAt version := by
    rw [hramdiskEq, hheaderEq]
    rfl
  have hdtbStart : dtbRange.1.start = (hdr.dtbAt version).start := by
    rw [dtbRange.2.1, hramdiskAt]
    rfl
  have hbootconfigAt : (⟨table.1.stop, version.tableAndBootconfigSize.2⟩ : Extent) = hdr.bootconfigAt version := by
    have hstop : table.1.stop = dtbRange.1.stop + inPages version.tableAndBootconfigSize.1 hdr.pageSize := by
      rw [htableEq]
      rfl
    have hdtbStop : dtbRange.1.stop = dtbRange.1.start + inPages hdr.dtbSize hdr.pageSize := by
      rw [hdtbEq]
      rfl
    rw [hstop, hdtbStop, hdtbStart]
    rfl
  constructor
  case header_eq => exact hheaderEq
  case ramdisk_eq => exact hramdiskAt
  case dtb_eq =>
    show (⟨dtbRange.1.start, hdr.dtbSize⟩ : Extent) = _
    rw [hdtbStart]
    rfl
  case bootconfig_eq => exact hbootconfigAt
  case imageSize_eq =>
    rw [← hbootconfigAt]
    exact (roundUpTo_eq himage).2

/-! ## Headers that are accepted -/

theorem gap_le (a page : Nat) : gap a page ≤ page := by
  rcases Nat.eq_zero_or_pos page with rfl | hpos
  · unfold gap
    rw [Nat.mod_zero, Nat.zero_sub]
  · exact Nat.le_of_lt (gap_lt a hpos)

theorem pageAlignedRange_progress (sz : Nat) (hpage : 0 < page) (haligned : start % page = 0)
    (hlt : start + sz + page < 2 ^ 64) :
    ∃ r, pageAlignedRange start sz page = .ok r ∧ r.1.stop % page = 0 ∧ r.1.stop ≤ start + sz + page := by
  obtain ⟨r, hr⟩ := pageAlignedRange_ok hpage hlt
  have hgap := gap_le (start + sz) page
  refine ⟨r, hr, (pageAlignedRange_of_aligned hr haligned).2, ?_⟩
  rw [(pageAlignedRange_eq hr).2]
  unfold inPages
  omega

theorem BootImageV3Info.ofHeader_progress (hv3 : img.isV3OrV4 = true) (hkernel : hdr.kernelSize < 2 ^ 32)
    (hramdisk : hdr.ramdiskSize < 2 ^ 32) (hsignature : img.signatureSize < 2 ^ 32) :
    ∃ info, ofHeader img hdr = .ok info := by
  have hpage : pageSize = 4096 := rfl
  have hpos : 0 < pageSize := by decide
  obtain ⟨kernelRange, hk, hkMod, hkLe⟩ :=
    pageAlignedRange_progress hdr.kernelSize hpos (Nat.mod_self pageSize) (by omega)
  obtain ⟨ramdiskRange, hr, hrMod, hrLe⟩ := pageAlignedRange_progress hdr.ramdiskSize hpos hkMod (by omega)
  obtain ⟨signatureRange, hs, -, -⟩ := pageAlignedRange_progress img.signatureSize hpos hrMod (by omega)
  exact ⟨_, Res.bind_eq_ok.2 ⟨(), ensure_eq_ok.2 hv3, Res.bind_eq_ok.2 ⟨_, hk, Res.bind_eq_ok.2 ⟨_, hr,
    Res.bind_eq_ok.2 ⟨_, hs, rfl⟩⟩⟩⟩⟩

theorem VendorBootImageInfo.ofHeader_progress [B : Bootimg] {hdr : VendorBootImgHdrV3} (hpos : 0 < hdr.pageSize)
    (hpage : hdr.pageSize < 2 ^ 32) (hramdisk : hdr.vendorRamdiskSize < 2 ^ 32) (hdtb : hdr.dtbSize < 2 ^ 32)
    (htable : version.tableAndBootconfigSize.1 < 2 ^ 32) (hconfig : version.tableAndBootconfigSize.2 < 2 ^ 32) :
    ∃ info, ofHeader version hdr = .ok info := by
  have hsize : version.size ≤ 4096 := B.vendorSize_le version
  obtain ⟨headerSize, hh⟩ := roundUpTo_ok hpos (show version.size + hdr.pageSize < 2 ^ 64 by omega)
  have hhEq := (roundUpTo_eq hh).2
  have hhMod : headerSize.1 % hdr.pageSize = 0 := by
    rw [hhEq]
    exact inPages_mod _ hpos
  have hhLe : headerSize.1 ≤ 4096 + hdr.pageSize := by
    have hgap := gap_le version.size hdr.pageSize
    rw [hhEq]
    unfold inPages
    omega
  obtain ⟨ramdiskRange, hr, hrMod, hrLe⟩ := pageAlignedRange_progress hdr.vendorRamdiskSize hpos hhMod (by omega)
  obtain ⟨dtbRange, hd, hdMod, hdLe⟩ := pageAlignedRange_progress hdr.dtbSize hpos hrMod (by omega)
  obtain ⟨table, ht, -, htLe⟩ := pageAlignedRange_progress version.tableAndBootconfigSize.1 hpos hdMod (by omega)
  have hadd :
    addU64 table.1.stop version.tableAndBootconfigSize.2 = .ok (table.1.stop + version.tableAndBootconfigSize.2) :=
    addU64_eq_ok.2 ⟨by omega, rfl⟩
  obtain ⟨imageSize, hi⟩ := roundUpTo_ok hpos
    (show table.1.stop + version.tableAndBootconfigSize.2 + hdr.pageSize < 2 ^ 64 by omega)
  exact ⟨_, Res.bind_eq_ok.2 ⟨_, hh, Res.bind_eq_ok.2 ⟨_, hr, Res.bind_eq_ok.2 ⟨_, hd, Res.bind_eq_ok.2 ⟨_, ht,
    Res.bind_eq_ok.2 ⟨_, hadd, Res.bind_eq_ok.2 ⟨_, hi, rfl⟩⟩⟩⟩⟩⟩⟩

theorem BootImageV2Info.ofHeader_progress {hdr : BootImgHdrV0} {cmdline : Text} (hpos : 0 < hdr.pageSize)
    (hpage : hdr.pageSize < 2 ^ 32) (hkernel : hdr.kernelSize < 2 ^ 32) (hramdisk : hdr.ramdiskSize < 2 ^ 32)
    (hsecond : hdr.secondSize < 2 ^ 32) (hcmdline : cstrBytesToStr hdr.cmdline = .ok cmdline) :
    ∃ info, ofHeader .v0 hdr = .ok info := by
  obtain ⟨kernelRange, hk, hkMod, hkLe⟩ := pageAlignedRange_progress hdr.kernelSize hpos (Nat.mod_self _) (by omega)
  obtain ⟨ramdiskRange, hr, hrMod, hrLe⟩ := pageAlignedRange_progress hdr.ramdiskSize hpos hkMod (by omega)
  obtain ⟨secondRange, hs, hsMod, hsLe⟩ := pageAlignedRange_progress hdr.secondSize hpos hrMod (by omega)
  obtain ⟨none, hn, hnMod, hnLe⟩ := pageAlignedRange_progress 0 hpos hsMod (by omega)
  have hrecovery : recoveryDtboRange secondRange.1.stop secondRange.1.stop 0 hdr.pageSize =
      .ok ⟨none.1, Nat.le_of_eq none.2.1.symm⟩ := by
    unfold recoveryDtboRange
    rw [dif_pos (Nat.le_refl _), hn]
    rfl
  obtain ⟨dtbRange, hd, -, -⟩ := pageAlignedRange_progress 0 hpos hnMod (by omega)
  exact ⟨_, Res.bind_eq_ok.2 ⟨(), ensure_eq_ok.2 rfl, Res.bind_eq_ok.2 ⟨_, hcmdline, Res.bind_eq_ok.2 ⟨_, hk,
    Res.bind_eq_ok.2
      ⟨_, hr, Res.bind_eq_ok.2 ⟨_, hs, Res.bind_eq_ok.2 ⟨_, hrecovery, Res.bind_eq_ok.2 ⟨_, hd, rfl⟩⟩⟩⟩⟩⟩⟩⟩

/-! ## What a boot takes from the images -/

structure Components where
  kernel : Bytes
  vendorRamdisk : Bytes
  genericRamdisk : Bytes
  dtb : Bytes
  vendorBootconfig : Bytes
  bootCmdline : Result Text
  vendorCmdline : Result Text

def componentsV2 [Bootimg] (img : BootImage) (boot : Content) : Components :=
  let hdr := BootImgHdrV0.ofBytes (slice boot 0 pageSize)
  { kernel := hdr.kernelAt.read boot
    vendorRamdisk := []
    genericRamdisk := hdr.ramdiskAt.read boot
    dtb := (hdr.dtbAt img).read boot
    vendorBootconfig := []
    bootCmdline := cstrBytesToStr hdr.cmdline
    vendorCmdline := .ok [] }

def componentsV3 [Bootimg] (version : VendorImageHeader) (boot vendor init : Content) : Components :=
  let hdr := BootImgHdrV3.ofBytes (slice boot 0 pageSize)
  let vendorHdr := VendorBootImgHdrV3.ofBytes (slice vendor 0 pageSize)
  let initHdr := BootImgHdrV3.ofBytes (slice init 0 pageSize)
  { kernel := hdr.kernelAt.read boot
    vendorRamdisk := (vendorHdr.ramdiskAt version).read vendor
    genericRamdisk := if 0 < hdr.ramdiskSize then hdr.ramdiskAt.read boot else initHdr.ramdiskAt.read init
    dtb := (vendorHdr.dtbAt version).read vendor
    vendorBootconfig := (vendorHdr.bootconfigAt version).read vendor
    bootCmdline := cstrBytesToStr hdr.cmdline
    vendorCmdline := cstrBytesToStr vendorHdr.cmdline }

structure Booted (C : Codecs) (c : Components) (config : Bytes) (out : LoadedImages) (m : Content) : Prop where
  ramdisk_eq : out.ramdisk.read m =
    c.vendorRamdisk ++ c.genericRamdisk ++ bootconfigSection (config ++ c.vendorBootconfig)
  kernel_eq : decompressed C c.kernel = some (out.kernel.read m)
  dtb_eq : out.dtb.read m = c.dtb
  bootCmdline_eq : c.bootCmdline = .ok out.bootCmdline
  vendorCmdline_eq : c.vendorCmdline = .ok out.vendorCmdline

theorem read_sub_of_read_eq {e r : Extent} (h : e.read m = slice c 0 e.len) (hr : r.stop ≤ e.len) :
    (e.sub r).read m = r.read c := by
  rw [Extent.read_sub hr, h]
  exact take_drop_slice c hr

theorem Placed.pairwise_disjoint (h : Placed load out) :
    [out.ramdisk, out.unused, out.dtb, out.kernel].Pairwise Extent.Disjoint := by
  have hunused := h.unused_start
  have hdtb := h.dtb_start
  have hkernel := h.kernel_ge
  have hapart : [out.ramdisk, out.unused, out.dtb, out.kernel].Pairwise fun a b => a.stop ≤ b.start := by
    simp only [List.pairwise_cons, List.mem_cons, List.not_mem_nil, or_false, Extent.stop] at *
    refine ⟨?_, ?_, ?_, fun _ h => h.elim, .nil⟩
    · rintro e (rfl | rfl | rfl)
      · omega
      · omega
      · omega
    · rintro e (rfl | rfl)
      · omega
      · omega
    · rintro e rfl
      omega
  exact hapart.imp Extent.disjoint_of_le

theorem Placed.within (h : Placed load out) : ∀ e ∈ [out.ramdisk, out.unused, out.dtb, out.kernel], e.Within load := by
  have hramdisk := h.ramdisk_ge
  have hunused := h.unused_start
  have hdtb := h.dtb_start
  have hkernel := h.kernel_ge
  have hstop := h.kernel_le
  simp only [List.mem_cons, List.not_mem_nil, or_false, Extent.stop] at *
  rintro e (rfl | rfl | rfl | rfl)
  all_goals
    unfold Extent.Within
    simp only [Extent.stop]
    omega

end Gbl.Android
