import Gbl.Fastboot.Text
import Gbl.Lib.Extent
import Gbl.SafeMath

/-!
# Android boot images (the image infos of `libgbl/src/android_boot/load.rs`)

A boot image is a header followed by sections, each of which ends at a page boundary. How a header is read is left to
the crate `bootimg`.
-/

namespace Gbl.Android

open Lib
open Fastboot (Bytes Text text fromUtf8)

def pageSize : Nat := 4096

/-! ## Headers -/

structure BootImgHdrV0 where
  kernelSize : Nat
  ramdiskSize : Nat
  secondSize : Nat
  pageSize : Nat
  cmdline : Bytes
  deriving DecidableEq, Repr

structure BootImgHdrV1 where
  recoveryDtboSize : Nat
  recoveryDtboOffset : Nat
  deriving DecidableEq, Repr

structure BootImgHdrV2 where
  base : BootImgHdrV1
  dtbSize : Nat
  deriving DecidableEq, Repr

structure BootImgHdrV3 where
  kernelSize : Nat
  ramdiskSize : Nat
  cmdline : Bytes
  deriving DecidableEq, Repr

structure VendorBootImgHdrV3 where
  pageSize : Nat
  vendorRamdiskSize : Nat
  cmdline : Bytes
  dtbSize : Nat
  deriving DecidableEq, Repr

inductive BootImage where
  | v0
  | v1 (hdr : BootImgHdrV1)
  | v2 (hdr : BootImgHdrV2)
  | v3
  | v4 (signatureSize : Nat)
  deriving DecidableEq, Repr

inductive VendorImageHeader where
  | v3
  | v4 (vendorRamdiskTableSize bootconfigSize : Nat)
  deriving DecidableEq, Repr

namespace BootImage

def isV3OrV4 : BootImage → Bool
  | .v3 => true
  | .v4 _ => true
  | _ => false

def recoveryDtbo (start : Nat) : BootImage → Nat × Nat
  | .v1 hdr => (hdr.recoveryDtboOffset, hdr.recoveryDtboSize)
  | .v2 hdr => (hdr.base.recoveryDtboOffset, hdr.base.recoveryDtboSize)
  | _ => (start, 0)

def dtbSize : BootImage → Nat
  | .v2 hdr => hdr.dtbSize
  | _ => 0

def signatureSize : BootImage → Nat
  | .v4 size => size
  | _ => 0

end BootImage

def VendorImageHeader.tableAndBootconfigSize : VendorImageHeader → Nat × Nat
  | .v3 => (0, 0)
  | .v4 table bootconfig => (table, bootconfig)

/-- A packed header: how many bytes it takes, and its fields. -/
structure Layout (α : Type) where
  size : Nat
  decode : Bytes → α

/-- `Ref::from_prefix`, for a buffer that is long enough. -/
def Layout.read {α : Type} (l : Layout α) (b : Bytes) : α := l.decode (b.take l.size)

/-- The crate `bootimg` and its header layouts, which are generated from `mkbootimg` and are not part of this
repository. What is known of them: an image is known by its header, a header is within the first page, and those of
the later versions start with that of the first. -/
class Bootimg where
  v0 : Layout BootImgHdrV0
  v3 : Layout BootImgHdrV3
  vendorV3 : Layout VendorBootImgHdrV3
  parse : Bytes → Result BootImage
  parseVendor : Bytes → Result VendorImageHeader
  size : BootImage → Nat
  vendorSize : VendorImageHeader → Nat
  parse_size {b img} : parse b = .ok img → size img ≤ b.length
  parse_congr {b b' img} : parse b = .ok img → size img ≤ b'.length → b'.take (size img) = b.take (size img) →
    parse b' = .ok img
  v0_le {img} : img.isV3OrV4 = false → v0.size ≤ size img
  v3_le {img} : img.isV3OrV4 = true → v3.size ≤ size img
  size_le (img) : size img ≤ pageSize
  vendorSize_le (hdr) : vendorSize hdr ≤ pageSize
  vendorV3_le : vendorV3.size ≤ pageSize

section Library

variable [B : Bootimg]

def BootImgHdrV0.ofBytes : Bytes → BootImgHdrV0 := B.v0.read

def BootImgHdrV3.ofBytes : Bytes → BootImgHdrV3 := B.v3.read

def VendorBootImgHdrV3.ofBytes : Bytes → VendorBootImgHdrV3 := B.vendorV3.read

def BootImage.parse : Bytes → Result BootImage := B.parse

def VendorImageHeader.parse : Bytes → Result VendorImageHeader := B.parseVendor

def BootImage.size : BootImage → Nat := B.size

/-- `hdr.as_bytes().len()`. -/
def VendorImageHeader.size : VendorImageHeader → Nat := B.vendorSize

end Library

/-! ## Sections -/

def cstrBytesToStr (data : Bytes) : Result Text :=
  if (0 : UInt8) ∈ data then
    match fromUtf8 (data.takeWhile (· ≠ 0)) with
    | .ok t => .ok t
    | .error _ => err .invalidInput
  else err .invalidInput

theorem le_of_roundUp {a p n : Nat} (h : ((SafeNum.ofNat a).roundUp (SafeNum.ofNat p)).toU64 = .ok n) : a ≤ n := by
  obtain ⟨a', p', ha, -, -, -, hn⟩ := SafeNum.roundUp_eq_valid.1 (SafeNum.toU64_eq_ok.1 h)
  obtain ⟨-, rfl⟩ := SafeNum.ofNat_eq_valid.1 ha
  omega

def pageAlignedRange (start sz page : Nat) : Result { r : Extent // r.start = start ∧ sz ≤ r.len } :=
  match h : (SafeNum.ofNat (start + sz)).roundUp (SafeNum.ofNat page) |>.toU64 with
  | .ok stop => .ok ⟨⟨start, stop - start⟩, rfl, by have hle := le_of_roundUp h; simp only; omega⟩
  | .error e => .error e

structure BootImageV2Info where
  cmdline : Text
  pageSize : Nat
  kernelRange : Extent
  ramdiskRange : Extent
  dtbRange : Extent
  /-- The size of the dtb without its padding. -/
  dtbSz : Nat
  imageSize : Nat
  kernel_start : kernelRange.start = pageSize
  ramdisk_start : ramdiskRange.start = kernelRange.stop
  ramdisk_le : ramdiskRange.stop ≤ dtbRange.start
  dtb_le : dtbSz ≤ dtbRange.len
  image_size_eq : imageSize = dtbRange.stop

def recoveryDtboRange (start off sz page : Nat) : Result { r : Extent // start ≤ r.start } :=
  if h : start ≤ off then do
    let r ← pageAlignedRange off sz page
    pure ⟨r.1, by rw [r.2.1]; exact h⟩
  else if off = 0 then do
    let r ← pageAlignedRange start 0 page
    pure ⟨r.1, Nat.le_of_eq r.2.1.symm⟩
  else err (.other (some "Unexpected recovery_dtbo_offset"))

theorem ramdisk_le_dtb {ramdisk second recovery dtb : Extent} (hsecond : second.start = ramdisk.stop)
    (hrecovery : second.stop ≤ recovery.start) (hdtb : dtb.start = recovery.stop) : ramdisk.stop ≤ dtb.start := by
  simp only [Extent.stop] at *
  omega

def BootImageV2Info.ofHeader (header : BootImage) (v0 : BootImgHdrV0) : Result BootImageV2Info := do
  ensure (header.isV3OrV4 = false) .invalidInput
  let cmdline ← cstrBytesToStr v0.cmdline
  let kernelRange ← pageAlignedRange v0.pageSize v0.kernelSize v0.pageSize
  let ramdiskRange ← pageAlignedRange kernelRange.1.stop v0.ramdiskSize v0.pageSize
  let secondRange ← pageAlignedRange ramdiskRange.1.stop v0.secondSize v0.pageSize
  let start := secondRange.1.stop
  let recoveryDtbRange ← recoveryDtboRange start (header.recoveryDtbo start).1 (header.recoveryDtbo start).2 v0.pageSize
  let dtbRange ← pageAlignedRange recoveryDtbRange.1.stop header.dtbSize v0.pageSize
  pure
    { cmdline
      pageSize := v0.pageSize
      kernelRange := kernelRange.1
      ramdiskRange := ramdiskRange.1
      dtbRange := dtbRange.1
      dtbSz := header.dtbSize
      imageSize := dtbRange.1.stop
      kernel_start := kernelRange.2.1
      ramdisk_start := ramdiskRange.2.1
      ramdisk_le := ramdisk_le_dtb secondRange.2.1 recoveryDtbRange.2 dtbRange.2.1
      dtb_le := dtbRange.2.2
      image_size_eq := rfl }

def BootImageV2Info.new [Bootimg] (buffer : Bytes) : Result BootImageV2Info := do
  let header ← BootImage.parse buffer
  BootImageV2Info.ofHeader header (.ofBytes buffer)

structure BootImageV3Info where
  kernelRange : Extent
  ramdiskRange : Extent
  imageSize : Nat
  kernel_start : kernelRange.start = pageSize
  ramdisk_start : ramdiskRange.start = kernelRange.stop
  ramdisk_le : ramdiskRange.stop ≤ imageSize

namespace BootImageV3Info

def ofHeader (header : BootImage) (v3 : BootImgHdrV3) : Result BootImageV3Info := do
  ensure (header.isV3OrV4 = true) .invalidInput
  let kernelRange ← pageAlignedRange pageSize v3.kernelSize pageSize
  let ramdiskRange ← pageAlignedRange kernelRange.1.stop v3.ramdiskSize pageSize
  let signatureRange ← pageAlignedRange ramdiskRange.1.stop header.signatureSize pageSize
  pure
    { kernelRange := kernelRange.1
      ramdiskRange := ramdiskRange.1
      imageSize := signatureRange.1.stop
      kernel_start := kernelRange.2.1
      ramdisk_start := ramdiskRange.2.1
      ramdisk_le := by
        have h : signatureRange.1.start = ramdiskRange.1.stop := signatureRange.2.1
        exact Nat.le_trans (Nat.le_of_eq h.symm) (Nat.le_add_right _ _) }

def new [Bootimg] (buffer : Bytes) : Result BootImageV3Info := do
  let header ← BootImage.parse buffer
  ofHeader header (.ofBytes buffer)

def cmdline [B : Bootimg] (buffer : Bytes) : Result Text :=
  if B.v3.size ≤ buffer.length then cstrBytesToStr (BootImgHdrV3.ofBytes buffer).cmdline else panic

end BootImageV3Info

structure VendorBootImageInfo where
  headerSize : Nat
  ramdiskRange : Extent
  dtbRange : Extent
  /-- The size of the dtb without its padding. -/
  dtbSz : Nat
  bootconfigRange : Extent
  imageSize : Nat
  ramdisk_start : ramdiskRange.start = headerSize
  dtb_start : dtbRange.start = ramdiskRange.stop
  dtb_le : dtbSz ≤ dtbRange.len
  bootconfig_ge : dtbRange.stop ≤ bootconfigRange.start
  bootconfig_le : bootconfigRange.stop ≤ imageSize

def roundUpTo (a page : Nat) : Result { n : Nat // a ≤ n } :=
  match h : ((SafeNum.ofNat a).roundUp (SafeNum.ofNat page)).toU64 with
  | .ok n => .ok ⟨n, le_of_roundUp h⟩
  | .error e => .error e

namespace VendorBootImageInfo

def ofHeader [Bootimg] (header : VendorImageHeader) (v3 : VendorBootImgHdrV3) : Result VendorBootImageInfo := do
  let headerSize ← roundUpTo header.size v3.pageSize
  let ramdiskRange ← pageAlignedRange headerSize.1 v3.vendorRamdiskSize v3.pageSize
  let dtbRange ← pageAlignedRange ramdiskRange.1.stop v3.dtbSize v3.pageSize
  let table ← pageAlignedRange dtbRange.1.stop header.tableAndBootconfigSize.1 v3.pageSize
  let _ ← addU64 table.1.stop header.tableAndBootconfigSize.2
  let imageSize ← roundUpTo (table.1.stop + header.tableAndBootconfigSize.2) v3.pageSize
  pure
    { headerSize := headerSize.1
      ramdiskRange := ramdiskRange.1
      dtbRange := dtbRange.1
      dtbSz := v3.dtbSize
      bootconfigRange := ⟨table.1.stop, header.tableAndBootconfigSize.2⟩
      imageSize := imageSize.1
      ramdisk_start := ramdiskRange.2.1
      dtb_start := dtbRange.2.1
      dtb_le := dtbRange.2.2
      bootconfig_ge := by
        have h : table.1.start = dtbRange.1.stop := table.2.1
        exact Nat.le_trans (Nat.le_of_eq h.symm) (Nat.le_add_right _ _)
      bootconfig_le := imageSize.2 }

def new [Bootimg] (buffer : Bytes) : Result VendorBootImageInfo := do
  let header ← VendorImageHeader.parse buffer
  ofHeader header (.ofBytes buffer)

def cmdline [B : Bootimg] (buffer : Bytes) : Result Text :=
  if B.vendorV3.size ≤ buffer.length then cstrBytesToStr (VendorBootImgHdrV3.ofBytes buffer).cmdline else panic

end VendorBootImageInfo

/-! ## An image is known by its first bytes -/

section Append

theorem Layout.read_congr {α : Type} (l : Layout α) {b b' : Bytes} {n : Nat} (hn : l.size ≤ n)
    (h : b'.take n = b.take n) :
    l.read b' = l.read b := by
  have htake := congrArg (List.take l.size) h
  rw [List.take_take, List.take_take, Nat.min_eq_left hn] at htake
  rw [read, read, htake]

variable [B : Bootimg] {b b' t : Bytes} {img : BootImage}

theorem BootImage.size_le_of_parse (h : parse b = .ok img) : img.size ≤ b.length := B.parse_size h

theorem BootImage.le_size_of_not_v3 (h : img.isV3OrV4 = false) : B.v0.size ≤ img.size := B.v0_le h

theorem BootImage.parse_page (h : pageSize ≤ b.length) (h' : pageSize ≤ b'.length)
    (htake : b'.take pageSize = b.take pageSize) : parse b' = .ok img ↔ parse b = .ok img := by
  have hle : img.size ≤ pageSize := B.size_le img
  have hshort : b'.take img.size = b.take img.size := by
    have hmin := congrArg (List.take img.size) htake
    rwa [List.take_take, List.take_take, Nat.min_eq_left hle] at hmin
  exact ⟨fun hp => B.parse_congr hp (hle.trans h) hshort.symm, fun hp => B.parse_congr hp (hle.trans h') hshort⟩

theorem BootImageV2Info.new_congr (hparse : BootImage.parse b = .ok img) (hlen : img.size ≤ b'.length)
    (htake : b'.take img.size = b.take img.size) : new b' = new b := by
  unfold new
  rw [hparse, show BootImage.parse b' = .ok img from B.parse_congr hparse hlen htake]
  cases hv : img.isV3OrV4 with
  | true => simp [ofHeader, ensure, hv]
  | false => rw [BootImgHdrV0.ofBytes, B.v0.read_congr (B.v0_le hv) htake]

theorem BootImageV2Info.new_append_of_ok {info : BootImageV2Info} (h : new b = .ok info) : new (b ++ t) = .ok info := by
  obtain ⟨header, hparse, -⟩ := Res.bind_eq_ok.1 h
  have hsize := BootImage.size_le_of_parse hparse
  rw [new_congr hparse (by rw [List.length_append]; omega) (List.take_append_of_le_length hsize), h]

/-- The first page decides. -/
theorem BootImageV2Info.new_eq_ok_page {info : BootImageV2Info} (h : Android.pageSize ≤ b.length)
    (h' : Android.pageSize ≤ b'.length) (htake : b'.take Android.pageSize = b.take Android.pageSize) :
    new b' = .ok info ↔ new b = .ok info := by
  unfold new
  simp only [Res.bind_eq_ok, BootImage.parse_page h h' htake]
  refine exists_congr fun img => and_congr_right fun _ => ?_
  cases hv : img.isV3OrV4 with
  | true => simp [ofHeader, ensure, hv]
  | false => rw [BootImgHdrV0.ofBytes, B.v0.read_congr ((B.v0_le hv).trans (B.size_le img)) htake]

theorem BootImageV3Info.new_eq_ok_page {info : BootImageV3Info} (h : pageSize ≤ b.length) (h' : pageSize ≤ b'.length)
    (htake : b'.take pageSize = b.take pageSize) : new b' = .ok info ↔ new b = .ok info := by
  unfold new
  simp only [Res.bind_eq_ok, BootImage.parse_page h h' htake]
  refine exists_congr fun img => and_congr_right fun _ => ?_
  cases hv : img.isV3OrV4 with
  | true => rw [BootImgHdrV3.ofBytes, B.v3.read_congr ((B.v3_le hv).trans (B.size_le img)) htake]
  | false => simp [ofHeader, ensure, hv]

end Append

end Gbl.Android
