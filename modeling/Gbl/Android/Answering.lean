import Gbl.Android.Progress

/-!
# A platform that answers from given contents

The contents of the partitions are functions, and so are the images: a header here is a few numbers
stored in a memory of zeros.
-/

namespace Gbl.Android

open Lib Lib.Exec BootParams
open Fastboot (Bytes Text text)

section Answering

variable {header image : Text → Content} {part : Text} {data : Bytes}

def answering (header image : Text → Content) : GblOps Unit where
  partitionSize _ w := (.ok none, w)
  readFromPartitionSync part off len w :=
    ((.ok (), fun i => (if len = pageSize then header part else image part) (off + i)), w)
  readIsDeviceUnlocked w := (.ok true, w)
  slotVerify _ _ _ w := (⟨.ok ⟨some [], [⟨text "vbmeta", fun _ => none⟩]⟩, none⟩, w)
  handleVerificationResult _ _ _ w := (.ok (), w)
  fixupBootconfig _ := pure none
  length_fixup := fun _ _ => rfl

theorem obliging_answering (header image : Text → Content) : Obliging (answering header image) where
  partitionSize _ _ := rfl
  reads _ _ _ _ := rfl
  unlocked _ := rfl
  verify _ _ _ := ⟨_, ⟨text "vbmeta", fun _ => none⟩, rfl, rfl, rfl⟩
  handle _ _ _ _ := rfl
  fixup _ _ _ := rfl

theorem slice_shift (c : Content) (off len : Nat) : slice (fun i => c (off + i)) 0 len = slice c off len := by
  unfold slice
  simp

theorem stable_answering (image : Text → Content) : Stable (answering image image) image := by
  intro part off len w _
  show slice (fun i => (if len = pageSize then image part else image part) (off + i)) 0 len = _
  rw [ite_self, slice_shift]

theorem answers_answering (h : Answers (answering header image) part 0 data) :
    data = slice (if data.length = pageSize then header part else image part) 0 data.length := by
  obtain ⟨w, -, hdata⟩ := h
  refine hdata.trans ?_
  show slice (fun i => (if data.length = pageSize then header part else image part) (0 + i)) 0 data.length = _
  rw [slice_shift]

def plainCodecs : Codecs where
  decodeGzip _ := none
  lz4Data _ := none
  decompressInto _ out := (none, out)
  length_into _ _ := rfl
  into_eq_some _ _ _ := iff_of_false nofun nofun
  take_into _ _ _ := nofun

theorem decompressed_of_zero {C : Codecs} {kernel : Bytes} (h : kernel.head? = some 0) :
    decompressed C kernel = some kernel := by
  cases kernel with
  | nil => cases h
  | cons b bs =>
    cases h
    rfl

theorem head?_slice {c : Content} {off n : Nat} (hn : 0 < n) : (slice c off n).head? = some (c off) := by
  rw [List.head?_eq_getElem?, getElem?_slice c off hn, Nat.add_zero]

theorem cstrBytesToStr_of_zero {d : Bytes} (h : d.head? = some 0) : cstrBytesToStr d = .ok [] := by
  cases d with
  | nil => cases h
  | cons b bs =>
    cases h
    unfold cstrBytesToStr
    rw [if_pos List.mem_cons_self]
    rfl

end Answering

/-! ## A library that knows three headers -/

section Library

variable {magic b b' : Bytes} {off version size n : Nat}

def u32At (b : Bytes) (off : Nat) : Nat := leValue ((b.drop off).take 4)

theorem u32At_slice (c : Content) (h : off + 4 ≤ n) : u32At (slice c 0 n) off = leValue (slice c off 4) := by
  unfold u32At
  rw [take_drop_slice c h]

def bootMagic : Bytes := text "ANDROID!"

def vendorBootMagic : Bytes := text "VNDRBOOT"

/-- A header of that size, with the magic at its start and the version at `off`. -/
def Starts (magic : Bytes) (off version size : Nat) (b : Bytes) : Prop :=
  size ≤ b.length ∧ b.take 8 = magic ∧ u32At b off = version

instance : Decidable (Starts magic off version size b) := instDecidableAnd

theorem u32At_congr (hoff : off + 4 ≤ n) (h : b'.take n = b.take n) : u32At b' off = u32At b off := by
  have hword : ∀ d : Bytes, u32At d off = u32At (d.take n) off := fun d => by
    rw [u32At, u32At, List.drop_take, List.take_take, Nat.min_eq_left (by omega)]
  rw [hword b', hword b, h]

theorem Starts.congr (hs : Starts magic off version size b) (hsize : 8 ≤ size) (hoff : off + 4 ≤ size)
    (hlen : size ≤ b'.length) (h : b'.take size = b.take size) : Starts magic off version size b' := by
  have hmagic := congrArg (List.take 8) h
  rw [List.take_take, List.take_take, Nat.min_eq_left hsize] at hmagic
  exact ⟨hlen, hmagic.trans hs.2.1, (u32At_congr hoff h).trans hs.2.2⟩

theorem starts_slice {c : Content} (hsize : size ≤ n) (hmagic : slice c 0 8 = magic) (h8 : 8 ≤ n) (hoff : off + 4 ≤ n)
    (hversion : leValue (slice c off 4) = version) : Starts magic off version size (slice c 0 n) :=
  ⟨by rwa [length_slice], by rw [take_slice c 0 h8, hmagic], by rw [u32At_slice c hoff, hversion]⟩

def sampleParse (b : Bytes) : Result BootImage :=
  if Starts bootMagic 40 0 1632 b then .ok .v0
  else if Starts bootMagic 40 3 1580 b then .ok .v3
  else err .badMagic

def sampleSize (img : BootImage) : Nat := if img.isV3OrV4 then 1580 else 1632

theorem sampleParse_eq_ok {img : BootImage} : sampleParse b = .ok img ↔
    img = .v0 ∧ Starts bootMagic 40 0 1632 b ∨ img = .v3 ∧ Starts bootMagic 40 3 1580 b := by
  unfold sampleParse
  split
  · next h0 =>
    have hnot : ¬ Starts bootMagic 40 3 1580 b := fun h3 => absurd (h0.2.2.symm.trans h3.2.2) (by decide)
    simp [h0, hnot, eq_comm]
  · next h0 =>
    split
    · next h3 => simp [h0, h3, eq_comm]
    · next h3 => simp [h0, h3]

theorem sampleParse_size {img : BootImage} (h : sampleParse b = .ok img) : sampleSize img ≤ b.length := by
  rcases sampleParse_eq_ok.1 h with ⟨rfl, hs⟩ | ⟨rfl, hs⟩
  · exact hs.1
  · exact hs.1

theorem sampleParse_congr {img : BootImage} (h : sampleParse b = .ok img) (hlen : sampleSize img ≤ b'.length)
    (htake : b'.take (sampleSize img) = b.take (sampleSize img)) : sampleParse b' = .ok img := by
  rw [sampleParse_eq_ok]
  rcases sampleParse_eq_ok.1 h with ⟨rfl, hs⟩ | ⟨rfl, hs⟩
  · exact .inl ⟨rfl, hs.congr (by decide) (by decide) hlen htake⟩
  · exact .inr ⟨rfl, hs.congr (by decide) (by decide) hlen htake⟩

@[reducible] def sampleBootimg : Bootimg where
  v0 := ⟨1632, fun b => ⟨u32At b 8, u32At b 16, u32At b 24, u32At b 36, (b.drop 64).take 512⟩⟩
  v3 := ⟨1580, fun b => ⟨u32At b 8, u32At b 12, (b.drop 44).take 1536⟩⟩
  vendorV3 := ⟨2112, fun b => ⟨u32At b 12, u32At b 24, (b.drop 28).take 2048, u32At b 2100⟩⟩
  parse := sampleParse
  parseVendor b := if Starts vendorBootMagic 8 3 2112 b then .ok .v3 else err .badMagic
  size := sampleSize
  vendorSize _ := 2112
  parse_size := sampleParse_size
  parse_congr := sampleParse_congr
  v0_le h := by rw [sampleSize, if_neg (by rw [h]; decide)]
  v3_le h := by rw [sampleSize, if_pos h]
  size_le img := by
    unfold sampleSize
    split <;> decide
  vendorSize_le _ := by decide
  vendorV3_le := by decide

theorem Layout.read_slice {α : Type} (l : Layout α) (c : Content) (hn : l.size ≤ n) :
    l.read (slice c 0 n) = l.decode (slice c 0 l.size) := by
  rw [Layout.read, take_slice c 0 hn]

end Library

attribute [local instance] sampleBootimg

section Headers

variable {n : Nat} (c : Content)

theorem ofBytes_v0 (hn : 1632 ≤ n) : BootImgHdrV0.ofBytes (slice c 0 n) =
    ⟨leValue (slice c 8 4), leValue (slice c 16 4), leValue (slice c 24 4), leValue (slice c 36 4),
      slice c 64 512⟩ := by
  refine (Layout.read_slice _ c hn).trans ?_
  show (⟨u32At (slice c 0 1632) 8, u32At (slice c 0 1632) 16, u32At (slice c 0 1632) 24, u32At (slice c 0 1632) 36,
    ((slice c 0 1632).drop 64).take 512⟩ : BootImgHdrV0) = _
  rw [u32At_slice c (by decide), u32At_slice c (by decide), u32At_slice c (by decide), u32At_slice c (by decide),
    take_drop_slice c (by decide)]

theorem ofBytes_v3 (hn : 1580 ≤ n) : BootImgHdrV3.ofBytes (slice c 0 n) =
    ⟨leValue (slice c 8 4), leValue (slice c 12 4), slice c 44 1536⟩ := by
  refine (Layout.read_slice _ c hn).trans ?_
  show (⟨u32At (slice c 0 1580) 8, u32At (slice c 0 1580) 12, ((slice c 0 1580).drop 44).take 1536⟩ : BootImgHdrV3) = _
  rw [u32At_slice c (by decide), u32At_slice c (by decide), take_drop_slice c (by decide)]

theorem ofBytes_vendorV3 (hn : 2112 ≤ n) : VendorBootImgHdrV3.ofBytes (slice c 0 n) =
    ⟨leValue (slice c 12 4), leValue (slice c 24 4), slice c 28 2048, leValue (slice c 2100 4)⟩ := by
  refine (Layout.read_slice _ c hn).trans ?_
  show (⟨u32At (slice c 0 2112) 12, u32At (slice c 0 2112) 24, ((slice c 0 2112).drop 28).take 2048,
    u32At (slice c 0 2112) 2100⟩ : VendorBootImgHdrV3) = _
  rw [u32At_slice c (by decide), u32At_slice c (by decide), u32At_slice c (by decide), take_drop_slice c (by decide)]

end Headers

/-! ## A boot image of version 3 -/

section BootV3

variable {kernelSize ramdiskSize n : Nat}

def bootV3 (kernelSize ramdiskSize : Nat) : Content :=
  store (store (store (store (fun _ => 0) 0 bootMagic) 8 (leBytes 4 kernelSize)) 12 (leBytes 4 ramdiskSize)) 40
    (leBytes 4 3)

theorem bootV3_zero {i : Nat} (hi : 44 ≤ i) : bootV3 kernelSize ramdiskSize i = 0 := by
  unfold bootV3
  rw [store_apply_of_not_mem _ (by rw [length_leBytes]; omega),
    store_apply_of_not_mem _ (by rw [length_leBytes]; omega),
    store_apply_of_not_mem _ (by rw [length_leBytes]; omega),
    store_apply_of_not_mem _ (by rw [show bootMagic.length = 8 from rfl]; omega)]

theorem bootV3_magic : slice (bootV3 kernelSize ramdiskSize) 0 8 = bootMagic := by
  unfold bootV3
  rw [slice_store_of_disjoint _ (by rw [length_leBytes]; omega),
    slice_store_of_disjoint _ (by rw [length_leBytes]; omega),
    slice_store_of_disjoint _ (by rw [length_leBytes]; omega)]
  exact slice_store _ 0 bootMagic

theorem bootV3_version : leValue (slice (bootV3 kernelSize ramdiskSize) 40 4) = 3 := by
  unfold bootV3
  have hslice := slice_store (store (store (store (fun _ => 0) 0 bootMagic) 8 (leBytes 4 kernelSize)) 12
    (leBytes 4 ramdiskSize)) 40 (leBytes 4 3)
  rw [length_leBytes] at hslice
  rw [hslice, leValue_leBytes (by decide)]

theorem parse_bootV3 (hn : 1580 ≤ n) : BootImage.parse (slice (bootV3 kernelSize ramdiskSize) 0 n) = .ok .v3 := by
  exact sampleParse_eq_ok.2 (.inr ⟨rfl, starts_slice hn bootV3_magic (by omega) (by omega) bootV3_version⟩)

theorem bootV3_header (hkernel : kernelSize < 2 ^ 32) (hramdisk : ramdiskSize < 2 ^ 32) (hn : 1580 ≤ n) :
    (BootImgHdrV3.ofBytes (slice (bootV3 kernelSize ramdiskSize) 0 n)).kernelSize = kernelSize ∧
      (BootImgHdrV3.ofBytes (slice (bootV3 kernelSize ramdiskSize) 0 n)).ramdiskSize = ramdiskSize := by
  rw [ofBytes_v3 _ hn]
  simp only
  unfold bootV3
  constructor
  · rw [slice_store_of_disjoint _ (by rw [length_leBytes]; omega),
      slice_store_of_disjoint _ (by rw [length_leBytes]; omega)]
    have hslice := slice_store (store (fun _ => 0) 0 bootMagic) 8 (leBytes 4 kernelSize)
    rw [length_leBytes] at hslice
    rw [hslice, leValue_leBytes (by omega)]
  · rw [slice_store_of_disjoint _ (by rw [length_leBytes]; omega)]
    have hslice :=
      slice_store (store (store (fun _ => 0) 0 bootMagic) 8 (leBytes 4 kernelSize)) 12 (leBytes 4 ramdiskSize)
    rw [length_leBytes] at hslice
    rw [hslice, leValue_leBytes (by omega)]

theorem bootV3_info (hkernel : kernelSize < 2 ^ 32) (hramdisk : ramdiskSize < 2 ^ 32) (hn : 1580 ≤ n) :
    ∃ info, BootImageV3Info.new (slice (bootV3 kernelSize ramdiskSize) 0 n) = .ok info ∧
      info.kernelRange = ⟨pageSize, inPages kernelSize pageSize⟩ ∧
      info.ramdiskRange.len = inPages ramdiskSize pageSize ∧
      info.imageSize = pageSize + inPages kernelSize pageSize + inPages ramdiskSize pageSize := by
  obtain ⟨hk, hr⟩ := bootV3_header hkernel hramdisk hn
  have hexists :
    ∃ info, BootImageV3Info.ofHeader .v3 (.ofBytes (slice (bootV3 kernelSize ramdiskSize) 0 n)) = .ok info :=
    BootImageV3Info.ofHeader_progress rfl (by rw [hk]; exact hkernel) (by rw [hr]; exact hramdisk) (by decide)
  obtain ⟨info, hinfo⟩ := hexists
  have hD := BootImageV3Info.describes_of_ofHeader hinfo
  refine ⟨info, Res.bind_eq_ok.2 ⟨_, parse_bootV3 hn, hinfo⟩, ?_, ?_, ?_⟩
  · rw [hD.kernel_eq]
    unfold BootImgHdrV3.kernelAt
    rw [hk]
  · rw [hD.ramdisk_eq]
    unfold BootImgHdrV3.ramdiskAt
    simp only [hr]
  · have hnone : inPages (BootImage.signatureSize .v3) pageSize = 0 := by decide
    rw [hD.imageSize_eq, hnone]
    unfold BootImgHdrV3.ramdiskAt BootImgHdrV3.kernelAt
    simp only [Extent.stop, hk, hr, Nat.add_zero]

end BootV3

/-! ## A vendor image without sections -/

section VendorV3

variable {n : Nat}

def vendorV3 : Content :=
  store (store (store (fun _ => 0) 0 vendorBootMagic) 8 (leBytes 4 3)) 12 (leBytes 4 pageSize)

theorem parse_vendorV3 (hn : 2112 ≤ n) : VendorImageHeader.parse (slice vendorV3 0 n) = .ok .v3 := by
  have hmagic : slice vendorV3 0 8 = vendorBootMagic := by decide
  have hversion : leValue (slice vendorV3 8 4) = 3 := by decide
  exact if_pos (starts_slice hn hmagic (by omega) (by omega) hversion)

theorem vendorV3_header (hn : 2112 ≤ n) : (VendorBootImgHdrV3.ofBytes (slice vendorV3 0 n)).pageSize = pageSize ∧
      (VendorBootImgHdrV3.ofBytes (slice vendorV3 0 n)).vendorRamdiskSize = 0 ∧
      (VendorBootImgHdrV3.ofBytes (slice vendorV3 0 n)).dtbSize = 0 := by
  have hpage : leValue (slice vendorV3 12 4) = pageSize := by decide
  have hramdisk : leValue (slice vendorV3 24 4) = 0 := by decide
  have hdtb : leValue (slice vendorV3 2100 4) = 0 := by decide
  rw [ofBytes_vendorV3 _ hn]
  exact ⟨hpage, hramdisk, hdtb⟩

theorem vendorV3_info (hn : 2112 ≤ n) :
    ∃ info, VendorBootImageInfo.new (slice vendorV3 0 n) = .ok info ∧ info.imageSize = pageSize ∧
      info.headerSize = pageSize := by
  obtain ⟨hp, hr, hd⟩ := vendorV3_header hn
  have hsmall : pageSize < 2 ^ 32 := by decide
  have hexists : ∃ info, VendorBootImageInfo.ofHeader .v3 (.ofBytes (slice vendorV3 0 n)) = .ok info :=
    VendorBootImageInfo.ofHeader_progress (by rw [hp]; decide) (by rw [hp]; exact hsmall) (by rw [hr]; decide)
      (by rw [hd]; decide) (by decide) (by decide)
  obtain ⟨info, hinfo⟩ := hexists
  have hD := VendorBootImageInfo.describes_of_ofHeader hinfo
  refine ⟨info, Res.bind_eq_ok.2 ⟨_, parse_vendorV3 hn, hinfo⟩, ?_, ?_⟩
  · rw [hD.imageSize_eq]
    unfold VendorBootImgHdrV3.bootconfigAt VendorBootImgHdrV3.dtbAt VendorBootImgHdrV3.ramdiskAt
    simp only [Extent.stop, hp, hr, hd]
    decide
  · rw [hD.header_eq, hp]
    decide

end VendorV3

/-! ## A boot image of version 0 -/

section BootV0

variable {n : Nat}

def bootV0 : Content :=
  store (store (store (fun _ => 0) 0 bootMagic) 8 (leBytes 4 1)) 36 (leBytes 4 pageSize)

theorem bootV0_zero {i : Nat} (hi : 40 ≤ i) : bootV0 i = 0 := by
  unfold bootV0
  rw [store_apply_of_not_mem _ (by rw [length_leBytes]; omega),
    store_apply_of_not_mem _ (by rw [length_leBytes]; omega),
    store_apply_of_not_mem _ (by rw [show bootMagic.length = 8 from rfl]; omega)]

theorem parse_bootV0 (hn : 1632 ≤ n) : BootImage.parse (slice bootV0 0 n) = .ok .v0 := by
  have hmagic : slice bootV0 0 8 = bootMagic := by decide
  have hversion : leValue (slice bootV0 40 4) = 0 := by decide
  exact sampleParse_eq_ok.2 (.inl ⟨rfl, starts_slice hn hmagic (by omega) (by omega) hversion⟩)

theorem bootV0_header (hn : 1632 ≤ n) :
    BootImgHdrV0.ofBytes (slice bootV0 0 n) = ⟨1, 0, 0, pageSize, slice bootV0 64 512⟩ := by
  have hkernel : leValue (slice bootV0 8 4) = 1 := by decide
  have hramdisk : leValue (slice bootV0 16 4) = 0 := by decide
  have hsecond : leValue (slice bootV0 24 4) = 0 := by decide
  have hpage : leValue (slice bootV0 36 4) = pageSize := by decide
  rw [ofBytes_v0 _ hn, hkernel, hramdisk, hsecond, hpage]

theorem ofHeader_bootV0 {cmdline : Bytes} {t : Text} (hcmdline : cstrBytesToStr cmdline = .ok t) :
    ∃ info, BootImageV2Info.ofHeader .v0 ⟨1, 0, 0, pageSize, cmdline⟩ = .ok info ∧ info.pageSize = pageSize ∧
      info.kernelRange = ⟨pageSize, pageSize⟩ ∧ info.imageSize = 2 * pageSize := by
  have hexists : ∃ info, BootImageV2Info.ofHeader .v0 ⟨1, 0, 0, pageSize, cmdline⟩ = .ok info := by
    apply BootImageV2Info.ofHeader_progress
    case hcmdline => exact hcmdline
    all_goals
      simp only
      decide
  obtain ⟨info, hinfo⟩ := hexists
  have hD := BootImageV2Info.describes_of_ofHeader hinfo
  refine ⟨info, hinfo, hD.pageSize_eq, ?_, ?_⟩
  · rw [hD.kernel_eq]
    unfold BootImgHdrV0.kernelAt
    simp only
    decide
  · rw [hD.imageSize_eq]
    unfold BootImgHdrV0.dtbAt BootImgHdrV0.recoveryDtboStop BootImgHdrV0.secondStop BootImgHdrV0.ramdiskAt
      BootImgHdrV0.kernelAt
    simp only
    decide

theorem bootV0_info : ∃ info : BootImageV2Info, (∀ n, 1632 ≤ n → BootImageV2Info.new (slice bootV0 0 n) = .ok info) ∧
      info.pageSize = pageSize ∧ info.kernelRange = ⟨pageSize, pageSize⟩ ∧ info.imageSize = 2 * pageSize := by
  have hcmdline : cstrBytesToStr (slice bootV0 64 512) = .ok [] := by
    apply cstrBytesToStr_of_zero
    rw [head?_slice (by decide), bootV0_zero (by decide)]
  obtain ⟨info, hinfo, hnumbers⟩ := ofHeader_bootV0 hcmdline
  refine ⟨info, ?_, hnumbers⟩
  intro n hn
  refine Res.bind_eq_ok.2 ⟨_, parse_bootV0 hn, ?_⟩
  rw [bootV0_header hn]
  exact hinfo

end BootV0

/-! ## Loads of these images -/

section Runs

variable {header image : Text → Content} {C : Codecs} {kernelSize ramdiskSize : Nat}

theorem bootReads_answering (part : Text) {info : BootImageV3Info} (himage : image part = bootV3 kernelSize ramdiskSize)
    (hsize : info.imageSize ≠ pageSize) (hkernel : 0 < info.kernelRange.len) :
    BootReads (answering header image) C part info info.kernelRange.len := by
  intro data hanswers hlen
  have hdata := answers_answering hanswers
  rw [hlen, if_neg hsize, himage] at hdata
  subst hdata
  have hle := info.kernel_le
  simp only [Extent.stop] at hle
  refine ⟨⟨[], ?_⟩, slice (bootV3 kernelSize ramdiskSize) info.kernelRange.start info.kernelRange.len, ?_, ?_⟩
  · rw [take_slice _ 0 info.page_le]
    rw [BootImageV3Info.cmdline, if_pos (by rw [length_slice]; decide), ofBytes_v3 _ (by decide)]
    apply cstrBytesToStr_of_zero
    rw [head?_slice (by decide), bootV3_zero (by decide)]
  · rw [take_drop_slice _ hle]
    apply decompressed_of_zero
    rw [head?_slice hkernel, info.kernel_start, bootV3_zero (by decide)]
  · rw [length_slice]

theorem vendorReads_answering (part : Text) (hheader : header part = vendorV3) (himage : image part = vendorV3) :
    ∃ info, VendorReads (answering header image) part info ∧ info.imageSize = pageSize := by
  obtain ⟨info, hinfo, hsize, hheaderSize⟩ := vendorV3_info (n := pageSize) (by decide)
  have hdata : ∀ data, Answers (answering header image) part 0 data → data = slice vendorV3 0 data.length := by
    intro data hanswers
    have heq := answers_answering hanswers
    rw [hheader, himage, ite_self] at heq
    exact heq
  refine ⟨info, ⟨?_, ?_⟩, hsize⟩
  · intro hdr hanswers hlen
    rw [hdata hdr hanswers, hlen]
    exact hinfo
  · intro data hanswers hlen
    refine ⟨[], ?_⟩
    rw [hdata data hanswers, hlen, hheaderSize, hsize, take_slice _ 0 (Nat.le_refl _)]
    rw [VendorBootImageInfo.cmdline, if_pos (by rw [length_slice]; decide), ofBytes_vendorV3 _ (by decide)]
    apply cstrBytesToStr_of_zero
    rw [head?_slice (by decide)]
    decide

def contents (boot : Content) : Text → Content := fun part => if part = text "boot_a" then boot else vendorV3

theorem contents_boot (boot : Content) : contents boot (text "boot" ++ text "_a") = boot := rfl

def buffer : Extent := ⟨2 ^ 22, 2 ^ 23⟩

def holding (boot : Content) : LoadState Unit where
  ops := ()
  mem i := boot (i - buffer.start)
  reads := []
  verified := []

theorem read_holding (boot : Content) (n : Nat) : (buffer.take n).read (holding boot).mem = slice boot 0 n := by
  unfold Extent.read slice holding
  simp [Extent.take]

theorem slotSuffix_zero : slotSuffix 0 = .ok (text "_a") := by decide

section

variable {slot : Nat} {additionalPartitions : Preloaded} {additional : Exec Error (Building Unit) Unit} {added : Bytes}
  {s : LoadState Unit}

theorem answering_loadV3 {kernelFirst ramdiskFirst : Nat} (hadd : BootConfigBuilder.Appends additional added)
    (hfits : BootConfigBuilder.Fits additional added) (hadded : added.length ≤ pageSize)
    (hpartitions : additionalPartitions.length + 3 ≤ maxNumPartition)
    (hkernel : 0 < kernelFirst) (hkernelMax : kernelFirst ≤ 2 ^ 16) (hramdisk : 0 < ramdiskFirst)
    (hramdiskMax : ramdiskFirst ≤ 2 ^ 16)
    (hpre : (buffer.take pageSize).read s.mem = slice (bootV3 kernelFirst ramdiskFirst) 0 pageSize)
    (hboot : image (text "boot_a") = bootV3 kernelSize ramdiskSize)
    (hvendorHeader : header (text "vendor_boot_a") = vendorV3)
      (hvendorImage : image (text "vendor_boot_a") = vendorV3) :
    Succeeds (loadVerifyV3AndV4 (answering header image) C 0 additionalPartitions additional buffer) s := by
  have hpage : pageSize = 4096 := rfl
  have hlen : buffer.len = 2 ^ 23 := rfl
  obtain ⟨info, hinfo, hkernelRange, hramdiskLen, hsize⟩ :=
    bootV3_info (n := pageSize) (show kernelFirst < 2 ^ 32 by omega) (show ramdiskFirst < 2 ^ 32 by omega) (by decide)
  obtain ⟨vendorInfo, hvendor, hvendorSize⟩ :=
    vendorReads_answering (text "vendor_boot" ++ text "_a") hvendorHeader hvendorImage
  have hkernelLen : info.kernelRange.len = inPages kernelFirst pageSize := by rw [hkernelRange]
  have hkernelLe := gap_le kernelFirst pageSize
  have hramdiskLe := gap_le ramdiskFirst pageSize
  have hdtb := vendorInfo.dtbRange_le
  have hconfig := vendorInfo.bootconfig_le
  unfold inPages at hsize hkernelLen hramdiskLen
  simp only [Extent.stop] at hdtb hconfig
  refine (obliging_answering header image).loadVerifyV3AndV4_progress (.inl rfl) slotSuffix_zero hadd hfits hpartitions
    ((BootImageV3Info.new_page (by rw [hlen, hpage]; decide) hpre).2 hinfo) (by omega)
    (bootReads_answering (text "boot" ++ text "_a") hboot (by omega) (by omega)) hvendor ?_ (by decide) (by decide)
  have horange : orangeText.length = 37 := by decide
  have htrailer : bootconfigTrailerSize = 20 := by decide
  have hkernelAlignment : kernelAlignment = 2 ^ 21 := rfl
  have hfdt : fdtAlignment = 8 := rfl
  unfold roomV3
  omega

theorem answering_loadV2 (hadd : BootConfigBuilder.Appends additional added)
    (hfits : BootConfigBuilder.Fits additional added) (hadded : added.length ≤ pageSize)
    (hpartitions : additionalPartitions.length < maxNumPartition)
    (hpre : (buffer.take pageSize).read s.mem = slice bootV0 0 pageSize) (hboot : image (text "boot_a") = bootV0) :
    Succeeds (loadVerifyV2AndLower (answering header image) C 0 additionalPartitions additional buffer) s := by
  have hpage : pageSize = 4096 := rfl
  have hlen : buffer.len = 2 ^ 23 := rfl
  obtain ⟨info, hinfo, hpageSize, hkernelRange, hsize⟩ := bootV0_info
  have hreads : BootReadsV2 (answering header image) C (text "boot" ++ text "_a") info pageSize := by
    intro data hanswers hdataLen
    have hdata := answers_answering hanswers
    rw [hdataLen, if_neg (by omega), show text "boot" ++ text "_a" = text "boot_a" from rfl, hboot] at hdata
    subst hdata
    rw [hsize, hpageSize, hkernelRange, take_slice _ 0 (by omega), take_drop_slice _ (by decide)]
    refine ⟨hinfo _ (by decide), slice bootV0 pageSize pageSize, ?_, by rw [length_slice]⟩
    apply decompressed_of_zero
    rw [head?_slice (by decide), bootV0_zero (by decide)]
  have hnew : BootImageV2Info.new (buffer.read s.mem) = .ok info :=
    (BootImageV2Info.new_page (by rw [hlen]; decide) hpre).2 (hinfo _ (by decide))
  refine (obliging_answering header image).loadVerifyV2AndLower_progress (.inl rfl) slotSuffix_zero hadd hfits
    hpartitions
    hnew hreads ?_ (by decide)
  have horange : orangeText.length = 37 := by decide
  have htrailer : bootconfigTrailerSize = 20 := by decide
  have hkernelAlignment : kernelAlignment = 2 ^ 21 := rfl
  have hfdt : fdtAlignment = 8 := rfl
  have hdtb := info.image_size_eq
  simp only [Extent.stop] at hdtb
  unfold roomV2
  omega

end

end Runs

end Gbl.Android
