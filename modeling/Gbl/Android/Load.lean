import Gbl.Android.Decompress
import Gbl.Android.Images
import Gbl.Android.Vboot
import Gbl.Lib.Memory
import Gbl.Storage.Scratch

/-!
# Loading Android images in place (`libgbl/src/android_boot/load.rs`)

The images are read to the start of one buffer, the bootconfig is built behind them, and then kernel, device tree and
boot header go to the aligned tail while the rest moves down. Three functions of the source are cut at the points
where the images have been read and verified.
-/

namespace Gbl.Android

open Lib Lib.Exec BootParams
open Fastboot (Bytes Text text)
open BootConfigBuilder (add addWith writeFmt)

def kernelAlignment : Nat := 2 * 1024 * 1024

def fdtAlignment : Nat := 8

/-! ## Names -/

/-- `SlotSuffix::new`. -/
def slotSuffix (slot : Nat) : Result Text :=
  if slot + 0x61 ≤ 0x7a then .ok (text "_" ++ [UInt8.ofNat (slot + 0x61)])
  else err (.other (some "Invalid slot index"))

/-- Returns a slotted partition name. -/
def slottedPart (part : String) (slot : Nat) : Result Text := do
  let suffix ← slotSuffix slot
  pure (text part ++ suffix)

/-! ## Slices -/

/-- `split_at_mut_checked` with error conversion. -/
def split (buffer : Extent) (size : Nat) : Result (Extent × Extent) :=
  if size ≤ buffer.len then .ok (buffer.take size, buffer.drop size) else err (.bufferTooSmall (some size))

/-- `split_at_mut`. -/
def splitAtMut (buffer : Extent) (mid : Nat) : Result (Extent × Extent) :=
  if mid ≤ buffer.len then .ok (buffer.take mid, buffer.drop mid) else panic

/-- `&buffer[..n]`. -/
def indexTo (buffer : Extent) (n : Nat) : Result Extent :=
  if n ≤ buffer.len then .ok (buffer.take n) else panic

/-- `buffer.get(range).unwrap()`. -/
def getRange (buffer range : Extent) : Result Extent :=
  if range.stop ≤ buffer.len then .ok (buffer.sub range) else panic

/-- The relative offset of `buf` to `src`. -/
def sliceOffset (buf src : Extent) : Result Nat := subU64 buf.start src.start

/-- `offset_range`. -/
def offsetRange (range : Extent) (off : Nat) : Result Extent := do
  let start ← addU64 range.start off
  let _ ← addU64 range.stop off
  pure ⟨start, range.len⟩

/-- `aligned_subslice` of `libutils`. -/
def alignedSubslice (buffer : Extent) (align : Nat) : Result Extent := do
  let s ← Storage.alignedSubslice ⟨buffer.start, buffer.len⟩ align
  pure ⟨s.addr, s.len⟩

def alignedTailOffset (buffer : Extent) (size align : Nat) : Result Nat := do
  let off := SafeNum.ofNat buffer.len - SafeNum.ofNat size
  let n ← off.toU64
  (off - SafeNum.ofNat ((buffer.start + n) % align)).toU64

def splitAlignedTail (buffer : Extent) (size align : Nat) : Result (Extent × Extent) := do
  let off ← alignedTailOffset buffer size align
  split buffer off

/-- Splits a buffer into chunks of the given sizes. -/
def splitChunks (buf : Extent) : List Nat → Result (List Extent × Extent)
  | [] => .ok ([], buf)
  | size :: sizes => do
    let (chunk, remains) ← splitAtMut buf size
    let (chunks, remains) ← splitChunks remains sizes
    pure (chunk :: chunks, remains)

/-! ## The parts of a load -/

/-- Loaded image components. -/
structure LoadedImages where
  dtbo : Extent := ⟨0, 0⟩
  bootCmdline : Text := []
  vendorCmdline : Text := []
  dtb : Extent := ⟨0, 0⟩
  dtbPart : Extent := ⟨0, 0⟩
  kernel : Extent := ⟨0, 0⟩
  ramdisk : Extent := ⟨0, 0⟩
  unused : Extent := ⟨0, 0⟩
  deriving DecidableEq, Repr

structure V3Images where
  bootInfo : BootImageV3Info
  vendorInfo : VendorBootImageInfo
  initInfo : Option BootImageV3Info
  vendorBoot : Extent
  boot : Extent
  initBoot : Extent
  remains : Extent

structure LoadState (ω : Type) where
  ops : ω
  mem : Content
  reads : List (Text × Nat × Bytes)
  verified : Preloaded

abbrev Load (ω α : Type) := Exec IntegrationError (LoadState ω) α

section Model

variable {ω : Type} (P : GblOps ω) (C : Codecs)

/-- `?` on a `liberror` error. -/
def unified {σ α : Type} (m : Exec Error σ α) : Exec IntegrationError σ α := mapErr .unificationError m

/-- Code that works on the memory only. -/
def onMem {ε α : Type} (m : Exec ε Content α) : Exec ε (LoadState ω) α :=
  zoom LoadState.mem (fun s mem => { s with mem := mem }) m

def readFromPartitionSync (part : Text) (off : Nat) (out : Extent) : Exec Error (LoadState ω) Unit := fun s =>
  let r := P.readFromPartitionSync part off out.len s.ops
  let data := slice r.1.2 0 out.len
  (Res.ofExcept r.1.1,
    { s with ops := r.2, mem := store s.mem out.start data, reads := s.reads ++ [(part, off, data)] })

def partitionSize (part : Text) : Exec Error (LoadState ω) (Option Nat) := fun s =>
  (Res.ofExcept (P.partitionSize part s.ops).1, { s with ops := (P.partitionSize part s.ops).2 })

/-- Loads an entire partition, if it exists. -/
def loadEntirePart (part : Text) (load : Extent) : Exec Error (LoadState ω) (Extent × Extent) := do
  match ← partitionSize P part with
  | some sz => do
    let (out, remains) ← lift (split load sz)
    readFromPartitionSync P part 0 out
    pure (out, remains)
  | none => pure (load.take 0, load)

def relocateKernel (kernel : Bytes) (dst : Extent) : Exec Error Content (Extent × Extent × Nat) := do
  let decompressedSize ← focus dst (decompressKernel C kernel)
  let alignedTailOff ← lift (alignedTailOffset dst decompressedSize kernelAlignment)
  copyWithin dst ⟨0, decompressedSize⟩ alignedTailOff
  let (front, tail) ← lift (split dst alignedTailOff)
  pure (front, tail, decompressedSize)

/-! ### Bootconfig and verification -/

/-- The firmware's own bootconfig. -/
def fixupReader : Reader ω where
  run current := do
    let fixup ← P.fixupBootconfig current
    pure ((fixup.map List.length).getD 0)
  length_run := by
    intro current s
    rw [bind_snd_of_const fun _ _ => rfl]
    exact P.length_fixup current s

def newBuilder (remains : Extent) : Exec Error (LoadState ω) BootConfigBuilder := fun s =>
  (BootConfigBuilder.new (remains.read s.mem), s)

/-- The life of a builder, which has a part of the memory to itself. -/
def building {α : Type} (remains : Extent) (builder : BootConfigBuilder)
    (body : Exec IntegrationError (Building ω) α) : Load ω α := fun s =>
  let r := body (s.ops, builder)
  (r.1, { s with ops := r.2.1, mem := store s.mem remains.start r.2.2.buffer })

/-- Verification, the loader's parameters and those of the firmware. -/
def verifyAndFixup (slot : Nat) (toVerify : Preloaded) (additional : Exec Error (Building ω) Unit) :
    Exec IntegrationError (Building ω) Unit := do
  avbVerifySlot P slot toVerify
  unified additional
  unified (addWith (fixupReader P))

/-- `config_bytes().len()`. -/
def configLen : Exec Error (Building ω) Nat := do
  let s ← get
  let bytes ← lift s.2.configBytes
  pure bytes.length

def pushIfLoaded (partitions : Preloaded) (name : Text) (e : Extent) (mem : Content) : Result Preloaded :=
  if 0 < e.len then tryPushPreloaded partitions name (e.read mem) else .ok partitions

/-! ### Versions 0, 1 and 2 -/

def toVerifyV2 (boot : Bytes) (additional : Preloaded) : Result Preloaded := do
  let toVerify ← tryPushPreloaded [] (text "boot") boot
  tryExtendPreloaded toVerify additional

def verifyV2 (slot : Nat) (additionalPartitions : Preloaded) (additional : Exec Error (Building ω) Unit)
    (boot remains : Extent) : Load ω Nat := do
  let builder ← unified (newBuilder remains)
  let s ← get
  let toVerify ← unified (lift (toVerifyV2 (boot.read s.mem) additionalPartitions))
  modify fun s => { s with verified := toVerify }
  building remains builder do
    verifyAndFixup P slot toVerify additional
    unified configLen

def relocateV2 (info : BootImageV2Info) (bootEx remains : Extent) : Exec Error Content (Extent × Nat) := do
  let kernel ← (lift (getRange bootEx info.kernelRange) >>= readAt)
  let (remains, _, kernelSz) ← relocateKernel C kernel remains
  let (_, dtb) ← lift (splitAlignedTail remains info.dtbRange.len fdtAlignment)
  let dtbDst ← lift (indexTo dtb info.dtbRange.len)
  let dtbBytes ← (lift (getRange bootEx info.dtbRange) >>= readAt)
  cloneFromSlice dtbDst dtbBytes
  pure (dtb, kernelSz)

/-- The ramdisk follows the header, and the bootconfig the ramdisk. -/
def moveRamdiskV2 (info : BootImageV2Info) (bootEx : Extent) (bootSize : Nat) : Exec Error Content Unit := do
  copyWithin bootEx info.ramdiskRange info.kernelRange.start
  copyWithin bootEx ⟨bootSize, bootEx.len - bootSize⟩ (info.kernelRange.start + info.ramdiskRange.len)

def cutV2 [Bootimg] (info : BootImageV2Info) (load bootEx dtb : Extent) (bootconfigSize kernelSz : Nat) :
    Exec Error Content LoadedImages := do
  let ramdiskSz := info.ramdiskRange.len + bootconfigSize
  let dtbOff ← lift (sliceOffset dtb bootEx)
  let unusedSz ← lift (subU64 dtbOff info.pageSize >>= (subU64 · ramdiskSz))
  let dtbPadding ← lift (subU64 dtb.len info.dtbSz)
  match ← lift (splitChunks load [info.pageSize, ramdiskSz, unusedSz, info.dtbSz, dtbPadding, kernelSz]) with
  | ([hdr, ramdisk, unused, dtb, _, kernel], _) => do
    let hdrInfo ← (readAt hdr >>= fun bytes => lift (unwrap (BootImageV2Info.new bytes)))
    pure { bootCmdline := hdrInfo.cmdline, dtb, kernel, ramdisk, unused }
  | _ => lift panic

/-- All that is done after verification. -/
def arrangeV2 [Bootimg] (load : Extent) (bootSize bootconfigSize : Nat) : Exec Error Content LoadedImages := do
  let (bootEx, remains) ← lift (splitAtMut load (bootSize + bootconfigSize))
  let info ← (readAt bootEx >>= fun bytes => lift (unwrap (BootImageV2Info.new bytes)))
  let (dtb, kernelSz) ← relocateV2 C info bootEx remains
  moveRamdiskV2 info bootEx bootSize
  cutV2 info load bootEx dtb bootconfigSize kernelSz

def loadVerifyV2AndLower [Bootimg] (slot : Nat) (additionalPartitions : Preloaded)
    (additional : Exec Error (Building ω) Unit) (load : Extent) : Load ω LoadedImages := do
  let s ← get
  let info ← unified (lift (unwrap (BootImageV2Info.new (load.read s.mem))))
  let bootPart ← unified (lift (slottedPart "boot" slot))
  let (boot, remains) ← unified (lift (split load info.imageSize))
  unified (readFromPartitionSync P bootPart 0 boot)
  let bootconfigSize ← verifyV2 P slot additionalPartitions additional boot remains
  unified (onMem (arrangeV2 C load info.imageSize bootconfigSize))

/-! ### Versions 3 and 4 -/

/-- The init_boot image, unless the boot image has a ramdisk. -/
def loadInitBoot [Bootimg] (initBootPart : Text) (bootInfo : BootImageV3Info) (vendorInfo : VendorBootImageInfo)
    (vendorBoot boot remains : Extent) : Exec Error (LoadState ω) V3Images :=
  if 0 < bootInfo.ramdiskRange.len then
    pure { bootInfo, vendorInfo, initInfo := none, vendorBoot, boot, initBoot := remains.take 0, remains }
  else do
    let hdr ← lift (indexTo remains pageSize)
    readFromPartitionSync P initBootPart 0 hdr
    let s ← get
    let initInfo ← lift (BootImageV3Info.new (remains.read s.mem))
    let (initBoot, remains) ← lift (split remains initInfo.imageSize)
    readFromPartitionSync P initBootPart 0 initBoot
    pure { bootInfo, vendorInfo, initInfo := some initInfo, vendorBoot, boot, initBoot, remains }

def loadImagesV3 [Bootimg] (slot : Nat) (load : Extent) : Exec Error (LoadState ω) V3Images := do
  let bootPart ← lift (slottedPart "boot" slot)
  let vendorBootPart ← lift (slottedPart "vendor_boot" slot)
  let initBootPart ← lift (slottedPart "init_boot" slot)
  let s ← get
  let bootInfo ← lift (unwrap (BootImageV3Info.new (load.read s.mem)))
  let hdr ← lift (indexTo load pageSize)
  readFromPartitionSync P vendorBootPart 0 hdr
  let s ← get
  let vendorInfo ← lift (VendorBootImageInfo.new (hdr.read s.mem))
  let (vendorBoot, remains) ← lift (split load vendorInfo.imageSize)
  readFromPartitionSync P vendorBootPart 0 vendorBoot
  let (boot, remains) ← lift (split remains bootInfo.imageSize)
  readFromPartitionSync P bootPart 0 boot
  loadInitBoot P initBootPart bootInfo vendorInfo vendorBoot boot remains

def toVerifyV3 (images : V3Images) (mem : Content) (additional : Preloaded) : Result Preloaded := do
  let toVerify ← tryPushPreloaded [] (text "boot") (images.boot.read mem)
  let toVerify ← tryPushPreloaded toVerify (text "vendor_boot") (images.vendorBoot.read mem)
  let toVerify ← pushIfLoaded toVerify (text "init_boot") images.initBoot mem
  tryExtendPreloaded toVerify additional

def addVendorBootconfig (vendorBoot range : Extent) (mem : Content) : Exec Error (Building ω) Unit := do
  let e ← lift (getRange vendorBoot range)
  addWith (Reader.copy (e.read mem) (.err (.bufferTooSmall (some e.len))))

def verifyV3 (slot : Nat) (additionalPartitions : Preloaded) (additional : Exec Error (Building ω) Unit)
    (images : V3Images) : Load ω Nat := do
  let builder ← unified (newBuilder images.remains)
  let s ← get
  let toVerify ← unified (lift (toVerifyV3 images s.mem additionalPartitions))
  modify fun s => { s with verified := toVerify }
  building images.remains builder do
    verifyAndFixup P slot toVerify additional
    unified (addVendorBootconfig images.vendorBoot images.vendorInfo.bootconfigRange s.mem)
    unified configLen

def genericRamdiskRange (load : Extent) (images : V3Images) : Result Extent :=
  match images.initInfo with
  | some info => sliceOffset images.initBoot load >>= offsetRange info.ramdiskRange
  | none => sliceOffset images.boot load >>= offsetRange images.bootInfo.ramdiskRange

/-- The space that nothing takes up. -/
def unusedSizeV3 (load : Extent) (headerSz ramdiskSz bootHdrSz dtbSz dtbPad kernelBufLen : Nat) : Result Nat := do
  let n ← subU64 load.len headerSz
  let n ← subU64 n ramdiskSz
  let n ← subU64 n bootHdrSz
  let n ← subU64 n dtbSz
  let n ← subU64 n dtbPad
  subU64 n kernelBufLen

/-- What has been moved to the tail of the buffer, back to back. -/
structure TailV3 where
  dtb : Extent
  bootHdr : Extent
  kernelBuf : Extent
  kernelSz : Nat

/-- Kernel, boot header and dtb go to the tail. -/
def relocateV3 (images : V3Images) (remains : Extent) : Exec Error Content TailV3 := do
  let kernel ← (lift (getRange images.boot images.bootInfo.kernelRange) >>= readAt)
  let (remains, kernelBuf, kernelSz) ← relocateKernel C kernel remains
  let (remains, bootHdr) ← lift (splitAlignedTail remains pageSize 1)
  let hdrBytes ← (lift (indexTo images.boot pageSize) >>= readAt)
  cloneFromSlice bootHdr hdrBytes
  let dtb ← lift (getRange images.vendorBoot images.vendorInfo.dtbRange)
  let (_, dtbReloc) ← lift (splitAlignedTail remains dtb.len fdtAlignment)
  let dtbDst ← lift (indexTo dtbReloc dtb.len)
  let dtbBytes ← readAt dtb
  cloneFromSlice dtbDst dtbBytes
  pure { dtb := dtbReloc, bootHdr, kernelBuf, kernelSz }

def moveRamdiskV3 (load : Extent) (images : V3Images) (bootconfig : Extent) : Exec Error Content Nat := do
  let generic ← lift (genericRamdiskRange load images)
  let vendorRamdisk := images.vendorInfo.ramdiskRange
  let bootconfigRange ← lift (sliceOffset bootconfig load >>= offsetRange ⟨0, bootconfig.len⟩)
  copyWithin load generic vendorRamdisk.stop
  copyWithin load bootconfigRange (vendorRamdisk.stop + generic.len)
  pure (vendorRamdisk.len + generic.len + bootconfig.len)

def cutV3 [Bootimg] (load : Extent) (images : V3Images) (tail : TailV3) (ramdiskSz : Nat) :
    Exec Error Content LoadedImages := do
  let headerSz := images.vendorInfo.headerSize
  let dtbSz := images.vendorInfo.dtbSz
  let dtbPad ← lift (subU64 tail.dtb.len dtbSz)
  let unusedSz ← lift (unusedSizeV3 load headerSz ramdiskSz tail.bootHdr.len dtbSz dtbPad tail.kernelBuf.len)
  match ← lift (splitChunks load [headerSz, ramdiskSz, unusedSz, dtbSz, dtbPad, tail.bootHdr.len, tail.kernelSz]) with
  | ([vendorHdr, ramdisk, unused, dtb, _, bootHdr, kernel], _) => do
    let bootCmdline ← (readAt bootHdr >>= fun bytes => lift (BootImageV3Info.cmdline bytes))
    let vendorCmdline ← (readAt vendorHdr >>= fun bytes => lift (VendorBootImageInfo.cmdline bytes))
    pure { bootCmdline, vendorCmdline, dtb, kernel, ramdisk, unused }
  | _ => lift panic

/-- All that is done after verification. -/
def arrangeV3 [Bootimg] (load : Extent) (images : V3Images) (bootconfigSize : Nat) :
    Exec Error Content LoadedImages := do
  let (bootconfig, remains) ← lift (splitAtMut images.remains bootconfigSize)
  let tail ← relocateV3 C images remains
  let ramdiskSz ← moveRamdiskV3 load images bootconfig
  cutV3 load images tail ramdiskSz

def loadVerifyV3AndV4 [Bootimg] (slot : Nat) (additionalPartitions : Preloaded)
    (additional : Exec Error (Building ω) Unit) (load : Extent) : Load ω LoadedImages := do
  let images ← unified (loadImagesV3 P slot load)
  let bootconfigSize ← verifyV3 P slot additionalPartitions additional images
  unified (onMem (arrangeV3 C load images bootconfigSize))

/-! ### All versions -/

/-- The build number that goes into the bootconfig. -/
def buildNumberOf (env : Option Text) : Text :=
  match env with
  | none => text "eng.build"
  | some t => if t = [] then text "eng.build" else t

/-- The loader's own parameters. -/
def addAdditionalBootconfig (isRecovery : Bool) (suffix buildNumber : Text) : Exec Error (Building ω) Unit := do
  when (isRecovery = false) (add (text "androidboot.force_normal_boot=1\n"))
  writeFmt [text "androidboot.slot_suffix=", suffix, text "\n"]
  add (text "androidboot.gbl.version=0\n")
  writeFmt [text "androidboot.gbl.build_number=", buildNumber, text "\n"]

/-- Loads and verifies Android images of the given slot. -/
def androidLoadVerify [Bootimg] (buildNumber : Option Text) (slot : Nat) (isRecovery : Bool) (load : Extent) :
    Load ω LoadedImages := do
  let suffix ← unified (lift (slotSuffix slot))
  let dtboPart ← unified (lift (slottedPart "dtbo" slot))
  let (dtbo, remains) ← unified (loadEntirePart P dtboPart load)
  let s ← get
  let partitions ← unified (lift (pushIfLoaded [] (text "dtbo") dtbo s.mem))
  let remains ← unified (lift (alignedSubslice remains fdtAlignment))
  let dtbPart ← unified (lift (slottedPart "dtb" slot))
  let (dtb, remains) ← unified (loadEntirePart P dtbPart remains)
  let s ← get
  let partitions ← unified (lift (pushIfLoaded partitions (text "dtb") dtb s.mem))
  let bootPart ← unified (lift (slottedPart "boot" slot))
  let hdr ← unified (lift (indexTo remains pageSize))
  unified (readFromPartitionSync P bootPart 0 hdr)
  let s ← get
  let header ← unified (lift (BootImage.parse (remains.read s.mem)))
  let additional := addAdditionalBootconfig isRecovery suffix (buildNumberOf buildNumber)
  let images ←
    if header.isV3OrV4 then loadVerifyV3AndV4 P C slot partitions additional remains
    else loadVerifyV2AndLower P C slot partitions additional remains
  pure { images with dtbo := dtbo, dtbPart := dtb }

end Model

end Gbl.Android
