import Gbl.Partitions.Io

/-!
# Sparse images (`libgbl`, `fastboot/sparse.rs`)

A sparse image is a header and a row of chunks, each with its own header: bytes to be stored, a word to be stored over
and over, or blocks to be left alone.
-/

namespace Gbl.Partitions.Sparse

open Lib Storage

/-! ## The format -/

def headerMagic : UInt32 := 0xED26FF3A
def chunkTypeRaw : UInt16 := 0xCAC1
def chunkTypeFill : UInt16 := 0xCAC2
def chunkTypeDontCare : UInt16 := 0xCAC3
def chunkTypeCrc32 : UInt16 := 0xCAC4
def sparseHeaderMajorVer : UInt16 := 1
def sparseHeaderMinorVer : UInt16 := 0

structure SparseHeader where
  magic : UInt32
  majorVersion : UInt16
  minorVersion : UInt16
  fileHdrSz : UInt16
  chunkHdrSz : UInt16
  blkSz : UInt32
  totalBlks : UInt32
  totalChunks : UInt32
  imageChecksum : UInt32
  deriving DecidableEq, Repr

namespace SparseHeader

def fields : SparseHeader ≃ UInt32 × UInt16 × UInt16 × UInt16 × UInt16 × UInt32 × UInt32 × UInt32 × UInt32 where
  toFun h := (h.magic, h.majorVersion, h.minorVersion, h.fileHdrSz, h.chunkHdrSz, h.blkSz, h.totalBlks,
    h.totalChunks, h.imageChecksum)
  invFun := fun (magic, major, minor, file, chunk, blk, blks, chunks, checksum) =>
    ⟨magic, major, minor, file, chunk, blk, blks, chunks, checksum⟩
  left_inv _ := rfl
  right_inv _ := rfl

open Codec in
def codec : Codec SparseHeader :=
  (u32.pair <| u16.pair <| u16.pair <| u16.pair <| u16.pair <| u32.pair <| u32.pair <| u32.pair u32).iso
    fields

theorem codec_width : codec.width = 28 := rfl

def dataSize (h : SparseHeader) : Nat := h.totalBlks.toNat * h.blkSz.toNat

end SparseHeader

structure ChunkHeader where
  chunkType : UInt16
  reserved1 : UInt16
  chunkSz : UInt32
  totalSz : UInt32
  deriving DecidableEq, Repr

namespace ChunkHeader

def fields : ChunkHeader ≃ UInt16 × UInt16 × UInt32 × UInt32 where
  toFun h := (h.chunkType, h.reserved1, h.chunkSz, h.totalSz)
  invFun := fun (type, reserved1, chunkSz, totalSz) => ⟨type, reserved1, chunkSz, totalSz⟩
  left_inv _ := rfl
  right_inv _ := rfl

open Codec in
def codec : Codec ChunkHeader := (u16.pair <| u16.pair <| u32.pair u32).iso fields

theorem codec_width : codec.width = 12 := rfl

end ChunkHeader

structure FillInfo where
  fillBlocks : UInt32
  fillValueOrSkipBlocks : UInt32
  deriving DecidableEq, Repr

namespace FillInfo

def fields : FillInfo ≃ UInt32 × UInt32 where
  toFun f := (f.fillBlocks, f.fillValueOrSkipBlocks)
  invFun := fun (blocks, value) => ⟨blocks, value⟩
  left_inv _ := rfl
  right_inv _ := rfl

def codec : Codec FillInfo := (Codec.u32.pair Codec.u32).iso fields

theorem codec_width : codec.width = 8 := rfl

def newFill (blocks value : UInt32) : FillInfo := ⟨blocks, value⟩

def newSkip (blocks : UInt32) : FillInfo := ⟨0, blocks⟩

def getBlocksAndValue (f : FillInfo) : UInt32 × Option UInt32 :=
  if f.fillBlocks = 0 then (f.fillValueOrSkipBlocks, none) else (f.fillBlocks, some f.fillValueOrSkipBlocks)

end FillInfo

/-! ## Checks -/

def errArithmeticOverflow : Error := .other (some "Arithmetic Overflow")

def errImageSize : Error := .other (some "Bad image. Invalid image size")

def u64Add (a b : Nat) : Result Nat := if a + b < 2 ^ 64 then .ok (a + b) else err errArithmeticOverflow

def u64Mul (a b : Nat) : Result Nat := if a * b < 2 ^ 64 then .ok (a * b) else err errArithmeticOverflow

def copyFrom {α : Type} (c : Codec α) (bytes : List UInt8) : Result α :=
  if c.width ≤ bytes.length then .ok (c.dec (bytes.take c.width)) else err errImageSize

def isSparseImage (sparseImg : List UInt8) : Result SparseHeader := do
  let header ← copyFrom SparseHeader.codec sparseImg
  if header.magic ≠ headerMagic then err (.other (some "Sparse magic mismatch"))
  else if header.majorVersion ≠ sparseHeaderMajorVer then err (.other (some "Sparse major version mismatch"))
  else if header.minorVersion ≠ sparseHeaderMinorVer then err (.other (some "Sparse minor version mismatch"))
  else pure header

/-! ## The first pass -/

abbrev Writer (σ : Type) := Nat → Exec Error (σ × Buf) Unit

section Write

variable {σ : Type} (w : Writer σ) (blkSz : UInt32)

def onSlice (i n : Nat) (m : Exec Error (σ × Buf) Unit) : Exec Error (σ × Buf) Unit :=
  Exec.zoom (fun s => (s.1, s.2.sub i n)) (fun s t => (t.1, s.2.patch i t.2.bytes)) m

def readChunk (img : List UInt8) (curr : Nat) : Result (ChunkHeader × FillInfo) :=
  if img.length < curr then panic
  else do
    let header ← copyFrom ChunkHeader.codec (img.drop curr)
    let payload := img.drop (curr + ChunkHeader.codec.width)
    let payloadSz ← u64Mul header.chunkSz.toNat blkSz.toNat
    if header.chunkType = chunkTypeRaw then
      if payloadSz ≤ payload.length then pure (header, .newSkip header.chunkSz) else err errImageSize
    else if header.chunkType = chunkTypeFill ∧ header.chunkSz ≠ 0 then
      if 4 ≤ payload.length then pure (header, .newFill header.chunkSz (Codec.u32.dec (payload.take 4)))
      else err errImageSize
    else if header.chunkType = chunkTypeDontCare ∨ header.chunkType = chunkTypeCrc32 then
      pure (header, .newSkip header.chunkSz)
    else err (.other (some "Invalid Chunk Type"))

structure Cursor where
  curr : Nat
  writeOffset : Nat
  fillOff : Nat
  deriving DecidableEq, Repr

def passOne : Nat → Cursor → Exec Error (σ × Buf) Cursor
  | 0, c => pure c
  | n + 1, c => do
    let s ← Exec.get
    let (header, fill) ← Exec.lift (readChunk blkSz s.2.bytes c.curr)
    let payloadSz := header.chunkSz.toNat * blkSz.toNat
    Exec.when (header.chunkType = chunkTypeRaw)
      (onSlice (c.curr + ChunkHeader.codec.width) payloadSz (w c.writeOffset))
    let writeOffset ← Exec.lift (u64Add c.writeOffset payloadSz)
    Exec.assert (c.fillOff + FillInfo.codec.width ≤ s.2.len)
    Exec.modify fun s => (s.1, s.2.patch c.fillOff (FillInfo.codec.enc fill))
    let fillOff ← Exec.lift (u64Add c.fillOff FillInfo.codec.width)
    let curr ← Exec.lift (u64Add c.curr header.totalSz.toNat)
    passOne n ⟨curr, writeOffset, fillOff⟩

/-! ## The second pass -/

structure FillBuffer where
  currVal : Option UInt32
  currSize : Nat
  deriving DecidableEq, Repr

def words (val : UInt32) (n : Nat) : List UInt8 := (List.replicate n (Codec.u32.enc val)).flatten

def FillBuffer.get (start : Nat) (val : UInt32) (size : Nat) (fb : FillBuffer) :
    Exec Error (σ × Buf) (FillBuffer × Nat) := do
  let s ← Exec.get
  let bufLen := s.2.len - start
  let size := min (bufLen - bufLen % 4) size
  let fb := if some val ≠ fb.currVal then ⟨some val, 0⟩ else fb
  let gap := max fb.currSize size - fb.currSize
  Exec.assert (fb.currSize + gap ≤ bufLen)
  -- `Ref::new_slice(to_fill).unwrap()`: whole words only
  Exec.assert (gap % 4 = 0)
  Exec.modify fun s => (s.1, s.2.patch (start + fb.currSize) (words val (gap / 4)))
  pure (⟨fb.currVal, fb.currSize + gap⟩, size)

def writeFill (start bufferLen stop : Nat) : Nat → Nat → Exec Error (σ × Buf) Unit
  | 0, _ => Exec.lift (.error .hang)
  | fuel + 1, writeOffset =>
    if writeOffset < stop then do
      let toWrite := min bufferLen (stop - writeOffset)
      onSlice start toWrite (w writeOffset)
      writeFill start bufferLen stop fuel (writeOffset + toWrite)
    else pure ()

def passTwo (start : Nat) : List FillInfo → FillBuffer → Nat → Exec Error (σ × Buf) Unit
  | [], _, _ => pure ()
  | ele :: rest, fb, writeOffset =>
    match ele.getBlocksAndValue with
    | (blks, none) => do
      let sz ← Exec.lift (u64Mul blks.toNat blkSz.toNat)
      let writeOffset ← Exec.lift (u64Add writeOffset sz)
      passTwo start rest fb writeOffset
    | (blks, some v) => do
      let sz ← Exec.lift (u64Mul blks.toNat blkSz.toNat)
      let (fb, bufferLen) ← fb.get start v sz
      let stop ← Exec.lift (u64Add writeOffset sz)
      writeFill w start bufferLen stop (sz + 1) writeOffset
      passTwo start rest fb stop

def writeSparseImage : Exec Error (σ × Buf) Nat := do
  let s ← Exec.get
  let header ← Exec.lift (isSparseImage s.2.bytes)
  let c ← passOne w header.blkSz header.totalChunks.toNat ⟨SparseHeader.codec.width, 0, 0⟩
  let s ← Exec.get
  Exec.assert (c.fillOff ≤ s.2.len)
  passTwo w header.blkSz c.fillOff
    (FillInfo.codec.decAll (c.fillOff / FillInfo.codec.width) s.2.bytes) ⟨none, 0⟩ 0
  pure c.writeOffset

end Write

/-! ## Writing to a partition -/

def diskWriter (base : Nat) : Writer Disk := fun off => do
  let offset ← Exec.lift ((off : SafeNum) + base).toU64
  Disk.write offset

end Gbl.Partitions.Sparse

namespace Gbl.Partitions

open Lib Storage

def PartitionIo.writeSparse (off : Nat) : Exec Error (PartitionIo × Buf) Unit := do
  let s ← Exec.get
  match Sparse.isSparseImage s.2.bytes with
  | .error _ => Exec.lift (err .invalidInput)
  | .ok header => do
    let base ← Exec.lift (s.1.checkRwRange off header.dataSize)
    PartitionIo.onDisk do
      let _ ← Sparse.writeSparseImage (Sparse.diskWriter base)
      pure ()

end Gbl.Partitions
