import Gbl.Storage.Basic

/-!
# Unaligned reads and writes (`libstorage`, `algorithm.rs`)

The functions of the source in its order and under its names.
-/

namespace Gbl.Storage

open Lib

structure Xfer where
  io : BlockIo
  /-- The caller's buffer: `out` of a read, `data` of a write. -/
  buf : Buf
  scratch : Buf

section Windows

variable {α : Type}

def onBuf (m : Exec Error (BlockIo × Buf) α) : Exec Error Xfer α :=
  Exec.zoom (fun s => (s.io, s.buf)) (fun s p => { s with io := p.1, buf := p.2 }) m

def onScratch (n : Nat) (m : Exec Error (BlockIo × Buf) α) : Exec Error Xfer α :=
  Exec.zoom (fun s => (s.io, s.scratch.sub 0 n))
    (fun s p => { s with io := p.1, scratch := s.scratch.patch 0 p.2.bytes }) m

def window (stop : Stop Error) (lo hi : Nat) (m : Exec Error Xfer α) : Exec Error Xfer α := do
  let s ← Exec.get
  Exec.lift (if lo ≤ hi ∧ hi ≤ s.buf.len then .ok () else .error stop)
  Exec.zoom (fun s => { s with buf := s.buf.sub lo (hi - lo) })
    (fun s t => { t with buf := s.buf.patch lo t.buf.bytes }) m

def getMut (lo hi : Nat) (m : Exec Error Xfer α) : Exec Error Xfer α :=
  window (.err (.bufferTooSmall none)) lo hi m

def index (lo hi : Nat) (m : Exec Error Xfer α) : Exec Error Xfer α := window .panic lo hi m

def withScratch (sl : Slice) (m : Exec Error Xfer α) : Exec Error Xfer α :=
  Exec.zoom (fun s => { s with scratch := s.scratch.sub (sl.addr - s.scratch.addr) sl.len })
    (fun s t => { t with scratch := s.scratch.patch (sl.addr - s.scratch.addr) t.scratch.bytes }) m

def withScratchAsBuf (sb sl : Slice) (m : Exec Error Xfer α) : Exec Error Xfer α :=
  Exec.zoom
    (fun s => ⟨s.io, s.scratch.sub (sb.addr - s.scratch.addr) sb.len,
      s.scratch.sub (sl.addr - s.scratch.addr) sl.len⟩)
    (fun s t => { s with
      io := t.io
      scratch := (s.scratch.patch (sb.addr - s.scratch.addr) t.buf.bytes).patch
        (sl.addr - s.scratch.addr) t.scratch.bytes }) m

def indexScratch (n : Nat) : Exec Error Xfer Unit := do
  let s ← Exec.get
  Exec.assert (n ≤ s.scratch.len)

def copyFromScratch (dst src n : Nat) : Exec Error Xfer Unit := do
  let s ← Exec.get
  Exec.assert (dst + n ≤ s.buf.len && src + n ≤ s.scratch.len)
  Exec.modify fun s => { s with buf := s.buf.patch dst ((s.scratch.bytes.drop src).take n) }

def copyToScratch (dst src n : Nat) : Exec Error Xfer Unit := do
  let s ← Exec.get
  Exec.assert (dst + n ≤ s.scratch.len && src + n ≤ s.buf.len)
  Exec.modify fun s => { s with scratch := s.scratch.patch dst ((s.buf.bytes.drop src).take n) }

def copyWithin (lo n dst : Nat) : Exec Error Xfer Unit := do
  let s ← Exec.get
  Exec.assert (lo + n ≤ s.buf.len && dst + n ≤ s.buf.len)
  Exec.modify fun s => { s with buf := s.buf.copyWithin lo n dst }

end Windows

/-! ## Reading -/

def readAlignedAll (offset : Nat) : Exec Error (BlockIo × Buf) Unit := do
  let p ← Exec.get
  let blkOffset ← Exec.lift (checkRange p.1.info offset p.2.toSlice)
  BlockIo.readBlocks blkOffset

def readAlignedOffsetAndBuffer (offset : Nat) : Exec Error Xfer Unit := do
  let s ← Exec.get
  let blockSize := s.io.info.blockSize
  Exec.lift (do debugAssert (← isAligned offset blockSize))
  Exec.lift (do debugAssert (← isBufferAligned s.buf.toSlice s.io.info.alignment))
  let alignedRead ← Exec.lift (SafeNum.roundDown s.buf.len blockSize).toU64
  Exec.when (0 < alignedRead) (getMut 0 alignedRead (onBuf (readAlignedAll offset)))
  let unaligned := s.buf.len - alignedRead
  if unaligned = 0 then pure () else do
    -- Read the unaligned part through the block scratch.
    indexScratch blockSize
    let alignedOffset ← Exec.lift ((offset : SafeNum) + alignedRead).toU64
    onScratch blockSize (readAlignedAll alignedOffset)
    copyFromScratch alignedRead 0 unaligned

def readAlignedBuffer (offset : Nat) : Exec Error Xfer Unit := do
  let s ← Exec.get
  let info := s.io.info
  Exec.lift (do debugAssert (← isBufferAligned s.buf.toSlice info.alignment))
  if ← Exec.lift (isAligned offset info.blockSize) then readAlignedOffsetAndBuffer offset else do
    let up ← Exec.lift (SafeNum.roundUp offset info.blockSize).toU64
    let stop ← Exec.lift ((offset : SafeNum) + s.buf.len).toU64
    let alignedStart := min up stop
    let relative ← Exec.lift ((alignedStart : SafeNum) - offset).toU64
    Exec.when (relative < s.buf.len) do
      if ← Exec.lift (isBufferAligned (s.buf.sub relative (s.buf.len - relative)).toSlice
          info.alignment) then
        -- The new output address is aligned: read directly.
        getMut relative s.buf.len (readAlignedOffsetAndBuffer alignedStart)
      else do
        -- Read to the front of the (aligned) buffer and move to the correct position.
        let readLen ← Exec.lift ((s.buf.len : SafeNum) - relative).toU64
        getMut 0 readLen (readAlignedOffsetAndBuffer alignedStart)
        copyWithin 0 readLen relative
    indexScratch info.blockSize
    let roundDownOffset ← Exec.lift (SafeNum.roundDown offset info.blockSize).toU64
    onScratch info.blockSize (readAlignedAll roundDownOffset)
    let offsetRelative ← Exec.lift ((offset : SafeNum) - roundDownOffset).toU64
    copyFromScratch 0 offsetRelative relative

def splitScratch (info : BlockInfo) (scratch : Slice) : Result (Slice × Slice) := do
  let aligned ← alignedSubslice scratch info.alignment
  let mid ← ((info.alignment : SafeNum) - 1).toU64
  -- `split_at_mut`
  if mid ≤ aligned.len then do
    let blockAlignment ← alignedSubslice ⟨aligned.addr + mid, aligned.len - mid⟩ info.alignment
    if info.blockScratch ≤ blockAlignment.len then
      pure (⟨aligned.addr, mid⟩, ⟨blockAlignment.addr, info.blockScratch⟩)
    else panic
  else panic

def readAsync (offset : Nat) : Exec Error Xfer Unit := do
  let s ← Exec.get
  let info := s.io.info
  let parts ← Exec.lift (splitScratch info s.scratch.toSlice)
  if ← Exec.lift (isBufferAligned s.buf.toSlice info.alignment) then
    withScratch parts.2 (readAlignedBuffer offset)
  else do
    let addr : SafeNum := s.buf.addr
    let gap ← Exec.lift (addr.roundUp info.alignment - addr).toU64
    let unalignedRead := min gap s.buf.len
    -- `&mut buffer_alignment_scratch[..unaligned_read]`
    Exec.assert (unalignedRead ≤ parts.1.len)
    let unalignedOut : Slice := ⟨parts.1.addr, unalignedRead⟩
    withScratchAsBuf unalignedOut parts.2 (readAlignedBuffer offset)
    copyFromScratch 0 (parts.1.addr - s.scratch.addr) unalignedRead
    if unalignedRead = s.buf.len then pure () else do
      let rest ← Exec.lift ((offset : SafeNum) + unalignedRead).toU64
      withScratch parts.2 (getMut unalignedRead s.buf.len (readAlignedBuffer rest))

/-! ## Writing -/

def writeAlignedAll (offset : Nat) : Exec Error (BlockIo × Buf) Unit := do
  let p ← Exec.get
  let blkOffset ← Exec.lift (checkRange p.1.info offset p.2.toSlice)
  BlockIo.writeBlocks blkOffset

def writeAlignedOffsetAndBuffer (offset : Nat) : Exec Error Xfer Unit := do
  let s ← Exec.get
  let blockSize := s.io.info.blockSize
  Exec.lift (do debugAssert (← isAligned offset blockSize))
  Exec.lift (do debugAssert (← isBufferAligned s.buf.toSlice s.io.info.alignment))
  let alignedWrite ← Exec.lift (SafeNum.roundDown s.buf.len blockSize).toU64
  Exec.when (0 < alignedWrite) (index 0 alignedWrite (onBuf (writeAlignedAll offset)))
  let unaligned := s.buf.len - alignedWrite
  if unaligned = 0 then pure () else do
    -- Read-modify-write for the unaligned part.
    let unalignedStart ← Exec.lift ((offset : SafeNum) + alignedWrite).toU64
    indexScratch blockSize
    onScratch blockSize (readAlignedAll unalignedStart)
    copyToScratch 0 alignedWrite unaligned
    onScratch blockSize (writeAlignedAll unalignedStart)

def rotateLeft (sz : Nat) : Exec Error Xfer Unit := do
  let s ← Exec.get
  copyToScratch 0 0 sz
  copyWithin sz (s.buf.len - sz) 0
  Exec.assert (sz ≤ s.buf.len)
  copyFromScratch (s.buf.len - sz) 0 sz

def rotateRight (sz : Nat) : Exec Error Xfer Unit := do
  let s ← Exec.get
  Exec.assert (sz ≤ s.buf.len)
  copyToScratch 0 (s.buf.len - sz) sz
  copyWithin 0 (s.buf.len - sz) sz
  copyFromScratch 0 0 sz

def writeAlignedBuffer (offset : Nat) : Exec Error Xfer Unit := do
  let s ← Exec.get
  let info := s.io.info
  Exec.lift (do debugAssert (← isBufferAligned s.buf.toSlice info.alignment))
  if ← Exec.lift (isAligned offset info.blockSize) then writeAlignedOffsetAndBuffer offset else do
    let up ← Exec.lift (SafeNum.roundUp offset info.blockSize).toU64
    let stop ← Exec.lift ((offset : SafeNum) + s.buf.len).toU64
    let alignedStart := min up stop
    let relative ← Exec.lift ((alignedStart : SafeNum) - offset).toU64
    Exec.when (relative < s.buf.len) do
      if ← Exec.lift (isBufferAligned (s.buf.sub relative (s.buf.len - relative)).toSlice
          info.alignment) then
        -- The new address is aligned: write directly.
        index relative s.buf.len (writeAlignedOffsetAndBuffer alignedStart)
      else do
        let writeLen ← Exec.lift ((s.buf.len : SafeNum) - relative).toU64
        -- Swap the offset-aligned part to the beginning of the (aligned) buffer, and back again
        -- before the result is looked at.
        rotateLeft relative
        let res ← Exec.attempt (index 0 writeLen (writeAlignedOffsetAndBuffer alignedStart))
        rotateRight relative
        Exec.lift (.ofExcept res)
    -- Read-modify-write for the unaligned part.
    indexScratch info.blockSize
    let roundDownOffset ← Exec.lift (SafeNum.roundDown offset info.blockSize).toU64
    onScratch info.blockSize (readAlignedAll roundDownOffset)
    let offsetRelative ← Exec.lift ((offset : SafeNum) - roundDownOffset).toU64
    copyToScratch offsetRelative 0 relative
    onScratch info.blockSize (writeAlignedAll roundDownOffset)

def writeAsync (offset : Nat) : Exec Error Xfer Unit := do
  let s ← Exec.get
  let info := s.io.info
  let parts ← Exec.lift (splitScratch info s.scratch.toSlice)
  if ← Exec.lift (isBufferAligned s.buf.toSlice info.alignment) then
    withScratch parts.2 (writeAlignedBuffer offset)
  else do
    let addr : SafeNum := s.buf.addr
    let gap ← Exec.lift (addr.roundUp info.alignment - addr).toU64
    let unalignedWrite := min gap s.buf.len
    -- `&mut buffer_alignment_scratch[..unaligned_write]`
    Exec.assert (unalignedWrite ≤ parts.1.len)
    let unalignedData : Slice := ⟨parts.1.addr, unalignedWrite⟩
    copyToScratch (parts.1.addr - s.scratch.addr) 0 unalignedWrite
    withScratchAsBuf unalignedData parts.2 (writeAlignedBuffer offset)
    if unalignedWrite = s.buf.len then pure () else do
      let rest ← Exec.lift ((offset : SafeNum) + unalignedWrite).toU64
      withScratch parts.2 (index unalignedWrite s.buf.len (writeAlignedBuffer rest))

/-! ## `Disk` -/

namespace Disk

def transfer (m : Exec Error Xfer Unit) : Exec Error (Disk × Buf) Unit :=
  Exec.zoom (fun p => ⟨p.1.io, p.2, p.1.scratch⟩) (fun _ t => (⟨t.io, t.scratch⟩, t.buf)) m

def read (offset : Nat) : Exec Error (Disk × Buf) Unit := transfer (readAsync offset)

def write (offset : Nat) : Exec Error (Disk × Buf) Unit := transfer (writeAsync offset)

end Disk

end Gbl.Storage
