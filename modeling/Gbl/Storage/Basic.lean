import Gbl.SafeMath
import Gbl.Lib.Bytes

/-!
# Block devices, buffers and scratch memory (`libstorage`, `lib.rs`)

Addresses matter, so a buffer (`Buf`) is its start address with its bytes, and a `Slice` an address with a length. A
device (`BlockIo`) has a script of faults: a failed read leaves anything in the buffer, a failed write leaves each
byte as it was or as it was meant to be. The model is of a build with debug assertions and overflow checks.
-/

namespace Gbl.Storage

open Lib

@[ext] structure BlockInfo where
  blockSize : Nat
  numBlocks : Nat
  /-- The alignment the device requires of I/O buffers; 1 for none. -/
  alignment : Nat
  blockSize_lt : blockSize < 2 ^ 64 := by decide
  numBlocks_lt : numBlocks < 2 ^ 64 := by decide
  alignment_lt : alignment < 2 ^ 64 := by decide

namespace BlockInfo

instance : DecidableEq BlockInfo := fun _ _ => decidable_of_iff _ BlockInfo.ext_iff.symm

theorem one_lt : 1 < 2 ^ 64 := by decide

theorem two_lt : 2 < 2 ^ 64 := by decide

theorem four_lt : 4 < 2 ^ 64 := by decide

def total (info : BlockInfo) : Nat := info.blockSize * info.numBlocks

def blockScratch (info : BlockInfo) : Nat :=
  match info.blockSize with
  | 1 => 0
  | v => v

def totalSize (info : BlockInfo) : Result Nat :=
  ((info.blockSize : SafeNum) * info.numBlocks).toU64

end BlockInfo

/-! ## Memory -/

structure Slice where
  addr : Nat
  len : Nat
  deriving DecidableEq, Repr

structure Buf where
  addr : Nat
  bytes : List UInt8
  deriving DecidableEq, Repr

namespace Buf

def len (b : Buf) : Nat := b.bytes.length

def toSlice (b : Buf) : Slice := ⟨b.addr, b.len⟩

def sub (b : Buf) (i n : Nat) : Buf := ⟨b.addr + i, (b.bytes.drop i).take n⟩

def patch (b : Buf) (i : Nat) (d : List UInt8) : Buf := ⟨b.addr, splice b.bytes i d⟩

def copyWithin (b : Buf) (lo n dst : Nat) : Buf := b.patch dst ((b.bytes.drop lo).take n)

@[simp] theorem toSlice_addr (b : Buf) : b.toSlice.addr = b.addr := rfl
@[simp] theorem toSlice_len (b : Buf) : b.toSlice.len = b.len := rfl
@[simp] theorem sub_addr (b : Buf) (i n : Nat) : (b.sub i n).addr = b.addr + i := rfl

theorem sub_len (b : Buf) {i n : Nat} (h : i + n ≤ b.len) : (b.sub i n).len = n := by
  simp only [sub, len, List.length_take, List.length_drop] at h ⊢
  omega

theorem patch_len (b : Buf) {i : Nat} {d : List UInt8} (h : i + d.length ≤ b.len) :
    (b.patch i d).len = b.len := length_splice h

end Buf

/-! ## Devices -/

structure IoFault where
  error : Error
  /-- What a failed read leaves at position `i` of the buffer. -/
  garbage : Nat → UInt8
  /-- Whether a failed write did store byte `i` of its data. -/
  stored : Nat → Bool

inductive Access where
  | read (blkOffset addr len : Nat)
  | write (blkOffset addr len : Nat)
  deriving DecidableEq, Repr

structure BlockIo where
  info : BlockInfo
  content : Content
  /-- What happens at the `n`-th block operation: nothing special, or a fault. -/
  faults : Nat → Option IoFault
  /-- The operations so far. -/
  log : List Access

namespace BlockIo

def FaultFree (io : BlockIo) : Prop := ∀ n, io.faults n = none

def readBlocks (blkOffset : Nat) : Exec Error (BlockIo × Buf) Unit := fun (io, out) =>
  let io' := { io with log := io.log ++ [.read blkOffset out.addr out.len] }
  match io.faults io.log.length with
  | none => (.ok (), io', ⟨out.addr, slice io.content (blkOffset * io.info.blockSize) out.len⟩)
  | some f => (err f.error, io', ⟨out.addr, slice f.garbage 0 out.len⟩)

def writeBlocks (blkOffset : Nat) : Exec Error (BlockIo × Buf) Unit := fun (io, data) =>
  let log := io.log ++ [.write blkOffset data.addr data.len]
  let pos := blkOffset * io.info.blockSize
  match io.faults io.log.length with
  | none => (.ok (), { io with content := store io.content pos data.bytes, log }, data)
  | some f => (err f.error, { io with content := tear io.content pos data.bytes f.stored, log }, data)

end BlockIo

/-! ## Alignment and range checks -/

def isAligned (value alignment : SafeNum) : Result Bool := do
  let rem ← (value % alignment).toU64
  pure (rem == 0)

def isBufferAligned (buffer : Slice) (alignment : Nat) : Result Bool :=
  isAligned buffer.addr alignment

def debugAssert (c : Bool) : Result Unit := if c then .ok () else panic

def checkRange (info : BlockInfo) (offset : Nat) (buffer : Slice) : Result Nat := do
  debugAssert (← isAligned offset info.blockSize)
  debugAssert (← isAligned buffer.len info.blockSize)
  debugAssert (← isBufferAligned buffer info.alignment)
  let blkOffset := (offset : SafeNum) / info.blockSize
  let blkCount := (buffer.len : SafeNum) / info.blockSize
  let endBlk ← (blkOffset + blkCount).toU64
  if endBlk ≤ info.numBlocks then blkOffset.toU64 else err (.badIndex endBlk)

def alignedSubslice (bytes : Slice) (alignment : Nat) : Result Slice := do
  let addr : SafeNum := bytes.addr
  let alignedOffset ← (addr.roundUp alignment - addr).toU64
  if alignedOffset ≤ bytes.len then
    pure ⟨bytes.addr + alignedOffset, bytes.len - alignedOffset⟩
  else err (.bufferTooSmall (some alignedOffset))

def scratchSize (info : BlockInfo) : Result Nat :=
  (((info.alignment : SafeNum) - 1) * 2 + info.blockScratch).toU64

structure Disk where
  io : BlockIo
  scratch : Buf

def Disk.new (io : BlockIo) (scratch : Buf) : Result Disk := do
  let sz ← scratchSize io.info
  if scratch.len < sz then err (.bufferTooSmall (some sz)) else pure ⟨io, scratch⟩

end Gbl.Storage
