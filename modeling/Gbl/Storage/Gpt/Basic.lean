import Gbl.Storage.Gpt.Check
import Gbl.Storage.Disk

/-!
# Loading, verifying and syncing a GPT (`libstorage`, `gpt.rs`)

A `Gpt` is a caller's buffer and nothing else: a flag, two headers and two arrays of entries laid out one after the
other.
-/

namespace Gbl.Storage

open Lib

/-! ## Partitions -/

structure Partition where
  entry : GptEntry
  blockSize : Nat
  decodedName : Option String
  deriving DecidableEq

namespace Partition

def new (entry : GptEntry) (blockSize : Nat) : Partition :=
  ⟨entry, blockSize, match entry.nameToStr 32 with
    | .ok s => some s
    | .error _ => none⟩

def size (p : Partition) : Result Nat := do
  let blocks ← p.entry.blocks
  ((blocks : SafeNum) * p.blockSize).toU64

def absoluteRange (p : Partition) : Result (Nat × Nat) := do
  let start ← ((p.entry.first.toNat : SafeNum) * p.blockSize).toU64
  let stop ← (((p.entry.last.toNat : SafeNum) + 1) * p.blockSize).toU64
  pure (start, stop)

def checkRange (p : Partition) (off size : Nat) : Result Nat := do
  let stop ← ((off : SafeNum) + size).toU64
  let limit ← p.size
  if stop > limit then err (.badIndex stop) else do
    let range ← p.absoluteRange
    ((off : SafeNum) + range.1).toU64

end Partition

structure PartitionIterator where
  entries : List GptEntry
  blockSize : Nat
  idx : Nat

namespace PartitionIterator

def next (it : PartitionIterator) : Option (Partition × PartitionIterator) :=
  match it.entries[it.idx]? with
  | some e =>
    if e.isNull then none else some (Partition.new e it.blockSize, { it with idx := it.idx + 1 })
  | none => none

def collect : Nat → PartitionIterator → List Partition
  | 0, _ => []
  | n + 1, it =>
    match it.next with
    | some (p, it') => p :: collect n it'
    | none => []

end PartitionIterator

/-! ## Results of syncing -/

inductive GptSyncResult where
  /-- Both primary and secondary GPT are valid. -/
  | bothValid
  /-- Primary GPT is invalid and restored. -/
  | primaryRestored (e : Error)
  /-- Secondary GPT is invalid and restored. -/
  | secondaryRestored (e : Error)
  /-- Neither primary or secondary GPT is valid. -/
  | noValidGpt (primary secondary : Error)
  deriving DecidableEq, Repr

def GptSyncResult.res : GptSyncResult → Result Unit
  | .noValidGpt primary _ => err primary
  | _ => .ok ()

/-! ## The load buffer -/

def gptLoadBufferSize : Nat := 8 + gptHeaderSize + gptHeaderSize

def gptBufferSize (entries : Nat) : Result Nat :=
  if entries > gptMaxNumEntries then err .invalidInput
  else .ok (gptLoadBufferSize + entries * gptEntrySize * 2)

structure Gpt where
  /-- The address of the buffer. -/
  addr : Nat
  /-- The block size, which is also the flag that a valid GPT is loaded. -/
  blockSize : Option Nat
  primaryHeader : GptHeader
  secondaryHeader : GptHeader
  primaryEntries : List GptEntry
  secondaryEntries : List GptEntry
  /-- The number of entries there is room for. -/
  capacity : Nat
  capacity_le : capacity ≤ gptMaxNumEntries
  length_primary : primaryEntries.length = capacity
  length_secondary : secondaryEntries.length = capacity
  /-- The address behind an allocation is an address. -/
  inMemory : addr + (gptLoadBufferSize + 2 * (capacity * gptEntrySize)) < 2 ^ 64

namespace Gpt

def new (buffer : Buf) (hmem : buffer.addr + buffer.len < 2 ^ 64) : Result Gpt :=
  if hlen : buffer.len < gptLoadBufferSize then
    err (.bufferTooSmall (some gptLoadBufferSize))
  else
    let n := min gptMaxNumEntries ((buffer.len - gptLoadBufferSize) / 2 / gptEntrySize)
    .ok {
      addr := buffer.addr
      blockSize := none
      primaryHeader := GptHeader.codec.dec ((buffer.bytes.drop 8).take gptHeaderSize)
      secondaryHeader :=
        GptHeader.codec.dec ((buffer.bytes.drop (8 + gptHeaderSize)).take gptHeaderSize)
      primaryEntries := GptEntry.codec.decAll n (buffer.bytes.drop gptLoadBufferSize)
      secondaryEntries :=
        GptEntry.codec.decAll n (buffer.bytes.drop (gptLoadBufferSize + n * gptEntrySize))
      capacity := n
      capacity_le := Nat.min_le_left _ _
      length_primary := Codec.length_decAll _ _ _
      length_secondary := Codec.length_decAll _ _ _
      inMemory := by
        have hn : n ≤ (buffer.len - gptLoadBufferSize) / 2 / gptEntrySize := Nat.min_le_right _ _
        have hdiv := Nat.div_mul_le_self ((buffer.len - gptLoadBufferSize) / 2) gptEntrySize
        have hmul := Nat.mul_le_mul_right gptEntrySize hn
        omega }

def header (g : Gpt) : HeaderType → GptHeader
  | .primary => g.primaryHeader
  | .secondary => g.secondaryHeader

def table (g : Gpt) : HeaderType → List GptEntry
  | .primary => g.primaryEntries
  | .secondary => g.secondaryEntries

theorem length_table (g : Gpt) (t : HeaderType) : (g.table t).length = g.capacity := by
  cases t with
  | primary => exact g.length_primary
  | secondary => exact g.length_secondary

def setHeader (g : Gpt) (h : GptHeader) : HeaderType → Gpt
  | .primary => { g with primaryHeader := h }
  | .secondary => { g with secondaryHeader := h }

def setTable (g : Gpt) (bytes : List UInt8) : HeaderType → Gpt
  | .primary => { g with
      primaryEntries := GptEntry.codec.decAll g.capacity bytes
      length_primary := Codec.length_decAll _ _ _ }
  | .secondary => { g with
      secondaryEntries := GptEntry.codec.decAll g.capacity bytes
      length_secondary := Codec.length_decAll _ _ _ }

def headerBuf (g : Gpt) (t : HeaderType) : Buf :=
  ⟨match t with
    | .primary => g.addr + 8
    | .secondary => g.addr + 8 + gptHeaderSize, GptHeader.codec.enc (g.header t)⟩

def tableBuf (g : Gpt) (t : HeaderType) : Buf :=
  ⟨match t with
    | .primary => g.addr + gptLoadBufferSize
    | .secondary => g.addr + gptLoadBufferSize + g.capacity * gptEntrySize,
    GptEntry.codec.encAll (g.table t)⟩

def onHeader (t : HeaderType) (m : Exec Error (Disk × Buf) Unit) : Exec Error (Disk × Gpt) Unit :=
  Exec.zoom (fun p => (p.1, p.2.headerBuf t))
    (fun p q => (q.1, p.2.setHeader (GptHeader.codec.dec q.2.bytes) t)) m

def onTable (t : HeaderType) (len : Nat) (m : Exec Error (Disk × Buf) Unit) :
    Exec Error (Disk × Gpt) Unit :=
  Exec.zoom (fun p => (p.1, (p.2.tableBuf t).sub 0 len))
    (fun p q => (q.1, p.2.setTable (splice (p.2.tableBuf t).bytes 0 q.2.bytes) t)) m

/-! ## Accessors -/

def checkValid (g : Gpt) : Result Nat :=
  match g.blockSize with
  | some b => .ok b
  | none => err .invalidState

def partitionIter (g : Gpt) : Result PartitionIterator := do
  let blockSize ← g.checkValid
  pure ⟨g.primaryEntries, blockSize, 0⟩

def entries (g : Gpt) : Result (List GptEntry) := do
  let _ ← g.checkValid
  pure (partitions g.primaryEntries)

def numPartitions (g : Gpt) : Result Nat := do
  let entries ← g.entries
  pure entries.length

def getPartition (g : Gpt) (idx : Nat) : Result Partition := do
  let blockSize ← g.checkValid
  let entries ← g.entries
  match entries[idx]? with
  | some e => pure (Partition.new e blockSize)
  | none => err (.badIndex idx)

def findIn (part : String) (blockSize : Nat) : List GptEntry → Result Partition
  | [] => err .notFound
  | e :: es => do
    let name ← e.nameToStr (gptNameLenU16 * 2)
    if name ≠ part then findIn part blockSize es else pure (Partition.new e blockSize)

def findPartition (g : Gpt) (part : String) : Result Partition := do
  let blockSize ← g.checkValid
  let entries ← g.entries
  findIn part blockSize entries

def checkRange (g : Gpt) (part : String) (offset size : Nat) : Result Nat := do
  let p ← g.findPartition part
  p.checkRange offset size

/-! ## Loading -/

variable (P : Platform)

def headerStart (info : BlockInfo) : HeaderType → Result Nat
  | .primary => .ok info.blockSize
  | .secondary => (((info.numBlocks : SafeNum) - 1) * info.blockSize).toU64

def loadAndValidateGpt (t : HeaderType) : Exec Error (Disk × Gpt) Unit := do
  let p ← Exec.get
  let info := p.1.io.info
  let start ← Exec.lift (headerStart info t)
  -- Loads the header
  onHeader t (Disk.read start)
  let p ← Exec.get
  let header := p.2.header t
  -- Checks header.
  Exec.lift (checkHeader P info header t)
  -- Loads the entries.
  let entriesSize := header.entriesCount.toNat * gptEntrySize
  let needed ← Exec.lift (unwrap (gptBufferSize header.entriesCount.toNat))
  Exec.lift (ensure (entriesSize ≤ p.2.capacity * gptEntrySize) (.bufferTooSmall (some needed)))
  let entriesOffset ← Exec.lift (unwrap ((header.entries.toNat : SafeNum) * info.blockSize).toU64)
  onTable t entriesSize (Disk.read entriesOffset)
  -- Checks entries.
  let p ← Exec.get
  Exec.lift (checkEntries P header (p.2.tableBuf t).bytes)

def isConsistent (primary secondary : GptHeader) : Bool :=
  { primary with
    crc32 := secondary.crc32
    current := secondary.current
    backup := 1
    entries := secondary.entries } == secondary

def cloneTo (g : Gpt) : HeaderType → Gpt
  | .primary => { g with
      primaryHeader := g.secondaryHeader
      primaryEntries := g.secondaryEntries
      length_primary := g.length_secondary }
  | .secondary => { g with
      secondaryHeader := g.primaryHeader
      secondaryEntries := g.primaryEntries
      length_secondary := g.length_primary }

def restorePrimary (info : BlockInfo) (e : Error) : Exec Error (Disk × Gpt) GptSyncResult := do
  Exec.modify fun p => (p.1, p.2.cloneTo .primary)
  Exec.modify fun p => (p.1, p.2.setHeader { p.2.primaryHeader with current := 1 } .primary)
  let backup ← Exec.lift ((info.numBlocks : SafeNum) - 1).toU64
  Exec.modify fun p => (p.1, p.2.setHeader (GptHeader.updateCrc P { p.2.primaryHeader with
    backup := UInt64.ofNat backup
    entries := 2 }) .primary)
  onHeader .primary (Disk.write info.blockSize)
  let entriesPos ← Exec.lift ((2 : SafeNum) * info.blockSize).toU64
  let p ← Exec.get
  onTable .primary (p.2.capacity * gptEntrySize) (Disk.write entriesPos)
  pure (.primaryRestored e)

def restoreSecondary (info : BlockInfo) (v : Except Error Unit) :
    Exec Error (Disk × Gpt) GptSyncResult := do
  let headerBlk : SafeNum := (info.numBlocks : SafeNum) - 1
  let pos : SafeNum := headerBlk * info.blockSize
  let entriesPos : SafeNum := pos - gptMaxNumEntriesSize
  let entriesBlk : SafeNum := entriesPos / info.blockSize
  Exec.modify fun p => (p.1, p.2.cloneTo .secondary)
  let current ← Exec.lift headerBlk.toU64
  Exec.modify fun p => (p.1, p.2.setHeader { p.2.secondaryHeader with
    current := UInt64.ofNat current
    backup := 1 } .secondary)
  let entriesBlk ← Exec.lift entriesBlk.toU64
  Exec.modify fun p => (p.1, p.2.setHeader (GptHeader.updateCrc P { p.2.secondaryHeader with
    entries := UInt64.ofNat entriesBlk }) .secondary)
  let pos ← Exec.lift pos.toU64
  onHeader .secondary (Disk.write pos)
  let entriesPos ← Exec.lift entriesPos.toU64
  let p ← Exec.get
  onTable .secondary (p.2.capacity * gptEntrySize) (Disk.write entriesPos)
  pure (.secondaryRestored (match v with
    | .error e => e
    | .ok () => .gptError .differentFromPrimary))

def syncWith (info : BlockInfo) (primaryRes secondaryRes : Except Error Unit) :
    Exec Error (Disk × Gpt) GptSyncResult := do
  let p ← Exec.get
  match primaryRes, secondaryRes with
  | .error primary, .error secondary => pure (.noValidGpt primary secondary)
  | .ok (), .ok () =>
    if isConsistent p.2.primaryHeader p.2.secondaryHeader then pure .bothValid
    else restoreSecondary P info (.ok ())
  | .error e, .ok () => restorePrimary P info e
  | .ok (), .error e => restoreSecondary P info (.error e)

def loadAndSync : Exec Error (Disk × Gpt) GptSyncResult := do
  let p ← Exec.get
  let info := p.1.io.info
  Exec.lift (ensure (info.blockSize ≠ 0) .invalidInput)
  let primaryRes ← Exec.attempt (loadAndValidateGpt P .primary)
  let secondaryRes ← Exec.attempt (loadAndValidateGpt P .secondary)
  Exec.modify fun p => (p.1, { p.2 with blockSize := none })
  let syncRes ← syncWith P info primaryRes secondaryRes
  Exec.modify fun p => (p.1, { p.2 with blockSize := some info.blockSize })
  pure syncRes

end Gpt

/-! ## A small disk for concrete runs -/

def sampleInfo : BlockInfo := ⟨128, 300, 1, by decide, by decide, by decide⟩

def sampleDisk (writes : List (Nat × List UInt8)) : Disk :=
  ⟨⟨sampleInfo, writes.foldl (fun c w => store c w.1 w.2) fun _ => 0, fun _ => none, []⟩,
    ⟨4096, List.replicate 128 0⟩⟩

theorem inMemory_sampleDisk (writes : List (Nat × List UInt8)) : (sampleDisk writes).scratch.InMemory := by
  have hlen : (sampleDisk writes).scratch.len = 128 := List.length_replicate
  have haddr : (sampleDisk writes).scratch.addr = 4096 := rfl
  exact ⟨by omega, by omega, by omega⟩

def sampleCopy (table : List GptEntry) : HeaderType → List (Nat × List UInt8)
  | .primary => [(128, GptHeader.codec.enc (sampleHeader 1 299 130 170 2 table)),
      (256, GptEntry.codec.encAll table)]
  | .secondary => [(299 * 128, GptHeader.codec.enc (sampleHeader 299 1 130 170 171 table)),
      (171 * 128, GptEntry.codec.encAll table)]

theorem length_nil_le : ([] : List GptEntry).length ≤ gptMaxNumEntries := Nat.zero_le _

theorem length_singleton_le (e : GptEntry) : [e].length ≤ gptMaxNumEntries := by
  show 1 ≤ gptMaxNumEntries
  decide

def sampleGpt (table : List GptEntry) (h : table.length ≤ gptMaxNumEntries) : Gpt where
  addr := 65536
  blockSize := none
  primaryHeader := sampleHeader 0 0 0 0 0 []
  secondaryHeader := sampleHeader 0 0 0 0 0 []
  primaryEntries := table
  secondaryEntries := table
  capacity := table.length
  capacity_le := h
  length_primary := rfl
  length_secondary := rfl
  inMemory := by
    unfold gptMaxNumEntries at h
    unfold gptLoadBufferSize gptHeaderSize gptEntrySize
    omega

end Gbl.Storage
