import Gbl.Storage.Gpt.Update

/-!
# `GptBuilder` (`libstorage`, `gpt.rs`)

The builder edits a table in place, in the part of the buffer that the secondary copy is loaded into.
-/

namespace Gbl.Storage

open Lib

structure BuilderTable where
  header : GptHeader
  entries : List GptEntry

namespace BuilderTable

variable (P : Platform)

def zeroEntry : GptEntry := GptEntry.codec.dec (List.replicate gptEntrySize 0)

def zeroHeader : GptHeader := GptHeader.codec.dec (List.replicate gptHeaderSize 0)

def entryKey (e : GptEntry) : Nat := if e.isNull then 2 ^ 64 - 1 else e.first.toNat

def fresh (info : BlockInfo) (capacity : Nat) : Result BuilderTable := do
  let entriesBlk ← unwrap (gptEntriesBlk info.blockSize)
  let numBlks : SafeNum := info.numBlocks
  let current ← unwrap (numBlks - 1).toU64
  let last ← unwrap (numBlks - 1 - entriesBlk - 1).toU64
  let entries ← unwrap (numBlks - 1 - entriesBlk).toU64
  pure {
    header := { zeroHeader with
      magic := gptMagic
      current := UInt64.ofNat current
      backup := 1
      size := UInt32.ofNat gptHeaderSize
      first := UInt64.ofNat (1 + 1 + entriesBlk)
      last := UInt64.ofNat last
      entries := UInt64.ofNat entries
      entriesCount := 0
      entriesSize := UInt32.ofNat gptEntrySize }
    entries := List.replicate capacity zeroEntry }

def nullPos (entries : List GptEntry) : Option Nat := entries.findIdx? GptEntry.isNull

def normalize (b : BuilderTable) : BuilderTable where
  header := { b.header with
    entriesCount := UInt32.ofNat ((nullPos b.entries).getD b.entries.length) }
  entries := P.sort entryKey b.entries

def remove (part : String) (b : BuilderTable) : Result (Option BuilderTable) :=
  let count := b.header.entriesCount.toNat
  -- `&mut entries[..entries_count]`
  if b.entries.length < count then panic
  else match (b.entries.take count).findIdx? fun e => e.matchName part == .ok true with
    | none => .ok none
    | some n => .ok (some {
        header := { b.header with entriesCount := UInt32.ofNat (count - 1) }
        -- Shift the elements behind forward, zeroize the last element.
        entries := b.entries.take n ++ (b.entries.take count).drop (n + 1) ++ zeroEntry ::
          b.entries.drop count })

structure NewPartition where
  name : String
  partType : Vector UInt8 16
  guid : Vector UInt8 16
  flags : UInt64
  /-- The size in bytes; all the available space if not given. -/
  size : Option Nat

def encodeUtf16 (s : String) : List UInt16 :=
  s.toList.flatMap fun c =>
    if c.toNat < 0x10000 then [UInt16.ofNat c.toNat]
    else [UInt16.ofNat (0xD800 + (c.toNat - 0x10000) / 1024),
      UInt16.ofNat (0xDC00 + (c.toNat - 0x10000) % 1024)]

def writeName (s : String) (old : Vector UInt16 36) : Vector UInt16 36 :=
  Vector.ofFn fun i => ((encodeUtf16 s)[i.val]?).getD old[i]

def gapAt (b : BuilderTable) (n idx : Nat) : Result (Nat × Nat) := do
  let prevEnd ←
    if idx = 0 then pure b.header.first.toNat
    else match b.entries[idx - 1]? with
      | some e => addU64 e.last.toNat 1
      | none => panic
  let nextStart ←
    if idx = n then addU64 b.header.last.toNat 1
    else match b.entries[idx]? with
      | some e => pure e.first.toNat
      | none => panic
  pure (prevEnd, nextStart)

def blocksFor (blockSize : Nat) (gap : Nat × Nat) : Option Nat → Result Nat
  | some v => (SafeNum.roundUp v blockSize / blockSize).toU64
  | none => subU64 gap.2 gap.1

def newEntry (p : NewPartition) (first last : Nat) (e : GptEntry) : GptEntry :=
  { partType := p.partType, guid := p.guid, flags := p.flags, first := UInt64.ofNat first,
    last := UInt64.ofNat last, name := writeName p.name e.name }

def insertBefore (blockSize idx : Nat) (p : NewPartition) (b : BuilderTable) :
    Result BuilderTable := do
  match nullPos b.entries with
  | none => err .outOfResources
  | some n =>
    -- Caps `idx` to no more than the first NULL entry.
    let idx := min n idx
    let gap ← b.gapAt n idx
    let blocks ← blocksFor blockSize gap p.size
    let room ← subU64 gap.2 gap.1
    ensure (blocks ≤ room) .outOfResources
    match b.entries[n]? with
    | none => panic
    | some slot => do
      let stop ← addU64 gap.1 blocks
      let last ← subU64 stop 1
      let count ← if b.header.entriesCount.toNat + 1 < 2 ^ 32 then
          .ok (b.header.entriesCount.toNat + 1) else panic
      pure {
        header := { b.header with entriesCount := UInt32.ofNat count }
        entries := b.entries.take idx ++ newEntry p gap.1 last slot :: (b.entries.take n).drop idx ++
          b.entries.drop (n + 1) }

def addFrom (blockSize : Nat) (p : NewPartition) (b : BuilderTable) :
    Nat → Nat → Result BuilderTable
  | 0, _ => err .outOfResources
  | fuel + 1, idx =>
    match b.insertBefore blockSize idx p with
    | .ok b' => .ok b'
    | .error (.err _) => addFrom blockSize p b fuel (idx + 1)
    | .error e => .error e

def add (blockSize : Nat) (p : NewPartition) (b : BuilderTable) : Result BuilderTable :=
  let count := b.header.entriesCount.toNat
  let start := if p.size.isSome then 0 else count
  b.addFrom blockSize p (count + 1 - start) start

end BuilderTable

def minRequiredBlocks (blockSize : Nat) : Result Nat := do
  let entriesBlk ← gptEntriesBlk blockSize
  pure (1 + (1 + entriesBlk) * 2)

namespace Session

variable (P : Platform)

def builderTable (s : Session) : BuilderTable := ⟨s.gpt.secondaryHeader, s.gpt.secondaryEntries⟩

def setBuilderTable (b : BuilderTable) : Exec Error Session Unit :=
  modifyGpt fun g => (g.setHeader b.header .secondary).setTable (GptEntry.codec.encAll b.entries)
    .secondary

def builderNew : Exec Error Session Bool := do
  let s ← Exec.get
  let info := s.disk.io.info
  let need ← Exec.lift (minRequiredBlocks info.blockSize)
  Exec.lift (ensure (need ≤ info.numBlocks) (.gptError .diskTooSmall))
  let res ← syncGpt P
  let hasValidGpt := res.res == .ok ()
  let s ← Exec.get
  let table ← Exec.lift (if hasValidGpt then .ok s.builderTable
    else BuilderTable.fresh info s.gpt.capacity)
  setBuilderTable (table.normalize P)
  pure hasValidGpt

def builderRemove (part : String) : Exec Error Session Bool := do
  let s ← Exec.get
  let found ← Exec.lift (s.builderTable.remove part)
  match found with
  | none => pure false
  | some b => do
    setBuilderTable b
    pure true

def builderAdd (p : BuilderTable.NewPartition) : Exec Error Session Unit := do
  let s ← Exec.get
  let b ← Exec.lift (s.builderTable.add s.disk.io.info.blockSize p)
  setBuilderTable b

def builderPersist (zeros : Nat) : Exec Error Session Unit := do
  let s ← Exec.get
  let info := s.disk.io.info
  let b := s.builderTable
  let entries := GptEntry.codec.encAll b.entries
  let header ← Exec.lift (GptHeader.updateEntriesCrc P b.header entries)
  setBuilderTable { b with header }
  -- Check validity. Should not fail if implementation is correct.
  Exec.lift (unwrap (checkHeader P info header .secondary))
  Exec.lift (unwrap (checkEntries P header entries))
  -- Writes to secondary header/ entries
  let pos ← Exec.lift (mulU64 header.current.toNat info.blockSize)
  onGpt (Gpt.onHeader .secondary (Disk.write pos))
  let pos ← Exec.lift (mulU64 header.entries.toNat info.blockSize)
  onGpt (Gpt.onTable .secondary (s.gpt.capacity * gptEntrySize) (Disk.write pos))
  -- Clears primary header magic
  Exec.zoom (fun s => (s.disk, ⟨zeros, List.replicate 8 0⟩)) (fun s q => { s with disk := q.1 })
    (Disk.write info.blockSize)
  -- Re-syncs GPT
  let res ← syncGpt P
  Exec.lift res.res

end Session

end Gbl.Storage
