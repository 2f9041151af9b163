import Gbl.Storage.Gpt.Basic

/-!
# Changing the GPT (`libstorage`, `gpt.rs`)

`update_gpt`, `erase_gpt` and `GptBuilder`. All of them work on a disk and a `Gpt` at the same time and re-sync the
one with the other on the way.
-/

namespace Gbl.Storage

open Lib

inductive Event where
  /-- `Gpt::new`. -/
  | created
  /-- `load_and_sync`, with what it returned. -/
  | synced (r : Result GptSyncResult)

structure Session where
  disk : Disk
  gpt : Gpt
  history : List Event

namespace Session

variable (P : Platform)

def onGpt {α : Type} (m : Exec Error (Disk × Gpt) α) : Exec Error Session α :=
  Exec.zoom (fun s => (s.disk, s.gpt)) (fun s p => { s with disk := p.1, gpt := p.2 }) m

def modifyGpt (f : Gpt → Gpt) : Exec Error Session Unit :=
  Exec.modify fun s => { s with gpt := f s.gpt }

def syncGpt : Exec Error Session GptSyncResult := fun s =>
  let out := Gpt.loadAndSync P (s.disk, s.gpt)
  (out.1, ⟨out.2.1, out.2.2, .synced out.1 :: s.history⟩)

/-! ## `update_gpt` -/

def mbrHeader (info : BlockInfo) (mbr : Buf) : GptHeader :=
  GptHeader.codec.dec ((mbr.bytes.drop info.blockSize).take gptHeaderSize)

def setMbrHeader (info : BlockInfo) (h : GptHeader) (mbr : Buf) : Buf :=
  mbr.patch info.blockSize (GptHeader.codec.enc h)

def extendLast (last : UInt64) (entries : List GptEntry) : List GptEntry :=
  match entries.reverse.findIdx? fun e => !e.isNull with
  | some k => entries.modify (entries.length - 1 - k) fun e => { e with last }
  | none => entries

def adjustHeader (info : BlockInfo) (h : GptHeader) : Result GptHeader := do
  let entriesBlk : SafeNum := (gptMaxNumEntriesSize : SafeNum) / info.blockSize
  let numBlks : SafeNum := info.numBlocks
  let last ← unwrap (numBlks - entriesBlk - 2).toU64
  let backup ← unwrap (numBlks - 1).toU64
  pure (GptHeader.updateCrc P { h with last := UInt64.ofNat last, backup := UInt64.ofNat backup })

def mbrEntries (info : BlockInfo) (h : GptHeader) (len : Nat) : Result (Nat × Nat) := do
  let off ← unwrap (((h.entries.toNat : SafeNum) - 2) * info.blockSize).toU64
  let size ← unwrap ((h.entriesCount.toNat : SafeNum) * h.entriesSize.toNat).toU64
  let start ← addU64 (2 * info.blockSize) off
  let need ← addU64 start size
  ensure (need ≤ len) (.bufferTooSmall (some need))
  pure (start, size)

def resizeMbr (info : BlockInfo) (h : GptHeader) (entries : List UInt8) :
    Result (GptHeader × List UInt8) := do
  -- `Ref::new_slice`
  if entries.length % gptEntrySize ≠ 0 then panic else do
    let table := GptEntry.codec.decAll (entries.length / gptEntrySize) entries
    let entries := GptEntry.codec.encAll (extendLast h.last table)
    let h ← GptHeader.updateEntriesCrc P h entries
    -- Re-verifies everything.
    unwrap (checkHeader P info h .primary)
    unwrap (checkEntries P h entries)
    pure (h, entries)

def updateGpt (resize : Bool) : Exec Error (Session × Buf) Unit := do
  let p ← Exec.get
  let info := p.1.disk.io.info
  let need ← Exec.lift (mulU64 info.blockSize 2)
  Exec.lift (ensure (need ≤ p.2.len) (.bufferTooSmall (some need)))
  Exec.assert (gptHeaderSize ≤ info.blockSize)
  let header ← Exec.lift (adjustHeader P info (mbrHeader info p.2))
  Exec.modify fun p => (p.1, setMbrHeader info header p.2)
  Exec.lift (checkHeader P info header .primary)
  let (start, size) ← Exec.lift (mbrEntries info header p.2.len)
  let entries := (p.2.bytes.drop start).take size
  Exec.lift (checkEntries P header entries)
  Exec.when (resize = true) do
    let (header, entries) ← Exec.lift (resizeMbr P info header entries)
    Exec.modify fun p => (p.1, (setMbrHeader info header p.2).patch start entries)
  Exec.zoom (fun p => (p.1.disk, p.2)) (fun p q => ({ p.1 with disk := q.1 }, q.2)) (Disk.write 0)
  let res ← Exec.zoom (fun p => p.1) (fun p s => (s, p.2)) (syncGpt P)
  Exec.lift res.res

/-! ## `erase_gpt` -/

def fillFromGpt (offset size : Nat) (val : UInt8) : Exec Error Session Unit := do
  let s ← Exec.get
  onGpt (Gpt.onTable .primary (s.gpt.capacity * gptEntrySize) (Disk.fill offset size val))

def eraseCopy (entriesSize : SafeNum) (t : HeaderType) : Exec Error Session Unit := do
  let s ← Exec.get
  let blkSz := s.disk.io.info.blockSize
  let header := s.gpt.header t
  let pos ← Exec.lift (mulU64 header.current.toNat blkSz)
  fillFromGpt pos blkSz 0
  let pos ← Exec.lift (mulU64 header.entries.toNat blkSz)
  let size ← Exec.lift (unwrap entriesSize.toU64)
  fillFromGpt pos size 0

def eraseLoaded : Exec Error Session Unit := do
  let s ← Exec.get
  let entriesSize : SafeNum := (s.gpt.primaryHeader.entriesCount.toNat : SafeNum) * gptEntrySize
  -- Invalidate GPT first.
  modifyGpt fun g => { g with blockSize := none }
  eraseCopy entriesSize .primary
  eraseCopy entriesSize .secondary

def eraseGpt : Exec Error Session Unit := do
  let res ← syncGpt P
  match res.res with
  | .ok () => eraseLoaded
  | .error _ => pure ()

end Session

end Gbl.Storage
