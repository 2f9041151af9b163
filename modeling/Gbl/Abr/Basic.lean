import Gbl.Error
import Gbl.Lib.Codec

/-!
# The A/B/R boot slot library (`libabr`)

The metadata of the slots is 32 bytes of persistent storage, reached through a pair of callbacks (`Backend`, the trait
`Ops` of the source).
-/

namespace Gbl.Abr

open Lib

/-! ## Slots -/

inductive SlotIndex where
  | a
  | b
  | r
  deriving DecidableEq, Repr

def SlotIndex.other : SlotIndex → Result SlotIndex
  | .a => .ok .b
  | .b => .ok .a
  | .r => panic

inductive SlotState where
  | successful
  /-- With the number of boot attempts that remain. -/
  | bootable (tries : UInt8)
  | unbootable
  deriving DecidableEq, Repr

structure SlotInfo where
  state : SlotState
  isActive : Bool
  deriving DecidableEq, Repr

def abrMaxPriority : UInt8 := 15

def abrMaxTriesRemaining : UInt8 := 7

structure AbrSlotData where
  priority : UInt8
  triesRemaining : UInt8
  successfulBoot : UInt8
  reserved : UInt8
  deriving DecidableEq, Repr

namespace AbrSlotData

def fields : AbrSlotData ≃ UInt8 × UInt8 × UInt8 × UInt8 where
  toFun x := (x.priority, x.triesRemaining, x.successfulBoot, x.reserved)
  invFun := fun (priority, tries, successful, reserved) => ⟨priority, tries, successful, reserved⟩
  left_inv _ := rfl
  right_inv _ := rfl

open Codec in
def codec : Codec AbrSlotData := (u8.pair <| u8.pair <| u8.pair u8).iso fields

def isSlotBootable (x : AbrSlotData) : Bool :=
  decide (0 < x.priority) && (x.successfulBoot == 1 || decide (0 < x.triesRemaining))

def setSlotUnbootable (x : AbrSlotData) : AbrSlotData :=
  { x with triesRemaining := 0, successfulBoot := 0 }

def getNormalizedPriority (x : AbrSlotData) : UInt8 := if x.isSlotBootable then x.priority else 0

def restart (x : AbrSlotData) : AbrSlotData :=
  { x with triesRemaining := abrMaxTriesRemaining, successfulBoot := 0 }

def cap (x : AbrSlotData) : AbrSlotData :=
  { x with
    priority := min x.priority abrMaxPriority
    triesRemaining := min x.triesRemaining abrMaxTriesRemaining }

def slotNormalize (x : AbrSlotData) : AbrSlotData :=
  if 0 < x.priority then
    -- All tries exhausted
    let x := if x.triesRemaining = 0 ∧ x.successfulBoot = 0 then x.setSlotUnbootable else x
    -- Illegal state. Reset to not successful state
    let x := if 0 < x.triesRemaining ∧ x.successfulBoot = 1 then x.restart else x
    x.cap
  else x.setSlotUnbootable

end AbrSlotData

/-! ## The record -/

def abrMagic : Vector UInt8 4 := #v[0, 65, 66, 48]

def abrMajorVersion : UInt8 := 2

def abrMinorVersion : UInt8 := 2

def oneShotRecovery : UInt8 := 1

def oneShotBootloader : UInt8 := 2

def abrDataSize : Nat := 32

abbrev Metadata := { bytes : List UInt8 // bytes.length = abrDataSize }

structure AbrData where
  magic : Vector UInt8 4
  versionMajor : UInt8
  versionMinor : UInt8
  reserved : Vector UInt8 2
  slotA : AbrSlotData
  slotB : AbrSlotData
  oneShotFlags : UInt8
  reserved2 : Vector UInt8 11
  crc32 : UInt32
  deriving DecidableEq, Repr

section Crc

def lookupTable4BitReverse : List UInt8 :=
  [0x0, 0x8, 0x4, 0xC, 0x2, 0xA, 0x6, 0xE, 0x1, 0x9, 0x5, 0xD, 0x3, 0xB, 0x7, 0xF]

def reverseByte (b : UInt8) : UInt8 :=
  lookupTable4BitReverse.getD (b >>> 4).toNat 0 |||
    (lookupTable4BitReverse.getD (b &&& 0xf).toNat 0 <<< 4)

def reverseU32 (val : UInt32) : UInt32 :=
  UInt32.ofNat (leValue ((leBytes 4 val.toNat).map reverseByte).reverse)

def crcBit (res : UInt32) : UInt32 :=
  if res &&& 0x80000000 ≠ 0 then (res <<< 1) ^^^ 0x04C11DB7 else res <<< 1

def crcByte (res : UInt32) (b : UInt8) : UInt32 :=
  Nat.repeat crcBit 8 (res ^^^ ((reverseByte b).toUInt32 <<< 24))

def crc32 (data : List UInt8) : UInt32 := reverseU32 (~~~ (data.foldl crcByte 0xffffffff))

end Crc

namespace AbrData

abbrev Body := Vector UInt8 4 × UInt8 × UInt8 × Vector UInt8 2 × AbrSlotData × AbrSlotData × UInt8 ×
  Vector UInt8 11

def body (d : AbrData) : Body :=
  (d.magic, d.versionMajor, d.versionMinor, d.reserved, d.slotA, d.slotB, d.oneShotFlags, d.reserved2)

def fields : AbrData ≃ Body × UInt32 where
  toFun d := (d.body, d.crc32)
  invFun := fun ((magic, major, minor, reserved, a, b, flags, reserved2), crc32) =>
    ⟨magic, major, minor, reserved, a, b, flags, reserved2, crc32⟩
  left_inv _ := rfl
  right_inv _ := rfl

open Codec in
def bodyCodec : Codec Body :=
  (u8.vector 4).pair <| u8.pair <| u8.pair <| (u8.vector 2).pair <| AbrSlotData.codec.pair <|
    AbrSlotData.codec.pair <| u8.pair (u8.vector 11)

def codec : Codec AbrData := (bodyCodec.pair Codec.u32.reversed).iso fields

def calculateCrc (d : AbrData) : UInt32 := Abr.crc32 (bodyCodec.enc d.body)

def updateCrc (d : AbrData) : AbrData := { d with crc32 := d.calculateCrc }

def bytes (d : AbrData) : Metadata := ⟨codec.enc d, codec.length_enc d⟩

def serialize (d : AbrData) : Metadata := d.updateCrc.bytes

def parse (bytes : Metadata) : Except Error AbrData :=
  let res := codec.dec bytes
  if res.magic ≠ abrMagic then .error .badMagic
  else if res.crc32 ≠ Abr.crc32 (bytes.val.take 28) then .error .badChecksum
  else if abrMajorVersion < res.versionMajor then .error .unsupportedVersion
  else .ok res

def default : AbrData where
  magic := abrMagic
  versionMajor := abrMajorVersion
  versionMinor := abrMinorVersion
  reserved := .replicate 2 0
  slotA := ⟨abrMaxPriority, abrMaxTriesRemaining, 0, 0⟩
  slotB := ⟨abrMaxPriority - 1, abrMaxTriesRemaining, 0, 0⟩
  oneShotFlags := 0
  reserved2 := .replicate 11 0
  crc32 := 0

def null : AbrData := { default with magic := .replicate 4 0 }

def slotData (d : AbrData) : SlotIndex → Result AbrSlotData
  | .a => .ok d.slotA
  | .b => .ok d.slotB
  | .r => panic

def modifySlot (slot : SlotIndex) (f : AbrSlotData → AbrSlotData) (d : AbrData) : Result AbrData :=
  match slot with
  | .a => .ok { d with slotA := f d.slotA }
  | .b => .ok { d with slotB := f d.slotB }
  | .r => panic

def normalize (d : AbrData) : AbrData :=
  { d with slotA := d.slotA.slotNormalize, slotB := d.slotB.slotNormalize }

def getActiveSlot (d : AbrData) : SlotIndex :=
  let priorityA := d.slotA.getNormalizedPriority
  let priorityB := d.slotB.getNormalizedPriority
  if priorityA < priorityB then .b
  else if 0 < priorityA then .a
  else .r

def isSlotActive (d : AbrData) (slot : SlotIndex) : Bool := d.getActiveSlot == slot

def isOneShotRecovery (d : AbrData) : Bool := d.oneShotFlags &&& Abr.oneShotRecovery != 0

def setOneShot (bit : UInt8) (enable : Bool) (d : AbrData) : AbrData :=
  { d with oneShotFlags := if enable then d.oneShotFlags ||| bit else d.oneShotFlags &&& ~~~ bit }

def setOneShotRecovery (enable : Bool) : AbrData → AbrData := setOneShot Abr.oneShotRecovery enable

def setOneShotBootloader (enable : Bool) : AbrData → AbrData := setOneShot Abr.oneShotBootloader enable

end AbrData

/-! ## Storage -/

/-- The callbacks that the operations need. -/
class Backend (σ : Type) where
  readAbrMetadata : Exec Error σ Metadata
  writeAbrMetadata : Metadata → Exec Error σ Unit

structure Fault where
  error : Error
  /-- What a failed write leaves in storage. -/
  left : Metadata

inductive Call where
  | readAbrMetadata
  | writeAbrMetadata (data : Metadata)
  deriving DecidableEq

structure Ops where
  content : Metadata
  /-- What happens at the `n`-th call: nothing special, or a fault. -/
  faults : Nat → Option Fault
  /-- The calls so far, newest first. -/
  calls : List Call

namespace Ops

def Working (s : Ops) : Prop := ∀ n, s.calls.length ≤ n → s.faults n = none

def readAbrMetadata : Exec Error Ops Metadata := fun s =>
  let s' := { s with calls := .readAbrMetadata :: s.calls }
  match s.faults s.calls.length with
  | none => (.ok s.content, s')
  | some f => (err f.error, s')

def writeAbrMetadata (data : Metadata) : Exec Error Ops Unit := fun s =>
  let s' := { s with calls := .writeAbrMetadata data :: s.calls }
  match s.faults s.calls.length with
  | none => (.ok (), { s' with content := data })
  | some f => (err f.error, { s' with content := f.left })

instance : Backend Ops where
  readAbrMetadata := readAbrMetadata
  writeAbrMetadata := writeAbrMetadata

@[simp] theorem backend_write (data : Metadata) :
    (Backend.writeAbrMetadata data : Exec Error Ops Unit) = writeAbrMetadata data := rfl

end Ops

open Backend (readAbrMetadata writeAbrMetadata)

variable {σ : Type} [Backend σ]

def deserialize : Exec Error σ AbrData := do
  let bytes ← readAbrMetadata
  Exec.lift (Res.ofExcept (AbrData.parse bytes))

def loaded : Except Error AbrData → Result (AbrData × AbrData)
  | .ok v => .ok (v.normalize, v)
  | .error (.other e) => err (.other e)
  -- We don't want to clobber valid data in persistent storage.
  | .error .unsupportedVersion => err .unsupportedVersion
  | .error _ => .ok (AbrData.default.normalize, AbrData.null)

def loadMetadata : Exec Error σ (AbrData × AbrData) := do
  let res ← Exec.attempt deserialize
  Exec.lift (loaded res)

def saveMetadata (d : AbrData) : Exec Error σ Unit := writeAbrMetadata d.serialize

def saveMetadataIfChanged (d orig : AbrData) : Exec Error σ Unit :=
  if d = orig then pure () else saveMetadata d

def transact {α : Type} (edit : AbrData → Result (AbrData × α)) : Exec Error σ α := do
  let (abrData, orig) ← loadMetadata
  let (abrData, res) ← Exec.lift (edit abrData)
  saveMetadataIfChanged abrData orig
  pure res

/-! ## Booting -/

def AbrData.consumeTry (slot : SlotIndex) (d : AbrData) : Result AbrData := do
  let x ← d.slotData slot
  if x.triesRemaining = 0 then panic
  else d.modifySlot slot fun x => { x with triesRemaining := x.triesRemaining - 1 }

def AbrSlotData.clearUnless (boot slot : SlotIndex) (x : AbrSlotData) : AbrSlotData :=
  if slot ≠ boot ∧ x.successfulBoot = 1 then x.restart else x

def AbrData.clearOthers (boot : SlotIndex) (d : AbrData) : AbrData :=
  { d with slotA := d.slotA.clearUnless boot .a, slotB := d.slotB.clearUnless boot .b }

def AbrData.isMarkedSuccessful (d : AbrData) : SlotIndex → Bool
  | .a => d.slotA.successfulBoot == 1
  | .b => d.slotB.successfulBoot == 1
  | .r => false

def AbrData.bootSlot (slot : SlotIndex) (d : AbrData) : Result AbrData := do
  let d ← if slot ≠ .r ∧ ¬ d.isMarkedSuccessful slot then d.consumeTry slot else pure d
  pure (d.clearOthers slot)

def bootActive (updateMetadata : Bool) (d orig : AbrData) : Exec Error σ (SlotIndex × Bool) := do
  let slotToBoot := d.getActiveSlot
  Exec.when (updateMetadata = true) do
    let d ← Exec.lift (d.bootSlot slotToBoot)
    -- We have no choice but to proceed without updating metadata.
    let _ ← Exec.attempt (saveMetadataIfChanged d orig)
    pure ()
  pure (slotToBoot, d.isMarkedSuccessful slotToBoot)

def getBootSlot (updateMetadata : Bool) : Exec Error σ (SlotIndex × Bool) := do
  match ← Exec.attempt loadMetadata with
  | .error _ => pure (.r, false)
  | .ok (d, orig) =>
    if d.isOneShotRecovery ∧ updateMetadata = true then do
      let cleared := (d.setOneShotRecovery false).updateCrc
      match ← Exec.attempt (saveMetadata cleared) with
      | .ok () => pure (.r, false)
      -- Ignoring one-shot request.
      | .error _ => bootActive updateMetadata (cleared.setOneShotRecovery true) orig
    else bootActive updateMetadata d orig

/-! ## Marking -/

def AbrData.markActive (slot : SlotIndex) (d : AbrData) : Result (AbrData × Unit) := do
  let d ← d.modifySlot slot fun x => { x.restart with priority := abrMaxPriority }
  -- Ensure other slot doesn't have as high a priority
  let other ← slot.other
  let d ← d.modifySlot other fun x => { x with priority := min x.priority (abrMaxPriority - 1) }
  pure (d, ())

def markSlotActive (slot : SlotIndex) : Exec Error σ Unit :=
  if slot = .r then Exec.lift (err .invalidInput) else transact (AbrData.markActive slot)

def getSlotLastMarkedActive : Exec Error σ SlotIndex := do
  let (abrData, _) ← loadMetadata
  pure (if abrData.slotA.priority < abrData.slotB.priority then .b else .a)

def AbrData.markUnbootable (slot : SlotIndex) (d : AbrData) : Result (AbrData × Unit) := do
  let d ← d.modifySlot slot AbrSlotData.setSlotUnbootable
  pure (d, ())

def markSlotUnbootable (slot : SlotIndex) : Exec Error σ Unit :=
  if slot = .r then Exec.lift (err .invalidInput) else transact (AbrData.markUnbootable slot)

def AbrData.markSuccessful (slot : SlotIndex) (d : AbrData) : Result (AbrData × Unit) := do
  let x ← d.slotData slot
  ensure x.isSlotBootable .invalidInput
  let d ← d.modifySlot slot fun x => { x with triesRemaining := 0, successfulBoot := 1 }
  let other ← slot.other
  let d ← d.modifySlot other fun x => if x.isSlotBootable then x.restart else x
  pure (d, ())

def markSlotSuccessful (slot : SlotIndex) : Exec Error σ Unit :=
  if slot = .r then Exec.lift (err .invalidInput) else transact (AbrData.markSuccessful slot)

def AbrSlotData.state (x : AbrSlotData) : SlotState :=
  if x.successfulBoot = 1 then .successful
  else if x.isSlotBootable then .bootable x.triesRemaining
  else .unbootable

def getSlotInfo (slot : SlotIndex) : Exec Error σ SlotInfo := do
  let (abrData, _) ← loadMetadata
  match slot with
  -- Assume that R slot is always OK.
  | .r => pure ⟨.successful, abrData.isSlotActive .r⟩
  | slot => do
    let x ← Exec.lift (abrData.slotData slot)
    pure ⟨x.state, abrData.isSlotActive slot⟩

/-! ## One-shots -/

def setOneShotRecovery (enable : Bool) : Exec Error σ Unit :=
  transact fun d => pure (d.setOneShotRecovery enable, ())

def setOneShotBootloader (enable : Bool) : Exec Error σ Unit :=
  transact fun d => pure (d.setOneShotBootloader enable, ())

def getAndClearOneShotFlag : Exec Error σ UInt8 :=
  transact fun d => pure ({ d with oneShotFlags := 0 }, d.oneShotFlags)

def getAndClearOneShotBootloader : Exec Error σ Bool :=
  transact fun d => pure (d.setOneShotBootloader false, d.oneShotFlags &&& oneShotBootloader != 0)

end Gbl.Abr
