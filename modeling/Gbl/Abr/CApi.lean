import Gbl.Abr.Operations

/-!
# The C interface of the A/B/R library (`libabr`, `c_staticlib.rs`)

Two pairs of callbacks: one stores the record of 32 bytes, the other one only the fields that the operations look at,
through records made up for the occasion. What an operation does depends on a faithful backend through the fields
alone (`Determined`).
-/

namespace Gbl.Abr

open Lib AbrData

/-! ## The callbacks -/

structure CustomMetadata where
  aSlotData : AbrSlotData
  bSlotData : AbrSlotData
  oneShotFlags : UInt8
  deriving DecidableEq

namespace AbrData

def toCustom (d : AbrData) : CustomMetadata := ⟨d.slotA, d.slotB, d.oneShotFlags⟩

def withCustom (d : AbrData) (c : CustomMetadata) : AbrData :=
  { d with slotA := c.aSlotData, slotB := c.bSlotData, oneShotFlags := c.oneShotFlags }

@[simp] theorem withCustom_toCustom (d : AbrData) : d.withCustom d.toCustom = d := rfl

@[simp] theorem withCustom_inj (d : AbrData) {c c' : CustomMetadata} : d.withCustom c = d.withCustom c' ↔ c = c' :=
  ⟨fun h => congrArg toCustom h, fun h => h ▸ rfl⟩

theorem Genuine.withCustom {d : AbrData} (h : d.Genuine) (c : CustomMetadata) : (d.withCustom c).Genuine := h

end AbrData

structure AbrOps (σ : Type) where
  readAbrMetadata : Option (Metadata → σ → (Bool × Metadata) × σ)
  writeAbrMetadata : Option (Metadata → σ → Bool × σ)
  readAbrMetadataCustom : Option (CustomMetadata → σ → (Bool × CustomMetadata) × σ)
  writeAbrMetadataCustom : Option (CustomMetadata → σ → Bool × σ)

structure AbrOpsSafe (σ : Type) where
  ops : AbrOps σ
  context : σ

namespace AbrOpsSafe

variable {σ : Type}

def zeroMetadata : Metadata := ⟨List.replicate abrDataSize 0, List.length_replicate⟩

def readAbrMetadata : Exec Error (AbrOpsSafe σ) Metadata := fun s =>
  match s.ops.readAbrMetadata, s.ops.readAbrMetadataCustom with
  | some f, _ =>
    let ((ok, out), context) := f zeroMetadata s.context
    (if ok then .ok out else err (.other (some "read_abr_metadata() failed")), { s with context })
  | none, some f =>
    let ((ok, data), context) := f AbrData.default.toCustom s.context
    (if ok then .ok (AbrData.default.withCustom data).serialize
      else err (.other (some "read_abr_metadata_custom() failed")), { s with context })
  | none, none => (err .notImplemented, s)

def writeAbrMetadata (data : Metadata) : Exec Error (AbrOpsSafe σ) Unit := fun s =>
  match s.ops.writeAbrMetadata, s.ops.writeAbrMetadataCustom with
  | some f, _ =>
    let (ok, context) := f data s.context
    (if ok then .ok () else err (.other (some "write_abr_metadata() failed")), { s with context })
  | none, some f =>
    -- `AbrData::deserialize(&mut abr_data).unwrap()`, on the bytes themselves.
    match AbrData.parse data with
    | .error _ => (panic, s)
    | .ok abrData =>
      let (ok, context) := f abrData.toCustom s.context
      (if ok then .ok () else err (.other (some "read_abr_metadata_custom() failed")), { s with context })
  | none, none => (err .notImplemented, s)

instance : Backend (AbrOpsSafe σ) where
  readAbrMetadata := readAbrMetadata
  writeAbrMetadata := writeAbrMetadata

end AbrOpsSafe

/-! ## The functions of the interface -/

def abrResultOk : UInt32 := 0
def abrResultErrIo : UInt32 := 1
def abrResultErrInvalidData : UInt32 := 2
def abrResultErrUnsupportedVersion : UInt32 := 3

def resultCode : Error → UInt32
  | .badMagic | .badChecksum | .invalidInput => abrResultErrInvalidData
  | .unsupportedVersion => abrResultErrUnsupportedVersion
  | _ => abrResultErrIo

def unpackResult {α β : Type} (into : α → β) (res : Except Error α) (val : β) : UInt32 × β :=
  match res with
  | .error e => (resultCode e, val)
  | .ok v => (abrResultOk, into v)

namespace SlotIndex

def toUInt : SlotIndex → UInt32
  | .a => 0
  | .b => 1
  | .r => 2

def ofUInt : UInt32 → Except Error SlotIndex
  | 0 => .ok .a
  | 1 => .ok .b
  | 2 => .ok .r
  | _ => .error .invalidInput

end SlotIndex

structure CSlotInfo where
  isBootable : Bool
  isActive : Bool
  isMarkedSuccessful : Bool
  numTriesRemaining : UInt8
  deriving DecidableEq

def CSlotInfo.ofSlotInfo (val : SlotInfo) : CSlotInfo :=
  let isMarkedSuccessful := val.state == .successful
  let numTriesRemaining := match val.state with
    | .bootable v => v
    | _ => 0
  { isBootable := isMarkedSuccessful || decide (0 < numTriesRemaining)
    isActive := val.isActive
    isMarkedSuccessful
    numTriesRemaining }

inductive Reply where
  /-- The slot to boot; the mark is stored unless the pointer is `NULL`. -/
  | bootSlot (slotIndex : UInt32) (isSlotMarkedSuccessful : Option Bool)
  | slotSuffix (suffix : List Char)
  | code (result : UInt32)
  | slot (result : UInt32) (outSlot : UInt32)
  | slotInfo (result : UInt32) (info : CSlotInfo)
  | flags (result : UInt32) (flags : UInt32)
  deriving DecidableEq

section Functions

variable {σ : Type} [Backend σ]

def unpacked {α β : Type} (into : α → β) (val : β) (op : Exec Error σ α) (reply : UInt32 → β → Reply) :
    Exec Error σ Reply := do
  let res ← Exec.attempt op
  let (code, val) := unpackResult into res val
  pure (reply code val)

def onSlot (slotIndex : UInt32) (refused : Reply) (f : SlotIndex → Exec Error σ Reply) : Exec Error σ Reply :=
  match SlotIndex.ofUInt slotIndex with
  | .ok slot => f slot
  | .error _ => pure refused

def abrGetBootSlot (updateMetadata : Bool) (isSlotMarkedSuccessful : Option Bool) : Exec Error σ Reply := do
  let (slot, successful) ← getBootSlot updateMetadata
  pure (.bootSlot slot.toUInt (isSlotMarkedSuccessful.map fun _ => successful))

def abrGetSlotSuffix (slotIndex : UInt32) : Exec Error σ Reply :=
  onSlot slotIndex (.slotSuffix []) fun
    | .a => pure (.slotSuffix ['_', 'a'])
    | .b => pure (.slotSuffix ['_', 'b'])
    | .r => pure (.slotSuffix ['_', 'r'])

def markSlot (slotIndex : UInt32) (mark : SlotIndex → Exec Error σ Unit) : Exec Error σ Reply :=
  onSlot slotIndex (.code abrResultErrInvalidData) fun slot =>
    unpacked id () (mark slot) fun code _ => .code code

def abrMarkSlotActive (slotIndex : UInt32) : Exec Error σ Reply := markSlot slotIndex markSlotActive

def abrGetSlotLastMarkedActive (outSlot : UInt32) : Exec Error σ Reply :=
  unpacked SlotIndex.toUInt outSlot getSlotLastMarkedActive .slot

def abrMarkSlotUnbootable (slotIndex : UInt32) : Exec Error σ Reply := markSlot slotIndex markSlotUnbootable

def abrMarkSlotSuccessful (slotIndex : UInt32) : Exec Error σ Reply := markSlot slotIndex markSlotSuccessful

def abrGetSlotInfo (slotIndex : UInt32) (info : CSlotInfo) : Exec Error σ Reply :=
  onSlot slotIndex (.slotInfo abrResultErrInvalidData info) fun slot =>
    unpacked CSlotInfo.ofSlotInfo info (getSlotInfo slot) .slotInfo

def abrSetOneShotRecovery (enable : Bool) : Exec Error σ Reply :=
  unpacked id () (setOneShotRecovery enable) fun code _ => .code code

def abrSetOneShotBootloader (enable : Bool) : Exec Error σ Reply :=
  unpacked id () (setOneShotBootloader enable) fun code _ => .code code

def abrGetAndClearOneShotFlags (flags : UInt32) : Exec Error σ Reply :=
  unpacked UInt8.toUInt32 flags getAndClearOneShotFlag .flags

end Functions

inductive ApiCall where
  | abrGetBootSlot (updateMetadata : Bool) (isSlotMarkedSuccessful : Option Bool)
  | abrGetSlotSuffix (slotIndex : UInt32)
  | abrMarkSlotActive (slotIndex : UInt32)
  | abrGetSlotLastMarkedActive (outSlot : UInt32)
  | abrMarkSlotUnbootable (slotIndex : UInt32)
  | abrMarkSlotSuccessful (slotIndex : UInt32)
  | abrGetSlotInfo (slotIndex : UInt32) (info : CSlotInfo)
  | abrSetOneShotRecovery (enable : Bool)
  | abrSetOneShotBootloader (enable : Bool)
  | abrGetAndClearOneShotFlags (flags : UInt32)

def ApiCall.run {σ : Type} [Backend σ] : ApiCall → Exec Error σ Reply
  | abrGetBootSlot update out => Abr.abrGetBootSlot update out
  | abrGetSlotSuffix slot => Abr.abrGetSlotSuffix slot
  | abrMarkSlotActive slot => Abr.abrMarkSlotActive slot
  | abrGetSlotLastMarkedActive out => Abr.abrGetSlotLastMarkedActive out
  | abrMarkSlotUnbootable slot => Abr.abrMarkSlotUnbootable slot
  | abrMarkSlotSuccessful slot => Abr.abrMarkSlotSuccessful slot
  | abrGetSlotInfo slot info => Abr.abrGetSlotInfo slot info
  | abrSetOneShotRecovery enable => Abr.abrSetOneShotRecovery enable
  | abrSetOneShotBootloader enable => Abr.abrSetOneShotBootloader enable
  | abrGetAndClearOneShotFlags flags => Abr.abrGetAndClearOneShotFlags flags

def ApiCall.runAll {σ : Type} [Backend σ] : List ApiCall → Exec Error σ (List Reply)
  | [] => pure []
  | call :: calls => do
    let reply ← call.run
    let replies ← runAll calls
    pure (reply :: replies)

end Gbl.Abr
