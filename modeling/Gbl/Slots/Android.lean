import Gbl.Slots.Basic
import Gbl.Lib.BitField

/-!
# The Android slot manager (`libgbl`, `slots/android.rs`)

The reference `BootloaderControl` structure: up to four slots, each with a priority, a counter of tries and a success
mark in the bit fields of one word.
-/

namespace Gbl.Slots.Android

open Lib

/-! ## Bit fields -/

def getField (base : BitVec 16) (offset : Nat) (mask : BitVec 16) : UInt8 :=
  let v := BitField.get base offset mask
  if v.toNat < 256 then UInt8.ofNat v.toNat else 0

/-- Sets a value in a bit field. -/
def setField (base : BitVec 16) (val : UInt8) (offset : Nat) (mask : BitVec 16) : BitVec 16 :=
  BitField.set base (BitVec.ofNat 16 val.toNat) offset mask

/-- Slot-specific metadata. -/
abbrev SlotMetaData := BitVec 16

namespace SlotMetaData

def priorityMask : BitVec 16 := 0b1111
def priorityOffset : Nat := 0
def triesMask : BitVec 16 := 0b111
def triesOffset : Nat := 4
def successfulMask : BitVec 16 := 0b1
def successfulOffset : Nat := 7

def priority (m : SlotMetaData) : UInt8 := getField m priorityOffset priorityMask

def setPriority (priority : UInt8) (m : SlotMetaData) : SlotMetaData :=
  setField m priority priorityOffset priorityMask

def tries (m : SlotMetaData) : UInt8 := getField m triesOffset triesMask

def setTries (tries : UInt8) (m : SlotMetaData) : SlotMetaData := setField m tries triesOffset triesMask

def successful (m : SlotMetaData) : Bool := getField m successfulOffset successfulMask != 0

def setSuccessful (successful : Bool) (m : SlotMetaData) : SlotMetaData :=
  setField m (if successful then 1 else 0) successfulOffset successfulMask

end SlotMetaData

def maxSlots : UInt8 := 4

def defaultPriority : UInt8 := 7

def defaultRetries : UInt8 := 7

/-- `SlotMetaData::default()`. -/
def defaultSlot : SlotMetaData := SlotMetaData.setTries defaultRetries (SlotMetaData.setPriority defaultPriority 0)

abbrev ControlBits := BitVec 16

namespace ControlBits

def nbSlotMask : BitVec 16 := 0b111
def nbSlotOffset : Nat := 0

def nbSlots (c : ControlBits) : UInt8 := min (getField c nbSlotOffset nbSlotMask) maxSlots

def setNbSlots (nbSlots : UInt8) (c : ControlBits) : ControlBits :=
  setField c (min nbSlots maxSlots) nbSlotOffset nbSlotMask

end ControlBits

/-! ## The record -/

def bootCtrlMagic : UInt32 := 0x42414342

def bootCtrlVersion : UInt8 := 1

/-- The Android A/B bootloader message structure. -/
structure BootloaderControl where
  slotSuffix : Vector UInt8 4
  magic : UInt32
  version : UInt8
  controlBits : ControlBits
  reserved0 : UInt8
  slotMetadata : Vector SlotMetaData 4
  reserved1 : Vector UInt8 8
  crc32 : UInt32
  deriving DecidableEq, Repr

namespace BootloaderControl

/-- All fields but the checksum. -/
abbrev Body := Vector UInt8 4 × UInt32 × UInt8 × ControlBits × UInt8 × Vector SlotMetaData 4 ×
  Vector UInt8 8

def body (d : BootloaderControl) : Body :=
  (d.slotSuffix, d.magic, d.version, d.controlBits, d.reserved0, d.slotMetadata, d.reserved1)

/-- The fields in order. -/
def fields : BootloaderControl ≃ Body × UInt32 where
  toFun d := (d.body, d.crc32)
  invFun := fun ((suffix, magic, version, bits, reserved0, slots, reserved1), crc32) =>
    ⟨suffix, magic, version, bits, reserved0, slots, reserved1, crc32⟩
  left_inv _ := rfl
  right_inv _ := rfl

open Codec in
/-- The layout in front of the checksum. -/
def bodyCodec : Codec Body :=
  (u8.vector 4).pair <| u32.pair <| u8.pair <| bits16.pair <| u8.pair <| (bits16.vector 4).pair
    (u8.vector 8)

/-- `#[repr(C, packed)]`. -/
def codec : Codec BootloaderControl := (bodyCodec.pair Codec.u32).iso fields

variable (crc32 : List UInt8 → UInt32)

def calculateCrc32 (d : BootloaderControl) : UInt32 := crc32 (bodyCodec.enc d.body)

def default : BootloaderControl :=
  let data : BootloaderControl := {
    slotSuffix := #v[95, 97, 0, 0]
    magic := bootCtrlMagic
    version := bootCtrlVersion
    controlBits := ControlBits.setNbSlots 4 0
    reserved0 := 0
    slotMetadata := .replicate 4 defaultSlot
    reserved1 := .replicate 8 0
    crc32 := 0 }
  { data with crc32 := data.calculateCrc32 crc32 }

/-- `validate` and `prepare_for_sync`. -/
def metadataBytes : MetadataBytes BootloaderControl where
  codec := codec
  check d := do
    ensure (d.magic = bootCtrlMagic) .badMagic
    ensure (d.version ≤ bootCtrlVersion) .unsupportedVersion
    ensure (d.crc32 = d.calculateCrc32 crc32) .badChecksum
  prepareForSync d := { d with crc32 := d.calculateCrc32 crc32 }
  default := default crc32

end BootloaderControl

/-! ## The manager -/

/-- The slot as its metadata describes it. -/
def toSlot (suffix : Char) (m : SlotMetaData) : Slot where
  suffix
  priority := m.priority.toNat
  bootability :=
    if m.successful then .successful
    else if 0 < m.tries then .retriable m.tries.toNat
    else .unbootable .unknown

def getSlotByNumber (d : BootloaderControl) (number : Nat) : Result Slot :=
  match ((lowerAsciiSuffixes.zip d.slotMetadata.toList).take d.controlBits.nbSlots.toNat)[number]? with
  | some (suffix, m) => .ok (toSlot suffix m)
  | none => err (.badIndex number)

def slots (d : BootloaderControl) : List Slot := slotsIter (getSlotByNumber d)

def getBootTarget (d : BootloaderControl) : Result BootTarget := do
  let last ← getSlotLastSetActive (slots d)
  match bestBootable (slots d) with
  | some slot => pure (.normalBoot slot)
  | none => pure (.recovery (.slotted last))

/-- A change of `slot_metadata[idx]`. -/
def modifySlot (idx : Nat) (f : SlotMetaData → SlotMetaData) (d : BootloaderControl) :
    Result BootloaderControl :=
  if h : idx < 4 then .ok { d with slotMetadata := d.slotMetadata.set idx (f d.slotMetadata[idx]) }
  else panic

/-- One try less; `metadata.tries() - 1`. -/
def decrementTries (idx : Nat) (d : BootloaderControl) : Result BootloaderControl :=
  if h : idx < 4 then
    if d.slotMetadata[idx].tries = 0 then panic
    else modifySlot idx (fun m => SlotMetaData.setTries (m.tries - 1) m) d
  else panic

/-- `mark_boot_attempt`. -/
def markBootAttempt : Exec Error (SlotBlock BootloaderControl) Unit := do
  let s ← Exec.get
  match ← Exec.lift (getBootTarget s.data) with
  | .recovery .dedicated => Exec.lift (err .operationProhibited)
  | .recovery (.slotted slot) => do
    let _ ← Exec.lift (findSuffix slot.suffix (slots s.data))
    SlotBlock.takeBootToken
  | .normalBoot target => SlotBlock.attemptSlot slots decrementTries s.data target

def disable (_ : UnbootableReason) (idx : Nat) : BootloaderControl → Result BootloaderControl :=
  modifySlot idx fun m => SlotMetaData.setSuccessful false (SlotMetaData.setTries 0 m)

/-- `set_slot_unbootable`. -/
def setSlotUnbootable : Char → UnbootableReason → Exec Error (SlotBlock BootloaderControl) Unit :=
  SlotBlock.setUnbootable slots disable

/-- One slot starts over, all others go below it. -/
def activate (idx : Nat) (suffix : Char) (d : BootloaderControl) : BootloaderControl :=
  { d with
    slotMetadata := d.slotMetadata.mapIdx fun i m =>
      if i = idx then defaultSlot else SlotMetaData.setPriority (defaultPriority - 1) m
    -- The first character is an underscore. The suffix of a slot is one byte in UTF-8.
    slotSuffix := d.slotSuffix.set 1 (UInt8.ofNat suffix.toNat) }

/-- `set_active_slot`. -/
def setActiveSlot : Char → Exec Error (SlotBlock BootloaderControl) Unit :=
  SlotBlock.setActive slots activate

/-- `set_oneshot_status`: there are no one-shots. -/
def setOneshotStatus (_ : OneShot) : Exec Error (SlotBlock BootloaderControl) Unit :=
  Exec.lift (err .operationProhibited)

/-- `clear_oneshot_status`. -/
def clearOneshotStatus : Exec Error (SlotBlock BootloaderControl) Unit := pure ()

end Gbl.Slots.Android
