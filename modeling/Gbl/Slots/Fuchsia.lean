import Gbl.Slots.Basic

/-!
# The Fuchsia slot manager (`libgbl`, `slots/fuchsia.rs`)

The A/B/R metadata again, in the words of `libgbl`: two slots, one-shot flags and a dedicated recovery slot.
-/

namespace Gbl.Slots.Fuchsia

open Lib

def defaultPriority : UInt8 := 15

def defaultRetries : UInt8 := 7

/-- The metadata of a slot. -/
structure AbrSlotData where
  priority : UInt8
  tries : UInt8
  successful : UInt8
  unbootableReason : UInt8
  deriving DecidableEq, Repr

namespace AbrSlotData

/-- The fields in order. -/
def fields : AbrSlotData ≃ UInt8 × UInt8 × UInt8 × UInt8 where
  toFun x := (x.priority, x.tries, x.successful, x.unbootableReason)
  invFun := fun (priority, tries, successful, reason) => ⟨priority, tries, successful, reason⟩
  left_inv _ := rfl
  right_inv _ := rfl

open Codec in
def codec : Codec AbrSlotData := (u8.pair <| u8.pair <| u8.pair u8).iso fields

def default : AbrSlotData := ⟨defaultPriority, defaultRetries, 0, 0⟩

end AbrSlotData

/-- `OneShotFlags`. -/
abbrev OneShotFlags := UInt8

namespace OneShotFlags

def none : OneShotFlags := 0
def recovery : OneShotFlags := 1
def bootloader : OneShotFlags := 2

def toOneShot (flags : OneShotFlags) : Option OneShot :=
  if flags = recovery then some (.continueTo .dedicated)
  else if flags = bootloader then some .bootloader
  else Option.none

/-- `OneShotFlags::from`. -/
def ofOneShot : OneShot → OneShotFlags
  | .bootloader => bootloader
  | .continueTo .dedicated => recovery
  | .continueTo (.slotted _) => none

end OneShotFlags

theorem size_abrMagic : (#[0, 65, 66, 48] : Array UInt8).size = 4 := rfl

def abrMagic : Vector UInt8 4 := ⟨#[0, 65, 66, 48], size_abrMagic⟩

def abrVersionMajor : UInt8 := 2

def abrVersionMinor : UInt8 := 3

/-- The A/B/R metadata. -/
structure AbrData where
  magic : Vector UInt8 4
  versionMajor : UInt8
  versionMinor : UInt8
  reserved : Vector UInt8 2
  slotData : Vector AbrSlotData 2
  oneshotFlag : OneShotFlags
  reserved2 : Vector UInt8 11
  crc32 : UInt32
  deriving DecidableEq, Repr

namespace AbrData

/-- All fields but the checksum. -/
abbrev Body := Vector UInt8 4 × UInt8 × UInt8 × Vector UInt8 2 × Vector AbrSlotData 2 × UInt8 ×
  Vector UInt8 11

def body (d : AbrData) : Body :=
  (d.magic, d.versionMajor, d.versionMinor, d.reserved, d.slotData, d.oneshotFlag, d.reserved2)

def fields : AbrData ≃ Body × UInt32 where
  toFun d := (d.body, d.crc32)
  invFun := fun ((magic, major, minor, reserved, slots, flag, reserved2), crc32) =>
    ⟨magic, major, minor, reserved, slots, flag, reserved2, crc32⟩
  left_inv _ := rfl
  right_inv _ := rfl

open Codec in
/-- The layout in front of the checksum. -/
def bodyCodec : Codec Body :=
  (u8.vector 4).pair <| u8.pair <| u8.pair <| (u8.vector 2).pair <| (AbrSlotData.codec.vector 2).pair <|
    u8.pair (u8.vector 11)

/-- `#[repr(C, packed)]`, the checksum big-endian. -/
def codec : Codec AbrData := (bodyCodec.pair Codec.u32.reversed).iso fields

variable (crc32 : List UInt8 → UInt32)

def calculateCrc32 (d : AbrData) : UInt32 := crc32 (bodyCodec.enc d.body)

/-- `AbrData::default()`. -/
def default : AbrData :=
  let data : AbrData := {
    magic := abrMagic
    versionMajor := abrVersionMajor
    versionMinor := abrVersionMinor
    reserved := .replicate 2 0
    slotData := .replicate 2 AbrSlotData.default
    oneshotFlag := OneShotFlags.none
    reserved2 := .replicate 11 0
    crc32 := 0 }
  { data with crc32 := data.calculateCrc32 crc32 }

/-- `prepare_for_sync`. -/
def prepareForSync (d : AbrData) : AbrData :=
  let d := { d with versionMinor := abrVersionMinor }
  { d with crc32 := d.calculateCrc32 crc32 }

/-- `validate` and `prepare_for_sync`. -/
def metadataBytes : MetadataBytes AbrData where
  codec := codec
  check d := do
    ensure (d.magic = abrMagic) .badMagic
    ensure (d.versionMajor ≤ abrVersionMajor) .unsupportedVersion
    ensure (d.crc32 = d.calculateCrc32 crc32) .badChecksum
  prepareForSync := prepareForSync crc32
  default := default crc32

end AbrData

/-! ## The manager -/

/-- The slot as its metadata describes it. -/
def toSlot (suffix : Char) (x : AbrSlotData) : Slot where
  suffix
  priority := x.priority.toNat
  bootability :=
    if x.successful ≠ 0 then .successful
    else if 0 < x.tries then .retriable x.tries.toNat
    else .unbootable (.ofU8 x.unbootableReason)

/-- `get_slot_by_number`. -/
def getSlotByNumber (d : AbrData) (number : Nat) : Result Slot :=
  match (lowerAsciiSuffixes.zip d.slotData.toList)[number]? with
  | some (suffix, x) => .ok (toSlot suffix x)
  | none => err (.badIndex number)

def slots (d : AbrData) : List Slot := slotsIter (getSlotByNumber d)

/-- `get_boot_target`. -/
def getBootTarget (d : AbrData) : Result BootTarget :=
  match bestBootable (slots d) with
  | some slot => .ok (.normalBoot slot)
  | none => .ok (.recovery .dedicated)

/-- `get_oneshot_status`. -/
def getOneshotStatus (d : AbrData) : Option OneShot := OneShotFlags.toOneShot d.oneshotFlag

/-- `abr_slot.tries -= 1`; the last try leaves its reason behind. -/
def decrementTries (idx : Nat) (d : AbrData) : Result AbrData :=
  if h : idx < 2 then
    let x := d.slotData[idx]
    if x.tries = 0 then panic
    else
      let x := { x with tries := x.tries - 1 }
      let x := if x.tries = 0 then { x with unbootableReason := UnbootableReason.noMoreTries.toU8 } else x
      .ok { d with slotData := d.slotData.set idx x }
  else panic

/-- What `mark_boot_attempt` boots. -/
def attemptTarget (d : AbrData) : Result BootTarget :=
  match getOneshotStatus d with
  | some (.continueTo r) => .ok (.recovery r)
  | _ => getBootTarget d

/-- `mark_boot_attempt`. -/
def markBootAttempt : Exec Error (SlotBlock AbrData) Unit := do
  let s ← Exec.get
  match ← Exec.lift (attemptTarget s.data) with
  | .recovery (.slotted _) => Exec.lift (err .operationProhibited)
  -- Boot to recovery does not cause a metadata update, but access to the boot token is gated.
  | .recovery .dedicated => SlotBlock.takeBootToken
  | .normalBoot target => SlotBlock.attemptSlot slots decrementTries s.data target

/-- No tries left and no success, for the given reason. -/
def disable (reason : UnbootableReason) (idx : Nat) (d : AbrData) : Result AbrData :=
  if h : idx < 2 then
    let x := { d.slotData[idx] with unbootableReason := reason.toU8, tries := 0, successful := 0 }
    .ok { d with slotData := d.slotData.set idx x }
  else panic

/-- `set_slot_unbootable`. -/
def setSlotUnbootable : Char → UnbootableReason → Exec Error (SlotBlock AbrData) Unit :=
  SlotBlock.setUnbootable slots disable

/-- One slot starts over, the other goes below it. -/
def activate (idx : Nat) (_ : Char) (d : AbrData) : AbrData :=
  { d with slotData := d.slotData.mapIdx fun i x =>
      if i = idx then AbrSlotData.default else { x with priority := defaultPriority - 1 } }

/-- `set_active_slot`. -/
def setActiveSlot : Char → Exec Error (SlotBlock AbrData) Unit := SlotBlock.setActive slots activate

/-- `set_oneshot_status`. -/
def setOneshotStatus (oneshot : OneShot) : Exec Error (SlotBlock AbrData) Unit := do
  let s ← Exec.get
  if some oneshot = getOneshotStatus s.data then pure ()
  else
    let flag := OneShotFlags.ofOneShot oneshot
    if flag = OneShotFlags.none then Exec.lift (err .operationProhibited)
    else SlotBlock.modifyData fun d => { d with oneshotFlag := flag }

/-- `clear_oneshot_status`. -/
def clearOneshotStatus : Exec Error (SlotBlock AbrData) Unit := do
  let s ← Exec.get
  if (getOneshotStatus s.data).isSome then
    SlotBlock.modifyData fun d => { d with oneshotFlag := OneShotFlags.none }
  else pure ()

end Gbl.Slots.Fuchsia
