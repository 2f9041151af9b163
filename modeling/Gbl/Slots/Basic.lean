import Gbl.Error
import Gbl.Lib.Codec
import Gbl.Lib.Fallback

/-!
# Boot slots and their metadata block (`libgbl`, `slots.rs` and `slots/partition.rs`)

A slot manager keeps the metadata of its slots in a cached block of bytes (`SlotBlock`): loaded from storage once,
changed in memory, written back if it was changed.
-/

namespace Gbl.Slots

open Lib

/-! ## Slots -/

inductive UnbootableReason where
  | unknown
  | noMoreTries
  | systemUpdate
  | userRequested
  | verificationFailure
  deriving DecidableEq, Repr

namespace UnbootableReason

def ofU8 : UInt8 → UnbootableReason
  | 1 => noMoreTries
  | 2 => systemUpdate
  | 3 => userRequested
  | 4 => verificationFailure
  | _ => unknown

def toU8 : UnbootableReason → UInt8
  | unknown => 0
  | noMoreTries => 1
  | systemUpdate => 2
  | userRequested => 3
  | verificationFailure => 4

end UnbootableReason

inductive Bootability where
  | successful
  | unbootable (reason : UnbootableReason)
  | retriable (tries : Nat)
  deriving DecidableEq, Repr

structure Slot where
  suffix : Char
  priority : Nat
  bootability : Bootability
  deriving DecidableEq, Repr

namespace Slot

def isBootable (s : Slot) : Bool :=
  match s.bootability with
  | .unbootable _ => false
  | _ => true

def rank (s : Slot) : Int := -(s.suffix.toNat : Int)

def key (s : Slot) : Nat ×ₗ Int := toLex (s.priority, s.rank)

end Slot

inductive RecoveryTarget where
  | dedicated
  | slotted (slot : Slot)
  deriving DecidableEq, Repr

inductive BootTarget where
  | normalBoot (slot : Slot)
  | recovery (target : RecoveryTarget)
  deriving DecidableEq, Repr

inductive OneShot where
  | bootloader
  | continueTo (target : RecoveryTarget)
  deriving DecidableEq, Repr

def lowerAsciiSuffixes : List Char :=
  ['a', 'b', 'c', 'd', 'e', 'f', 'g', 'h', 'i', 'j', 'k', 'l', 'm', 'n', 'o', 'p', 'q', 'r', 's', 't',
    'u', 'v', 'w', 'x', 'y', 'z']

def slotsFrom (getSlotByNumber : Nat → Result Slot) : Nat → Nat → List Slot
  | 0, _ => []
  | fuel + 1, count =>
    match getSlotByNumber count with
    | .ok slot => slot :: slotsFrom getSlotByNumber fuel (count + 1)
    | .error _ => []

def slotsIter (getSlotByNumber : Nat → Result Slot) : List Slot :=
  slotsFrom getSlotByNumber lowerAsciiSuffixes.length 0

def getSlotLastSetActive (slots : List Slot) : Result Slot :=
  match maxByKey Slot.key slots with
  | some slot => .ok slot
  | none => err (.other (some "Couldn't get slot last set active"))

def bestBootable (slots : List Slot) : Option Slot := maxByKey Slot.key (slots.filter Slot.isBootable)

def findSuffix (suffix : Char) (slots : List Slot) : Result (Nat × Slot) :=
  match slots.zipIdx.find? fun p => p.1.suffix == suffix with
  | some (slot, idx) => .ok (idx, slot)
  | none => err .invalidInput

/-! ## The metadata block -/

inductive CacheStatus where
  | clean
  | dirty
  deriving DecidableEq, Repr

structure MetadataBytes (α : Type) where
  /-- The layout. -/
  codec : Codec α
  /-- What `validate` checks of a record. -/
  check : α → Result Unit
  /-- Called right before writing metadata back to disk. -/
  prepareForSync : α → α
  default : α

namespace MetadataBytes

variable {α : Type} (M : MetadataBytes α)

def validate (buffer : List UInt8) : Result α :=
  if buffer.length < M.codec.width then err (.bufferTooSmall (some M.codec.width))
  else do
    let data := M.codec.dec (buffer.take M.codec.width)
    M.check data
    pure data

end MetadataBytes

structure SlotBlock (α : Type) where
  cacheStatus : CacheStatus
  /-- The boot token is still here. -/
  bootToken : Bool
  data : α

namespace SlotBlock

variable {α : Type} (M : MetadataBytes α)

def takeBootToken : Exec Error (SlotBlock α) Unit := do
  let s ← Exec.get
  Exec.modify fun s => { s with bootToken := false }
  Exec.lift (ensure (s.bootToken = true) .operationProhibited)

def modifyData (f : α → α) : Exec Error (SlotBlock α) Unit :=
  Exec.modify fun s => { s with cacheStatus := .dirty, data := f s.data }

/-- The arm of both `mark_boot_attempt`s for a normal boot of `target`. -/
def attemptSlot (slots : α → List Slot) (decrementTries : Nat → α → Result α) (d : α) (target : Slot) :
    Exec Error (SlotBlock α) Unit := do
  let (idx, slot) ← Exec.lift (findSuffix target.suffix (slots d))
  match slot.bootability with
  | .unbootable _ => Exec.lift (err .operationProhibited)
  | .retriable _ => do
    let data ← Exec.lift (decrementTries idx d)
    modifyData fun _ => data
    takeBootToken
  | .successful => takeBootToken

theorem attemptSlot_found {slots : α → List Slot} (decrementTries : Nat → α → Result α) {d : α} {target slot : Slot}
    {idx : Nat} {b b' : SlotBlock α}
    (h : (Exec.lift (findSuffix target.suffix (slots d)) : Exec Error (SlotBlock α) _) b = (.ok (idx, slot), b')) :
    attemptSlot slots decrementTries d target b = (match slot.bootability with
      | .unbootable _ => Exec.lift (err .operationProhibited)
      | .retriable _ => do
        let data ← Exec.lift (decrementTries idx d)
        modifyData fun _ => data
        takeBootToken
      | .successful => takeBootToken) b' :=
  Exec.bind_run_ok h

def setUnbootable (slots : α → List Slot) (disable : UnbootableReason → Nat → α → Result α)
    (suffix : Char) (reason : UnbootableReason) : Exec Error (SlotBlock α) Unit := do
  let s ← Exec.get
  let (idx, slot) ← Exec.lift (findSuffix suffix (slots s.data))
  if slot.bootability = .unbootable reason then pure ()
  else do
    let data ← Exec.lift (disable reason idx s.data)
    modifyData fun _ => data

def setActive (slots : α → List Slot) (activate : Nat → Char → α → α) (suffix : Char) :
    Exec Error (SlotBlock α) Unit := do
  let s ← Exec.get
  let (idx, _) ← Exec.lift (findSuffix suffix (slots s.data))
  modifyData (activate idx suffix)

def deserialize (buffer : List UInt8) : SlotBlock α :=
  match M.validate buffer with
  | .ok data => ⟨.clean, true, data⟩
  | .error _ => ⟨.dirty, true, M.default⟩

def syncToDisk {σ : Type} (persist : List UInt8 → Exec Error σ (List UInt8)) :
    Exec Error (SlotBlock α × σ) Unit := do
  let s ← Exec.get
  if s.1.cacheStatus = .clean then pure () else do
    Exec.modify fun s => ({ s.1 with data := M.prepareForSync s.1.data }, s.2)
    let s ← Exec.get
    let res ← Exec.attempt (Exec.zoom (fun s => s.2) (fun s t => (s.1, t)) (persist (M.codec.enc s.1.data)))
    match res with
    | .ok bytes => Exec.modify fun s => ({ s.1 with cacheStatus := .clean, data := M.codec.dec bytes }, s.2)
    | .error _ => Exec.lift panic

end SlotBlock

end Gbl.Slots
