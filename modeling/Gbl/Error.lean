import Gbl.Lib.Exec

/-!
# The error type shared by all GBL libraries (`liberror`)

The variants and their payloads are the source's, in its order.
-/

namespace Gbl

open Lib

inductive GptError where
  | differentFromPrimary
  | diskTooSmall
  | entriesTruncated
  | incorrectHeaderCrc
  | incorrectMagic (magic : Nat)
  | incorrectEntriesCrc
  | invalidFirstLastUsableBlock (first last : Nat) (range : Nat × Nat)
  | invalidPartitionRange (idx : Nat) (partRange usableRange : Nat × Nat)
  | invalidPrimaryEntriesStart (value : Nat) (expectRange : Nat × Nat)
  | invalidSecondaryEntriesStart (value : Nat) (expectRange : Nat × Nat)
  | numberOfEntriesOverflow (entries maxAllowed : Nat)
  /-- The two neighbours, each as (1-based index, first, last). -/
  | partitionRangeOverlap (prev next : Nat × Nat × Nat)
  | unexpectedEntrySize (actual expect : Nat)
  | unexpectedHeaderSize (actual expect : Nat)
  | zeroPartitionTypeGUID (idx : Nat)
  | zeroPartitionUniqueGUID (idx : Nat)
  deriving DecidableEq, Repr

inductive Error where
  | aborted
  | accessDenied
  | alreadyStarted
  | arithmeticOverflow
  | badBufferSize
  | badChecksum
  | badIndex (i : Nat)
  | badMagic
  | blockIoError
  | bootFailed
  | bufferOverlap
  | bufferTooSmall (need : Option Nat)
  | compromisedData
  | connectionReset
  | deviceError
  | disconnected
  | endOfFile
  | endOfMedia
  | finished
  | gptError (e : GptError)
  | httpError
  | icmpError
  | invalidAlignment
  | invalidHandshake
  | invalidInput
  | invalidLanguage
  | invalidState
  | ipAddressConflict
  | loadError
  | mediaChanged
  | memoryMapCallbackError (code : Int)
  | missingImage
  | noFdt
  | noGpt
  | noMapping
  | noMedia
  | noResponse
  | notFound
  | notImplemented
  | notReady
  | notStarted
  | notUnique
  | operationProhibited
  | other (msg : Option String)
  | outOfRange
  | outOfResources
  | protocolError
  | securityViolation
  | tftpError
  | timeout
  | tooManyPartitions (max : Nat)
  | unaddressable
  | unexpectedEfiError (status : Nat)
  | unexpectedReturn
  | unsupported
  | unsupportedVersion
  | volumeCorrupted
  | volumeFull
  | writeProtected
  deriving DecidableEq, Repr

abbrev Result (α : Type) := Res Error α

abbrev err {α : Type} (e : Error) : Result α := .error (.err e)

abbrev panic {α : Type} : Result α := .error .panic

def ensure (c : Prop) [Decidable c] (e : Error) : Result Unit := if c then .ok () else err e

def unwrap {α : Type} : Result α → Result α
  | .ok a => .ok a
  | .error (.err _) => panic
  | .error s => .error s

def addU64 (a b : Nat) : Result Nat := if a + b < 2 ^ 64 then .ok (a + b) else panic

def subU64 (a b : Nat) : Result Nat := if b ≤ a then .ok (a - b) else panic

def mulU64 (a b : Nat) : Result Nat := if a * b < 2 ^ 64 then .ok (a * b) else panic

@[simp] theorem ensure_eq_ok {c : Prop} [Decidable c] {e : Error} {u : Unit} : ensure c e = .ok u ↔ c := by
  unfold ensure
  split
  · next h => exact iff_of_true rfl h
  · next h => exact iff_of_false nofun h

@[simp] theorem returns_ensure (c : Prop) [Decidable c] (e : Error) : (ensure c e).Returns := by
  unfold ensure
  split
  · trivial
  · trivial

theorem returns_unwrap_iff {α : Type} {r : Result α} : (unwrap r).Returns ↔ ∃ a, r = .ok a := by
  rcases r with (e | _ | _) | a
  · exact iff_of_false id nofun
  · exact iff_of_false id nofun
  · exact iff_of_false id nofun
  · exact iff_of_true trivial ⟨a, rfl⟩

theorem returns_addU64_iff {a b : Nat} : (addU64 a b).Returns ↔ a + b < 2 ^ 64 := by
  unfold addU64
  split
  · next h => exact iff_of_true trivial h
  · next h => exact iff_of_false id h

@[simp] theorem unwrap_eq_ok {α : Type} {r : Result α} {a : α} : unwrap r = .ok a ↔ r = .ok a := by
  rcases r with (e | _ | _) | b
  · exact iff_of_false nofun nofun
  · exact iff_of_false nofun nofun
  · exact iff_of_false nofun nofun
  · rfl

@[simp] theorem mulU64_eq_ok {a b c : Nat} : mulU64 a b = .ok c ↔ a * b < 2 ^ 64 ∧ a * b = c := by
  unfold mulU64
  split
  · next h =>
    constructor
    · intro heq
      exact ⟨h, Except.ok.inj heq⟩
    · rintro ⟨-, rfl⟩
      rfl
  · next h => exact iff_of_false Res.error_ne_ok fun heq => h heq.1

@[simp] theorem subU64_eq_ok {a b c : Nat} : subU64 a b = .ok c ↔ b ≤ a ∧ a - b = c := by
  unfold subU64
  split
  · next h => simp [h]
  · next h => simp [h]

@[simp] theorem addU64_eq_ok {a b c : Nat} : addU64 a b = .ok c ↔ a + b < 2 ^ 64 ∧ a + b = c := by
  unfold addU64
  split
  · next h =>
    constructor
    · intro he
      cases he
      exact ⟨h, rfl⟩
    · rintro ⟨-, rfl⟩
      rfl
  · next h => exact iff_of_false nofun fun h' => h h'.1

end Gbl
