import Gbl.Error
import Gbl.SafeMath
import Gbl.Lib.Codec
import Gbl.Lib.Crc32

/-!
# GPT headers and entries (`libstorage`, `gpt.rs`)

The codecs list the fields in the order and width of the source's structures. Parameters (`Platform`) are the checksum
of the `crc32fast` crate and the standard library's unstable sort, of which only what its documentation promises is
known.
-/

namespace Gbl.Storage

open Lib

structure Platform where
  crc32 : List UInt8 → UInt32
  /-- `sort_unstable_by_key`. -/
  sort : {α : Type} → (α → Nat) → List α → List α
  sort_perm : ∀ {α : Type} (key : α → Nat) (l : List α), (sort key l).Perm l
  sort_sorted : ∀ {α : Type} (key : α → Nat) (l : List α),
    (sort key l).Pairwise fun a b => key a ≤ key b

/-! ## Constants -/

def gptEntrySize : Nat := 128

def gptMaxNumEntries : Nat := 128

def gptMaxNumEntriesSize : Nat := gptMaxNumEntries * gptEntrySize

def gptHeaderSize : Nat := 92

def gptCrc32Offset : Nat := 16

def gptMagic : UInt64 := 0x5452415020494645

def gptNameLenU16 : Nat := 36

/-! ## Headers -/

structure GptHeader where
  magic : UInt64
  revision : UInt32
  size : UInt32
  /-- CRC of the header, calculated with this field zeroed. -/
  crc32 : UInt32
  reserved0 : UInt32
  /-- The on-disk block location of this header. -/
  current : UInt64
  /-- The on-disk block location of the other header. -/
  backup : UInt64
  /-- First usable block for partition contents. -/
  first : UInt64
  /-- Last usable block for partition contents (inclusive). -/
  last : UInt64
  guid : Vector UInt8 16
  /-- Starting block for the partition entries array. -/
  entries : UInt64
  entriesCount : UInt32
  entriesSize : UInt32
  entriesCrc : UInt32
  deriving DecidableEq, Repr

namespace GptHeader

def fields : GptHeader ≃ UInt64 × UInt32 × UInt32 × UInt32 × UInt32 × UInt64 × UInt64 × UInt64 ×
    UInt64 × Vector UInt8 16 × UInt64 × UInt32 × UInt32 × UInt32 where
  toFun h := (h.magic, h.revision, h.size, h.crc32, h.reserved0, h.current, h.backup, h.first,
    h.last, h.guid, h.entries, h.entriesCount, h.entriesSize, h.entriesCrc)
  invFun := fun (magic, revision, size, crc32, reserved0, current, backup, first, last, guid,
      entries, entriesCount, entriesSize, entriesCrc) =>
    ⟨magic, revision, size, crc32, reserved0, current, backup, first, last, guid, entries,
      entriesCount, entriesSize, entriesCrc⟩
  left_inv _ := rfl
  right_inv _ := rfl

open Codec in
def rearCodec : Codec (UInt32 × UInt64 × UInt64 × UInt64 × UInt64 × Vector UInt8 16 × UInt64 ×
    UInt32 × UInt32 × UInt32) :=
  u32.pair <| u64.pair <| u64.pair <| u64.pair <| u64.pair <| (u8.vector 16).pair <| u64.pair <|
    u32.pair <| u32.pair u32

open Codec in
def codec : Codec GptHeader :=
  (u64.pair <| u32.pair <| u32.pair <| u32.pair rearCodec).iso fields

variable (P : Platform)

def calculateHeaderCrc (h : GptHeader) : UInt32 :=
  P.crc32 ((codec.enc h).take gptCrc32Offset ++ [0, 0, 0, 0] ++
    (codec.enc h).drop (gptCrc32Offset + 4))

def updateCrc (h : GptHeader) : GptHeader := { h with crc32 := h.calculateHeaderCrc P }

def updateEntriesCrc (h : GptHeader) (entries : List UInt8) : Result GptHeader := do
  match ((h.entriesCount.toNat : SafeNum) * h.entriesSize.toNat).toU64 with
  | .ok size =>
    if size ≤ entries.length then
      pure (updateCrc P { h with entriesCrc := P.crc32 (entries.take size) })
    else panic
  | .error _ => panic

theorem exists_enc_eq (h : GptHeader) : ∃ front rear : List UInt8, front.length = gptCrc32Offset ∧
    ∀ crc, codec.enc { h with crc32 := crc } = front ++ (Codec.u32.enc crc ++ rear) := by
  refine ⟨Codec.u64.enc h.magic ++ Codec.u32.enc h.revision ++ Codec.u32.enc h.size,
    rearCodec.enc (h.reserved0, h.current, h.backup, h.first, h.last, h.guid, h.entries,
      h.entriesCount, h.entriesSize, h.entriesCrc), ?_, fun crc => ?_⟩
  · simp only [List.length_append, Codec.length_enc]
    rfl
  · rw [List.append_assoc, List.append_assoc]
    rfl

theorem calculateHeaderCrc_set_crc32 (h : GptHeader) (crc : UInt32) :
    calculateHeaderCrc P { h with crc32 := crc } = calculateHeaderCrc P h := by
  obtain ⟨front, rear, hlen, henc⟩ := exists_enc_eq h
  have hparts : ∀ c : UInt32, (codec.enc { h with crc32 := c }).take gptCrc32Offset = front ∧
      (codec.enc { h with crc32 := c }).drop (gptCrc32Offset + 4) = rear := by
    intro c
    have hword : (front ++ Codec.u32.enc c).length = gptCrc32Offset + 4 := by
      rw [List.length_append, hlen, Codec.length_enc]
      rfl
    constructor
    · rw [henc, List.take_left' hlen]
    · rw [henc, ← List.append_assoc, List.drop_left' hword]
  have hself : { h with crc32 := h.crc32 } = h := rfl
  unfold calculateHeaderCrc
  rw [(hparts crc).1, (hparts crc).2, ← hself, (hparts h.crc32).1, (hparts h.crc32).2]

theorem calculateHeaderCrc_updateCrc (h : GptHeader) : calculateHeaderCrc P (h.updateCrc P) = (h.updateCrc P).crc32 :=
  calculateHeaderCrc_set_crc32 P h _

end GptHeader

/-! ## Entries -/

structure GptEntry where
  /-- Partition type GUID. -/
  partType : Vector UInt8 16
  /-- Unique partition GUID. -/
  guid : Vector UInt8 16
  /-- First block. -/
  first : UInt64
  /-- Last block (inclusive). -/
  last : UInt64
  flags : UInt64
  /-- Partition name in UTF-16. -/
  name : Vector UInt16 36
  deriving DecidableEq, Repr

def decodeUtf16 : List UInt16 → List (Option Char)
  | [] => []
  | u :: rest =>
    if u &&& 0xF800 ≠ 0xD800 then some (Char.ofNat u.toNat) :: decodeUtf16 rest
    else if 0xDC00 ≤ u then none :: decodeUtf16 rest
    else match rest with
      | [] => [none]
      | v :: rest' =>
        if v < 0xDC00 ∨ 0xDFFF < v then none :: decodeUtf16 (v :: rest')
        else some (Char.ofNat ((u &&& 0x3FF).toNat * 1024 + (v &&& 0x3FF).toNat + 0x10000)) ::
          decodeUtf16 rest'

namespace GptEntry

def fields : GptEntry ≃ Vector UInt8 16 × Vector UInt8 16 × UInt64 × UInt64 × UInt64 ×
    Vector UInt16 36 where
  toFun e := (e.partType, e.guid, e.first, e.last, e.flags, e.name)
  invFun := fun (partType, guid, first, last, flags, name) =>
    ⟨partType, guid, first, last, flags, name⟩
  left_inv _ := rfl
  right_inv _ := rfl

open Codec in
def codec : Codec GptEntry :=
  ((u8.vector 16).pair <| (u8.vector 16).pair <| u64.pair <| u64.pair <| u64.pair
    (u16.vector 36)).iso fields

theorem codec_width : codec.width = gptEntrySize := rfl

def blocks (e : GptEntry) : Result Nat := ((e.last.toNat : SafeNum) + 1 - e.first.toNat).toU64

def isNull (e : GptEntry) : Bool := e.first == 0 && e.last == 0

def encodeName : List (Option Char) → Nat → List Char → Result String
  | [], _, acc => .ok (String.ofList acc.reverse)
  | c :: cs, room, acc =>
    -- `char::REPLACEMENT_CHARACTER`
    let c := c.getD (Char.ofNat 0xFFFD)
    if c.toNat = 0 then .ok (String.ofList acc.reverse)
    else if c.utf8Size ≤ room then encodeName cs (room - c.utf8Size) (c :: acc)
    else err .invalidInput

def nameToStr (e : GptEntry) (buffer : Nat) : Result String :=
  encodeName (decodeUtf16 e.name.toList) buffer []

def matchName (e : GptEntry) (part : String) : Result Bool := do
  pure ((← e.nameToStr (gptNameLenU16 * 2)) == part)

end GptEntry

/-! ## A reference platform -/

def crc32Step (crc : Nat) : Nat := if crc % 2 = 1 then (crc >>> 1) ^^^ 0xEDB88320 else crc >>> 1

def crc32Byte (crc : Nat) (b : UInt8) : Nat :=
  crc32Step <| crc32Step <| crc32Step <| crc32Step <| crc32Step <| crc32Step <| crc32Step <|
    crc32Step (crc ^^^ b.toNat)

/-- Evaluates `n` before it is passed on. -/
def forced (n : Nat) (f : Nat → Nat) : Nat :=
  match n with
  | 0 => f 0
  | n + 1 => f (n + 1)

theorem forced_eq (n : Nat) (f : Nat → Nat) : forced n f = f n := by
  cases n <;> rfl

def crc32Loop : List UInt8 → Nat → Nat
  | [], crc => crc
  | b :: bs, crc => forced (crc32Byte crc b) (crc32Loop bs)

/-- CRC-32 over natural numbers, in a form that the kernel evaluates on whole tables. -/
def referenceCrc32 (bs : List UInt8) : UInt32 :=
  UInt32.ofNat (crc32Loop bs 0xFFFFFFFF ^^^ 0xFFFFFFFF)

theorem toNat_step (x : BitVec 32) : (Lib.Crc32.step x).toNat = crc32Step x.toNat := by
  have hbit : x.getLsbD 0 = decide (x.toNat % 2 = 1) := by
    rw [BitVec.getLsbD, Nat.testBit_zero]
  unfold Lib.Crc32.step crc32Step
  rw [hbit]
  by_cases h : x.toNat % 2 = 1 <;> simp [h]

theorem toNat_byte (x : BitVec 32) (b : UInt8) : (Lib.Crc32.byte x b).toNat = crc32Byte x.toNat b := by
  have hb : b.toNat < 2 ^ 32 := Nat.lt_trans b.toNat_lt (by decide)
  have hxor : (x ^^^ b.toBitVec.setWidth 32).toNat = x.toNat ^^^ b.toNat := by
    rw [BitVec.toNat_xor, BitVec.toNat_setWidth, UInt8.toNat_toBitVec, Nat.mod_eq_of_lt hb]
  simp only [Lib.Crc32.byte, crc32Byte, Nat.repeat, toNat_step, hxor]

theorem crc32Loop_toNat (bs : List UInt8) (x : BitVec 32) :
    crc32Loop bs x.toNat = (bs.foldl Lib.Crc32.byte x).toNat := by
  induction bs generalizing x with
  | nil => rw [crc32Loop, List.foldl_nil]
  | cons b bs ih => rw [List.foldl_cons, ← ih, toNat_byte, crc32Loop, forced_eq]

theorem referenceCrc32_eq (bs : List UInt8) : referenceCrc32 bs = Lib.Crc32.crc32 bs := by
  have hloop : crc32Loop bs 0xFFFFFFFF = (bs.foldl Lib.Crc32.byte 0xffffffff).toNat := crc32Loop_toNat bs 0xffffffff
  apply UInt32.toNat_inj.1
  rw [referenceCrc32, Lib.Crc32.crc32, hloop, ← UInt32.toNat_toBitVec]
  generalize bs.foldl Lib.Crc32.byte 0xffffffff = x
  have hnot : ~~~ x = x ^^^ 0xffffffff := by
    rw [← BitVec.xor_allOnes]
    rfl
  rw [hnot]
  simp [UInt32.toNat_ofNat]

/-- The check value of CRC-32: the checksum of the digits 1 to 9. -/
example : referenceCrc32 [0x31, 0x32, 0x33, 0x34, 0x35, 0x36, 0x37, 0x38, 0x39] = 0xCBF43926 := by
  decide +kernel

def referencePlatform : Platform where
  crc32 := referenceCrc32
  sort key l := l.insertionSort fun a b => key a ≤ key b
  sort_perm key l := List.perm_insertionSort _ _
  sort_sorted key l := by
    have : Std.Total fun a b => key a ≤ key b := ⟨fun a b => Nat.le_total _ _⟩
    have : IsTrans _ fun a b => key a ≤ key b := ⟨fun a b c => Nat.le_trans⟩
    exact List.pairwise_insertionSort _ _

def sampleEntry (first last : UInt64) : GptEntry :=
  ⟨Vector.replicate 16 1, Vector.replicate 16 1, first, last, 0, Vector.replicate 36 0⟩

def nullEntry : GptEntry :=
  ⟨Vector.replicate 16 0, Vector.replicate 16 0, 0, 0, 0, Vector.replicate 36 0⟩

def sampleHeader (current backup first last entries : UInt64) (table : List GptEntry) : GptHeader :=
  GptHeader.updateCrc referencePlatform
    { magic := gptMagic, revision := 0, size := 92, crc32 := 0, reserved0 := 0, current, backup,
      first, last, guid := Vector.replicate 16 7, entries,
      entriesCount := UInt32.ofNat table.length, entriesSize := 128,
      entriesCrc := referenceCrc32 (GptEntry.codec.encAll table) }

end Gbl.Storage
