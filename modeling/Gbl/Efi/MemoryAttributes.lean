import Gbl.Integration
import Gbl.SafeMath
import Gbl.Lib.Extent

/-!
# The memory attributes item for Fuchsia (`efi/src/fuchsia_boot.rs`)

`generate_efi_memory_attributes_table_item` is to write, for each runtime region of the memory map, the items of the
attributes table that lie in it and a descriptor for each part that no item describes.
-/

namespace Gbl.Efi

open Lib Lib.Exec

def pageSize : Nat := 4096

def emaRuntime : Nat := 0x8000000000000000

def descriptorBytes : Nat := 40

def headerBytes : Nat := 16

structure EfiMemoryDescriptor where
  memoryType : Nat
  physicalStart : Nat
  virtualStart : Nat
  numberOfPages : Nat
  attributes : Nat
  deriving DecidableEq, Repr

namespace EfiMemoryDescriptor

def len (d : EfiMemoryDescriptor) : Nat := d.numberOfPages * pageSize

def extent (d : EfiMemoryDescriptor) : Extent := ⟨d.physicalStart, d.len⟩

def stop (d : EfiMemoryDescriptor) : Nat := d.physicalStart + d.len

def Runtime (d : EfiMemoryDescriptor) : Prop := d.attributes &&& emaRuntime ≠ 0

def Sizable (d : EfiMemoryDescriptor) : Prop := d.len < 2 ^ 64

instance (d : EfiMemoryDescriptor) : Decidable d.Runtime := inferInstanceAs (Decidable (_ ≠ _))
instance (d : EfiMemoryDescriptor) : Decidable d.Sizable := inferInstanceAs (Decidable (_ < _))

def encode (d : EfiMemoryDescriptor) : List UInt8 :=
  leBytes 4 d.memoryType ++ leBytes 4 0 ++ leBytes 8 d.physicalStart ++ leBytes 8 d.virtualStart ++
    leBytes 8 d.numberOfPages ++ leBytes 8 d.attributes

def decode (bs : List UInt8) : EfiMemoryDescriptor where
  memoryType := leValue (bs.take 4)
  physicalStart := leValue ((bs.drop 8).take 8)
  virtualStart := leValue ((bs.drop 16).take 8)
  numberOfPages := leValue ((bs.drop 24).take 8)
  attributes := leValue ((bs.drop 32).take 8)

def decodeEach (size : Nat) (bs : List UInt8) : List EfiMemoryDescriptor :=
  (List.range (bs.length / size)).map fun i => decode (bs.drop (i * size))

end EfiMemoryDescriptor

open EfiMemoryDescriptor (decodeEach)

structure EfiMemoryMap where
  buffer : List UInt8
  descriptorSize : Nat
  large : descriptorBytes ≤ descriptorSize
  whole : descriptorSize ∣ buffer.length

def EfiMemoryMap.descriptors (m : EfiMemoryMap) : List EfiMemoryDescriptor :=
  decodeEach m.descriptorSize m.buffer

structure EfiMemoryAttributesTable where
  descriptorSize : Nat
  tail : List UInt8
  large : descriptorBytes ≤ descriptorSize

def EfiMemoryAttributesTable.items (t : EfiMemoryAttributesTable) : List EfiMemoryDescriptor :=
  decodeEach t.descriptorSize t.tail

def generated (memoryType base size : Nat) : EfiMemoryDescriptor where
  memoryType := memoryType
  physicalStart := base
  virtualStart := 0
  numberOfPages := size / pageSize
  attributes := emaRuntime

def reserve : Exec Error Nat Unit := do
  let tail ← get
  lift (ensure (descriptorBytes ≤ tail) (.bufferTooSmall (some descriptorBytes)))
  modify (· - descriptorBytes)

def cover (desc : EfiMemoryDescriptor) :
    List EfiMemoryDescriptor → Nat → Nat → Exec Error Nat (List EfiMemoryDescriptor)
  | [], base, size =>
    if size ≠ 0 then do
      reserve
      pure [generated desc.memoryType base size]
    else pure []
  | item :: items, base, size =>
    if base < item.physicalStart then do
      reserve
      let size ← lift (subU64 size (item.physicalStart - base))
      let rest ← cover desc items item.physicalStart size
      pure (generated item.memoryType base (item.physicalStart - base) :: rest)
    else do
      reserve
      let len ← lift (mulU64 item.numberOfPages pageSize)
      let base ← lift (addU64 base len)
      let size ← lift (subU64 size len)
      let rest ← cover desc items base size
      pure (item :: rest)

def itemsIn (table : List EfiMemoryDescriptor) (base size : Nat) : Result (List EfiMemoryDescriptor) :=
  match table.dropWhile (·.physicalStart < base) with
  | [] => .ok []
  | item :: items => do
    let stop ← addU64 base size
    .ok ((item :: items).takeWhile (·.physicalStart < stop))

def describe (table : List EfiMemoryDescriptor) (desc : EfiMemoryDescriptor) :
    Exec Error Nat (List EfiMemoryDescriptor) :=
  if desc.Runtime then do
    let size ← lift (SafeNum.ofNat desc.numberOfPages * SafeNum.ofNat pageSize).toU64
    let items ← lift (itemsIn table desc.physicalStart size)
    cover desc items desc.physicalStart size
  else pure []

def describeAll (table : List EfiMemoryDescriptor) :
    List EfiMemoryDescriptor → Exec Error Nat (List (List EfiMemoryDescriptor))
  | [] => pure []
  | desc :: descs => do
    let written ← describe table desc
    let rest ← describeAll table descs
    pure (written :: rest)

structure ZbiContainer where
  getNextPayload : Except Nat Nat
  createEntry : Nat → Except Nat Unit

structure AttributesItem where
  version : Nat
  numberOfEntries : Nat
  descriptorSize : Nat
  reserved : Nat
  parts : List (List EfiMemoryDescriptor)
  deriving DecidableEq, Repr

def generateEfiMemoryAttributesTableItem (m : EfiMemoryMap) (t : EfiMemoryAttributesTable)
    (zbiItems : ZbiContainer) : Res IntegrationError AttributesItem :=
  match zbiItems.getNextPayload with
  | .error code => .error (.err (.zbiError code))
  | .ok provided =>
    if provided < headerBytes then .error (.err (.unificationError .badBufferSize))
    else
      match mapErr .unificationError (describeAll t.items m.descriptors) (provided - headerBytes) with
      | (.error e, _) => .error e
      | (.ok parts, tail) =>
        let usedPayload := provided - tail
        -- `try_into().unwrap()` to a `u32`.
        if 2 ^ 32 ≤ usedPayload / descriptorBytes then .error .panic
        else
          match zbiItems.createEntry usedPayload with
          | .error code => .error (.err (.zbiError code))
          | .ok () => .ok {
              version := 1
              numberOfEntries := usedPayload / descriptorBytes
              descriptorSize := descriptorBytes
              reserved := 0
              parts := parts }

/-! ## What the loop writes -/

variable {desc item : EfiMemoryDescriptor} {items table : List EfiMemoryDescriptor} {base room : Nat}

def written (desc : EfiMemoryDescriptor) : List EfiMemoryDescriptor → Nat → List EfiMemoryDescriptor
  | [], base => if base = desc.stop then [] else [generated desc.memoryType base (desc.stop - base)]
  | item :: items, base =>
    if base < item.physicalStart then
      generated item.memoryType base (item.physicalStart - base) :: written desc items item.physicalStart
    else item :: written desc items (base + item.len)

def Fits (desc : EfiMemoryDescriptor) : List EfiMemoryDescriptor → Nat → Prop
  | [], _ => True
  | item :: items, base =>
    if base < item.physicalStart then Fits desc items item.physicalStart
    else base + item.len ≤ desc.stop ∧ Fits desc items (base + item.len)

theorem written_gap (h : base < item.physicalStart) : written desc (item :: items) base =
    generated item.memoryType base (item.physicalStart - base) :: written desc items item.physicalStart := if_pos h

theorem written_item (h : ¬ base < item.physicalStart) :
    written desc (item :: items) base = item :: written desc items (base + item.len) := if_neg h

theorem fits_gap (h : base < item.physicalStart) :
    Fits desc (item :: items) base ↔ Fits desc items item.physicalStart := by
  rw [Fits, if_pos h]

theorem fits_item (h : ¬ base < item.physicalStart) : Fits desc (item :: items) base ↔
    base + item.len ≤ desc.stop ∧ Fits desc items (base + item.len) := by
  rw [Fits, if_neg h]

theorem reserve_run (h : descriptorBytes ≤ room) : reserve room = (.ok (), room - descriptorBytes) := by
  unfold reserve
  rw [bind_run_ok (get_run room), bind_run_ok (lift_run_ok ((ensure_eq_ok (u := ())).2 h) room)]
  rfl

theorem reserve_short (h : ¬ descriptorBytes ≤ room) :
    reserve room = (err (.bufferTooSmall (some descriptorBytes)), room) := by
  unfold reserve
  rw [bind_run_ok (get_run room)]
  exact bind_run_error (by simp [ensure, h])

variable {size : Nat} {w : List EfiMemoryDescriptor} {tail : Nat} {parts : List (List EfiMemoryDescriptor)}

theorem cover_gap_run (h : base < item.physicalStart) (hsize : item.physicalStart - base ≤ size)
    (hroom : descriptorBytes ≤ room) :
    cover desc (item :: items) base size room =
      (cover desc items item.physicalStart (size - (item.physicalStart - base)) >>= fun rest =>
        pure (generated item.memoryType base (item.physicalStart - base) :: rest))
      (room - descriptorBytes) := by
  have hsub : subU64 size (item.physicalStart - base) = .ok (size - (item.physicalStart - base)) := if_pos hsize
  rw [cover, if_pos h, bind_run_ok (reserve_run hroom), hsub]
  rfl

theorem cover_item_run (h : ¬ base < item.physicalStart) (hlen : item.len ≤ size)
    (hstop : base + item.len < 2 ^ 64) (hroom : descriptorBytes ≤ room) :
    cover desc (item :: items) base size room =
      (cover desc items (base + item.len) (size - item.len) >>= fun rest => pure (item :: rest))
      (room - descriptorBytes) := by
  have hmul : mulU64 item.numberOfPages pageSize = .ok item.len :=
    if_pos (Nat.lt_of_le_of_lt (Nat.le_add_left ..) hstop)
  have hadd : addU64 base item.len = .ok (base + item.len) := if_pos hstop
  have hsub : subU64 size item.len = .ok (size - item.len) := if_pos hlen
  rw [cover, if_neg h, bind_run_ok (reserve_run hroom), hmul]
  show (lift (addU64 base item.len) >>= _) _ = _
  rw [hadd]
  show (lift (subU64 size item.len) >>= _) _ = _
  rw [hsub]
  rfl

theorem cover_item_panic (h : ¬ base < item.physicalStart)
    (hover : item.len ≤ size → ¬ base + item.len < 2 ^ 64) (hroom : descriptorBytes ≤ room) :
    (cover desc (item :: items) base size room).1 = panic := by
  rw [cover, if_neg h, bind_run_ok (reserve_run hroom)]
  by_cases hmul : item.numberOfPages * pageSize < 2 ^ 64
  · rw [show mulU64 item.numberOfPages pageSize = .ok item.len from if_pos hmul]
    show ((lift (addU64 base item.len) >>= _) _).1 = _
    by_cases hadd : base + item.len < 2 ^ 64
    · rw [show addU64 base item.len = .ok (base + item.len) from if_pos hadd]
      show ((lift (subU64 size item.len) >>= _) _).1 = _
      rw [show subU64 size item.len = panic from if_neg fun hsize => hover hsize hadd]
      rfl
    · rw [show addU64 base item.len = panic from if_neg hadd]
      rfl
  · rw [show mulU64 item.numberOfPages pageSize = panic from if_neg hmul]
    rfl

theorem cover_short (h : ¬ descriptorBytes ≤ room) (size : Nat) :
    cover desc (item :: items) base size room = (err (.bufferTooSmall (some descriptorBytes)), room) := by
  rw [cover]
  split
  · exact bind_run_error (reserve_short h)
  · exact bind_run_error (reserve_short h)

def need (written : List EfiMemoryDescriptor) : Nat := descriptorBytes * written.length

theorem need_cons (e : EfiMemoryDescriptor) (w : List EfiMemoryDescriptor) :
    need (e :: w) = descriptorBytes + need w := by
  rw [need, List.length_cons, Nat.mul_succ, Nat.add_comm]
  rfl

def Writes (m : Exec Error Nat (List EfiMemoryDescriptor)) (w : List EfiMemoryDescriptor) (room : Nat) :
    Prop :=
  (need w ≤ room → m room = (.ok w, room - need w)) ∧
    (room < need w → (m room).1 = err (.bufferTooSmall (some descriptorBytes)))

theorem writes_cons {m : Exec Error Nat (List EfiMemoryDescriptor)} {e : EfiMemoryDescriptor}
    {n : Exec Error Nat (List EfiMemoryDescriptor)}
    (hshort : ¬ descriptorBytes ≤ room → n room = (err (.bufferTooSmall (some descriptorBytes)), room))
    (hrun : descriptorBytes ≤ room → n room = (m >>= fun rest => pure (e :: rest)) (room - descriptorBytes))
    (hm : Writes m w (room - descriptorBytes)) : Writes n (e :: w) room := by
  constructor
  · intro hroom
    rw [need_cons] at hroom ⊢
    rw [hrun (by omega), bind_run_ok (hm.1 (by omega)), Nat.sub_sub]
    rfl
  · intro hroom
    rw [need_cons] at hroom
    by_cases hone : descriptorBytes ≤ room
    · rw [hrun hone]
      have hfail := hm.2 (by omega)
      exact congrArg Prod.fst (bind_run_error (Prod.ext hfail rfl))
    · rw [hshort hone]

theorem cover_writes (hhi : items ≠ [] → desc.stop < 2 ^ 64)
    (hstart : ∀ it ∈ items, it.physicalStart < desc.stop) (hle : base ≤ desc.stop)
    (hfits : Fits desc items base) (room : Nat) :
    Writes (cover desc items base (desc.stop - base)) (written desc items base) room := by
  induction items generalizing base room with
  | nil =>
    by_cases hend : base = desc.stop
    · rw [written, if_pos hend]
      refine ⟨fun _ => ?_, fun h => absurd h (Nat.not_lt_zero room)⟩
      rw [cover, if_neg (by omega)]
      rfl
    · rw [written, if_neg hend]
      have hrun : cover desc [] base (desc.stop - base) room = (reserve >>= fun _ => pure
          [generated desc.memoryType base (desc.stop - base)]) room := by
        rw [cover, if_pos (by omega)]
      constructor
      · intro hroom
        rw [hrun, bind_run_ok (reserve_run hroom)]
        rfl
      · intro hroom
        rw [hrun, bind_run_error (reserve_short (Nat.not_le.2 hroom))]
  | cons item items ih =>
    have hlt := hhi (List.cons_ne_nil _ _)
    have hnext := hstart item List.mem_cons_self
    have hrest : ∀ it ∈ items, it.physicalStart < desc.stop := fun it hit => hstart it (List.mem_cons_of_mem _ hit)
    by_cases hgap : base < item.physicalStart
    · rw [written_gap hgap]
      rw [fits_gap hgap] at hfits
      refine writes_cons (fun h => cover_short h _) (fun h => cover_gap_run hgap (by omega) h) ?_
      have hsize : desc.stop - base - (item.physicalStart - base) = desc.stop - item.physicalStart := by omega
      rw [hsize]
      exact ih (fun _ => hlt) hrest (Nat.le_of_lt hnext) hfits _
    · rw [written_item hgap]
      rw [fits_item hgap] at hfits
      refine writes_cons (fun h => cover_short h _)
        (fun h => cover_item_run hgap (by omega) (Nat.lt_of_le_of_lt hfits.1 hlt) h) ?_
      rw [Nat.sub_sub]
      exact ih (fun _ => hlt) hrest hfits.1 hfits.2 _

theorem cover_panic (hstart : ∀ it ∈ items, it.physicalStart < desc.stop) (hle : base ≤ desc.stop)
    (hfits : ¬ Fits desc items base) (hroom : need items ≤ room) :
    (cover desc items base (desc.stop - base) room).1 = panic := by
  induction items generalizing base room with
  | nil => exact absurd trivial hfits
  | cons item items ih =>
    rw [need_cons] at hroom
    have hone : descriptorBytes ≤ room := by omega
    have hmore : need items ≤ room - descriptorBytes := by omega
    have hnext := hstart item List.mem_cons_self
    have hrest : ∀ it ∈ items, it.physicalStart < desc.stop := fun it hit => hstart it (List.mem_cons_of_mem _ hit)
    by_cases hgap : base < item.physicalStart
    · rw [fits_gap hgap] at hfits
      have hsize : desc.stop - base - (item.physicalStart - base) = desc.stop - item.physicalStart := by omega
      rw [cover_gap_run hgap (by omega) hone, hsize]
      have hstop := ih hrest (Nat.le_of_lt hnext) hfits hmore
      exact congrArg Prod.fst (bind_run_error (Prod.ext hstop rfl))
    · rw [fits_item hgap] at hfits
      by_cases hend : base + item.len ≤ desc.stop ∧ base + item.len < 2 ^ 64
      · rw [cover_item_run hgap (by omega) hend.2 hone, Nat.sub_sub]
        have hstop := ih hrest hend.1 (fun h => hfits ⟨hend.1, h⟩) hmore
        exact congrArg Prod.fst (bind_run_error (Prod.ext hstop rfl))
      · exact cover_item_panic hgap (fun hsize hlt => hend ⟨by omega, hlt⟩) hone

/-! ## Which items the loop sees -/

def tableIn (table : List EfiMemoryDescriptor) (desc : EfiMemoryDescriptor) : List EfiMemoryDescriptor :=
  table.filter fun it => desc.physicalStart ≤ it.physicalStart && it.physicalStart < desc.stop

def InOrder (table : List EfiMemoryDescriptor) : Prop :=
  table.Pairwise fun a b => a.stop ≤ b.physicalStart

theorem mem_tableIn : item ∈ tableIn table desc ↔
    item ∈ table ∧ desc.physicalStart ≤ item.physicalStart ∧ item.physicalStart < desc.stop := by
  simp [tableIn]

theorem physicalStart_le_of_stop_le {a b : EfiMemoryDescriptor} (h : a.stop ≤ b.physicalStart) :
    a.physicalStart ≤ b.physicalStart := (Nat.le_add_right ..).trans h

theorem dropWhile_eq_filter (h : InOrder table) (lo : Nat) :
    table.dropWhile (·.physicalStart < lo) = table.filter (fun it => lo ≤ it.physicalStart) := by
  induction h with
  | nil => rfl
  | @cons a l hle _ ih =>
    by_cases hlow : a.physicalStart < lo
    · rw [List.dropWhile_cons_of_pos (by simpa using hlow), List.filter_cons_of_neg (by simpa using hlow), ih]
    · rw [List.dropWhile_cons_of_neg (by simpa using hlow), List.filter_cons_of_pos (by simpa using hlow)]
      have hall : ∀ b ∈ l, decide (lo ≤ b.physicalStart) = true := by
        intro b hb
        have := physicalStart_le_of_stop_le (hle b hb)
        simp
        omega
      rw [List.filter_eq_self.2 hall]

theorem takeWhile_eq_filter (h : InOrder table) (hi : Nat) :
    table.takeWhile (·.physicalStart < hi) = table.filter (·.physicalStart < hi) := by
  induction h with
  | nil => rfl
  | @cons a l hle _ ih =>
    by_cases hlow : a.physicalStart < hi
    · rw [List.takeWhile_cons_of_pos (by simpa using hlow), List.filter_cons_of_pos (by simpa using hlow), ih]
    · rw [List.takeWhile_cons_of_neg (by simpa using hlow), List.filter_cons_of_neg (by simpa using hlow)]
      have hnone : ∀ b ∈ l, ¬ decide (b.physicalStart < hi) = true := by
        intro b hb
        have := physicalStart_le_of_stop_le (hle b hb)
        simp
        omega
      rw [List.filter_eq_nil_iff.2 hnone]

def EndFits (table : List EfiMemoryDescriptor) (desc : EfiMemoryDescriptor) : Prop :=
  (∃ it ∈ table, desc.physicalStart ≤ it.physicalStart) → desc.stop < 2 ^ 64

theorem itemsIn_eq_ok (h : InOrder table) (hend : EndFits table desc) :
    itemsIn table desc.physicalStart desc.len = .ok (tableIn table desc) := by
  have hdrop := dropWhile_eq_filter h desc.physicalStart
  have htake : tableIn table desc =
      (table.dropWhile (·.physicalStart < desc.physicalStart)).takeWhile (·.physicalStart < desc.stop) := by
    rw [hdrop, takeWhile_eq_filter (List.Pairwise.filter _ h), List.filter_filter]
    exact List.filter_congr fun it _ => Bool.and_comm ..
  unfold itemsIn
  split
  · next hnil =>
    rw [htake, hnil]
    rfl
  · next it its hcons =>
    have hin : it ∈ table.filter (fun it => desc.physicalStart ≤ it.physicalStart) := by
      rw [← hdrop, hcons]
      exact List.mem_cons_self
    have hlt : desc.stop < 2 ^ 64 := by
      refine hend ⟨it, List.mem_of_mem_filter hin, ?_⟩
      simpa using List.of_mem_filter hin
    rw [addU64_eq_ok.2 ⟨hlt, rfl⟩, htake, hcons]
    rfl

theorem itemsIn_eq_panic (h : InOrder table) (hend : ¬ EndFits table desc) :
    itemsIn table desc.physicalStart desc.len = panic := by
  obtain ⟨⟨it, hit, hle⟩, hge⟩ := Classical.not_imp.1 hend
  have hdrop := dropWhile_eq_filter h desc.physicalStart
  unfold itemsIn
  split
  · next hnil =>
    rw [hnil] at hdrop
    have hin : it ∈ table.filter (fun it => desc.physicalStart ≤ it.physicalStart) :=
      List.mem_filter.2 ⟨hit, by simpa using hle⟩
    rw [← hdrop] at hin
    exact absurd hin List.not_mem_nil
  · rw [show addU64 desc.physicalStart desc.len = panic from if_neg hge]
    rfl

/-! ## One region -/

def NoOverflow (table : List EfiMemoryDescriptor) (desc : EfiMemoryDescriptor) : Prop :=
  EndFits table desc ∧ Fits desc (tableIn table desc) desc.physicalStart

theorem size_eq_ok (h : desc.Sizable) :
    (SafeNum.ofNat desc.numberOfPages * SafeNum.ofNat pageSize).toU64 = .ok desc.len := by
  have hpages : desc.numberOfPages < 2 ^ 64 := by
    have hlt : desc.numberOfPages * pageSize < 2 ^ 64 := h
    simp only [pageSize] at hlt
    omega
  exact (SafeNum.mul_toU64_eq_ok hpages (by decide)).2 ⟨h, rfl⟩

theorem size_eq_err (h : ¬ desc.Sizable) :
    (SafeNum.ofNat desc.numberOfPages * SafeNum.ofNat pageSize).toU64 = err .arithmeticOverflow := by
  by_cases hpages : desc.numberOfPages < 2 ^ 64
  · rw [SafeNum.ofNat_of_lt hpages, SafeNum.ofNat_of_lt (by decide), SafeNum.valid_mul,
      show SafeNum.ofNat (desc.numberOfPages * pageSize) = .error from SafeNum.ofNat_of_ge (Nat.not_lt.1 h)]
    rfl
  · rw [SafeNum.ofNat_of_ge (Nat.not_lt.1 hpages)]
    rfl

theorem describe_of_not_runtime (h : ¬ desc.Runtime) : describe table desc room = (.ok [], room) := by
  rw [describe, if_neg h]
  rfl

def part (table : List EfiMemoryDescriptor) (desc : EfiMemoryDescriptor) : List EfiMemoryDescriptor :=
  if desc.Runtime then written desc (tableIn table desc) desc.physicalStart else []

theorem describe_unsizable (hrun : desc.Runtime) (hsize : ¬ desc.Sizable) :
    describe table desc room = (err .arithmeticOverflow, room) := by
  rw [describe, if_pos hrun]
  exact bind_run_error (by rw [size_eq_err hsize]; rfl)

theorem describe_eq_cover (h : InOrder table) (hrun : desc.Runtime) (hsize : desc.Sizable)
    (hend : EndFits table desc) : describe table desc room =
      cover desc (tableIn table desc) desc.physicalStart (desc.stop - desc.physicalStart) room := by
  rw [describe, if_pos hrun, bind_run_ok (lift_run_ok (size_eq_ok hsize) room),
    bind_run_ok (lift_run_ok (itemsIn_eq_ok h hend) room), EfiMemoryDescriptor.stop, Nat.add_sub_cancel_left]

theorem describe_writes (h : InOrder table) (hquiet : desc.Runtime → desc.Sizable ∧ NoOverflow table desc)
    (room : Nat) : Writes (describe table desc) (part table desc) room := by
  by_cases hrun : desc.Runtime
  · obtain ⟨hsize, hend, hfits⟩ := hquiet hrun
    have hstart : ∀ it ∈ tableIn table desc, it.physicalStart < desc.stop := fun it hit => (mem_tableIn.1 hit).2.2
    have hhi : tableIn table desc ≠ [] → desc.stop < 2 ^ 64 := by
      intro hne
      obtain ⟨it, hit⟩ := List.exists_mem_of_ne_nil _ hne
      obtain ⟨hmem, hlo, -⟩ := mem_tableIn.1 hit
      exact hend ⟨it, hmem, hlo⟩
    have hwrites := cover_writes hhi hstart (Nat.le_add_right ..) hfits room
    rw [part, if_pos hrun]
    unfold Writes
    rw [describe_eq_cover h hrun hsize hend]
    exact hwrites
  · rw [part, if_neg hrun]
    refine ⟨fun _ => ?_, fun hlt => absurd hlt (Nat.not_lt_zero room)⟩
    exact describe_of_not_runtime hrun

theorem describe_panic (h : InOrder table) (hrun : desc.Runtime) (hsize : desc.Sizable)
    (hover : ¬ NoOverflow table desc) (hroom : need (tableIn table desc) ≤ room) :
    (describe table desc room).1 = panic := by
  by_cases hend : EndFits table desc
  · rw [describe_eq_cover h hrun hsize hend]
    have hstart : ∀ it ∈ tableIn table desc, it.physicalStart < desc.stop := fun it hit => (mem_tableIn.1 hit).2.2
    exact cover_panic hstart (Nat.le_add_right ..) (fun hfits => hover ⟨hend, hfits⟩) hroom
  · rw [describe, if_pos hrun, bind_run_ok (lift_run_ok (size_eq_ok hsize) room)]
    exact congrArg Prod.fst (bind_run_error (by rw [itemsIn_eq_panic h hend]; rfl))

/-! ## The whole map -/

variable {descs : List EfiMemoryDescriptor}

def Quiet (table : List EfiMemoryDescriptor) : List EfiMemoryDescriptor → Prop
  | [] => True
  | desc :: descs => (desc.Runtime → desc.Sizable → NoOverflow table desc) ∧
      ((desc.Runtime → desc.Sizable) → Quiet table descs)

theorem describeAll_cons_ok (h : describe table desc room = (.ok w, tail)) : describeAll table (desc :: descs) room =
      (describeAll table descs >>= fun rest => pure (w :: rest)) tail := by
  rw [describeAll, bind_run_ok h]

theorem reserve_eq_ok {u : Unit} (h : reserve room = (.ok u, tail)) : room = descriptorBytes + tail := by
  by_cases hroom : descriptorBytes ≤ room
  · rw [reserve_run hroom] at h
    obtain ⟨-, rfl⟩ := Prod.mk.inj h
    omega
  · rw [reserve_short hroom] at h
    cases congrArg Prod.fst h

theorem cover_room (h : cover desc items base size room = (.ok w, tail)) : room = tail + need w := by
  induction items generalizing base size room w with
  | nil =>
    rw [cover] at h
    split at h
    · obtain ⟨_, room', hres, hw⟩ := bind_run_eq_ok h
      cases hw
      rw [reserve_eq_ok hres, Nat.add_comm]
      rfl
    · cases h
      rfl
  | cons item items ih =>
    rw [cover] at h
    split at h
    · obtain ⟨_, room', hres, h⟩ := bind_run_eq_ok h
      obtain ⟨_, -, h⟩ := lift_bind_run_eq_ok h
      obtain ⟨rest, tail', hrest, hw⟩ := bind_run_eq_ok h
      cases hw
      rw [reserve_eq_ok hres, ih hrest, need_cons]
      omega
    · obtain ⟨_, room', hres, h⟩ := bind_run_eq_ok h
      obtain ⟨_, -, h⟩ := lift_bind_run_eq_ok h
      obtain ⟨_, -, h⟩ := lift_bind_run_eq_ok h
      obtain ⟨_, -, h⟩ := lift_bind_run_eq_ok h
      obtain ⟨rest, tail', hrest, hw⟩ := bind_run_eq_ok h
      cases hw
      rw [reserve_eq_ok hres, ih hrest, need_cons]
      omega

theorem describe_room (h : describe table desc room = (.ok w, tail)) : room = tail + need w := by
  rw [describe] at h
  split at h
  · obtain ⟨_, -, h⟩ := lift_bind_run_eq_ok h
    obtain ⟨_, -, h⟩ := lift_bind_run_eq_ok h
    exact cover_room h
  · cases h
    rfl

theorem describeAll_room (h : describeAll table descs room = (.ok parts, tail)) :
    room = tail + need parts.flatten := by
  induction descs generalizing room parts with
  | nil =>
    cases h
    rfl
  | cons desc descs ih =>
    obtain ⟨w, room', hfirst, h⟩ := bind_run_eq_ok h
    obtain ⟨ws, tail', hrest, hparts⟩ := bind_run_eq_ok h
    cases hparts
    rw [describe_room hfirst, ih hrest]
    simp only [need, List.flatten_cons, List.length_append, Nat.mul_add]
    omega

theorem not_panic_iff (h : InOrder table) :
    (∀ room, (describeAll table descs room).1 ≠ panic) ↔ Quiet table descs := by
  induction descs with
  | nil => exact iff_of_true (fun room => nofun) trivial
  | cons desc descs ih =>
    constructor
    · intro hno
      have hstep : desc.Runtime → desc.Sizable → NoOverflow table desc := by
        intro hrun hsize
        by_contra hover
        have hpanic := describe_panic h hrun hsize hover (Nat.le_refl _)
        refine hno (need (tableIn table desc)) ?_
        rw [describeAll]
        exact congrArg Prod.fst (bind_run_error (Prod.ext hpanic rfl))
      refine ⟨hstep, fun hsize => ih.1 fun room hpanic => ?_⟩
      -- The room the first part takes up is added.
      have hwrites := describe_writes h (fun hrun => ⟨hsize hrun, hstep hrun (hsize hrun)⟩)
        (room + need (part table desc))
      refine hno (room + need (part table desc)) ?_
      rw [describeAll_cons_ok (hwrites.1 (Nat.le_add_left ..)), Nat.add_sub_cancel]
      exact congrArg Prod.fst (bind_run_error (Prod.ext hpanic rfl))
    · intro ⟨hstep, hrest⟩ room
      by_cases hsize : desc.Runtime → desc.Sizable
      · have hwrites := describe_writes h (fun hrun => ⟨hsize hrun, hstep hrun (hsize hrun)⟩) room
        by_cases hroom : need (part table desc) ≤ room
        · rw [describeAll_cons_ok (hwrites.1 hroom)]
          exact fun hpanic => ih.2 (hrest hsize) _ (bind_pure_fst_eq_error hpanic)
        · have hfail := hwrites.2 (Nat.not_le.1 hroom)
          rw [describeAll, bind_run_error (Prod.ext hfail rfl)]
          exact nofun
      · obtain ⟨hrun, hbig⟩ := Classical.not_imp.1 hsize
        rw [describeAll, bind_run_error (describe_unsizable hrun hbig)]
        exact nofun

theorem describeAll_eq_ok (h : InOrder table) (hok : describeAll table descs room = (.ok parts, tail))
    (hquiet : Quiet table descs) :
    (∀ desc ∈ descs, desc.Runtime → desc.Sizable) ∧ parts = descs.map (part table) := by
  induction descs generalizing room parts with
  | nil =>
    obtain ⟨hparts, rfl⟩ := Prod.mk.inj hok
    cases hparts
    exact ⟨nofun, rfl⟩
  | cons desc descs ih =>
    obtain ⟨w, rest, hfirst, hmore⟩ := bind_run_eq_ok hok
    obtain ⟨ws, rest', hws, hparts⟩ := bind_run_eq_ok hmore
    obtain ⟨hparts, rfl⟩ := Prod.mk.inj hparts
    cases hparts
    by_cases hsize : desc.Runtime → desc.Sizable
    · have hwrites := describe_writes h (fun hrun => ⟨hsize hrun, hquiet.1 hrun (hsize hrun)⟩) room
      by_cases hroom : need (part table desc) ≤ room
      · rw [hwrites.1 hroom] at hfirst
        obtain ⟨hw, rfl⟩ := Prod.mk.inj hfirst
        cases hw
        obtain ⟨hall, rfl⟩ := ih hws (hquiet.2 hsize)
        exact ⟨List.forall_mem_cons.2 ⟨hsize, hall⟩, rfl⟩
      · have hfail := hwrites.2 (Nat.not_le.1 hroom)
        rw [hfirst] at hfail
        cases hfail
    · obtain ⟨hrun, hbig⟩ := Classical.not_imp.1 hsize
      rw [describe_unsizable hrun hbig] at hfirst
      cases congrArg Prod.fst hfirst

theorem describeAll_ok (h : InOrder table) (hquiet : Quiet table descs)
    (hsize : ∀ desc ∈ descs, desc.Runtime → desc.Sizable) :
    ∃ room tail, describeAll table descs room = (.ok (descs.map (part table)), tail) := by
  induction descs with
  | nil => exact ⟨0, 0, rfl⟩
  | cons desc descs ih =>
    obtain ⟨hfirst, hrest⟩ := List.forall_mem_cons.1 hsize
    obtain ⟨room, tail, hok⟩ := ih (hquiet.2 hfirst) hrest
    have hwrites := describe_writes h (fun hrun => ⟨hfirst hrun, hquiet.1 hrun (hfirst hrun)⟩)
      (room + need (part table desc))
    refine ⟨room + need (part table desc), tail, ?_⟩
    rw [describeAll_cons_ok (hwrites.1 (Nat.le_add_left ..)), Nat.add_sub_cancel, bind_run_ok hok]
    rfl

end Gbl.Efi
