import Gbl.Integration
import Gbl.Partitions.Io

/-!
# Partition reads of libavb (`libgbl/src/gbl_avb/ops.rs`)

libavb reads with a signed offset, where a negative one counts from the end of the partition.
-/

namespace Gbl.Avb

open Lib Lib.Exec Gbl.Storage Partitions

def orOutside : Result Nat → Res IoError Nat
  | .ok n => .ok n
  | .error _ => .error (.err .rangeOutsidePartition)

def readOffset (partitionSize : SafeNum) (offset : Int) : Res IoError SafeNum :=
  if offset < 0 then
    if offset = -2 ^ 63 then .error .panic else .ok (partitionSize - SafeNum.ofNat offset.natAbs)
  else .ok (SafeNum.ofNat offset.toNat)

def readRange (size : Nat) (offset : Int) : Res IoError (Nat × Nat) := do
  let partitionSize := SafeNum.ofNat size
  let readOff ← readOffset partitionSize offset
  let readSz := partitionSize - readOff
  let readOff ← orOutside readOff.toU64
  let readSz ← orOutside readSz.toU64
  pure (readOff, readSz)

def readError : Error → IoError
  | .notFound => .noSuchPartition
  | .arithmeticOverflow => .rangeOutsidePartition
  | _ => .io

def readFromPartition (offset : Int) : Exec IoError (PartitionIo × Buf) Nat := do
  let s ← get
  let size ← mapErr (fun _ => IoError.io) (lift s.1.size)
  let range ← lift (readRange size offset)
  let readSz := min s.2.len range.2
  mapErr readError (zoom (fun s => (s.1, s.2.sub 0 readSz)) (fun s t => (t.1, s.2.patch 0 t.2.bytes))
    (PartitionIo.read range.1))
  pure readSz

def start (size : Nat) (offset : Int) : Int := if offset < 0 then size + offset else offset

def Inside (size : Nat) (offset : Int) : Prop := 0 ≤ start size offset ∧ start size offset ≤ size

variable {p : PartitionIo} {b : Buf} {offset : Int} {size : Nat}

theorem readRange_eq (hsize : size < 2 ^ 64) (hmin : -2 ^ 63 < offset) (hmax : offset < 2 ^ 63) : (Inside size offset →
      readRange size offset = .ok ((start size offset).toNat, size - (start size offset).toNat)) ∧
    (¬ Inside size offset → readRange size offset = .error (.err .rangeOutsidePartition)) := by
  unfold Inside start readRange readOffset
  rw [SafeNum.ofNat_of_lt hsize]
  by_cases hneg : offset < 0
  · simp only [hneg, if_true]
    rw [if_neg (by omega), SafeNum.ofNat_of_lt (by omega), SafeNum.valid_sub]
    by_cases hle : offset.natAbs ≤ size
    · rw [if_pos hle]
      refine ⟨fun _ => ?_, fun h => absurd ⟨by omega, by omega⟩ h⟩
      have hstart : ((size : Int) + offset).toNat = size - offset.natAbs := by omega
      rw [hstart]
      show (orOutside (SafeNum.toU64 (.valid _ - .valid _)) >>= _) = _
      rw [SafeNum.valid_sub, if_pos (by omega)]
      rfl
    · rw [if_neg hle]
      exact ⟨fun h => absurd h.1 (by omega), fun _ => rfl⟩
  · simp only [hneg, if_false]
    rw [SafeNum.ofNat_of_lt (by omega)]
    show (_ → (orOutside (SafeNum.toU64 (.valid _ - .valid _)) >>= _) = _) ∧
      (_ → (orOutside (SafeNum.toU64 (.valid _ - .valid _)) >>= _) = _)
    rw [SafeNum.valid_sub]
    by_cases hle : offset.toNat ≤ size
    · rw [if_pos hle]
      exact ⟨fun _ => rfl, fun h => absurd ⟨by omega, by omega⟩ h⟩
    · rw [if_neg hle]
      exact ⟨fun h => absurd h.2 (by omega), fun _ => rfl⟩

def ReadsPartition (p : PartitionIo) (b : Buf) (offset : Int) (size : Nat) : Prop :=
  let out := readFromPartition offset (p, b)
  let n := min b.len (size - (start size offset).toNat)
  (Inside size offset → out.1 = .ok n ∧
    out.2.2.bytes = slice p.disk.io.content (p.partStart + (start size offset).toNat) n ++ b.bytes.drop n) ∧
  (¬ Inside size offset → out.1 = .error (.err .rangeOutsidePartition) ∧ out.2.2 = b)

theorem readFromPartition_run (h : p.Valid) : readFromPartition offset (p, b) = (do
      let range ← lift (readRange (p.partEnd - p.partStart) offset)
      let readSz := min b.len range.2
      mapErr readError (zoom (fun s => (s.1, s.2.sub 0 readSz)) (fun s t => (t.1, s.2.patch 0 t.2.bytes))
        (PartitionIo.read range.1))
      pure readSz : Exec IoError (PartitionIo × Buf) Nat) (p, b) := by
  unfold readFromPartition
  rw [bind_run_ok (get_run _), bind_run_ok (mapErr_run_ok (lift_run_ok (PartitionIo.size_eq h) _))]

/-- For an offset inside the partition everything depends on one read of the partition. -/
theorem readFromPartition_inside {off n : Nat} (h : p.Valid)
    (hrange : readRange (p.partEnd - p.partStart) offset = .ok (off, p.partEnd - p.partStart - off))
    (hn : min b.len (p.partEnd - p.partStart - off) = n) :
    readFromPartition offset (p, b) = (mapErr readError (zoom (fun s => (s.1, s.2.sub 0 n))
      (fun s t => (t.1, s.2.patch 0 t.2.bytes)) (PartitionIo.read off)) >>= fun _ => pure n) (p, b) := by
  rw [readFromPartition_run h, bind_run_ok (lift_run_ok hrange _)]
  simp only [hn]

/-- **Reads of libavb are exact** unless the offset is the smallest one, which has no absolute value, or the disk cannot
carry out the read of the range. -/
theorem readsPartition_iff (h : p.Valid) (hd : p.disk.scratch.InMemory) (hff : p.disk.io.FaultFree) (hb : b.InMemory)
    (hmin : -2 ^ 63 ≤ offset) (hmax : offset < 2 ^ 63) :
    ReadsPartition p b offset (p.partEnd - p.partStart) ↔ offset ≠ -2 ^ 63 ∧
      (Inside (p.partEnd - p.partStart) offset →
        p.disk.Reaches b.addr (p.partStart + (start (p.partEnd - p.partStart) offset).toNat)
          (min b.len (p.partEnd - p.partStart - (start (p.partEnd - p.partStart) offset).toNat))) := by
  have hlt := h.lt
  have hle := h.le
  by_cases hoff : offset = -2 ^ 63
  · subst hoff
    have hdies : (readFromPartition (-2 ^ 63) (p, b)).1 = .error .panic := by
      rw [readFromPartition_run h]
      rfl
    refine iff_of_false (fun hreads => ?_) fun hcond => hcond.1 rfl
    by_cases hinside : Inside (p.partEnd - p.partStart) (-2 ^ 63)
    · cases hdies.symm.trans (hreads.1 hinside).1
    · cases hdies.symm.trans (hreads.2 hinside).1
  obtain ⟨hin, hout⟩ := readRange_eq (show p.partEnd - p.partStart < 2 ^ 64 by omega) (by omega) hmax
  unfold ReadsPartition
  by_cases hinside : Inside (p.partEnd - p.partStart) offset
  swap
  · rw [readFromPartition_run h,
      bind_run_error (show lift (readRange _ offset) _ = _ from congrArg (·, _) (hout hinside))]
    exact iff_of_true ⟨fun hyes => absurd hyes hinside, fun _ => ⟨rfl, rfl⟩⟩ ⟨hoff, fun hyes => absurd hyes hinside⟩
  have hrange := hin hinside
  have hbound : (start (p.partEnd - p.partStart) offset).toNat ≤ p.partEnd - p.partStart := by
    have := hinside.1
    have := hinside.2
    omega
  generalize (start (p.partEnd - p.partStart) offset).toNat = off at hrange hbound ⊢
  generalize hn : min b.len (p.partEnd - p.partStart - off) = n
  have hlen : (b.sub 0 n).len = n := b.sub_len (by omega)
  have hmem : (b.sub 0 n).InMemory := hb.sub (by omega) hb.addr_lt
  have hfits : p.Fits off n := by
    unfold PartitionIo.Fits
    omega
  have ho : off < 2 ^ 64 := by omega
  have hexact := PartitionIo.readsExactly_iff h hd hff ho hmem
  have hok := PartitionIo.read_ok h hd ho hmem
  unfold PartitionIo.ReadsExactly at hexact
  rw [hlen] at hexact hok
  rw [readFromPartition_inside h hrange hn]
  obtain ⟨⟨r, p', b'⟩, hrun⟩ : ∃ out, PartitionIo.read off (p, b.sub 0 n) = out := ⟨_, rfl⟩
  have hzoom : zoom (fun s : PartitionIo × Buf => (s.1, s.2.sub 0 n)) (fun s t => (t.1, s.2.patch 0 t.2.bytes))
      (PartitionIo.read off) (p, b) = (r, (p', b.patch 0 b'.bytes)) := by
    unfold zoom
    simp only [hrun]
  rw [hrun] at hexact hok
  constructor
  · intro hreads
    refine ⟨hoff, fun _ => ?_⟩
    obtain ⟨u, s', hm, -⟩ := bind_run_eq_ok (Prod.ext (hreads.1 hinside).1 rfl)
    have hr : r = .ok u := congrArg Prod.fst (hzoom.symm.trans (mapErr_run_eq_ok hm))
    exact (hok hr).2.1
  · rintro ⟨-, hreach⟩
    obtain ⟨hiff, hbytes⟩ := hexact.2 fun _ => hreach hinside
    have hr : r = .ok () := hiff.2 hfits
    rw [hr] at hzoom
    refine ⟨fun _ => ?_, fun hno => absurd hinside hno⟩
    rw [bind_run_ok (mapErr_run_ok hzoom)]
    have hlength : b'.bytes.length = n := by rw [hbytes hr, length_slice]
    refine ⟨rfl, ?_⟩
    show splice b.bytes 0 b'.bytes = _
    rw [splice_zero, hlength, hbytes hr]

/-- The byte before the end of a partition of two bytes, read into a buffer of two. -/
theorem readsPartition_last :
    ReadsPartition ⟨PartitionIo.smallDisk, 4, 6⟩ ⟨64, [7, 8]⟩ (-1) 2 := by
  refine (readsPartition_iff ⟨by decide, by decide⟩ ⟨by decide, by decide, by decide⟩ (fun _ => rfl)
    ⟨by decide, by decide, by decide⟩ (by decide) (by decide)).2 ⟨by decide, fun _ => ?_⟩
  exact PartitionIo.smallDisk_usable.reaches (by decide) (by decide) (.inl (by decide))

/-- The smallest offset. -/
theorem readFromPartition_dies :
    (readFromPartition (-2 ^ 63) (⟨PartitionIo.smallDisk, 4, 5⟩, ⟨64, [7, 8]⟩)).1 = .error .panic := by
  decide +kernel

end Gbl.Avb
