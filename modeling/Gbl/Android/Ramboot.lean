import Gbl.Abr.Basic
import Gbl.Android.Verify
import Gbl.Fastboot.Fetch

/-!
# Booting a staged image (`libgbl`, `RambootOps`)

For `fastboot boot`, the platform's operations are wrapped: a list of partitions is taken from memory and not from the
disks.
-/

namespace Gbl.Android

open Lib Lib.Exec Partitions
open Fastboot (Bytes Text text asStr ValidUtf8 fromUtf8)
open Storage (Buf Disk)
open Abr (SlotIndex)

/-! ## The trait -/

structure PartitionOps (ω : Type) where
  disks : ω → List GblDisk
  setDisks : ω → List GblDisk → ω
  readFromPartition : Text → Nat → Exec Error (ω × Buf) Unit
  readFromPartitionSync : Text → Nat → Exec Error (ω × Buf) Unit
  partitionSize : Text → Exec Error ω (Option Nat)

section Model

variable {ω : Type}

/-- The default `read_from_partition`. -/
def diskRead (disks : ω → List GblDisk) (setDisks : ω → List GblDisk → ω) (part : Text) (off : Nat) :
    Exec Error (ω × Buf) Unit :=
  zoom (fun s => (disks s.1, s.2)) (fun s t => (setDisks s.1 t.1, t.2)) (readUniquePartition (asStr part) off)

/-- The size of the one partition of that name, if there is one. -/
def sizeOnDisks (devs : List GblDisk) (part : String) : Result (Option Nat) :=
  match checkPartUnique devs part with
  | .ok (_, p) => do
    let size ← Fastboot.partitionSize p
    pure (some size)
  | .error (.err .notFound) => pure none
  | .error e => .error e

/-- The default `partition_size`. -/
def diskPartitionSize (disks : ω → List GblDisk) (part : Text) : Exec Error ω (Option Nat) := fun w =>
  (sizeOnDisks (disks w) (asStr part), w)

/-- A platform that overrides nothing. -/
def diskOps (disks : ω → List GblDisk) (setDisks : ω → List GblDisk → ω) : PartitionOps ω where
  disks := disks
  setDisks := setDisks
  readFromPartition := diskRead disks setDisks
  readFromPartitionSync := diskRead disks setDisks
  partitionSize := diskPartitionSize disks

/-- Bytes from an image in memory. -/
def staged (data : Bytes) (off : Nat) (b : Buf) : Result Unit × Buf :=
  if off ≤ data.length ∧ b.len ≤ (data.drop off).length then (.ok (), ⟨b.addr, (data.drop off).take b.len⟩)
  else (err .outOfRange, b)

/-- The image that is preloaded for a partition. -/
def preloadedImage (preloadedPartitions : Preloaded) (part : Text) : Option Bytes :=
  (preloadedPartitions.find? (·.1 == part)).map Prod.snd

/-- `RambootOps`. -/
def rambootOps (ops : PartitionOps ω) (preloadedPartitions : Preloaded) : PartitionOps ω where
  disks := ops.disks
  setDisks := ops.setDisks
  readFromPartition := diskRead ops.disks ops.setDisks
  readFromPartitionSync part off :=
    match preloadedImage preloadedPartitions part with
    | some data => fun s => ((staged data off s.2).1, (s.1, (staged data off s.2).2))
    | none => ops.readFromPartitionSync part off
  partitionSize := diskPartitionSize ops.disks

/-! ## libavb's callbacks -/

structure GblAvbOps where
  slot : Option SlotIndex
  preloadedPartitions : Preloaded

/-- `cstr_to_str`. -/
def cstrToStr (s : Bytes) (e : IoError) : Res IoError Text :=
  match fromUtf8 s with
  | .ok t => .ok t
  | .error _ => .err e

/-- `SlotIndex::try_from`. -/
def slotIndexOf (c : UInt8) : Option SlotIndex :=
  if c = 0x61 then some .a else if c = 0x62 then some .b else if c = 0x72 then some .r else none

/-- `split_slotted`: what stands in front of the last underscore, and the slot behind it. -/
def splitSlotted (partition : Text) : Option (Text × SlotIndex) :=
  match partition.reverse with
  | c :: 0x5f :: name => (slotIndexOf c).map fun slot => (name.reverse, slot)
  | _ => none

/-- `read_off.try_into().or(Err(RangeOutsidePartition))`. -/
def orOutside (n : SafeNum) : Res IoError Nat :=
  match n with
  | .valid n => .ok n
  | .error => .err .rangeOutsidePartition

/-- Where a read starts. A negative offset counts from the end; the smallest one has no absolute value. -/
def readOff (partitionSize : SafeNum) (offset : Int) : Res IoError SafeNum :=
  if offset < 0 then
    if offset = -2 ^ 63 then .error .panic else .ok (partitionSize - (offset.natAbs : SafeNum))
  else .ok (offset.toNat : SafeNum)

/-- How a failed read is reported to libavb. -/
def ioErrorOf : Error → IoError
  | .notFound => .noSuchPartition
  | .arithmeticOverflow => .rangeOutsidePartition
  | _ => .io

namespace GblAvbOps

variable (R : PartitionOps ω)

/-- `GblAvbOps::partition_size`. -/
def partitionSize (partition : Text) : Exec IoError ω Nat := do
  match ← mapErr (fun _ => .io) (R.partitionSize partition) with
  | some size => pure size
  | none => lift (.err .noSuchPartition)

/-- `AvbOps::read_from_partition`. -/
def readFromPartition (partition : Bytes) (offset : Int) : Exec IoError (ω × Buf) Nat := do
  let part ← lift (cstrToStr partition .noSuchPartition)
  let size ← zoom Prod.fst (fun s w => (w, s.2)) (partitionSize R part)
  let off ← lift (readOff (size : SafeNum) offset)
  let start ← lift (orOutside off)
  let sz ← lift (orOutside ((size : SafeNum) - off))
  let s ← get
  let n := min s.2.len sz
  zoom (fun s => (s.1, s.2.sub 0 n)) (fun s t => (t.1, s.2.patch 0 t.2.bytes))
    (mapErr ioErrorOf (R.readFromPartitionSync part start))
  pure n

/-- `AvbOps::get_preloaded_partition`. -/
def getPreloadedPartition (A : GblAvbOps) (partition : Bytes) : Res IoError Bytes := do
  let part ← cstrToStr partition .notImplemented
  let name ← match A.slot with
    | none => .ok part
    | some slot =>
      match splitSlotted part with
      | none => .err .notImplemented
      | some (name, partSlot) => if partSlot = slot then .ok name else .err .notImplemented
  match preloadedImage A.preloadedPartitions name with
  | some data => .ok data
  | none => .err .notImplemented

/-- `AvbOps::get_size_of_partition`. -/
def getSizeOfPartition (A : GblAvbOps) (partition : Bytes) : Exec IoError ω Nat :=
  match A.getPreloadedPartition partition with
  | .ok img => pure img.length
  | .error _ => do
    let part ← lift (cstrToStr partition .noSuchPartition)
    partitionSize R part

end GblAvbOps

end Model

/-! ## One image -/

section Spec

variable {ω : Type}

/-- What a caller sees of a read: how it ended, and the buffer. -/
def seen {ε α : Type} (r : Res ε α × ω × Buf) : Res ε α × Buf := (r.1, r.2.2)

/-- What libavb should get from an image in memory. -/
def stagedAvb (data : Bytes) (offset : Int) (b : Buf) : Res IoError Nat × Buf :=
  let off : Int := if offset < 0 then data.length + offset else offset
  if 0 ≤ off ∧ off ≤ data.length then
    let n := min b.len (data.length - off.toNat)
    (.ok n, b.patch 0 ((data.drop off.toNat).take n))
  else (.err .rangeOutsidePartition, b)

/-- The loader's view `P` of the partition, in the world `w`, is that of the methods `R`. -/
structure Backs (R : PartitionOps ω) (part : Text) (w : ω) (P : GblOps ω) : Prop where
  size : R.partitionSize part w = (.ofExcept (P.partitionSize part w).1, (P.partitionSize part w).2)
  read : ∀ off b w,
    (R.readFromPartitionSync part off (w, b)).1 = .ofExcept (P.readFromPartitionSync part off b.len w).1.1 ∧
      ((P.readFromPartitionSync part off b.len w).1.1 = .ok () →
        (R.readFromPartitionSync part off (w, b)).2.2.bytes =
          slice (P.readFromPartitionSync part off b.len w).1.2 0 b.len)

/-- A buffer of any place and length, but for the end of the address space. -/
structure Ordinary (devs : List GblDisk) (b : Buf) : Prop where
  inMemory : b.InMemory
  pos : 0 < b.len
  address : ∀ g ∈ devs, b.addr + g.disk.io.info.alignment < 2 ^ 64

/-- Whoever looks at the partition sees `data`: the three methods, libavb and the loader. -/
structure Presents (R : PartitionOps ω) (part : Text) (data : Bytes) (w : ω) : Prop where
  size : (R.partitionSize part w).1 = .ok (some data.length)
  sync : ∀ off b, seen (R.readFromPartitionSync part off (w, b)) = staged data off b
  async : ∀ off b, off < 2 ^ 64 → Ordinary (R.disks w) b →
    seen (R.readFromPartition part off (w, b)) = staged data off b
  avbRead : ∀ offset b, -2 ^ 63 < offset → offset < 2 ^ 63 →
    seen (GblAvbOps.readFromPartition R part offset (w, b)) = stagedAvb data offset b
  avbSize : ∀ A : GblAvbOps, (∀ img, A.getPreloadedPartition part = .ok img → img = data) →
    (A.getSizeOfPartition R part w).1 = .ok data.length
  loaderReads : ∀ P, Backs R part w P → ∀ off d, Answers P part off d →
    off + d.length ≤ data.length ∧ d = (data.drop off).take d.length
  loaderWhole : ∀ P, Backs R part w P → ∀ (load : Extent) (s : LoadState ω), s.ops = w → data.length ≤ load.len →
    ∃ s', loadEntirePart P part load s = (.ok (load.take data.length, load.drop data.length), s') ∧
      (load.take data.length).read s'.mem = data

end Spec

section Staged

variable {ω : Type} {R : PartitionOps ω} {part : Text} {data : Bytes} {w : ω}

variable {off : Nat} {b : Buf} {offset : Int} {P : GblOps ω}

theorem staged_eq_ok (h : off + b.len ≤ data.length) :
    staged data off b = (.ok (), ⟨b.addr, (data.drop off).take b.len⟩) := by
  have hin : off ≤ data.length ∧ b.len ≤ (data.drop off).length := by
    rw [List.length_drop]
    omega
  rw [staged, if_pos hin]

theorem staged_eq_err (h : ¬ off + b.len ≤ data.length) : staged data off b = (err .outOfRange, b) := by
  have hout : ¬ (off ≤ data.length ∧ b.len ≤ (data.drop off).length) := by
    rw [List.length_drop]
    omega
  rw [staged, if_neg hout]

theorem orOutside_valid (n : Nat) : orOutside (.valid n) = .ok n := rfl

theorem orOutside_readOff {len : Nat} (hlen : len < 2 ^ 64) (hmin : -2 ^ 63 < offset) (hmax : offset < 2 ^ 63) :
    (∃ off : Nat, (off : Int) = (if offset < 0 then (len : Int) + offset else offset) ∧ off ≤ len ∧
      readOff (len : SafeNum) offset = .ok (.valid off)) ∨
    (¬ (0 ≤ (if offset < 0 then (len : Int) + offset else offset) ∧
        (if offset < 0 then (len : Int) + offset else offset) ≤ len) ∧
      ∃ n, readOff (len : SafeNum) offset = .ok n ∧ (n = .error ∨ (len : SafeNum) - n = .error)) := by
  unfold readOff
  by_cases hneg : offset < 0
  · rw [if_pos hneg, if_pos hneg, if_neg (by omega), SafeNum.ofNat_of_lt hlen,
      SafeNum.ofNat_of_lt (show offset.natAbs < 2 ^ 64 by omega), SafeNum.valid_sub]
    by_cases hle : offset.natAbs ≤ len
    · rw [if_pos hle]
      exact Or.inl ⟨len - offset.natAbs, by omega, by omega, rfl⟩
    · rw [if_neg hle]
      exact Or.inr ⟨by omega, _, rfl, Or.inl rfl⟩
  · rw [if_neg hneg, if_neg hneg, SafeNum.ofNat_of_lt hlen, SafeNum.ofNat_of_lt (show offset.toNat < 2 ^ 64 by omega)]
    by_cases hle : offset.toNat ≤ len
    · exact Or.inl ⟨offset.toNat, by omega, hle, rfl⟩
    · refine Or.inr ⟨by omega, _, rfl, Or.inr ?_⟩
      rw [SafeNum.valid_sub, if_neg hle]

/-- Sizes and contents of one image. -/
structure Shows (R : PartitionOps ω) (part : Text) (data : Bytes) (w : ω) : Prop where
  size : R.partitionSize part w = (.ok (some data.length), w)
  read : ∀ off b, R.readFromPartitionSync part off (w, b) = ((staged data off b).1, (w, (staged data off b).2))

theorem cstrToStr_of_validUtf8 (h : ValidUtf8 part) (e : IoError) : cstrToStr part e = .ok part := by
  unfold cstrToStr
  rw [show fromUtf8 part = .ok part from h]

theorem Shows.avbPartitionSize (h : Shows R part data w) :
    GblAvbOps.partitionSize R part w = (.ok data.length, w) := bind_run_ok (mapErr_run_ok h.size)

theorem Shows.avbRead (h : Shows R part data w) (hutf : ValidUtf8 part) (hlen : data.length < 2 ^ 64)
    (hmin : -2 ^ 63 < offset) (hmax : offset < 2 ^ 63) (b : Buf) :
    seen (GblAvbOps.readFromPartition R part offset (w, b)) = stagedAvb data offset b := by
  have hsize : (zoom Prod.fst (fun s w => (w, s.2)) (GblAvbOps.partitionSize R part) :
      Exec IoError (ω × Buf) Nat) (w, b) = (.ok data.length, (w, b)) := by
    simp only [zoom, h.avbPartitionSize]
  unfold GblAvbOps.readFromPartition stagedAvb
  rw [bind_run_ok (lift_run_ok (cstrToStr_of_validUtf8 hutf _) _), bind_run_ok hsize]
  obtain ⟨off, hoff, hle, hstart⟩ | ⟨hout, n, hstart, hbad⟩ := orOutside_readOff hlen hmin hmax
  · have hsub : orOutside ((data.length : SafeNum) - .valid off) = .ok (data.length - off) := by
      rw [SafeNum.ofNat_of_lt hlen, SafeNum.valid_sub, if_pos hle]
      rfl
    obtain ⟨n, hn⟩ : ∃ n, n = min b.len (data.length - off) := ⟨_, rfl⟩
    have hsublen : (b.sub 0 n).len = n := Buf.sub_len b (by omega)
    have hread : (zoom (fun s : ω × Buf => (s.1, s.2.sub 0 n)) (fun s t => (t.1, s.2.patch 0 t.2.bytes))
        (mapErr ioErrorOf (R.readFromPartitionSync part off))) (w, b) =
        (.ok (), (w, b.patch 0 ((data.drop off).take n))) := by
      have hin := staged_eq_ok (show off + (b.sub 0 n).len ≤ data.length by omega)
      have hrun := h.read off (b.sub 0 n)
      rw [hin, hsublen] at hrun
      simp only [zoom, mapErr_run_ok hrun]
    rw [bind_run_ok (lift_run_ok hstart _), bind_run_ok (lift_run_ok (orOutside_valid off) _),
      bind_run_ok (lift_run_ok hsub _),
      bind_run_ok (get_run _)]
    simp only [← hoff, Int.toNat_natCast, ← hn]
    rw [bind_run_ok hread, if_pos (by omega)]
    rfl
  · rw [bind_run_ok (lift_run_ok hstart _), if_neg hout]
    cases n with
    | error => rfl
    | valid off =>
      have hsub : (data.length : SafeNum) - .valid off = .error := hbad.resolve_left nofun
      rw [bind_run_ok (lift_run_ok (orOutside_valid off) _), hsub]
      rfl

theorem Shows.avbSize (h : Shows R part data w) (hutf : ValidUtf8 part) {A : GblAvbOps}
    (hA : ∀ img, A.getPreloadedPartition part = .ok img → img = data) :
    (A.getSizeOfPartition R part w).1 = .ok data.length := by
  unfold GblAvbOps.getSizeOfPartition
  cases himg : A.getPreloadedPartition part with
  | ok img =>
    rw [← hA img himg]
    rfl
  | error e =>
    have hrun := (bind_run_ok (lift_run_ok (cstrToStr_of_validUtf8 hutf .noSuchPartition) w)).trans h.avbPartitionSize
    exact congrArg Prod.fst hrun

theorem Backs.read_eq (hP : Backs R part w P) (len : Nat) {w' : ω}
    (hsync : ∀ b, seen (R.readFromPartitionSync part off (w', b)) = staged data off b) :
    ((P.readFromPartitionSync part off len w').1.1 = .ok () ↔ off + len ≤ data.length) ∧ (off + len ≤ data.length →
        slice (P.readFromPartitionSync part off len w').1.2 0 len = (data.drop off).take len) := by
  obtain ⟨b, hb⟩ : ∃ b : Buf, b.len = len := ⟨⟨0, List.replicate len 0⟩, List.length_replicate⟩
  obtain ⟨hres, hbytes⟩ := hP.read off b w'
  have hseen := hsync b
  rw [hb] at hres hbytes
  have hone : (P.readFromPartitionSync part off len w').1.1 = .ok () ↔ (staged data off b).1 = .ok () := by
    rw [← hseen, seen, hres, Res.ofExcept_eq_ok]
  by_cases hin : off + len ≤ data.length
  · rw [staged_eq_ok (by rwa [hb]), hb] at hseen hone
    have hok := hone.mpr rfl
    refine ⟨iff_of_true hok hin, fun _ => ?_⟩
    rw [← hbytes hok]
    exact congrArg (fun r => Buf.bytes r.2) hseen
  · rw [staged_eq_err (by rwa [hb])] at hone
    exact ⟨iff_of_false (fun h => absurd (hone.mp h) Res.error_ne_ok) hin, fun h => absurd h hin⟩

theorem loaderReads_of_sync
    (hsync : ∀ w off b, seen (R.readFromPartitionSync part off (w, b)) = staged data off b) (hP : Backs R part w P)
    {d : Bytes} (h : Answers P part off d) :
    off + d.length ≤ data.length ∧ d = (data.drop off).take d.length := by
  obtain ⟨w', hok, hd⟩ := h
  obtain ⟨hiff, hslice⟩ := hP.read_eq d.length (hsync w' off)
  have hin := hiff.mp hok
  exact ⟨hin, hd.trans (hslice hin)⟩

theorem Shows.loaderWhole (h : Shows R part data w)
    (hsync : ∀ w off b, seen (R.readFromPartitionSync part off (w, b)) = staged data off b) (hP : Backs R part w P)
    {load : Extent} {s : LoadState ω} (hs : s.ops = w) (hroom : data.length ≤ load.len) :
    ∃ s', loadEntirePart P part load s = (.ok (load.take data.length, load.drop data.length), s') ∧
      (load.take data.length).read s'.mem = data := by
  subst hs
  have hback := hP.size.symm.trans h.size
  have hsize : partitionSize P part s = (.ok (some data.length), s) := by
    obtain ⟨hfst, hsnd⟩ := Prod.mk.inj hback
    unfold partitionSize
    rw [hfst, hsnd]
  obtain ⟨hiff, hslice⟩ := hP.read_eq data.length (hsync s.ops 0)
  have hall : 0 + data.length ≤ data.length := by omega
  have hread : readFromPartitionSync P part 0 (load.take data.length) s =
      (.ok (), (readFromPartitionSync P part 0 (load.take data.length) s).2) :=
    Prod.ext (Res.ofExcept_eq_ok.mpr (hiff.mpr hall)) rfl
  refine ⟨(readFromPartitionSync P part 0 (load.take data.length) s).2, ?_, ?_⟩
  · unfold loadEntirePart
    rw [bind_run_ok hsize]
    refine (bind_run_ok (lift_run_ok (if_pos hroom) s)).trans ?_
    exact bind_run_ok hread
  · refine (Extent.read_store s.mem (length_slice ..)).trans ?_
    have hdata := hslice hall
    rwa [List.drop_zero, List.take_length] at hdata

end Staged

/-! ## The disks -/

section Disks

variable {ω : Type} {disks : ω → List GblDisk} {setDisks : ω → List GblDisk → ω} {part : Text} {data : Bytes} {w : ω}

/-- Disks that nobody else uses and that do what they are told, with the partitions inside. -/
structure Steady (devs : List GblDisk) (part : String) : Prop where
  idle : ∀ g ∈ devs, g.Idle
  free : ∀ g ∈ devs, g.diskBorrowed = false
  usable : ∀ g ∈ devs, g.disk.Usable
  faultFree : ∀ g ∈ devs, g.disk.io.FaultFree
  scratch : ∀ g ∈ devs, g.disk.scratch.InMemory
  inside : ∀ g ∈ devs, ∀ p lo hi, g.findPartition (some part) = .ok p → p.absoluteRange = .ok (lo, hi) →
    hi ≤ g.disk.io.info.total

/-- The disks have the image as well: exactly one of them shows a partition of that name, it has the length
of the image, and its content is the image. -/
def Mirrored (devs : List GblDisk) (part : String) (data : Bytes) : Prop :=
  ∃ i g p lo, reported devs part = [(i, p)] ∧ devs[i]? = some g ∧ p.absoluteRange = .ok (lo, lo + data.length) ∧
    slice g.disk.io.content lo data.length = data

variable {devs : List GblDisk} {n i lo hi : Nat} {g : GblDisk} {p : Partition} {b : Buf}

theorem sizeOnDisks_eq_some {part : String} : sizeOnDisks devs part = .ok (some n) ↔
      ∃ i p, checkPartUnique devs part = .ok (i, p) ∧ Fastboot.partitionSize p = .ok n := by
  unfold sizeOnDisks
  rcases checkPartUnique devs part with e | ⟨i, p⟩
  · refine iff_of_false ?_ (by rintro ⟨_, _, h, -⟩; cases h)
    intro h
    split at h
    · next heq => cases heq
    · cases h
    · cases h
  · constructor
    · intro h
      obtain ⟨size, hsize, h⟩ := Res.bind_eq_ok.mp h
      cases h
      exact ⟨i, p, rfl, hsize⟩
    · rintro ⟨_, _, h, hsize⟩
      cases h
      simp only [hsize]
      rfl

theorem readUniquePartition_eq {part : String} (hsteady : Steady devs part)
    (hone : checkPartUnique devs part = .ok (i, p)) (hg : devs[i]? = some g)
    (hrange : p.absoluteRange = .ok (lo, hi)) (off : Nat) (b : Buf) :
    seen (readUniquePartition part off (devs, b)) = seen (PartitionIo.read off (⟨g.disk, lo, hi⟩, b)) := by
  obtain ⟨g', hg', hfind⟩ := findPartition_of_checkPartUnique hone
  obtain rfl := Option.some.inj (hg.symm.trans hg')
  have hopen : g.partitionIo (some part) = .ok ⟨g.disk, lo, hi⟩ := by
    unfold GblDisk.partitionIo
    rw [hfind, Res.ok_bind, hrange, Res.ok_bind]
    exact if_neg (by rw [hsteady.free g (List.mem_of_getElem? hg)]; decide)
  unfold readUniquePartition onUniquePartition
  simp only [hone, hg, hopen]
  rfl

theorem Steady.read {part : String} (hsteady : Steady devs part)
    (hone : checkPartUnique devs part = .ok (i, p)) (hg : devs[i]? = some g)
    (hrange : p.absoluteRange = .ok (lo, hi)) (hle : lo ≤ hi) (hb : Ordinary devs b) (off : Nat) :
    PartitionIo.Valid ⟨g.disk, lo, hi⟩ ∧ (lo + off + b.len ≤ hi → ∃ disk, PartitionIo.read off (⟨g.disk, lo, hi⟩, b) =
        (.ok (), ⟨disk, lo, hi⟩, ⟨b.addr, slice g.disk.io.content (lo + off) b.len⟩)) := by
  have hmem : g ∈ devs := List.mem_of_getElem? hg
  obtain ⟨g', hg', hfind⟩ := findPartition_of_checkPartUnique hone
  obtain rfl := Option.some.inj (hg.symm.trans hg')
  have hinside := hsteady.inside g hmem p lo hi hfind hrange
  have hvalid : PartitionIo.Valid ⟨g.disk, lo, hi⟩ :=
    ⟨hle, Nat.lt_of_le_of_lt hinside (hsteady.usable g hmem).total_lt⟩
  refine ⟨hvalid, fun hend => ?_⟩
  obtain ⟨disk, hread, -⟩ := PartitionIo.read_of_reaches hvalid (hsteady.faultFree g hmem) (hsteady.scratch g hmem)
    hb.inMemory hend ((hsteady.usable g hmem).reaches hb.pos (hend.trans hinside) (.inr (hb.address g hmem)))
  exact ⟨disk, hread⟩

theorem read_eq_staged {part : String} (hsteady : Steady devs part)
    (hone : checkPartUnique devs part = .ok (i, p)) (hg : devs[i]? = some g)
    (hrange : p.absoluteRange = .ok (lo, lo + data.length))
    (hdata : slice g.disk.io.content lo data.length = data) {off : Nat} (hoff : off < 2 ^ 64)
    (hb : Ordinary devs b) :
    seen (PartitionIo.read off (⟨g.disk, lo, lo + data.length⟩, b)) = staged data off b := by
  obtain ⟨hvalid, hreads⟩ := hsteady.read hone hg hrange (Nat.le_add_right _ _) hb off
  by_cases hin : off + b.len ≤ data.length
  · obtain ⟨disk, hread⟩ := hreads (by omega)
    have hbytes : slice g.disk.io.content (lo + off) b.len = (data.drop off).take b.len := by
      rw [← take_slice g.disk.io.content (lo + off) (show b.len ≤ data.length - off by omega),
        ← drop_slice g.disk.io.content lo (show off ≤ data.length by omega), hdata]
    rw [hread, staged_eq_ok hin, ← hbytes]
    rfl
  · have hfit : ¬ PartitionIo.Fits ⟨g.disk, lo, lo + data.length⟩ off b.len := by
      show ¬ lo + off + b.len ≤ lo + data.length
      omega
    rw [PartitionIo.read_eq hvalid hoff hb.inMemory, if_neg hfit, staged_eq_err hin]
    rfl

theorem partitionSize_of_range (h : p.absoluteRange = .ok (lo, lo + n)) (hlt : lo + n < 2 ^ 64) :
    Fastboot.partitionSize p = .ok n := by
  unfold Fastboot.partitionSize
  rw [h, Res.ok_bind]
  dsimp only
  rw [SafeNum.ofNat_of_lt hlt, SafeNum.ofNat_of_lt (show lo < 2 ^ 64 by omega), SafeNum.valid_sub,
    if_pos (Nat.le_add_right lo n), Nat.add_sub_cancel_left]
  rfl

end Disks

/-! ## What the wrapper presents -/

section Ramboot

variable {ω : Type} {ops : PartitionOps ω} {preloaded : Preloaded} {part : Text} {data : Bytes} {w : ω}

theorem sync_rambootOps (hdata : preloadedImage preloaded part = some data) (w : ω) (off : Nat) (b : Buf) :
    (rambootOps ops preloaded).readFromPartitionSync part off (w, b) =
      ((staged data off b).1, (w, (staged data off b).2)) := by
  simp only [rambootOps, hdata]

/-- **Who sees the staged image.** On disks that work, a preloaded partition is presented consistently if and
only if the disks have the very same image under that name: the wrapper reads one and asks for sizes at the
other. -/
theorem presents_iff (hdata : preloadedImage preloaded part = some data) (hutf : ValidUtf8 part)
    (hsteady : Steady (ops.disks w) (asStr part)) :
    Presents (rambootOps ops preloaded) part data w ↔ Mirrored (ops.disks w) (asStr part) data := by
  have hunique : checkPartUnique (ops.disks w) (asStr part) = theOnly (reported (ops.disks w) (asStr part)) :=
    checkPartUnique_eq hsteady.idle
  constructor
  · intro h
    obtain ⟨i, p, hone, hsize⟩ := sizeOnDisks_eq_some.mp h.size
    obtain ⟨lo, hi, hrange, hle, hlt, hn⟩ := Fastboot.partitionSize_eq_ok hsize
    obtain rfl : hi = lo + data.length := by omega
    obtain ⟨g, hg, -⟩ := findPartition_of_checkPartUnique hone
    refine ⟨i, g, p, lo, theOnly_eq_ok.mp (hunique.symm.trans hone), hg, hrange, ?_⟩
    -- read it all: what the disk has is what was staged
    by_cases hempty : data = []
    · rw [hempty]
      rfl
    · have hpos := List.length_pos_iff.mpr hempty
      have hlen : (⟨0, data⟩ : Buf).len = data.length := rfl
      have haddr : (⟨0, data⟩ : Buf).addr = 0 := rfl
      have hb : Ordinary (ops.disks w) ⟨0, data⟩ :=
        ⟨⟨by omega, by omega, by omega⟩, hpos, fun g _ => by simpa using g.disk.io.info.alignment_lt⟩
      obtain ⟨disk, hread⟩ := (hsteady.read hone hg hrange hle hb 0).2 le_rfl
      have hasync := h.async 0 ⟨0, data⟩ (by decide) hb
      rw [show seen ((rambootOps ops preloaded).readFromPartition part 0 (w, ⟨0, data⟩)) =
          seen (readUniquePartition (asStr part) 0 (ops.disks w, ⟨0, data⟩)) from rfl,
        readUniquePartition_eq hsteady hone hg hrange, hread, staged_eq_ok (by omega)] at hasync
      have hbytes := congrArg (fun r => Buf.bytes r.2) hasync
      simpa [seen, hlen] using hbytes
  · rintro ⟨i, g, p, lo, hreported, hg, hrange, hcontent⟩
    have hone : checkPartUnique (ops.disks w) (asStr part) = .ok (i, p) := by
      rw [hunique, hreported]
      rfl
    obtain ⟨g', hg', hfind⟩ := findPartition_of_checkPartUnique hone
    obtain rfl := Option.some.inj (hg.symm.trans hg')
    have hmem : g ∈ ops.disks w := List.mem_of_getElem? hg
    have hlt : lo + data.length < 2 ^ 64 :=
      Nat.lt_of_le_of_lt (hsteady.inside g hmem p lo _ hfind hrange) (hsteady.usable g hmem).total_lt
    have hsize : sizeOnDisks (ops.disks w) (asStr part) = .ok (some data.length) :=
      sizeOnDisks_eq_some.mpr ⟨i, p, hone, partitionSize_of_range hrange hlt⟩
    have hshows : Shows (rambootOps ops preloaded) part data w :=
      ⟨Prod.ext hsize rfl, sync_rambootOps hdata w⟩
    have hsync :
      ∀ w off b, seen ((rambootOps ops preloaded).readFromPartitionSync part off (w, b)) = staged data off b := by
      intro w off b
      rw [sync_rambootOps hdata]
      rfl
    exact {
      size := hsize
      sync := hsync w
      async := fun off b hoff hb =>
        (readUniquePartition_eq hsteady hone hg hrange off b).trans
          (read_eq_staged hsteady hone hg hrange hcontent hoff hb)
      avbRead := fun offset b hmin hmax => hshows.avbRead hutf (by omega) hmin hmax b
      avbSize := fun A hA => hshows.avbSize hutf hA
      loaderReads := fun P hP off d h => loaderReads_of_sync hsync hP h
      loaderWhole := fun P hP load s hs hroom => hshows.loaderWhole hsync hP hs hroom }

end Ramboot

/-! ## A disk with another image -/

def bootDisks : List GblDisk :=
  [⟨Fastboot.GblFastboot.countingDisk, false, .raw "boot_a" 8, false, Fastboot.GblFastboot.countingDisk.io.info⟩]

def bootOps : PartitionOps (List GblDisk) := diskOps id fun _ devs => devs

theorem asStr_boot : asStr (text "boot_a") = "boot_a" := by decide +kernel

theorem steady_bootDisks : Steady bootDisks (asStr (text "boot_a")) where
  idle g hg := by
    obtain rfl := List.mem_singleton.mp hg
    exact ⟨rfl, trivial⟩
  free g hg := by
    obtain rfl := List.mem_singleton.mp hg
    rfl
  usable g hg := by
    obtain rfl := List.mem_singleton.mp hg
    exact Fastboot.GblFastboot.countingDisk_usable
  faultFree g hg := by
    obtain rfl := List.mem_singleton.mp hg
    exact fun _ => rfl
  scratch g hg := by
    obtain rfl := List.mem_singleton.mp hg
    exact ⟨by decide, by decide, by decide⟩
  inside g hg p lo hi hfind hrange := by
    obtain rfl := List.mem_singleton.mp hg
    have hp : Partition.raw "boot_a" 8 = p := by
      rw [asStr_boot] at hfind
      simpa [GblDisk.findPartition, pure, Except.pure] using hfind
    subst hp
    cases hrange
    decide

theorem reported_bootDisks : reported bootDisks (asStr (text "boot_a")) = [(0, .raw "boot_a" 8)] := by
  rw [asStr_boot]
  simp [reported, bootDisks, GblDisk.shows, GblDisk.carriers]

def stagedBoot : Bytes := [0, 1, 2, 3, 4, 5, 6, 7]

def sameImage : PartitionOps (List GblDisk) := rambootOps bootOps [(text "boot_a", stagedBoot)]

/-- The loader's view of a partition with that content. -/
def stagedLoader (data : Bytes) : GblOps (List GblDisk) where
  partitionSize _ w := (.ok (some data.length), w)
  readFromPartitionSync _ off len w :=
    ((if off + len ≤ data.length then .ok () else .error .outOfRange, store (fun _ => 0) 0 (data.drop off)), w)
  readIsDeviceUnlocked w := (.ok false, w)
  slotVerify _ _ _ w := (⟨.error (.io, none), none⟩, w)
  handleVerificationResult _ _ _ w := (.ok (), w)
  fixupBootconfig _ := pure none
  length_fixup _ _ := rfl

theorem backs_stagedLoader : Backs sameImage (text "boot_a") bootDisks (stagedLoader stagedBoot) where
  size := Prod.ext (by decide +kernel) rfl
  read off b w := by
    have himage : preloadedImage [(text "boot_a", stagedBoot)] (text "boot_a") = some stagedBoot := by decide
    rw [sameImage, sync_rambootOps himage]
    simp only [stagedLoader]
    by_cases hin : off + b.len ≤ stagedBoot.length
    · rw [staged_eq_ok hin, if_pos hin]
      exact ⟨rfl, fun _ => ( slice_store_prefix _ 0 (by rw [List.length_drop]; omega)).symm⟩
    · rw [staged_eq_err hin, if_neg hin]
      exact ⟨rfl, nofun⟩

/-- The disk has the staged image, and the loader loads it. -/
theorem presents_same_image : Presents sameImage (text "boot_a") stagedBoot bootDisks ∧
    ∃ s', loadEntirePart (stagedLoader stagedBoot) (text "boot_a") ⟨64, 16⟩ ⟨bootDisks, fun _ => 0, [], []⟩ =
      (.ok (⟨64, 8⟩, ⟨72, 8⟩), s') ∧ Extent.read ⟨64, 8⟩ s'.mem = stagedBoot := by
  have himage : preloadedImage [(text "boot_a", stagedBoot)] (text "boot_a") = some stagedBoot := by decide
  have hiff : Presents (rambootOps bootOps [(text "boot_a", stagedBoot)]) (text "boot_a") stagedBoot bootDisks ↔ _ :=
    presents_iff himage (by decide) steady_bootDisks
  have h := hiff.mpr ⟨0, _, .raw "boot_a" 8, 0, reported_bootDisks, rfl, rfl, by decide⟩
  exact ⟨h, h.loaderWhole _ backs_stagedLoader ⟨64, 16⟩ ⟨bootDisks, fun _ => 0, [], []⟩ rfl (by decide)⟩

/-- Another image, of four bytes: the size is that of the partition on the disk, and so are the bytes that the
asynchronous method reads; and when libavb asks for the last two bytes, the wrapper is asked for bytes 6 and 7
of four. -/
theorem another_image_not_presented :
    ¬ Presents (rambootOps bootOps [(text "boot_a", [9, 9, 9, 9])]) (text "boot_a") [9, 9, 9, 9] bootDisks ∧
      ((rambootOps bootOps [(text "boot_a", [9, 9, 9, 9])]).partitionSize (text "boot_a") bootDisks).1 =
        .ok (some 8) ∧
      seen ((rambootOps bootOps [(text "boot_a", [9, 9, 9, 9])]).readFromPartition (text "boot_a") 0
        (bootDisks, ⟨64, [0, 0]⟩)) = (.ok (), ⟨64, [0, 1]⟩) ∧
      seen (GblAvbOps.readFromPartition (rambootOps bootOps [(text "boot_a", [9, 9, 9, 9])]) (text "boot_a") (-2)
        (bootDisks, ⟨64, [0, 0]⟩)) = (.err .io, ⟨64, [0, 0]⟩) := by
  refine ⟨?_, by decide +kernel, by decide +kernel, by decide +kernel⟩
  intro h
  exact absurd h.size (by decide +kernel)

end Gbl.Android
