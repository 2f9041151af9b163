import Gbl.Storage.Fill
import Gbl.Storage.Gpt.Basic

/-!
# Partitions as windows of a disk (`libgbl`, `partition.rs`)

A `PartitionIo` is a disk with the bounds of a partition.
-/

namespace Gbl.Partitions

open Lib Lib.Exec Storage

/-! ## Partitions of a device -/

inductive Partition where
  | raw (name : String) (size : Nat)
  | gpt (p : Storage.Partition)

def Partition.absoluteRange : Partition → Result (Nat × Nat)
  | .raw _ size => .ok (0, size)
  | .gpt p => p.absoluteRange

inductive PartitionTable where
  | raw (name : String) (size : Nat)
  | gpt (g : Gpt)

structure GblDisk where
  disk : Disk
  diskBorrowed : Bool
  partitions : PartitionTable
  partitionsBorrowed : Bool
  infoCache : BlockInfo

structure PartitionIo where
  disk : Disk
  partStart : Nat
  partEnd : Nat

namespace GblDisk

def findPartition (g : GblDisk) : Option String → Result Partition
  | none => do
    let size ← g.infoCache.totalSize
    pure (.raw "" size)
  | some part =>
    if g.partitionsBorrowed then err .notReady
    else match g.partitions with
      | .gpt gpt => do
        let p ← gpt.findPartition part
        pure (.gpt p)
      | .raw name size => if name = part then pure (.raw name size) else err .notFound

def partitionIo (g : GblDisk) (part : Option String) : Result PartitionIo := do
  let p ← g.findPartition part
  let (partStart, partEnd) ← p.absoluteRange
  if g.diskBorrowed then err .notReady else pure ⟨g.disk, partStart, partEnd⟩

end GblDisk

/-! ## Access to a partition -/

namespace PartitionIo

def size (p : PartitionIo) : Result Nat :=
  if p.partStart ≤ p.partEnd then .ok (p.partEnd - p.partStart) else panic

def checkRwRange (p : PartitionIo) (off : Nat) (size : SafeNum) : Result Nat :=
  let abRangeEnd := (p.partStart : SafeNum) + off + size
  -- a range end behind the end of the partition makes this difference an error
  match ((p.partEnd : SafeNum) - abRangeEnd).toU64 with
  | .error _ => err .outOfRange
  | .ok _ =>
    match ((p.partStart : SafeNum) + off).toU64 with
    | .error _ => err .outOfRange
    | .ok offset => .ok offset

def onDisk (m : Exec Error (Disk × Buf) Unit) : Exec Error (PartitionIo × Buf) Unit :=
  Exec.zoom (fun s => (s.1.disk, s.2)) (fun s t => ({ s.1 with disk := t.1 }, t.2)) m

def write (off : Nat) : Exec Error (PartitionIo × Buf) Unit := do
  let s ← Exec.get
  let offset ← Exec.lift (s.1.checkRwRange off s.2.len)
  onDisk (Disk.write offset)

def read (off : Nat) : Exec Error (PartitionIo × Buf) Unit := do
  let s ← Exec.get
  let offset ← Exec.lift (s.1.checkRwRange off s.2.len)
  onDisk (Disk.read offset)

def zeroize : Exec Error (PartitionIo × Buf) Unit := do
  let s ← Exec.get
  let size ← Exec.lift s.1.size
  onDisk (Disk.fill s.1.partStart size 0)

def sub (p : PartitionIo) (off sz : Nat) : Result PartitionIo := do
  let _ ← p.checkRwRange off sz
  let partStart ← addU64 p.partStart off
  let partEnd ← addU64 partStart sz
  pure { p with partStart, partEnd }

def subs (p : PartitionIo) : List (Nat × Nat) → Result PartitionIo
  | [] => .ok p
  | (off, sz) :: rest => do
    let q ← p.sub off sz
    q.subs rest

/-! ## Windows -/

structure Valid (p : PartitionIo) : Prop where
  le : p.partStart ≤ p.partEnd
  lt : p.partEnd < 2 ^ 64

def Fits (p : PartitionIo) (off len : Nat) : Prop := p.partStart + off + len ≤ p.partEnd

instance (p : PartitionIo) (off len : Nat) : Decidable (p.Fits off len) :=
  inferInstanceAs (Decidable (_ ≤ _))

variable {p q : PartitionIo} {off sz len : Nat} {b : Buf}

theorem checkRwRange_eq (h : p.Valid) (ho : off < 2 ^ 64) (hl : len < 2 ^ 64) :
    p.checkRwRange off len = if p.Fits off len then .ok (p.partStart + off) else err .outOfRange := by
  have hstart : p.partStart < 2 ^ 64 := Nat.lt_of_le_of_lt h.le h.lt
  unfold checkRwRange
  dsimp only
  rw [SafeNum.ofNat_of_lt h.lt, SafeNum.ofNat_of_lt hstart, SafeNum.ofNat_of_lt ho,
    SafeNum.ofNat_of_lt hl, SafeNum.valid_add]
  by_cases hfit : p.Fits off len
  · have hle : p.partStart + off + len ≤ p.partEnd := hfit
    have hlt : p.partStart + off + len < 2 ^ 64 := Nat.lt_of_le_of_lt hle h.lt
    rw [SafeNum.ofNat_of_lt (by omega), SafeNum.valid_add, SafeNum.ofNat_of_lt hlt, SafeNum.valid_sub,
      if_pos hle, if_pos hfit]
    rfl
  · have hpoison : (SafeNum.valid p.partEnd - (SafeNum.ofNat (p.partStart + off) + SafeNum.valid len)) = .error := by
      by_cases hmid : p.partStart + off < 2 ^ 64
      · rw [SafeNum.ofNat_of_lt hmid, SafeNum.valid_add]
        by_cases hend : p.partStart + off + len < 2 ^ 64
        · rw [SafeNum.ofNat_of_lt hend, SafeNum.valid_sub]
          exact if_neg hfit
        · rw [SafeNum.ofNat_of_ge (Nat.le_of_not_lt hend), SafeNum.sub_error]
      · rw [SafeNum.ofNat_of_ge (Nat.le_of_not_lt hmid), SafeNum.error_add, SafeNum.sub_error]
    rw [hpoison, if_neg hfit]
    rfl

theorem size_eq (h : p.Valid) : p.size = .ok (p.partEnd - p.partStart) := if_pos h.le

def narrow (p : PartitionIo) (off sz : Nat) : PartitionIo :=
  { p with partStart := p.partStart + off, partEnd := p.partStart + off + sz }

theorem sub_eq (h : p.Valid) (ho : off < 2 ^ 64) (hs : sz < 2 ^ 64) :
    p.sub off sz = if p.Fits off sz then .ok (p.narrow off sz) else err .outOfRange := by
  unfold sub
  rw [checkRwRange_eq h ho hs]
  by_cases hfit : p.Fits off sz
  · have hlt : p.partStart + off + sz < 2 ^ 64 := Nat.lt_of_le_of_lt hfit h.lt
    rw [if_pos hfit, if_pos hfit]
    simp only [Res.ok_bind, addU64, if_pos hlt, if_pos (show p.partStart + off < 2 ^ 64 by omega)]
    rfl
  · rw [if_neg hfit, if_neg hfit]
    rfl

theorem Valid.narrow (h : p.Valid) (hfit : p.Fits off sz) : (p.narrow off sz).Valid :=
  ⟨Nat.le_add_right _ _, Nat.lt_of_le_of_lt hfit h.lt⟩

def U64s (chain : List (Nat × Nat)) : Prop := ∀ c ∈ chain, c.1 < 2 ^ 64 ∧ c.2 < 2 ^ 64

def offset (chain : List (Nat × Nat)) : Nat := (chain.map Prod.fst).sum

theorem subs_spec {chain : List (Nat × Nat)} (h : p.Valid) (hu : U64s chain) (hq : p.subs chain = .ok q) :
    q.Valid ∧ q.disk = p.disk ∧ p.partStart ≤ q.partStart ∧ q.partEnd ≤ p.partEnd ∧
      q.partStart = p.partStart + offset chain ∧
      ∀ last, chain.getLast? = some last → p.sub (offset chain) last.2 = .ok q := by
  induction chain generalizing p with
  | nil =>
    obtain rfl := Except.ok.inj hq
    exact ⟨h, rfl, le_rfl, le_rfl, rfl, nofun⟩
  | cons c rest ih =>
    obtain ⟨off, sz⟩ := c
    obtain ⟨⟨ho, hs⟩, hrest⟩ : (off < 2 ^ 64 ∧ sz < 2 ^ 64) ∧ U64s rest :=
      ⟨hu _ (List.mem_cons_self ..), fun c hc => hu c (List.mem_cons_of_mem _ hc)⟩
    obtain ⟨p₁, hsub, hchain⟩ := Res.bind_eq_ok.mp hq
    rw [sub_eq h ho hs] at hsub
    by_cases hfit : p.Fits off sz
    swap
    · rw [if_neg hfit] at hsub
      cases hsub
    rw [if_pos hfit] at hsub
    obtain rfl := Except.ok.inj hsub
    obtain ⟨hv, hdisk, hle, hend, hstart, hlast⟩ := ih (h.narrow hfit) hrest hchain
    have hsum : offset ((off, sz) :: rest) = off + offset rest := rfl
    have hstart' : q.partStart = p.partStart + offset ((off, sz) :: rest) := by
      rw [hstart, hsum]
      exact Nat.add_assoc _ _ _
    refine ⟨hv, hdisk, by omega, hend.trans hfit, hstart', fun last hl => ?_⟩
    cases rest with
    | nil =>
      obtain rfl := Option.some.inj hl
      obtain rfl := Except.ok.inj hchain
      exact (sub_eq h ho hs).trans (if_pos hfit)
    | cons c' rest =>
      -- two steps in a row are one
      have hl' : (c' :: rest).getLast? = some last := by simpa using hl
      have hstep := hlast last hl'
      have hoff : offset (c' :: rest) < 2 ^ 64 := by
        have := hv.le
        have := hv.lt
        omega
      have hsz : last.2 < 2 ^ 64 := (hrest last (List.mem_of_getLast? hl')).2
      rw [sub_eq (h.narrow hfit) hoff hsz] at hstep
      by_cases hfit' : (p.narrow off sz).Fits (offset (c' :: rest)) last.2
      swap
      · rw [if_neg hfit'] at hstep
        cases hstep
      rw [if_pos hfit'] at hstep
      have hq' : (p.narrow off sz).narrow (offset (c' :: rest)) last.2 =
          p.narrow (offset ((off, sz) :: c' :: rest)) last.2 := by
        rw [hsum]
        simp only [narrow, Nat.add_assoc]
      have hfit'' : p.Fits (offset ((off, sz) :: c' :: rest)) last.2 := by
        unfold Fits at hfit hfit' ⊢
        rw [hsum]
        simp only [narrow] at hfit'
        omega
      rw [sub_eq h (by have := hv.le; have := hv.lt; omega) hsz, if_pos hfit'', ← hq']
      exact hstep

/-! ## Transfers -/

def afterDisk (p : PartitionIo) (out : Result Unit × Disk × Buf) : Result Unit × PartitionIo × Buf :=
  (out.1, { p with disk := out.2.1 }, out.2.2)

theorem onDisk_run (m : Exec Error (Disk × Buf) Unit) (p : PartitionIo) (b : Buf) :
    onDisk m (p, b) = p.afterDisk (m (p.disk, b)) := rfl

theorem checked_run (m : Nat → Exec Error (Disk × Buf) Unit) (h : p.Valid) (ho : off < 2 ^ 64) (hb : b.InMemory) : (do
      let s ← Exec.get
      let offset ← Exec.lift (s.1.checkRwRange off s.2.len)
      onDisk (m offset) : Exec Error (PartitionIo × Buf) Unit) (p, b) =
      if p.Fits off b.len then p.afterDisk (m (p.partStart + off) (p.disk, b))
      else (err .outOfRange, p, b) := by
  have hcheck := checkRwRange_eq h ho hb.len_lt
  refine (bind_run_ok (get_run _)).trans ?_
  by_cases hfit : p.Fits off b.len
  · rw [if_pos hfit] at hcheck ⊢
    exact (bind_run_ok (lift_run_ok hcheck _)).trans (onDisk_run _ _ _)
  · rw [if_neg hfit] at hcheck ⊢
    refine bind_run_error ?_
    rw [lift_run, hcheck]

theorem write_eq (h : p.Valid) (ho : off < 2 ^ 64) (hb : b.InMemory) :
    write off (p, b) = if p.Fits off b.len then p.afterDisk (Disk.write (p.partStart + off) (p.disk, b))
      else (err .outOfRange, p, b) :=
  checked_run Disk.write h ho hb

theorem read_eq (h : p.Valid) (ho : off < 2 ^ 64) (hb : b.InMemory) :
    read off (p, b) = if p.Fits off b.len then p.afterDisk (Disk.read (p.partStart + off) (p.disk, b))
      else (err .outOfRange, p, b) :=
  checked_run Disk.read h ho hb

theorem zeroize_eq (h : p.Valid) (b : Buf) :
    zeroize (p, b) = p.afterDisk (Disk.fill p.partStart (p.partEnd - p.partStart) 0 (p.disk, b)) := by
  refine (bind_run_ok (get_run _)).trans ?_
  exact bind_run_ok (lift_run_ok (size_eq h) _)

def ReadsExactly (p : PartitionIo) (off : Nat) (b : Buf) : Prop :=
  ((read off (p, b)).1 = .ok () ↔ p.Fits off b.len) ∧
    ((read off (p, b)).1 = .ok () →
      (read off (p, b)).2.2.bytes = slice p.disk.io.content (p.partStart + off) b.len)

def WritesExactly (p : PartitionIo) (off : Nat) (b : Buf) : Prop :=
  ((write off (p, b)).1 = .ok () ↔ p.Fits off b.len) ∧
    ((write off (p, b)).1 = .ok () →
      (write off (p, b)).2.1.disk.io.content = store p.disk.io.content (p.partStart + off) b.bytes)

def ZeroizesExactly (p : PartitionIo) (b : Buf) : Prop :=
  (zeroize (p, b)).1 = .ok () ∧ (zeroize (p, b)).2.1.disk.io.content =
    store p.disk.io.content p.partStart (List.replicate (p.partEnd - p.partStart) 0)

def Confined (p : PartitionIo) (c : Content) : Prop :=
  ∀ i, ¬ (p.partStart ≤ i ∧ i < p.partEnd) → c i = p.disk.io.content i

theorem readsExactly_iff (h : p.Valid) (hd : p.disk.scratch.InMemory) (hff : p.disk.io.FaultFree)
    (ho : off < 2 ^ 64) (hb : b.InMemory) :
    p.ReadsExactly off b ↔ (p.Fits off b.len → p.disk.Reaches b.addr (p.partStart + off) b.len) := by
  unfold ReadsExactly
  rw [read_eq h ho hb]
  by_cases hfit : p.Fits off b.len
  · rw [if_pos hfit]
    have hin : p.partStart + off < 2 ^ 64 := by
      have := h.lt
      unfold Fits at hfit
      omega
    have hpost : Disk.ReadPost _ _ _ _ _ _ := Disk.read_wp hd hb hin
    constructor
    · rintro ⟨hok, -⟩ -
      exact (hpost.filled (hok.mpr hfit)).1
    · intro hreach
      exact ⟨iff_of_true (hpost.succeeds hff (hreach hfit)) hfit, fun hok => (hpost.filled hok).2⟩
  · rw [if_neg hfit]
    refine iff_of_true ⟨iff_of_false Res.error_ne_ok hfit, fun hok => absurd hok Res.error_ne_ok⟩ ?_
    exact fun hfit' => absurd hfit' hfit

theorem read_ran (h : p.Valid) (hd : p.disk.scratch.InMemory) (ho : off < 2 ^ 64) (hb : b.InMemory) :
    ∃ disk, (read off (p, b)).2.1 = { p with disk } ∧
      p.disk.Ran (fun a => a.IsRead ∧ a.Proper p.disk.io.info) disk := by
  rw [read_eq h ho hb]
  by_cases hfit : p.Fits off b.len
  · rw [if_pos hfit]
    have hlt : p.partStart + off < 2 ^ 64 := Nat.lt_of_le_of_lt (Nat.le_of_add_right_le hfit) h.lt
    exact ⟨_, rfl, Disk.ReadPost.ran (Disk.read_wp hd hb hlt)⟩
  · rw [if_neg hfit]
    exact ⟨p.disk, rfl, .refl _ _⟩

theorem read_of_reaches (h : p.Valid) (hff : p.disk.io.FaultFree) (hd : p.disk.scratch.InMemory) (hb : b.InMemory)
    (hfit : p.Fits off b.len) (hreach : p.disk.Reaches b.addr (p.partStart + off) b.len) :
    ∃ disk, read off (p, b) = (.ok (), { p with disk }, ⟨b.addr, slice p.disk.io.content (p.partStart + off) b.len⟩) ∧
      disk.io.content = p.disk.io.content ∧ p.disk.Ran (fun a => a.IsRead ∧ a.Proper p.disk.io.info) disk := by
  have hlt : p.partStart + off < 2 ^ 64 := Nat.lt_of_le_of_lt (Nat.le_of_add_right_le hfit) h.lt
  have hpost : Disk.ReadPost _ _ _ _ _ _ := Disk.read_wp hd hb hlt
  have hok := hpost.succeeds hff hreach
  refine ⟨_, ?_, hpost.content, hpost.ran⟩
  rw [read_eq h (by omega) hb, if_pos hfit, afterDisk, hok, ← hpost.addr, ← (hpost.filled hok).2]

theorem read_ok (h : p.Valid) (hd : p.disk.scratch.InMemory) (ho : off < 2 ^ 64) (hb : b.InMemory)
    (hok : (read off (p, b)).1 = .ok ()) :
    p.Fits off b.len ∧ p.disk.Reaches b.addr (p.partStart + off) b.len ∧
      (read off (p, b)).2.2.bytes = slice p.disk.io.content (p.partStart + off) b.len := by
  rw [read_eq h ho hb] at hok ⊢
  by_cases hfit : p.Fits off b.len
  · rw [if_pos hfit] at hok ⊢
    have hlt : p.partStart + off < 2 ^ 64 := Nat.lt_of_le_of_lt (Nat.le_of_add_right_le hfit) h.lt
    have hpost : Disk.ReadPost _ _ _ _ _ _ := Disk.read_wp hd hb hlt
    exact ⟨hfit, hpost.filled hok⟩
  · rw [if_neg hfit] at hok
    cases hok

theorem writesExactly_iff (h : p.Valid) (hd : p.disk.scratch.InMemory) (hff : p.disk.io.FaultFree)
    (ho : off < 2 ^ 64) (hb : b.InMemory) :
    p.WritesExactly off b ↔ (p.Fits off b.len → p.disk.Reaches b.addr (p.partStart + off) b.len) := by
  unfold WritesExactly
  rw [write_eq h ho hb]
  by_cases hfit : p.Fits off b.len
  · rw [if_pos hfit]
    have hin : p.partStart + off < 2 ^ 64 := by
      have := h.lt
      unfold Fits at hfit
      omega
    have hpost : Disk.WritePost _ _ _ _ _ _ := Disk.write_wp hd hb hin
    constructor
    · rintro ⟨hok, -⟩ -
      exact (hpost.stored (hok.mpr hfit)).1
    · intro hreach
      exact ⟨iff_of_true (hpost.succeeds hff (hreach hfit)) hfit, fun hok => (hpost.stored hok).2⟩
  · rw [if_neg hfit]
    refine iff_of_true ⟨iff_of_false Res.error_ne_ok hfit, fun hok => absurd hok Res.error_ne_ok⟩ ?_
    exact fun hfit' => absurd hfit' hfit

theorem zeroizesExactly_iff (h : p.Valid) (hd : p.disk.scratch.InMemory) (hff : p.disk.io.FaultFree)
    (hb : b.InMemory) :
    p.ZeroizesExactly b ↔ p.disk.Fillable b.toSlice p.partStart (p.partEnd - p.partStart) := by
  have hlt := h.lt
  have hle := h.le
  obtain ⟨-, -, hpost⟩ : _ ∧ _ ∧ Disk.FillPost _ _ _ _ _ _ _ :=
    Disk.fill_wp 0 hd hb (show p.partStart < 2 ^ 64 by omega) (show p.partEnd - p.partStart < 2 ^ 64 by omega)
  unfold ZeroizesExactly
  rw [zeroize_eq h]
  constructor
  · intro hz
    exact (hpost.stored hz.1).1
  · intro hfill
    have hok := hpost.succeeds hff hfill
    exact ⟨hok, (hpost.stored hok).2⟩

theorem confined_of_torn {d : List UInt8} {c : Content} {at_ : Nat} (htorn : Torn p.disk.io.content at_ d c)
    (hlo : p.partStart ≤ at_) (hhi : at_ + d.length ≤ p.partEnd) : p.Confined c := by
  intro i hi
  exact htorn.eq_of_not_mem (by omega)

theorem confined (h : p.Valid) (hd : p.disk.scratch.InMemory) (ho : off < 2 ^ 64) (hb : b.InMemory) :
    (read off (p, b)).2.1.disk.io.content = p.disk.io.content ∧ p.Confined (write off (p, b)).2.1.disk.io.content ∧
      p.Confined (zeroize (p, b)).2.1.disk.io.content := by
  have hlt := h.lt
  have hle := h.le
  refine ⟨?_, ?_, ?_⟩
  · rw [read_eq h ho hb]
    by_cases hfit : p.Fits off b.len
    · have hin : p.partStart + off + b.len ≤ p.partEnd := hfit
      rw [if_pos hfit]
      have hpost : Disk.ReadPost _ _ _ _ _ _ := Disk.read_wp hd hb (show p.partStart + off < 2 ^ 64 by omega)
      exact hpost.content
    · rw [if_neg hfit]
  · rw [write_eq h ho hb]
    by_cases hfit : p.Fits off b.len
    · have hin : p.partStart + off + b.len ≤ p.partEnd := hfit
      rw [if_pos hfit]
      have hpost : Disk.WritePost _ _ _ _ _ _ := Disk.write_wp hd hb (show p.partStart + off < 2 ^ 64 by omega)
      exact confined_of_torn hpost.torn (Nat.le_add_right _ _) hin
    · rw [if_neg hfit]
      exact fun _ _ => rfl
  · rw [zeroize_eq h]
    obtain ⟨-, -, hpost⟩ : _ ∧ _ ∧ Disk.FillPost _ _ _ _ _ _ _ :=
      Disk.fill_wp 0 hd hb (show p.partStart < 2 ^ 64 by omega) (show p.partEnd - p.partStart < 2 ^ 64 by omega)
    refine confined_of_torn hpost.torn le_rfl ?_
    rw [List.length_replicate]
    omega

/-- **A faithful window.** After any chain of `sub` calls, `sub` succeeds for the ranges of the window only, and the
chain is one `sub` at the summed offset. A read or write outside is refused and changes nothing; a read that succeeds
has bytes of the window only. Without faults, transfers act on exactly the bytes of the window if the disk can carry
them out; with or without, nothing outside is changed. -/
theorem window_faithful_iff (p q : PartitionIo) (chain : List (Nat × Nat)) (h : p.Valid)
    (hd : p.disk.scratch.InMemory) (hu : U64s chain) (hq : p.subs chain = .ok q) :
    (∀ off sz, off < 2 ^ 64 → sz < 2 ^ 64 →
      q.sub off sz = if q.Fits off sz then .ok (q.narrow off sz) else err .outOfRange) ∧
    (∀ last, chain.getLast? = some last → p.sub (offset chain) last.2 = .ok q) ∧
    q.partStart = p.partStart + offset chain ∧ q.partEnd ≤ p.partEnd ∧
    q.size = .ok (q.partEnd - q.partStart) ∧
    ∀ off b, off < 2 ^ 64 → b.InMemory →
      (¬ q.Fits off b.len →
        read off (q, b) = (err .outOfRange, q, b) ∧ write off (q, b) = (err .outOfRange, q, b)) ∧
      ((read off (q, b)).1 = .ok () →
        q.Fits off b.len ∧ (read off (q, b)).2.2.bytes = slice q.disk.io.content (q.partStart + off) b.len) ∧
      (q.disk.io.FaultFree →
        (q.ReadsExactly off b ↔ (q.Fits off b.len → q.disk.Reaches b.addr (q.partStart + off) b.len)) ∧
        (q.WritesExactly off b ↔ (q.Fits off b.len → q.disk.Reaches b.addr (q.partStart + off) b.len)) ∧
        (q.ZeroizesExactly b ↔ q.disk.Fillable b.toSlice q.partStart (q.partEnd - q.partStart))) ∧
      (read off (q, b)).2.1.disk.io.content = q.disk.io.content ∧
      q.Confined (write off (q, b)).2.1.disk.io.content ∧
      q.Confined (zeroize (q, b)).2.1.disk.io.content := by
  obtain ⟨hv, hdisk, -, hend, hstart, hlast⟩ := subs_spec h hu hq
  have hd' : q.disk.scratch.InMemory := hdisk.symm ▸ hd
  refine ⟨fun off sz ho hs => sub_eq hv ho hs, hlast, hstart, hend, size_eq hv, fun off b ho hb => ⟨?_, ?_, ?_, ?_⟩⟩
  · intro hno
    rw [read_eq hv ho hb, write_eq hv ho hb, if_neg hno, if_neg hno]
    exact ⟨rfl, rfl⟩
  · intro hok
    obtain ⟨hfit, -, hbytes⟩ := read_ok hv hd' ho hb hok
    exact ⟨hfit, hbytes⟩
  · intro hff
    exact ⟨readsExactly_iff hv hd' hff ho hb, writesExactly_iff hv hd' hff ho hb,
      zeroizesExactly_iff hv hd' hff hb⟩
  · exact confined hv hd' ho hb

def smallDisk : Disk where
  io := ⟨⟨2, 4, 1, BlockInfo.two_lt, BlockInfo.four_lt, BlockInfo.one_lt⟩, fun n => UInt8.ofNat n, fun _ => none, []⟩
  scratch := ⟨32, [0, 0]⟩

theorem smallDisk_usable : smallDisk.Usable := ⟨⟨(⟨32, 0⟩, ⟨32, 2⟩), by decide⟩, by decide, by decide⟩

/-- The middle of the small disk, narrowed twice to one byte: it can be read, and be cleared through a
buffer of one byte. -/
theorem window_faithful_narrowed :
    PartitionIo.ReadsExactly ⟨smallDisk, 4, 5⟩ 0 ⟨64, [7]⟩ ∧
      PartitionIo.ZeroizesExactly ⟨smallDisk, 4, 5⟩ ⟨64, [7]⟩ := by
  obtain ⟨-, -, -, -, -, hxfer⟩ := window_faithful_iff ⟨smallDisk, 2, 6⟩ ⟨smallDisk, 4, 5⟩ [(1, 3), (1, 1)]
    ⟨by decide, by decide⟩ ⟨by decide, by decide, by decide⟩ (by unfold U64s; decide) rfl
  obtain ⟨-, -, hexact, -⟩ := hxfer 0 ⟨64, [7]⟩ (by decide) ⟨by decide, by decide, by decide⟩
  obtain ⟨hread, -, hzero⟩ := hexact fun _ => rfl
  refine ⟨hread.mpr fun _ => smallDisk_usable.reaches (by decide) (by decide) (.inl (by decide)), hzero.mpr ?_⟩
  exact (smallDisk_usable.fillable_iff (by decide) (by decide) (by decide)).mpr (.inr (by decide))

/-- A scratch buffer of one byte in front of an aligned address has no aligned byte: clearing a byte with
it never ends. -/
theorem zeroize_hangs :
    ∃ (p : PartitionIo) (b : Buf), p.Valid ∧ p.partEnd ≤ p.disk.io.info.total ∧ p.disk.Splits ∧
      p.disk.io.FaultFree ∧ b.InMemory ∧ b.len ≠ 0 ∧ ¬ p.ZeroizesExactly b ∧
      (zeroize (p, b)).1 = .error .hang := by
  have hhang : (zeroize (⟨⟨⟨⟨2, 4, 2, by decide, by decide, by decide⟩, fun _ => 0, fun _ => none, []⟩,
      ⟨32, [0, 0, 0, 0]⟩⟩, 0, 1⟩, ⟨33, [0]⟩)).1 = .error .hang := by decide
  refine ⟨_, _, ⟨by decide, by decide⟩, by decide, ⟨(⟨32, 1⟩, ⟨34, 2⟩), by decide⟩, fun _ => rfl,
    ⟨by decide, by decide, by decide⟩, by decide, fun hz => ?_, hhang⟩
  exact Res.error_ne_ok (hhang.symm.trans hz.1)

end PartitionIo

end Gbl.Partitions
