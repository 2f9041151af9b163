import Gbl.Partitions.Unique
import Gbl.Lib.Serving

/-!
# A disk is as many stores as it has partitions

Every user of a partition goes through the one disk that all of them share, with its one scratch memory. What each of
them sees is a store of its own: a list of bytes.
-/

namespace Gbl.Partitions

open Lib Lib.Exec Storage

inductive Request where
  | read (off : Nat) (b : Buf)
  | write (off : Nat) (b : Buf)
  | zeroize (scratch : Buf)

namespace PartitionIo

def bytes (p : PartitionIo) : List UInt8 := slice p.disk.io.content p.partStart (p.partEnd - p.partStart)

end PartitionIo

namespace Request

def answer (f : Buf → List UInt8) (out : Result Unit × PartitionIo × Buf) : Result (List UInt8) × Disk :=
  (out.1.map fun _ => f out.2.2, out.2.1.disk)

def run (p : PartitionIo) : Request → Result (List UInt8) × Disk
  | read off b => answer Buf.bytes (PartitionIo.read off (p, b))
  | write off b => answer (fun _ => []) (PartitionIo.write off (p, b))
  | zeroize scratch => answer (fun _ => []) (PartitionIo.zeroize (p, scratch))

/-- The same request to a store of its own. -/
def onBytes : Request → List UInt8 → Result (List UInt8) × List UInt8
  | read off b, l =>
    if off + b.len ≤ l.length then (.ok ((l.drop off).take b.len), l) else (err .outOfRange, l)
  | write off b, l => if off + b.len ≤ l.length then (.ok [], splice l off b.bytes) else (err .outOfRange, l)
  | zeroize _, l => (.ok [], List.replicate l.length 0)

def InMemory : Request → Prop
  | read off b | write off b => off < 2 ^ 64 ∧ b.InMemory
  | zeroize scratch => scratch.InMemory

/-- A buffer that a disk of this geometry can use: not empty, not at the very end of the memory, and for
`zeroize` with an aligned byte in it. -/
def Usable (info : BlockInfo) : Request → Prop
  | read _ b | write _ b => 0 < b.len ∧ b.addr + info.alignment < 2 ^ 64
  | zeroize scratch => 0 < scratch.len ∧ scratch.addr + info.alignment < 2 ^ 64 ∧
      scratch.len ≠ gap scratch.addr info.alignment

variable {p : PartitionIo} {r : Request}

theorem ran_of_checked {off : Nat} {b : Buf} {m : Exec Error (Disk × Buf) Unit} (h : p.Valid)
    (hrun : p.partStart + off < 2 ^ 64 → p.disk.Ran (fun a => a.Proper p.disk.io.info) (m (p.disk, b)).2.1) :
    p.disk.Ran (fun a => a.Proper p.disk.io.info)
      (if p.Fits off b.len then p.afterDisk (m (p.disk, b)) else (err .outOfRange, p, b)).2.1.disk := by
  have hlt := h.lt
  by_cases hfit : p.Fits off b.len
  · have hin : p.partStart + off + b.len ≤ p.partEnd := hfit
    rw [if_pos hfit]
    exact hrun (by omega)
  · rw [if_neg hfit]
    exact .refl _ _

theorem run_confined (h : p.Valid) (hd : p.disk.scratch.InMemory) (hr : r.InMemory) :
    p.disk.Ran (fun a => a.Proper p.disk.io.info) (r.run p).2 ∧ p.Confined (r.run p).2.io.content := by
  cases r with
  | read off b =>
    obtain ⟨ho, hb⟩ := hr
    refine ⟨?_, fun i _ => congrFun (PartitionIo.confined h hd ho hb).1 i⟩
    show p.disk.Ran _ (PartitionIo.read off (p, b)).2.1.disk
    rw [PartitionIo.read_eq h ho hb]
    exact ran_of_checked h fun hlt => (Disk.read_wp hd hb hlt).ran.mono fun _ ha => ha.2
  | write off b =>
    obtain ⟨ho, hb⟩ := hr
    refine ⟨?_, (PartitionIo.confined h hd ho hb).2.1⟩
    show p.disk.Ran _ (PartitionIo.write off (p, b)).2.1.disk
    rw [PartitionIo.write_eq h ho hb]
    exact ran_of_checked h fun hlt => (Disk.write_wp hd hb hlt).ran
  | zeroize scratch =>
    refine ⟨?_, (PartitionIo.confined h hd (show 0 < 2 ^ 64 by decide) hr).2.2⟩
    show p.disk.Ran _ (PartitionIo.zeroize (p, scratch)).2.1.disk
    rw [PartitionIo.zeroize_eq h]
    have hlt := h.lt
    have hle := h.le
    exact (Disk.fill_wp 0 hd hr (show p.partStart < 2 ^ 64 by omega)
      (show p.partEnd - p.partStart < 2 ^ 64 by omega)).2.2.ran

theorem slice_store_within (c : Content) {k n i : Nat} {d : List UInt8} (h : i + d.length ≤ n) :
    slice (store c (k + i) d) k n = splice (slice c k n) i d := by
  have hlen : (splice (slice c k n) i d).length = n := by
    rw [length_splice (by rw [length_slice]; exact h), length_slice]
  rw [← store_splice_slice c k h]
  exact (congrArg _ hlen.symm).trans (slice_store c k _)

/-- Where the disk has no faults, the answer and the bytes of the partition are those of the store. -/
theorem run_refines (h : p.Valid) (hd : p.disk.scratch.InMemory) (hff : p.disk.io.FaultFree) (huse : p.disk.Usable)
    (hin : p.partEnd ≤ p.disk.io.info.total) (hr : r.InMemory) (hbuf : r.Usable p.disk.io.info) :
    (r.run p).1 = (r.onBytes p.bytes).1 ∧
      slice (r.run p).2.io.content p.partStart (p.partEnd - p.partStart) = (r.onBytes p.bytes).2 := by
  have hle := h.le
  have hlen : p.bytes.length = p.partEnd - p.partStart := length_slice ..
  have hfits : ∀ off n, p.Fits off n ↔ off + n ≤ p.bytes.length := by
    intro off n
    unfold PartitionIo.Fits
    omega
  cases r with
  | read off b =>
    obtain ⟨ho, hb⟩ := hr
    obtain ⟨hpos, haddr⟩ := hbuf
    have hcontent := (PartitionIo.confined h hd ho hb).1
    simp only [run, answer, onBytes, hcontent]
    by_cases hfit : p.Fits off b.len
    · obtain ⟨hok, hbytes⟩ := (PartitionIo.readsExactly_iff h hd hff ho hb).2 fun hfit =>
        huse.reaches hpos (hfit.trans hin) (.inr haddr)
      rw [if_pos ((hfits _ _).1 hfit), hok.2 hfit, hbytes (hok.2 hfit)]
      have hle' := (hfits _ _).1 hfit
      rw [hlen] at hle'
      refine ⟨?_, rfl⟩
      unfold PartitionIo.bytes
      rw [drop_slice _ _ (by omega), take_slice _ _ (by omega)]
      rfl
    · rw [if_neg fun hle' => hfit ((hfits _ _).2 hle'), PartitionIo.read_eq h ho hb, if_neg hfit]
      exact ⟨rfl, rfl⟩
  | write off b =>
    obtain ⟨ho, hb⟩ := hr
    obtain ⟨hpos, haddr⟩ := hbuf
    simp only [run, answer, onBytes]
    by_cases hfit : p.Fits off b.len
    · obtain ⟨hok, hstored⟩ := (PartitionIo.writesExactly_iff h hd hff ho hb).2 fun hfit =>
        huse.reaches hpos (hfit.trans hin) (.inr haddr)
      have hle' := (hfits _ _).1 hfit
      rw [if_pos hle', hok.2 hfit, hstored (hok.2 hfit)]
      exact ⟨rfl, slice_store_within _ (hlen ▸ hle')⟩
    · rw [if_neg fun hle' => hfit ((hfits _ _).2 hle'), PartitionIo.write_eq h ho hb, if_neg hfit]
      exact ⟨rfl, rfl⟩
  | zeroize scratch =>
    obtain ⟨hpos, haddr, hgap⟩ := hbuf
    obtain ⟨hok, hstored⟩ := (PartitionIo.zeroizesExactly_iff h hd hff hr).2
      ((huse.fillable_iff (s := scratch.toSlice) (Nat.ne_of_gt hpos) haddr (by omega)).2 (.inr hgap))
    simp only [run, answer, onBytes, hok, hstored, hlen]
    have hall : (List.replicate (p.partEnd - p.partStart) (0 : UInt8)).length = p.partEnd - p.partStart :=
      List.length_replicate
    exact ⟨rfl, (congrArg _ hall.symm).trans (slice_store _ _ _)⟩

end Request

/-! ## Partitions by name -/

namespace GblDisk

def window (g : GblDisk) (part : String) : Result (Nat × Nat) := do
  let p ← g.findPartition (some part)
  p.absoluteRange

def request (x : String × Request) (g : GblDisk) : Result (List UInt8) × GblDisk :=
  match g.partitionIo (some x.1) with
  | .error e => (.error e, g)
  | .ok p => ((x.2.run p).1, { g with disk := (x.2.run p).2 })

/-- The table is in memory: no range of it ends behind the addresses of a disk. -/
structure Sound (g : GblDisk) : Prop where
  valid : ∀ part w, g.window part = .ok w → w.1 ≤ w.2 ∧ w.2 < 2 ^ 64
  scratch : g.disk.scratch.InMemory

variable {g : GblDisk} {d d' : Disk} {x : String × Request} {l : List (String × Request)} {part : String}
  {p q : PartitionIo}

theorem partitionIo_eq (g : GblDisk) (part : String) : g.partitionIo (some part) = (do
    let w ← g.window part
    if g.diskBorrowed then err .notReady else pure ⟨g.disk, w.1, w.2⟩) := by
  unfold partitionIo window
  cases g.findPartition (some part) <;> rfl

theorem partitionIo_ok (h : g.partitionIo (some part) = .ok p) :
    g.window part = .ok (p.partStart, p.partEnd) ∧ p.disk = g.disk := by
  rw [partitionIo_eq] at h
  obtain ⟨w, hw, h₁⟩ := Res.bind_eq_ok.1 h
  split at h₁
  · cases h₁
  · cases h₁
    exact ⟨hw, rfl⟩

theorem Sound.partition_valid (h : g.Sound) (hp : { g with disk := d }.partitionIo (some part) = .ok p) :
    p.Valid := by
  obtain ⟨hle, hlt⟩ := h.valid part _ (partitionIo_ok hp).1
  exact ⟨hle, hlt⟩

/-- **Partitions are isolated.** Whatever is asked of the partitions of a disk and whichever calls fail: every call
to the driver is aligned and inside of the device, and only bytes of the partitions that were asked for change. -/
theorem partitions_isolated (h : g.Sound) (hl : ∀ x ∈ l, x.2.InMemory) :
    g.disk.Ran (fun a => a.Proper g.disk.io.info) (serve request l g).2.disk ∧
      ∀ i, (∀ x ∈ l, ∀ w, g.window x.1 = .ok w → ¬ (w.1 ≤ i ∧ i < w.2)) →
        (serve request l g).2.disk.io.content i = g.disk.io.content i := by
  have hkeeps := serve_keeps (l := l) (P := (· ∈ l)) (f := request) (I := fun g' => ∃ d, g' = { g with disk := d } ∧
      g.disk.Ran (fun a => a.Proper g.disk.io.info) d ∧ ∀ i,
        (∀ x ∈ l, ∀ w, g.window x.1 = .ok w → ¬ (w.1 ≤ i ∧ i < w.2)) → d.io.content i = g.disk.io.content i) (by
    rintro x _ hx ⟨d, rfl, hran, hsame⟩
    unfold request
    split
    · exact ⟨d, rfl, hran, hsame⟩
    · next p hp =>
      obtain ⟨hw, hdisk⟩ := partitionIo_ok hp
      obtain ⟨hrun, hconf⟩ := Request.run_confined (h.partition_valid hp)
        (hdisk ▸ hran.inMemory h.scratch) (hl x hx)
      rw [hdisk, hran.io.info] at hrun
      refine ⟨_, rfl, hran.trans hrun, fun i hi => ?_⟩
      rw [hconf i (hi x hx _ hw), hdisk]
      exact hsame i hi) (fun _ hx => hx) ⟨g.disk, rfl, .refl _ _, fun _ _ => rfl⟩
  obtain ⟨d, hd, hran, hsame⟩ := hkeeps
  rw [hd]
  exact ⟨hran, hsame⟩

/-- A table with two partitions: one without a name, and `boot` behind it. -/
def twoParts : GblDisk := tableDisk [sampleEntry 130 140, bootEntry] (by decide)

theorem decodedName_sampleEntry (first last : UInt64) : (sampleEntry first last).decodedName = "" := by
  have hchars : (sampleEntry first last).nameChars = "".toList := rfl
  rw [GptEntry.decodedName, hchars, String.ofList_toList]

theorem twoParts_window {w : Nat × Nat} (h : twoParts.window part = .ok w) :
    part = "" ∧ w = (130 * 128, 141 * 128) ∨ part = "boot" ∧ w = (150 * 128, 160 * 128) := by
  obtain ⟨q, hq, hrange⟩ := Res.bind_eq_ok.1 h
  obtain ⟨p, hp, hpure⟩ := Res.bind_eq_ok.1 (show (loadedGpt _ _).findPartition part >>= _ = Except.ok q from hq)
  obtain rfl := Except.ok.inj hpure
  rw [findPartition_eq (show Gpt.blockSize _ = some 128 from rfl)] at hp
  obtain ⟨e, he, rfl, rfl⟩ := findIn_eq_ok hp
  rcases List.mem_pair.1 (show e ∈ [sampleEntry 130 140, bootEntry] from he) with rfl | rfl
  · exact .inl ⟨decodedName_sampleEntry _ _, (Except.ok.inj hrange).symm⟩
  · exact .inr ⟨decodedName_bootEntry, (Except.ok.inj hrange).symm⟩

theorem twoParts_sound : twoParts.Sound where
  valid part w hw := by
    rcases twoParts_window hw with ⟨-, rfl⟩ | ⟨-, rfl⟩ <;> decide
  scratch := inMemory_sampleDisk []

/-- Both partitions are written. The byte in front of `boot` is in neither of them and stays. -/
theorem partitions_isolated_two :
    (serve request [("boot", .write 1 ⟨64, [7, 7]⟩), ("", .write 0 ⟨64, [5]⟩)] twoParts).2.disk.io.content
      (150 * 128 - 1) = 0 := by
  refine (partitions_isolated twoParts_sound ?_).2 _ ?_
  · simp only [List.forall_mem_cons]
    exact ⟨⟨by decide, by decide, by decide, by decide⟩, ⟨by decide, by decide, by decide, by decide⟩, nofun⟩
  · intro x _ w hw
    rcases twoParts_window hw with ⟨-, rfl⟩ | ⟨-, rfl⟩ <;> decide

/-! ## Stores -/

def view (g : GblDisk) (part : String) : Result (List UInt8) := do
  let p ← g.partitionIo (some part)
  pure p.bytes

def onStores (x : String × Request) (stores : String → Result (List UInt8)) :
    Result (List UInt8) × (String → Result (List UInt8)) :=
  match stores x.1 with
  | .error e => (.error e, stores)
  | .ok l => ((x.2.onBytes l).1, Function.update stores x.1 (.ok (x.2.onBytes l).2))

structure Serving (g : GblDisk) : Prop where
  scratch : g.disk.scratch.InMemory
  faultFree : g.disk.io.FaultFree
  usable : g.disk.Usable
  within : ∀ part w, g.window part = .ok w → w.1 ≤ w.2 ∧ w.2 ≤ g.disk.io.info.total
  apart : ∀ part part' w w', part ≠ part' → g.window part = .ok w → g.window part' = .ok w' →
    w.2 ≤ w'.1 ∨ w'.2 ≤ w.1

theorem Serving.sound (h : g.Serving) : g.Sound where
  valid part w hw := ⟨(h.within part w hw).1, Nat.lt_of_le_of_lt (h.within part w hw).2 h.usable.total_lt⟩
  scratch := h.scratch

theorem usable_of_ran {P : Access → Prop} (h : d.Ran P d') (huse : d.Usable) : d'.Usable :=
  ⟨h.splits_iff.2 huse.splits, h.io.info ▸ huse.blockSize_pos, h.io.info ▸ huse.geometry⟩

theorem partitionIo_moved (g : GblDisk) (d d' : Disk) (part : String) :
    { g with disk := d' }.partitionIo (some part) = (do
      let p ← { g with disk := d }.partitionIo (some part)
      pure { p with disk := d' }) := by
  rw [partitionIo_eq, partitionIo_eq]
  show (do let w ← g.window part; _) = (do let p ← (do let w ← g.window part; _); _)
  cases g.window part with
  | error e => rfl
  | ok w =>
    simp only [Res.ok_bind]
    split <;> rfl

/-- What one partition sees of the disk does not depend on what is done to another. -/
theorem view_other (h : g.Serving) (hp : { g with disk := d }.partitionIo (some part) = .ok p)
    (hconf : p.Confined d'.io.content) {part' : String} (hne : part' ≠ part) :
    view { g with disk := d' } part' = view { g with disk := d } part' := by
  unfold view
  cases hq : { g with disk := d }.partitionIo (some part') with
  | error e =>
    rw [partitionIo_moved g d, hq]
    rfl
  | ok q =>
    obtain ⟨hw, hdisk⟩ := partitionIo_ok hp
    obtain ⟨hw', hdisk'⟩ := partitionIo_ok hq
    rw [partitionIo_moved g d, hq]
    refine congrArg Except.ok (slice_congr fun i hlo hhi => ?_)
    have hapart := h.apart _ _ _ _ hne hw' hw
    have hle := (h.within _ _ hw').1
    rw [hconf i (by simp only at hapart hle hlo hhi; omega), hdisk, hdisk']

/-- **A disk with partitions is a collection of stores.** Without faults and overlaps, requests get the answers that a
store of its own for each partition would give, and leave the bytes that it would hold. -/
theorem partitions_are_stores (h : g.Serving) (hl : ∀ x ∈ l, x.2.InMemory ∧ x.2.Usable g.disk.io.info) :
    (serve request l g).1 = (serve onStores l g.view).1 ∧ (serve request l g).2.view = (serve onStores l g.view).2 := by
  have hsim := serve_simulates (f := request) (g := onStores) (l := l)
    (P := fun x => x.2.InMemory ∧ x.2.Usable g.disk.io.info)
    (R := fun g' stores => g'.view = stores ∧ ∃ d, g' = { g with disk := d } ∧
      g.disk.Ran (fun a => a.Proper g.disk.io.info) d) (by
    rintro x _ _ ⟨hmem, huse⟩ ⟨rfl, d, rfl, hran⟩
    cases hp : { g with disk := d }.partitionIo (some x.1) with
    | error e =>
      have hview : view { g with disk := d } x.1 = .error e := by rw [view, hp]; rfl
      simp only [request, onStores, hp, hview]
      exact ⟨trivial, trivial, d, rfl, hran⟩
    | ok p =>
      have hview : view { g with disk := d } x.1 = .ok p.bytes := by rw [view, hp]; rfl
      obtain ⟨hw, hdisk⟩ := partitionIo_ok hp
      have hinfo : p.disk.io.info = g.disk.io.info := by rw [hdisk]; exact hran.io.info
      have hscratch : p.disk.scratch.InMemory := hdisk ▸ hran.inMemory h.scratch
      obtain ⟨hrun, hconf⟩ := Request.run_confined (h.sound.partition_valid hp) hscratch hmem
      obtain ⟨hanswer, hbytes⟩ := Request.run_refines (h.sound.partition_valid hp) hscratch
        (hdisk ▸ hran.io.faultFree h.faultFree) (hdisk ▸ usable_of_ran hran h.usable)
        (hinfo ▸ (h.within _ _ hw).2) hmem (hinfo ▸ huse)
      simp only [request, onStores, hp, hview]
      refine ⟨hanswer, funext fun part => ?_, _, rfl, hran.trans ?_⟩
      · by_cases hpart : part = x.1
        · subst hpart
          rw [Function.update_self, ← hbytes, view, partitionIo_moved g d, hp]
          rfl
        · rw [Function.update_of_ne hpart]
          exact view_other h hp hconf hpart
      · rw [hdisk, hran.io.info] at hrun
        exact hrun) hl ⟨rfl, g.disk, rfl, .refl _ _⟩
  exact ⟨hsim.1, hsim.2.1⟩

theorem twoParts_serving : twoParts.Serving where
  scratch := twoParts_sound.scratch
  faultFree := fun _ => rfl
  usable := ⟨⟨(⟨4096, 0⟩, ⟨4096, 128⟩), by decide +kernel⟩, by decide, by decide⟩
  within part w hw := by
    rcases twoParts_window hw with ⟨-, rfl⟩ | ⟨-, rfl⟩ <;> decide
  apart part part' w w' hne hw hw' := by
    rcases twoParts_window hw with ⟨rfl, rfl⟩ | ⟨rfl, rfl⟩ <;>
      rcases twoParts_window hw' with ⟨rfl, rfl⟩ | ⟨rfl, rfl⟩ <;> first | exact absurd rfl hne | decide

/-- Two partitions are written in turn, and each of them reads back what was written to it. -/
theorem partitions_are_stores_two :
    (serve request [("boot", .write 1 ⟨64, [7, 7]⟩), ("", .write 0 ⟨64, [5]⟩), ("boot", .read 0 ⟨64, [9, 9, 9, 9]⟩),
      ("", .read 0 ⟨64, [9, 9]⟩)] twoParts).1 = [.ok [], .ok [], .ok [0, 7, 7, 0], .ok [5, 0]] := by
  refine (partitions_are_stores twoParts_serving ?_).1.trans ?_
  · simp only [List.forall_mem_cons]
    refine ⟨⟨⟨?_, ?_, ?_, ?_⟩, ?_, ?_⟩, ⟨⟨?_, ?_, ?_, ?_⟩, ?_, ?_⟩, ⟨⟨?_, ?_, ?_, ?_⟩, ?_, ?_⟩,
      ⟨⟨?_, ?_, ?_, ?_⟩, ?_, ?_⟩, nofun⟩ <;> decide
  · decide +kernel

end GblDisk

end Gbl.Partitions
