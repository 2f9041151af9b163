import Gbl.Fastboot.Protocol
import Gbl.Partitions.Unique

/-!
# Partition arguments (`libgbl`, `fastboot/mod.rs`)

The commands of `GblFastboot` take a partition as `name/block/offset/size`, where every part may be missing: without a
name the whole device is meant, without a block the default one, the only one or the only one that has the partition,
and without offset or size the rest of the partition.
-/

namespace Gbl.Fastboot

open Lib Lib.Exec Partitions
open Storage (Buf)

/-! ## Strings -/

def decodeUtf8 : Text → List Char
  | [] => []
  | a :: rest =>
    if a < 0x80 then Char.ofNat a.toNat :: decodeUtf8 rest
    else
      match rest with
      | [] => []
      | b :: rest =>
        if a < 0xe0 then Char.ofNat ((a.toNat - 0xc0) * 2 ^ 6 + (b.toNat - 0x80)) :: decodeUtf8 rest
        else
          match rest with
          | [] => []
          | c :: rest =>
            if a < 0xf0 then
              Char.ofNat ((a.toNat - 0xe0) * 2 ^ 12 + (b.toNat - 0x80) * 2 ^ 6 + (c.toNat - 0x80)) ::
                decodeUtf8 rest
            else
              match rest with
              | [] => []
              | d :: rest =>
                Char.ofNat ((a.toNat - 0xf0) * 2 ^ 18 + (b.toNat - 0x80) * 2 ^ 12 + (c.toNat - 0x80) * 2 ^ 6 +
                  (d.toNat - 0x80)) :: decodeUtf8 rest

def asStr (t : Text) : String := String.ofList (decodeUtf8 t)

/-! ## Arguments -/

section Parse

variable (display : Error → Text)

def commandResult {α : Type} : Result α → Res CommandError α
  | .ok a => .ok a
  | .error (.err e) => .err (.ofText (display e))
  | .error .panic => .error .panic
  | .error .hang => .error .hang

def nextArgU64 (args : List Text) : Res CommandError (Option Nat) :=
  match nextArg args with
  | none => .ok none
  | some a =>
    match hexToU64 a with
    | .ok v => .ok (some v)
    | .error e => .err (.ofText e.display)

def checkNextArgBlkId (devs : List GblDisk) (defaultBlock : Option Nat) (args : List Text) :
    Res CommandError (Option Nat) := do
  let blkId ← nextArgU64 args
  match blkId with
  | some v =>
    if v < devs.length then .ok (some v) else .err (commandError "Invalid block ID")
  | none => .ok (defaultBlock.or (if devs.length = 1 then some 0 else none))

def findOn (devs : List GblDisk) (blkId : Option Nat) (part : Option Text) : Result (Nat × Partition) :=
  match blkId with
  | none =>
    match part with
    | none => err (.other (some "Must provide a partition"))
    | some name => checkPartUnique devs (asStr name)
  | some v =>
    match devs[v]? with
    | none => panic
    | some g => do
      let p ← g.findPartition (part.map asStr)
      pure (v, p)

def findAliased (devs : List GblDisk) (blkId : Option Nat) (part : Option Text) :
    Result ((Nat × Partition) × Option Text) :=
  match findOn devs blkId part with
  | .ok found => .ok (found, part)
  | .error e =>
    if e = .err .notFound ∧ part = some (text "fvm") then do
      let found ← findOn devs blkId (some (text "fuchsia-fvm"))
      pure (found, some (text "fuchsia-fvm"))
    else .error e

def partitionSize (p : Partition) : Result Nat := do
  let (start, stop) ← p.absoluteRange
  ((stop : SafeNum) - start).toU64

def parsePartition (devs : List GblDisk) (defaultBlock : Option Nat) (part : Text) :
    Res CommandError (Option Text × Nat × Nat × Nat) := do
  let args := split slash part
  let blkId ← checkNextArgBlkId devs defaultBlock (args.drop 1)
  let windowOffset ← nextArgU64 (args.drop 2)
  let windowOffset := windowOffset.getD 0
  let windowSize ← nextArgU64 (args.drop 3)
  let ((blk, partition), actual) ← commandResult display (findAliased devs blkId (nextArg args))
  let partSz ← commandResult display (partitionSize partition)
  -- the default is computed even if it is not used
  let rest ← commandResult display ((partSz : SafeNum) - windowOffset).toU64
  let windowSize := windowSize.getD rest
  let _ ← commandResult display ((partSz : SafeNum) - windowSize - windowOffset).toU64
  pure (actual, blk, windowOffset, windowSize)

end Parse

/-! ## The state -/

abbrev TaskStep := List GblDisk → List GblDisk

structure GblFastboot where
  disks : List GblDisk
  /-- The steps of the tasks, one for each time that the command loop yields to them. -/
  tasks : List TaskStep
  /-- The buffers that will be free for a download, one after the other. -/
  bufferPool : List Buf
  currentDownloadBuffer : Option Buf
  defaultBlock : Option Nat

namespace GblFastboot

variable (display : Error → Text)

def waitFrom (blk : Nat) (part : Option String) : List TaskStep → List GblDisk →
    Result PartitionIo × List TaskStep × List GblDisk
  | [], disks =>
    match disks[blk]? with
    | none => (panic, [], disks)
    | some g =>
      match g.partitionIo part with
      | .error (.err .notReady) => (.error .hang, [], disks)
      | r => (r, [], disks)
  | step :: tasks, disks =>
    match disks[blk]? with
    | none => (panic, step :: tasks, disks)
    | some g =>
      match g.partitionIo part with
      | .error (.err .notReady) => waitFrom blk part tasks (step disks)
      | r => (r, step :: tasks, disks)

def waitPartitionIo (blk : Nat) (part : Option Text) : Exec CommandError GblFastboot PartitionIo := fun s =>
  (commandResult display (waitFrom blk (part.map asStr) s.tasks s.disks).1,
    { s with
      tasks := (waitFrom blk (part.map asStr) s.tasks s.disks).2.1
      disks := (waitFrom blk (part.map asStr) s.tasks s.disks).2.2 })

def parseAndGetPartitionIo (part : Text) : Exec CommandError GblFastboot (Nat × PartitionIo) := do
  let s ← get
  let (part, blkIdx, start, sz) ← lift (parsePartition display s.disks s.defaultBlock part)
  let io ← waitPartitionIo display blkIdx part
  let window ← lift (commandResult display (io.sub start sz))
  pure (blkIdx, window)

end GblFastboot

/-! ## Looking up -/

section Parse

variable {display : Error → Text} {devs : List GblDisk} {blkId : Option Nat} {part : Option Text}

theorem commandResult_eq_ok {α : Type} {r : Result α} {a : α} : commandResult display r = .ok a ↔ r = .ok a := by
  rcases r with (e | _ | _) | b
  · exact iff_of_false nofun nofun
  · exact iff_of_false nofun nofun
  · exact iff_of_false nofun nofun
  · exact ⟨fun h => by cases h; rfl, fun h => by cases h; rfl⟩

variable {a blk : Nat} {p : Partition} {n b : Nat}

theorem findOn_eq_ok (h : findOn devs blkId part = .ok (blk, p)) :
    ∃ g, devs[blk]? = some g ∧ g.findPartition (part.map asStr) = .ok p := by
  unfold findOn at h
  cases blkId with
  | none =>
    cases part with
    | none => cases h
    | some name => exact findPartition_of_checkPartUnique h
  | some v =>
    cases hg : devs[v]? with
    | none =>
      simp only [hg] at h
      cases h
    | some g =>
      simp only [hg] at h
      obtain ⟨q, hq, h⟩ := Res.bind_eq_ok.mp h
      cases h
      exact ⟨g, hg, hq⟩

theorem findAliased_eq_ok {actual : Option Text} (h : findAliased devs blkId part = .ok ((blk, p), actual)) :
    findOn devs blkId actual = .ok (blk, p) ∧
      (actual = part ∨ part = some (text "fvm") ∧ actual = some (text "fuchsia-fvm")) := by
  unfold findAliased at h
  cases hfind : findOn devs blkId part with
  | ok found =>
    simp only [hfind, Except.ok.injEq, Prod.mk.injEq] at h
    obtain ⟨rfl, rfl⟩ := h
    exact ⟨hfind, Or.inl rfl⟩
  | error e =>
    simp only [hfind] at h
    split at h
    · next halias =>
      obtain ⟨found, hfound, h⟩ := Res.bind_eq_ok.mp h
      cases h
      exact ⟨hfound, Or.inr ⟨halias.2, rfl⟩⟩
    · cases h

theorem partitionSize_eq_ok (h : partitionSize p = .ok n) :
    ∃ lo hi, p.absoluteRange = .ok (lo, hi) ∧ lo ≤ hi ∧ hi < 2 ^ 64 ∧ n = hi - lo := by
  obtain ⟨⟨lo, hi⟩, hrange, h⟩ := Res.bind_eq_ok.mp h
  obtain ⟨a, b, ha, hb, hle, hn⟩ := SafeNum.sub_eq_valid.mp (SafeNum.toU64_eq_ok.mp h)
  obtain ⟨hhi, rfl⟩ := SafeNum.ofNat_eq_valid.mp ha
  obtain ⟨-, rfl⟩ := SafeNum.ofNat_eq_valid.mp hb
  exact ⟨lo, hi, hrange, hle, hhi, hn.symm⟩

structure Denotes (devs : List GblDisk) (part : Text) (name : Option Text) (blk off size : Nat) (g : GblDisk)
    (lo hi : Nat) : Prop where
  disk : devs[blk]? = some g
  found : ∃ p, g.findPartition (name.map asStr) = .ok p ∧ p.absoluteRange = .ok (lo, hi)
  named : name = nextArg (split slash part) ∨
    nextArg (split slash part) = some (text "fvm") ∧ name = some (text "fuchsia-fvm")
  le : lo ≤ hi
  lt : hi < 2 ^ 64
  fits : off + size ≤ hi - lo
  offset : ∃ o, nextArgU64 ((split slash part).drop 2) = .ok o ∧ off = o.getD 0
  size : ∃ o, nextArgU64 ((split slash part).drop 3) = .ok o ∧ size = o.getD (hi - lo - off)

theorem add_le_of_sub_sub {c : Nat} (h : ((a : SafeNum) - b - c).toU64 = .ok n) : c + b ≤ a := by
  obtain ⟨x, y, hx, hy, hle, -⟩ := SafeNum.sub_eq_valid.mp (SafeNum.toU64_eq_ok.mp h)
  obtain ⟨a', b', ha, hb, hle', rfl⟩ := SafeNum.sub_eq_valid.mp hx
  obtain ⟨-, rfl⟩ := SafeNum.ofNat_eq_valid.mp ha
  obtain ⟨-, rfl⟩ := SafeNum.ofNat_eq_valid.mp hb
  obtain ⟨-, rfl⟩ := SafeNum.ofNat_eq_valid.mp hy
  omega

theorem sub_toU64_eq_ok (h : ((a : SafeNum) - b).toU64 = .ok n) : n = a - b := by
  obtain ⟨a', b', ha, hb, -, rfl⟩ := SafeNum.sub_eq_valid.mp (SafeNum.toU64_eq_ok.mp h)
  obtain ⟨-, rfl⟩ := SafeNum.ofNat_eq_valid.mp ha
  obtain ⟨-, rfl⟩ := SafeNum.ofNat_eq_valid.mp hb
  rfl

theorem denotes_of_parsePartition {defaultBlock : Option Nat} {part : Text} {name : Option Text}
    {off size : Nat} (h : parsePartition display devs defaultBlock part = .ok (name, blk, off, size)) :
    ∃ g lo hi, Denotes devs part name blk off size g lo hi := by
  unfold parsePartition at h
  obtain ⟨blkId, -, h⟩ := Res.bind_eq_ok.mp h
  obtain ⟨offset, hoffset, h⟩ := Res.bind_eq_ok.mp h
  obtain ⟨window, hwindow, h⟩ := Res.bind_eq_ok.mp h
  obtain ⟨⟨⟨blk', p⟩, actual⟩, hfind, h⟩ := Res.bind_eq_ok.mp h
  obtain ⟨partSz, hsize, h⟩ := Res.bind_eq_ok.mp h
  obtain ⟨rest, hrest, h⟩ := Res.bind_eq_ok.mp h
  obtain ⟨spare, hspare, h⟩ := Res.bind_eq_ok.mp h
  cases h
  obtain ⟨hfound, hnamed⟩ := findAliased_eq_ok (commandResult_eq_ok.mp hfind)
  obtain ⟨g, hg, hpart⟩ := findOn_eq_ok hfound
  obtain ⟨lo, hi, hrange, hle, hlt, rfl⟩ := partitionSize_eq_ok (commandResult_eq_ok.mp hsize)
  obtain rfl := sub_toU64_eq_ok (commandResult_eq_ok.mp hrest)
  exact ⟨g, lo, hi, hg, ⟨p, hpart, hrange⟩, hnamed, hle, hlt,
    add_le_of_sub_sub (commandResult_eq_ok.mp hspare), ⟨offset, hoffset, rfl⟩, ⟨window, hwindow, rfl⟩⟩

end Parse

/-! ## Waiting -/

namespace GblFastboot

def tableOf (g : GblDisk) : PartitionTable × Storage.BlockInfo := (g.partitions, g.infoCache)

def KeepsTables (step : TaskStep) : Prop := ∀ disks, (step disks).map tableOf = disks.map tableOf

def Free (g : GblDisk) (part : Option String) : Prop :=
  (part.isSome → g.partitionsBorrowed = false) ∧ g.diskBorrowed = false

instance (g : GblDisk) (part : Option String) : Decidable (Free g part) := inferInstanceAs (Decidable (_ ∧ _))

def looks : List TaskStep → List GblDisk → List (List GblDisk)
  | [], disks => [disks]
  | step :: tasks, disks => disks :: looks tasks (step disks)

def GetsFree (blk : Nat) (part : Option String) (tasks : List TaskStep) (disks : List GblDisk) : Prop :=
  ∃ d ∈ looks tasks disks, ∃ g, d[blk]? = some g ∧ Free g part

section Waiting

variable {part : Option String} {g g' : GblDisk} {p : Partition} {lo hi blk : Nat}

theorem partitionIo_eq (htable : tableOf g' = tableOf g) (hfind : g.findPartition part = .ok p)
    (hrange : p.absoluteRange = .ok (lo, hi)) :
    g'.partitionIo part = if Free g' part then .ok ⟨g'.disk, lo, hi⟩ else err .notReady := by
  obtain ⟨htab, hinfo⟩ := Prod.mk.inj htable
  by_cases hbusy : part.isSome ∧ g'.partitionsBorrowed = true
  · obtain ⟨name, rfl⟩ := Option.isSome_iff_exists.mp hbusy.1
    have hfree : ¬ Free g' (some name) := fun h => absurd (h.1 rfl) (by simp [hbusy.2])
    rw [if_neg hfree]
    simp [GblDisk.partitionIo, GblDisk.findPartition, hbusy.2]
  · have hfind' : g'.findPartition part = .ok p := by
      cases part with
      | none =>
        rw [← hfind]
        simp only [GblDisk.findPartition, hinfo]
      | some name =>
        have hborrow : g'.partitionsBorrowed = false := by simpa using hbusy
        simp only [GblDisk.findPartition] at hfind ⊢
        split at hfind
        · cases hfind
        · rw [htab]
          simp only [hborrow, Bool.false_eq_true, if_false]
          exact hfind
    have hparts : part.isSome → g'.partitionsBorrowed = false := by
      intro hsome
      simpa [hsome] using hbusy
    unfold GblDisk.partitionIo
    rw [hfind', Res.ok_bind, hrange, Res.ok_bind]
    by_cases hdisk : g'.diskBorrowed = true
    · have hfree : ¬ Free g' part := fun h => absurd h.2 (by simp [hdisk])
      rw [if_neg hfree]
      exact if_pos hdisk
    · have hfree : Free g' part := ⟨hparts, Bool.not_eq_true _ ▸ hdisk⟩
      rw [if_pos hfree]
      exact if_neg hdisk

variable {disks devs : List GblDisk}

theorem getElem?_of_tables (h : disks.map tableOf = devs.map tableOf) (hg : devs[blk]? = some g) :
    ∃ g', disks[blk]? = some g' ∧ tableOf g' = tableOf g := by
  have hmap : (disks.map tableOf)[blk]? = some (tableOf g) := by rw [h, List.getElem?_map, hg]; rfl
  rw [List.getElem?_map, Option.map_eq_some_iff] at hmap
  exact hmap

theorem waitFrom_eq (hg : devs[blk]? = some g) (hfind : g.findPartition part = .ok p)
    (hrange : p.absoluteRange = .ok (lo, hi)) {tasks : List TaskStep}
    (htasks : ∀ step ∈ tasks, KeepsTables step) (hdisks : disks.map tableOf = devs.map tableOf) :
    (GetsFree blk part tasks disks → ∃ g' tasks' disks',
      waitFrom blk part tasks disks = (.ok ⟨g'.disk, lo, hi⟩, tasks', disks') ∧ disks'[blk]? = some g' ∧
        Free g' part) ∧
    (¬ GetsFree blk part tasks disks → (waitFrom blk part tasks disks).1 = .error .hang) := by
  induction tasks generalizing disks with
  | nil =>
    obtain ⟨g', hg', htable⟩ := getElem?_of_tables hdisks hg
    have hio := partitionIo_eq htable hfind hrange
    by_cases hfree : Free g' part
    · rw [if_pos hfree] at hio
      refine ⟨fun _ => ⟨g', [], disks, ?_, hg', hfree⟩, fun hnot => absurd ?_ hnot⟩
      · simp [waitFrom, hg', hio]
      · exact ⟨disks, List.mem_singleton.mpr rfl, g', hg', hfree⟩
    · rw [if_neg hfree] at hio
      refine ⟨?_, fun _ => ?_⟩
      · rintro ⟨d, hd, g'', hg'', hfree'⟩
        obtain rfl := List.mem_singleton.mp hd
        obtain rfl := Option.some.inj (hg'.symm.trans hg'')
        exact absurd hfree' hfree
      · simp [waitFrom, hg', hio, err]
  | cons step tasks ih =>
    obtain ⟨g', hg', htable⟩ := getElem?_of_tables hdisks hg
    have hio := partitionIo_eq htable hfind hrange
    by_cases hfree : Free g' part
    · rw [if_pos hfree] at hio
      refine ⟨fun _ => ⟨g', step :: tasks, disks, ?_, hg', hfree⟩, fun hnot => absurd ?_ hnot⟩
      · simp [waitFrom, hg', hio]
      · exact ⟨disks, List.mem_cons_self .., g', hg', hfree⟩
    · rw [if_neg hfree] at hio
      have hstep : waitFrom blk part (step :: tasks) disks = waitFrom blk part tasks (step disks) := by
        simp [waitFrom, hg', hio, err]
      have hgets : GetsFree blk part (step :: tasks) disks ↔ GetsFree blk part tasks (step disks) := by
        constructor
        · rintro ⟨d, hd, g'', hg'', hfree'⟩
          rcases List.mem_cons.mp hd with rfl | hd
          · obtain rfl := Option.some.inj (hg'.symm.trans hg'')
            exact absurd hfree' hfree
          · exact ⟨d, hd, g'', hg'', hfree'⟩
        · rintro ⟨d, hd, hrest⟩
          exact ⟨d, List.mem_cons_of_mem disks hd, hrest⟩
      rw [hstep, hgets]
      exact ih (fun st hst => htasks st (List.mem_cons_of_mem step hst))
        ((htasks step (List.mem_cons_self ..) disks).trans hdisks)

end Waiting

theorem sub_of_denotes {devs : List GblDisk} {part : Text} {name : Option Text} {blk off size : Nat} {g : GblDisk}
    {lo hi : Nat} (h : Denotes devs part name blk off size g lo hi) (disk : Storage.Disk) :
    PartitionIo.sub ⟨disk, lo, hi⟩ off size = .ok ⟨disk, lo + off, lo + off + size⟩ := by
  have hle := h.le
  have hlt := h.lt
  have hfits := h.fits
  have hvalid : PartitionIo.Valid ⟨disk, lo, hi⟩ := ⟨hle, hlt⟩
  have hin : PartitionIo.Fits ⟨disk, lo, hi⟩ off size := by
    show lo + off + size ≤ hi
    omega
  rw [PartitionIo.sub_eq hvalid (by omega) (by omega), if_pos hin]
  rfl

/-- **A parsed partition window is valid.** The window lies in the partition, its offset and size are
the given fields, and as long as the tasks leave the partition tables alone, the partition is opened
exactly there: as soon as the disk is free, and never if it never is. -/
theorem parsed_window_valid {display : Error → Text} {s : GblFastboot} {part : Text} {name : Option Text}
    {blk off size : Nat}
    (h : parsePartition display s.disks s.defaultBlock part = .ok (name, blk, off, size)) :
    ∃ g lo hi, Denotes s.disks part name blk off size g lo hi ∧
      ((∀ step ∈ s.tasks, KeepsTables step) →
        (GetsFree blk (name.map asStr) s.tasks s.disks → ∃ g' s',
          parseAndGetPartitionIo display part s = (.ok (blk, ⟨g'.disk, lo + off, lo + off + size⟩), s') ∧
            s'.disks[blk]? = some g') ∧
        (¬ GetsFree blk (name.map asStr) s.tasks s.disks →
          (parseAndGetPartitionIo display part s).1 = .error .hang)) := by
  obtain ⟨g, lo, hi, hden⟩ := denotes_of_parsePartition h
  refine ⟨g, lo, hi, hden, fun htasks => ?_⟩
  obtain ⟨p, hfind, hrange⟩ := hden.found
  obtain ⟨hfree, hbusy⟩ := waitFrom_eq hden.disk hfind hrange htasks rfl
  have hstart : parseAndGetPartitionIo display part s =
      (do
        let io ← waitPartitionIo display blk name
        let window ← lift (commandResult display (io.sub off size))
        pure (blk, window) : Exec CommandError GblFastboot (Nat × PartitionIo)) s :=
    (bind_run_ok (get_run s)).trans (bind_run_ok (lift_run_ok h s))
  rw [hstart]
  constructor
  · intro hgets
    obtain ⟨g', tasks', disks', hwait, hg', -⟩ := hfree hgets
    have hopen : waitPartitionIo display blk name s =
        (.ok ⟨g'.disk, lo, hi⟩, { s with tasks := tasks', disks := disks' }) := by
      simp only [waitPartitionIo, hwait, commandResult]
    have hsub : commandResult display (PartitionIo.sub ⟨g'.disk, lo, hi⟩ off size) =
        .ok ⟨g'.disk, lo + off, lo + off + size⟩ := by
      rw [sub_of_denotes hden]
      rfl
    refine ⟨g', { s with tasks := tasks', disks := disks' }, ?_, hg'⟩
    exact (bind_run_ok hopen).trans (bind_run_ok (lift_run_ok hsub _))
  · intro hnever
    have hhang : (waitPartitionIo display blk name s).1 = .error .hang := by
      simp only [waitPartitionIo, hbusy hnever, commandResult]
    exact congrArg Prod.fst (bind_run_error (Prod.ext hhang rfl))

def busyDisk : GblDisk := ⟨Storage.sampleDisk [], true, .raw "boot" 0x9600, false, Storage.sampleInfo⟩

def letGo : TaskStep := fun disks => disks.map fun g => { g with diskBorrowed := false }

theorem keepsTables_letGo : KeepsTables letGo := by
  intro disks
  rw [letGo, List.map_map]
  rfl

/-- A task holds the disk at first; the window is opened after its next step. -/
theorem parsed_window_valid_busy :
    ∃ g' s', parseAndGetPartitionIo (fun _ => []) (text "boot//100/200") ⟨[busyDisk], [letGo], [], none, none⟩ =
      (.ok (0, ⟨g'.disk, 0x100, 0x300⟩), s') ∧ s'.disks[0]? = some g' := by
  obtain ⟨g, lo, hi, hden, hopens⟩ := parsed_window_valid (s := ⟨[busyDisk], [letGo], [], none, none⟩)
    (show parsePartition (fun _ => []) _ none (text "boot//100/200") = .ok (some (text "boot"), 0, 0x100, 0x200) by rfl)
  obtain rfl : busyDisk = g := Option.some.inj hden.disk
  obtain ⟨p, hfind, hrange⟩ := hden.found
  obtain rfl := Except.ok.inj hfind
  obtain ⟨rfl, rfl⟩ := Prod.mk.inj (Except.ok.inj hrange)
  refine (hopens (List.forall_mem_singleton.2 keepsTables_letGo)).1 ?_
  exact ⟨letGo [busyDisk], List.mem_cons_of_mem _ (List.mem_singleton_self _), _, rfl, by decide⟩

end GblFastboot

end Gbl.Fastboot
