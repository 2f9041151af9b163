import Gbl.Storage.Gpt.Sync

/-!
# What is reported after a sync

The accessors of a `Gpt` scan the primary entries of the buffer up to the first null entry, wherever that is; a load
fills in as many entries as the header counts and leaves the rest of the buffer alone.
-/

namespace Gbl.Storage

open Lib

theorem PartitionIterator.collect_eq (entries : List GptEntry) (blockSize idx n : Nat) :
    collect n ⟨entries, blockSize, idx⟩ =
      ((partitions (entries.drop idx)).take n).map fun e => Partition.new e blockSize := by
  induction n generalizing idx with
  | zero => simp [collect]
  | succ n ih =>
    unfold collect next
    dsimp only
    rcases h : entries[idx]? with _ | e
    · have hdrop : entries.drop idx = [] := List.drop_eq_nil_of_le (List.getElem?_eq_none_iff.mp h)
      simp [hdrop, partitions]
    · obtain ⟨hlt, rfl⟩ := List.getElem?_eq_some_iff.mp h
      rw [List.drop_eq_getElem_cons hlt, partitions, List.takeWhile_cons]
      by_cases hnull : entries[idx].isNull = true
      · simp [hnull]
      · simp only [hnull, Bool.not_false, if_true, List.take_succ_cons, List.map_cons]
        rw [← partitions, ← ih]
        simp

theorem partitions_append_eq_iff (table rest : List GptEntry) : partitions (table ++ rest) = partitions table ↔
      (∃ e ∈ table, e.isNull = true) ∨ rest = [] ∨ ∃ e, rest[0]? = some e ∧ e.isNull = true := by
  induction table with
  | nil =>
    cases rest with
    | nil => simp [partitions]
    | cons e es =>
      by_cases hnull : e.isNull = true
      · simp [partitions, hnull]
      · simp [partitions, hnull]
  | cons a table ih =>
    by_cases hnull : a.isNull = true
    · simp [partitions, hnull]
    · unfold partitions at ih ⊢
      simp [hnull, ih]

namespace Gpt

structure Reports (g : Gpt) (blockSize : Nat) (parts : List GptEntry) : Prop where
  entries : g.entries = .ok parts
  partitionIter : ∃ it, g.partitionIter = .ok it ∧
    ∀ n, it.collect n = (parts.take n).map fun e => Partition.new e blockSize
  numPartitions : g.numPartitions = .ok parts.length
  getPartition : ∀ i, g.getPartition i = match parts[i]? with
    | some e => .ok (Partition.new e blockSize)
    | none => err (.badIndex i)

theorem reports_of_blockSize {g : Gpt} {blockSize : Nat} (h : g.blockSize = some blockSize) :
    g.Reports blockSize (partitions (g.table .primary)) := by
  have hvalid : g.checkValid = .ok blockSize := by rw [checkValid, h]
  have hentries : g.entries = .ok (partitions (g.table .primary)) := by
    rw [Gpt.entries, hvalid]
    rfl
  refine ⟨hentries, ⟨⟨g.primaryEntries, blockSize, 0⟩, ?_, fun n => ?_⟩, ?_, fun i => ?_⟩
  · rw [Gpt.partitionIter, hvalid]
    rfl
  · exact PartitionIterator.collect_eq _ _ 0 n
  · rw [Gpt.numPartitions, hentries]
    rfl
  · rw [Gpt.getPartition, hvalid, hentries]
    rfl

theorem Reports.eq {g : Gpt} {blockSize blockSize' : Nat} {parts parts' : List GptEntry}
    (h : g.Reports blockSize parts) (h' : g.Reports blockSize' parts') : parts = parts' := by
  have heq := h.entries.symm.trans h'.entries
  exact Except.ok.inj heq

end Gpt

/-- **When a load is exact.** After a sync that settled on the copy `t`, that copy is valid, and what
the accessors report is exactly its partitions — the entries its header counts, up to the first null
entry — if and only if one of those entries is null, or they fill the buffer, or the entry behind
them was null in the buffer before. -/
theorem sync_reports_iff (P : Platform) (d d' : Disk) (g g' : Gpt) (r : GptSyncResult)
    (t : HeaderType) (hd : d.scratch.InMemory)
    (hrun : Gpt.loadAndSync P (d, g) = (.ok r, d', g')) (ht : r.accepted = some t) :
    CopyValid P d.io.info d.io.content t ∧
    (d.io.FaultFree → (t = .primary ↔ Gpt.Loadable P d g .primary)) ∧
    (g'.Reports d.io.info.blockSize (partitions (diskTable d.io.info d.io.content t)) ↔
      (∃ e ∈ diskTable d.io.info d.io.content t, e.isNull = true) ∨
      (diskTable d.io.info d.io.content t).length = g.capacity ∨
      ∃ e, (g.table t)[(diskTable d.io.info d.io.content t).length]? = some e ∧ e.isNull = true) := by
  obtain ⟨-, -, hout⟩ := Gpt.syncOutcome_of_run hd hrun
  obtain ⟨hload, hflag, htable, hfirst⟩ := hout.accepted ht
  refine ⟨hload.valid, hfirst, ?_⟩
  have hreports := Gpt.reports_of_blockSize hflag
  have hcap := hload.capacity
  rw [← length_diskTable] at hcap
  have hrest : (g.table t).drop (diskTable d.io.info d.io.content t).length = [] ↔
      (diskTable d.io.info d.io.content t).length = g.capacity := by
    rw [List.drop_eq_nil_iff, Gpt.length_table]
    exact ⟨fun h => Nat.le_antisymm hcap h, fun h => h.ge⟩
  have hiff := partitions_append_eq_iff (diskTable d.io.info d.io.content t)
    ((g.table t).drop (diskTable d.io.info d.io.content t).length)
  rw [hrest, List.getElem?_drop, Nat.add_zero] at hiff
  rw [← hiff]
  rw [htable, Gpt.loadedTable, ← length_diskTable] at hreports
  constructor
  · intro h
    exact hreports.eq h
  · intro h
    rwa [h] at hreports

theorem sync_reports_one :
    ∃ r d' g', Gpt.loadAndSync referencePlatform
        (sampleDisk (sampleCopy [sampleEntry 145 155] .primary),
          sampleGpt [nullEntry, nullEntry] (by decide)) = (.ok r, d', g') ∧
      g'.Reports 128 [sampleEntry 145 155] := by
  have hok : (Gpt.loadAndSync referencePlatform
      (sampleDisk (sampleCopy [sampleEntry 145 155] .primary),
        sampleGpt [nullEntry, nullEntry] (by decide))).1 =
      .ok (.secondaryRestored (.gptError (.incorrectMagic 0))) := by decide +kernel
  have hparts : partitions (diskTable sampleInfo
      (sampleDisk (sampleCopy [sampleEntry 145 155] .primary)).io.content .primary) =
      [sampleEntry 145 155] := by decide +kernel
  have hclean : ((sampleGpt [nullEntry, nullEntry] (by decide)).table .primary)[(diskTable sampleInfo
      (sampleDisk (sampleCopy [sampleEntry 145 155] .primary)).io.content .primary).length]? =
      some nullEntry := by decide +kernel
  rcases hrun : Gpt.loadAndSync referencePlatform
      (sampleDisk (sampleCopy [sampleEntry 145 155] .primary),
        sampleGpt [nullEntry, nullEntry] (by decide)) with ⟨r, d', g'⟩
  rw [hrun] at hok
  dsimp only at hok
  subst hok
  have h := sync_reports_iff referencePlatform _ d' _ g' _ .primary (inMemory_sampleDisk _) hrun rfl
  have hreports := h.2.2.mpr (Or.inr (Or.inr ⟨nullEntry, hclean, by decide +kernel⟩))
  refine ⟨_, d', g', rfl, ?_⟩
  rw [← hparts]
  exact hreports

/-- The rest of a longer table shows through: two partitions are loaded from one disk, then one from
another disk into the same buffer. The second of the two is still reported, although it overlaps
what is there now. -/
theorem sync_reports_stale :
    let first := Gpt.loadAndSync referencePlatform
      (sampleDisk (sampleCopy [sampleEntry 130 140, sampleEntry 150 160] .primary),
        sampleGpt [nullEntry, nullEntry] (by decide))
    let disk := sampleDisk (sampleCopy [sampleEntry 145 155] .primary)
    let second := Gpt.loadAndSync referencePlatform (disk, first.2.2)
    first.1 = .ok (.secondaryRestored (.gptError (.incorrectMagic 0))) ∧
    second.1 = .ok (.secondaryRestored (.gptError (.incorrectMagic 0))) ∧
    partitions (diskTable disk.io.info disk.io.content .primary) = [sampleEntry 145 155] ∧
    second.2.2.entries = .ok [sampleEntry 145 155, sampleEntry 150 160] := by
  decide +kernel

end Gbl.Storage
