import Gbl.Storage.Gpt.Sync

/-!
# What a restore does to the disk

`check_header` keeps the usable blocks of any accepted header between two areas, one at each end of the disk, and a
restore writes to these areas only.
-/

namespace Gbl.Storage

open Lib

/-! ## Where things are -/

@[simp] theorem headerPos_primary (info : BlockInfo) : headerPos info .primary = info.blockSize := rfl

@[simp] theorem restorePos_primary (info : BlockInfo) : restorePos info .primary = 2 * info.blockSize := rfl

structure Areas (info : BlockInfo) : Prop where
  headerPos_eq : headerPos info .secondary = restorePos info .secondary + gptMaxNumEntriesSize
  usable : gptMaxNumEntriesSize + 2 * info.blockSize ≤ restorePos info .secondary

namespace GptHeader.Valid

variable {P : Platform} {info : BlockInfo} {t : HeaderType} {h : GptHeader}

theorem restorePos_eq (hv : h.Valid P info t) :
    restorePos info .secondary = (info.numBlocks - 1 - info.entriesBlk) * info.blockSize := by
  rw [Nat.sub_mul, hv.entriesBlk_mul]
  rfl

theorem areas (hv : h.Valid P info t) : Areas info := by
  have hdisk := hv.diskSize
  have hmul := hv.entriesBlk_mul
  have hle : info.entriesBlk * info.blockSize ≤ (info.numBlocks - 1) * info.blockSize :=
    Nat.mul_le_mul_right _ (by omega)
  have hsum : (info.entriesBlk + 2) * info.blockSize ≤ (info.numBlocks - 1 - info.entriesBlk) * info.blockSize :=
    Nat.mul_le_mul_right _ (by omega)
  rw [hmul] at hle
  rw [Nat.add_mul, hmul] at hsum
  refine ⟨?_, by rw [hv.restorePos_eq]; exact hsum⟩
  unfold headerPos restorePos
  exact (Nat.sub_add_cancel hle).symm

theorem le_first_pos (hv : h.Valid P info t) :
    gptMaxNumEntriesSize + 2 * info.blockSize ≤ h.first.toNat * info.blockSize := by
  have hle := Nat.mul_le_mul_right info.blockSize hv.le_first
  rwa [Nat.add_mul, hv.entriesBlk_mul] at hle

theorem last_pos_le (hv : h.Valid P info t) : (h.last.toNat + 1) * info.blockSize ≤ restorePos info .secondary := by
  rw [hv.restorePos_eq]
  have hlast := hv.last_le
  exact Nat.mul_le_mul_right _ (by omega)

theorem first_pos_le (hv : h.Valid P info t) : h.first.toNat * info.blockSize ≤ (h.last.toNat + 1) * info.blockSize :=
  Nat.mul_le_mul_right _ hv.first_le

end GptHeader.Valid

variable {t : HeaderType} {i : Nat} {P : Platform} {d : Disk} {g : Gpt} {d' : Disk} {g' : Gpt}
  {r : Result GptSyncResult}

theorem Areas.untouched {info : BlockInfo} (ha : Areas info) {c c₁ c' : Content} {header entries : List UInt8}
    (hheader : header.length = gptHeaderSize) (hentries : entries.length ≤ gptMaxNumEntriesSize)
    (h₁ : Torn c (headerPos info t) header c₁) (h₂ : Torn c₁ (restorePos info t) entries c')
    (hi : i < info.blockSize ∨ gptMaxNumEntriesSize + 2 * info.blockSize ≤ i ∧ i < restorePos info .secondary) :
    c' i = c i := by
  have hpos := ha.headerPos_eq
  have husable := ha.usable
  have hsize : gptHeaderSize ≤ gptMaxNumEntriesSize := by decide
  rw [h₂.eq_of_not_mem ?_, h₁.eq_of_not_mem ?_]
  · cases t with
    | primary => rw [headerPos_primary]; omega
    | secondary => omega
  · cases t with
    | primary => rw [restorePos_primary]; omega
    | secondary => omega

theorem length_loadedTable (h : Gpt.Loadable P d g t) : (Gpt.loadedTable d g t).length = g.capacity := by
  have hcap := h.capacity
  rw [Gpt.loadedTable, List.length_append, length_diskTable, List.length_drop, Gpt.length_table]
  omega

theorem length_encAll_loadedTable (h : Gpt.Loadable P d g t) :
    (GptEntry.codec.encAll (Gpt.loadedTable d g t)).length = g.capacity * gptEntrySize := by
  rw [Codec.length_encAll, length_loadedTable h]
  rfl

theorem capacity_mul_le (g : Gpt) : g.capacity * gptEntrySize ≤ gptMaxNumEntriesSize :=
  Nat.mul_le_mul_right _ g.capacity_le

/-! ## Partitions are safe -/

theorem Gpt.SyncOutcome.content (h : Gpt.SyncOutcome P d g r d' g') :
    d'.io.content = d.io.content ∨ ∃ t c, Gpt.Loadable P d g t.other ∧
      Torn d.io.content (headerPos d.io.info t) (GptHeader.codec.enc
        (restoredHeader P d.io.info (diskHeader d.io.info d.io.content t.other) t)) c ∧
      Torn c (restorePos d.io.info t) (GptEntry.codec.encAll (Gpt.loadedTable d g t.other))
        d'.io.content := by
  cases h with
  | stopped _ content => exact Or.inl content
  | noValid _ content _ => exact Or.inl content
  | bothValid _ _ _ content _ _ _ => exact Or.inl content
  | restored t load _ torn _ =>
    obtain ⟨c, hheader, hentries⟩ := torn
    exact Or.inr ⟨t, c, load, hheader, hentries⟩

theorem Gpt.SyncOutcome.untouched (h : Gpt.SyncOutcome P d g r d' g') (hi : i < d.io.info.blockSize ∨
      gptMaxNumEntriesSize + 2 * d.io.info.blockSize ≤ i ∧ i < restorePos d.io.info .secondary) :
    d'.io.content i = d.io.content i := by
  rcases h.content with heq | ⟨t, c, hload, hheader, hentries⟩
  · exact congrFun heq i
  · have hvalid := (checkHeader_eq_ok_iff _ _ _ _).mp hload.valid.header
    have hlen := (length_encAll_loadedTable hload).trans_le (capacity_mul_le g)
    exact hvalid.areas.untouched (GptHeader.codec.length_enc _) hlen hheader hentries hi

/-- **A sync never touches partition data.** Whatever comes of it, also if a write fails half-way, the
first block and the usable blocks of every accepted header are what they were before; and if no copy
is valid, so is the whole disk. -/
theorem sync_keeps_partitions (P : Platform) (d d' : Disk) (g g' : Gpt) (r : Result GptSyncResult)
    (hd : d.scratch.InMemory) (hrun : Gpt.loadAndSync P (d, g) = (r, d', g')) :
    (∀ i, i < d.io.info.blockSize → d'.io.content i = d.io.content i) ∧
    (∀ t, checkHeader P d.io.info (diskHeader d.io.info d.io.content t) t = .ok () →
      ∀ i, (diskHeader d.io.info d.io.content t).first.toNat * d.io.info.blockSize ≤ i →
        i < ((diskHeader d.io.info d.io.content t).last.toNat + 1) * d.io.info.blockSize →
        d'.io.content i = d.io.content i) ∧
    ((∀ t, ¬ CopyValid P d.io.info d.io.content t) → d'.io.content = d.io.content) := by
  obtain ⟨-, -, hout⟩ := Gpt.syncOutcome_of_run hd hrun
  refine ⟨fun i hi => hout.untouched (.inl hi), fun t ht i hlo hhi => ?_, fun hno => ?_⟩
  · have hv := (checkHeader_eq_ok_iff _ _ _ _).mp ht
    exact hout.untouched (.inr ⟨Nat.le_trans hv.le_first_pos hlo, Nat.lt_of_lt_of_le hhi hv.last_pos_le⟩)
  · rcases hout.content with heq | ⟨t, c, hload, -⟩
    · exact heq
    · exact absurd hload.valid (hno _)

def tornDisk : Disk :=
  ⟨{ (sampleDisk (sampleCopy [sampleEntry 145 155] .primary)).io with
      faults := fun n => if n = 4 then some ⟨.deviceError, fun _ => 0, fun i => i % 2 == 0⟩ else none },
    (sampleDisk []).scratch⟩

theorem sync_keeps_partitions_torn :
    ∃ d' g', Gpt.loadAndSync referencePlatform
        (tornDisk, sampleGpt [nullEntry, nullEntry] (by decide)) = (err .deviceError, d', g') ∧
      (∀ i, i < 128 → d'.io.content i = tornDisk.io.content i) ∧
      ∀ i, 130 * 128 ≤ i → i < 171 * 128 → d'.io.content i = tornDisk.io.content i := by
  have hr : (Gpt.loadAndSync referencePlatform
      (tornDisk, sampleGpt [nullEntry, nullEntry] (by decide))).1 = err .deviceError := by
    decide +kernel
  have hheader : checkHeader referencePlatform sampleInfo
      (diskHeader sampleInfo tornDisk.io.content .primary) .primary = .ok () := by decide +kernel
  have hfirst : (diskHeader sampleInfo tornDisk.io.content .primary).first.toNat = 130 := by
    decide +kernel
  have hlast : (diskHeader sampleInfo tornDisk.io.content .primary).last.toNat = 170 := by
    decide +kernel
  rcases hrun : Gpt.loadAndSync referencePlatform
      (tornDisk, sampleGpt [nullEntry, nullEntry] (by decide)) with ⟨r, d', g'⟩
  rw [hrun] at hr
  dsimp only at hr
  subst hr
  have h := sync_keeps_partitions referencePlatform tornDisk d' _ g' _ (inMemory_sampleDisk []) hrun
  refine ⟨d', g', rfl, h.1, fun i hlo hhi => h.2.1 .primary hheader i ?_ ?_⟩
  · show (diskHeader sampleInfo tornDisk.io.content .primary).first.toNat * 128 ≤ i
    rwa [hfirst]
  · show i < ((diskHeader sampleInfo tornDisk.io.content .primary).last.toNat + 1) * 128
    rwa [hlast]

end Gbl.Storage
