import Gbl.Storage.Gpt.Report
import Gbl.Storage.Gpt.Restore

/-!
# Convergence

After a sync both copies should be valid and agree, so that the next sync finds nothing to do.
-/

namespace Gbl.Storage

open Lib

/-! ## The restored header -/

section RestoredHeader

variable {P : Platform} {info : BlockInfo} {t : HeaderType} {h : GptHeader}

@[simp] theorem restoredHeader_first : (restoredHeader P info h t).first = h.first := by
  cases t <;> rfl

@[simp] theorem restoredHeader_last : (restoredHeader P info h t).last = h.last := by
  cases t <;> rfl

@[simp] theorem restoredHeader_entriesCount : (restoredHeader P info h t).entriesCount = h.entriesCount := by
  cases t <;> rfl

@[simp] theorem restoredHeader_entriesCrc : (restoredHeader P info h t).entriesCrc = h.entriesCrc := by
  cases t <;> rfl

theorem restoredHeader_entries {u : HeaderType} (hv : h.Valid P info u) : (restoredHeader P info h t).entries.toNat =
      match t with
      | .primary => 2
      | .secondary => info.numBlocks - 1 - info.entriesBlk := by
  cases t with
  | primary => rfl
  | secondary =>
    show (UInt64.ofNat (restorePos info .secondary / info.blockSize)).toNat = _
    rw [hv.restorePos_eq, Nat.mul_div_cancel _ hv.blockSize_pos, UInt64.toNat_ofNat_of_lt']
    have hlt := info.numBlocks_lt
    show _ < 2 ^ 64
    omega

theorem entriesPos_restoredHeader {u : HeaderType} (hv : h.Valid P info u) :
    (restoredHeader P info h t).entriesPos info = restorePos info t := by
  unfold GptHeader.entriesPos
  rw [restoredHeader_entries hv]
  cases t with
  | primary => rfl
  | secondary => exact hv.restorePos_eq.symm

theorem valid_restoredHeader (hv : h.Valid P info t.other) : (restoredHeader P info h t).Valid P info t := by
  have hentries := restoredHeader_entries (t := t) hv
  have hle := hv.le_first
  have hlast := hv.last_le
  have hdisk := hv.diskSize
  refine ⟨hv.blockSize_pos, hv.entriesBlk_mul, hv.diskSize, ?_, ?_, ?_, ?_, ?_, ?_, ?_, ?_, ?_⟩
  · cases t <;> exact hv.magic
  · cases t <;> exact GptHeader.calculateHeaderCrc_updateCrc P _
  · cases t <;> exact hv.size
  · cases t <;> exact hv.entriesSize
  · rw [restoredHeader_first, restoredHeader_last]; exact hv.first_le
  · rw [restoredHeader_first]; exact hle
  · rw [restoredHeader_last]; exact hlast
  · rw [hentries, restoredHeader_first, restoredHeader_last]
    cases t with
    | primary => exact ⟨Nat.le_refl 2, by simp only; omega⟩
    | secondary => exact ⟨by simp only; omega, by simp only; omega⟩
  · rw [restoredHeader_entriesCount]; exact hv.entriesCount

end RestoredHeader

/-! ## Both copies after a restore -/

variable {P : Platform} {info : BlockInfo} {t : HeaderType} {h : GptHeader}

theorem GptHeader.Valid.entriesPos_clear (hv : h.Valid P info t.other) :
    match t with
    | .primary => gptMaxNumEntriesSize + 2 * info.blockSize ≤ h.entriesPos info
    | .secondary => h.entriesPos info + gptMaxNumEntriesSize ≤ restorePos info .secondary := by
  have hentries := hv.entries
  cases t with
  | primary =>
    have hlast : (h.last.toNat + 1) * info.blockSize ≤ h.entriesPos info := Nat.mul_le_mul_right _ hentries.1
    exact hv.le_first_pos.trans (hv.first_pos_le.trans hlast)
  | secondary =>
    have hfirst : (h.entries.toNat + info.entriesBlk) * info.blockSize ≤
        h.first.toNat * info.blockSize := Nat.mul_le_mul_right _ hentries.2
    rw [Nat.add_mul, hv.entriesBlk_mul] at hfirst
    exact hfirst.trans (hv.first_pos_le.trans hv.last_pos_le)

theorem GptHeader.Valid.tableSize_le (hv : h.Valid P info t) :
    h.entriesCount.toNat * gptEntrySize ≤ gptMaxNumEntriesSize :=
  Nat.mul_le_mul_right _ hv.entriesCount

section Restored

variable {P : Platform} {info : BlockInfo} {t : HeaderType} {c : Content} {entries : List UInt8}

def restoredContent (P : Platform) (info : BlockInfo) (t : HeaderType) (c : Content)
    (entries : List UInt8) : Content :=
  store (store c (headerPos info t)
    (GptHeader.codec.enc (restoredHeader P info (diskHeader info c t.other) t)))
    (restorePos info t) entries

theorem slice_restoredContent {off len : Nat}
    (hheader : headerPos info t + gptHeaderSize ≤ off ∨ off + len ≤ headerPos info t)
    (hentries : restorePos info t + entries.length ≤ off ∨ off + len ≤ restorePos info t) :
    slice (restoredContent P info t c entries) off len = slice c off len := by
  rw [restoredContent, slice_store_of_disjoint _ hentries, slice_store_of_disjoint]
  rw [Codec.length_enc]
  exact hheader

variable (hv : (diskHeader info c t.other).Valid P info t.other)

include hv

theorem tableBytes_restoredContent
    (hle : (diskHeader info c t.other).entriesCount.toNat * gptEntrySize ≤ entries.length) :
    (restoredHeader P info (diskHeader info c t.other) t).tableBytes info (restoredContent P info t c entries) =
      entries.take ((diskHeader info c t.other).entriesCount.toNat * gptEntrySize) := by
  rw [GptHeader.tableBytes, entriesPos_restoredHeader hv, restoredHeader_entriesCount, restoredContent,
    slice_store_prefix _ _ hle]

variable (hlen : entries.length ≤ gptMaxNumEntriesSize)

include hlen

theorem diskHeader_other_restoredContent :
    diskHeader info (restoredContent P info t c entries) t.other = diskHeader info c t.other := by
  have hpos := hv.areas.headerPos_eq
  have husable := hv.areas.usable
  have hsize : gptHeaderSize ≤ gptMaxNumEntriesSize := by decide
  unfold diskHeader
  rw [slice_restoredContent]
  · cases t with
    | primary => rw [headerPos_primary, HeaderType.other]; omega
    | secondary => rw [HeaderType.other, headerPos_primary]; omega
  · cases t with
    | primary => rw [restorePos_primary, HeaderType.other]; omega
    | secondary => rw [HeaderType.other, headerPos_primary]; omega

theorem tableBytes_other_restoredContent :
    (diskHeader info c t.other).tableBytes info (restoredContent P info t c entries) =
      (diskHeader info c t.other).tableBytes info c := by
  have hpos := hv.areas.headerPos_eq
  have husable := hv.areas.usable
  have hsize : gptHeaderSize ≤ gptMaxNumEntriesSize := by decide
  have hclear := hv.entriesPos_clear
  have htable := hv.tableSize_le
  unfold GptHeader.tableBytes
  apply slice_restoredContent
  · cases t with
    | primary => rw [headerPos_primary]; simp only at hclear; omega
    | secondary => simp only at hclear; omega
  · cases t with
    | primary => rw [restorePos_primary]; simp only at hclear; omega
    | secondary => simp only at hclear; omega

theorem diskHeader_restoredContent (hbs : gptHeaderSize ≤ info.blockSize) :
    diskHeader info (restoredContent P info t c entries) t = restoredHeader P info (diskHeader info c t.other) t := by
  have hpos := hv.areas.headerPos_eq
  have henc : (GptHeader.codec.enc (restoredHeader P info (diskHeader info c t.other) t)).length =
      gptHeaderSize := GptHeader.codec.length_enc _
  have hdisjoint : restorePos info t + entries.length ≤ headerPos info t ∨
      headerPos info t + gptHeaderSize ≤ restorePos info t := by
    cases t with
    | primary => rw [headerPos_primary, restorePos_primary]; omega
    | secondary => omega
  rw [diskHeader, restoredContent, slice_store_of_disjoint _ hdisjoint, ← henc, slice_store, Codec.dec_enc]

end Restored

structure BothHold (P : Platform) (info : BlockInfo) (c c' : Content) (u : HeaderType) : Prop where
  valid : ∀ t, CopyValid P info c' t
  table : ∀ t, diskTable info c' t = diskTable info c u

theorem bothHold_restoredContent {c : Content} {entries : List UInt8} (hvalid : CopyValid P info c t.other)
    (hlen : entries.length ≤ gptMaxNumEntriesSize) (hbs : gptHeaderSize ≤ info.blockSize)
    (hle : (diskHeader info c t.other).entriesCount.toNat * gptEntrySize ≤ entries.length)
    (htake : entries.take ((diskHeader info c t.other).entriesCount.toNat * gptEntrySize) =
      (diskHeader info c t.other).tableBytes info c) :
    BothHold P info c (restoredContent P info t c entries) t.other := by
  have hv := (checkHeader_eq_ok_iff _ _ _ _).mp hvalid.header
  have hheader := diskHeader_restoredContent hv hlen hbs
  have htable := (tableBytes_restoredContent hv hle).trans htake
  have hheaderOther := diskHeader_other_restoredContent hv hlen
  have htableOther := tableBytes_other_restoredContent hv hlen
  have hthis : CopyValid P info (restoredContent P info t c entries) t := by
    refine ⟨?_, ?_⟩
    · rw [hheader]
      exact (checkHeader_eq_ok_iff _ _ _ _).mpr (valid_restoredHeader hv)
    · rw [hheader, htable, checkEntries_congr P _ restoredHeader_entriesCount restoredHeader_entriesCrc
        restoredHeader_first restoredHeader_last]
      exact hvalid.entries
  have hother : CopyValid P info (restoredContent P info t c entries) t.other := by
    refine ⟨?_, ?_⟩
    · rw [hheaderOther]
      exact hvalid.header
    · rw [hheaderOther, htableOther]
      exact hvalid.entries
  have hthisTable : diskTable info (restoredContent P info t c entries) t = diskTable info c t.other := by
    unfold diskTable GptHeader.table
    rw [hheader, htable, restoredHeader_entriesCount]
  have hotherTable : diskTable info (restoredContent P info t c entries) t.other = diskTable info c t.other := by
    unfold diskTable
    rw [hheaderOther, htableOther]
  exact ⟨HeaderType.forall_of_other hthis hother,
    HeaderType.forall_of_other (p := fun u => diskTable info _ u = _) hthisTable hotherTable⟩

/-! ## Agreement -/

theorem isConsistent_restored (P : Platform) (info : BlockInfo) (h : GptHeader) (t : HeaderType) : (match t with
      | .primary => Gpt.isConsistent (restoredHeader P info h .primary) h
      | .secondary => Gpt.isConsistent h (restoredHeader P info h .secondary)) = true ↔
    (t = .primary → h.backup = 1) := by
  cases t with
  | primary =>
    simp only [Gpt.isConsistent, restoredHeader, GptHeader.updateCrc, beq_iff_eq, true_implies]
    constructor
    · intro heq
      exact (congrArg GptHeader.backup heq).symm
    · intro hb
      cases h
      simp_all
  | secondary =>
    simp [Gpt.isConsistent, restoredHeader, GptHeader.updateCrc]

/-! ## The next sync -/

theorem restorePos_add_lt (hv : h.Valid P info t.other) (hstart : Gpt.headerStart info t = .ok (headerPos info t)) :
    restorePos info t + gptMaxNumEntriesSize < 2 ^ 64 := by
  cases t with
  | primary =>
    have hmul := hv.entriesBlk_mul
    have hpos : 0 < info.entriesBlk := by
      rcases Nat.eq_zero_or_pos info.entriesBlk with h0 | h0
      · rw [h0, Nat.zero_mul] at hmul
        cases hmul
      · exact h0
    have hle : info.blockSize ≤ gptMaxNumEntriesSize := hmul ▸ Nat.le_mul_of_pos_left _ hpos
    rw [restorePos_primary]
    unfold gptMaxNumEntriesSize gptMaxNumEntries gptEntrySize at hle ⊢
    omega
  | secondary =>
    rw [← hv.areas.headerPos_eq]
    exact (Gpt.headerStart_eq_ok hstart).2

theorem gptHeaderSize_le_blockSize {d : Disk} {addr : Nat} (hv : h.Valid P d.io.info t)
    (hreach : d.Reaches addr (headerPos d.io.info .secondary) gptHeaderSize) :
    gptHeaderSize ≤ d.io.info.blockSize := by
  have hle := hreach.2.le_total (by decide)
  have hdisk := hv.diskSize
  have htotal : d.io.info.total = headerPos d.io.info .secondary + d.io.info.blockSize := by
    rw [BlockInfo.total, headerPos, ← Nat.succ_mul, Nat.mul_comm]
    congr 1
    omega
  omega

namespace Gpt

structure Settled (P : Platform) (d d' : Disk) (g g' : Gpt) : Prop where
  load : ∀ u, Loadable P d' g' u
  consistent : isConsistent (diskHeader d.io.info d'.io.content .primary)
      (diskHeader d.io.info d'.io.content .secondary) = true ↔
    Loadable P d g .primary ∨ (diskHeader d.io.info d.io.content .secondary).backup = 1
  blockSize : g'.blockSize = some d.io.info.blockSize
  header : ∀ u, g'.header u = diskHeader d.io.info d'.io.content u
  table : ∀ u, loadedTable d' g' u = g'.table u

variable {d : Disk} {g : Gpt} {t : HeaderType} {P : Platform} {d' : Disk} {g' : Gpt}

theorem loadedTable_eq_self {rest : List GptEntry}
    (h : g.table t = diskTable d.io.info d.io.content t ++ rest) : loadedTable d g t = g.table t := by
  rw [loadedTable, h, ← length_diskTable, List.drop_left]

theorem settled_of_restoreDone (hran : d.Ran (fun a => a.Proper d.io.info) d') (hbuf : SameBuffer g g')
    (hff : d.io.FaultFree) (hload : Loadable P d g t.other)
    (hlost : d.io.FaultFree → Loadable P d g t → t = .secondary ∧
      isConsistent (diskHeader d.io.info d.io.content .primary)
        (diskHeader d.io.info d.io.content .secondary) = false) (hdone : RestoreDone P t d g d' g') :
    Settled P d d' g g' := by
  have hv := (checkHeader_eq_ok_iff _ _ _ _).mp hload.valid.header
  have hcontent : d'.io.content = restoredContent P d.io.info t d.io.content
    (GptEntry.codec.encAll (loadedTable d g t.other)) := hdone.content
  have hlen := length_encAll_loadedTable hload
  have hle := hlen.trans_le (capacity_mul_le g)
  have hcap := Nat.mul_le_mul_right gptEntrySize hload.capacity
  have hbs : gptHeaderSize ≤ d.io.info.blockSize := by
    cases t with
    | primary => exact gptHeaderSize_le_blockSize hv hload.header
    | secondary => exact gptHeaderSize_le_blockSize hv hdone.headerReach
  have hboth := bothHold_restoredContent hload.valid hle hbs (hcap.trans_eq hlen.symm) (by
    rw [loadedTable, Codec.encAll_append, encAll_diskTable, List.take_left' (GptHeader.length_tableBytes _ _ _)])
  have hheader := diskHeader_restoredContent hv hle hbs
  have hheaderOther := diskHeader_other_restoredContent hv hle
  rw [← hcontent] at hboth hheader hheaderOther
  refine ⟨fun u => (loadable_iff_withContent hran hbuf).mpr ?_, ?_, hdone.blockSize, ?_, fun u => ?_⟩
  · have hend := restorePos_add_lt hv hdone.start
    have hthis : Loadable P (d.withContent d'.io.content) g t := by
      refine ⟨hboth.valid t, hdone.start, hdone.headerReach, ?_, ?_, ?_⟩
      · show (diskHeader d.io.info d'.io.content t).entriesCount.toNat ≤ _
        rw [hheader, restoredHeader_entriesCount]
        exact hload.capacity
      · show (diskHeader d.io.info d'.io.content t).entriesPos d.io.info < _
        rw [hheader, entriesPos_restoredHeader hv]
        omega
      · show d.Reaches _ ((diskHeader d.io.info d'.io.content t).entriesPos d.io.info)
          ((diskHeader d.io.info d'.io.content t).entriesCount.toNat * gptEntrySize)
        rw [hheader, entriesPos_restoredHeader hv, restoredHeader_entriesCount]
        exact ⟨hdone.tableReach.1, hdone.tableReach.2.mono hcap
          (Nat.lt_of_le_of_lt (Nat.add_le_add_left (capacity_mul_le g) _) hend)⟩
    have hother : Loadable P (d.withContent d'.io.content) g t.other := by
      refine ⟨hboth.valid _, hload.start, hload.header, ?_, ?_, ?_⟩
      · show (diskHeader d.io.info d'.io.content t.other).entriesCount.toNat ≤ _
        rw [hheaderOther]
        exact hload.capacity
      · show (diskHeader d.io.info d'.io.content t.other).entriesPos d.io.info < _
        rw [hheaderOther]
        exact hload.offset_lt
      · show d.Reaches _ ((diskHeader d.io.info d'.io.content t.other).entriesPos d.io.info)
          ((diskHeader d.io.info d'.io.content t.other).entriesCount.toNat * gptEntrySize)
        rw [hheaderOther]
        exact hload.table
    exact HeaderType.forall_of_other hthis hother u
  · have hcons := isConsistent_restored P d.io.info (diskHeader d.io.info d.io.content t.other) t
    cases t with
    | primary =>
      change diskHeader d.io.info d'.io.content .secondary = _ at hheaderOther
      rw [hheader, hheaderOther]
      refine hcons.trans ⟨fun hb => Or.inr (hb rfl), ?_⟩
      rintro (hl | hb) -
      · cases (hlost hff hl).1
      · exact hb
    | secondary =>
      change diskHeader d.io.info d'.io.content .primary = _ at hheaderOther
      rw [hheader, hheaderOther]
      exact iff_of_true (hcons.mpr (by rintro ⟨⟩)) (Or.inl hload)
  · exact HeaderType.forall_of_other (p := fun u => g'.header u = diskHeader d.io.info d'.io.content u)
      (hdone.header.trans hheader.symm) (hdone.headerOther.trans hheaderOther.symm)
  · have htable := hdone.table u
    rw [loadedTable, ← hboth.table u, ← hran.io.info] at htable
    exact loadedTable_eq_self htable

theorem SyncOutcome.settled {r : GptSyncResult} (h : SyncOutcome P d g (.ok r) d' g')
    (hr : ∀ e e', r ≠ .noValidGpt e e') (hran : d.Ran (fun a => a.Proper d.io.info) d')
    (hbuf : SameBuffer g g') (hff : d.io.FaultFree) : Settled P d d' g g' := by
  cases h with
  | noValid => exact absurd rfl (hr _ _)
  | bothValid load consistent reads content blockSize header table =>
    refine ⟨fun u => (loadable_iff hran content hbuf).mpr (load u), ?_, blockSize, ?_, fun u => ?_⟩
    · rw [content]
      exact iff_of_true consistent (Or.inl (load _))
    · rw [content]
      exact header
    · have htable := table u
      rw [loadedTable, ← content, ← hran.io.info] at htable
      exact loadedTable_eq_self htable
  | restored t load lost torn done =>
    exact settled_of_restoreDone hran hbuf hff load lost (done r rfl).2

theorem Settled.next {d₁ d₂ : Disk} {g₁ g₂ : Gpt} {r : Result GptSyncResult} (hs : Settled P d d₁ g g₁)
    (hinfo : d₁.io.info = d.io.info) (hff : d₁.io.FaultFree) (h : SyncOutcome P d₁ g₁ r d₂ g₂) :
    (r = .ok .bothValid ↔ Loadable P d g .primary ∨ (diskHeader d.io.info d.io.content .secondary).backup = 1) ∧
    (r = .ok .bothValid → d₁.Ran (fun a => a.IsRead) d₂ ∧ d₂.io.content = d₁.io.content ∧
      g₂.blockSize = some d.io.info.blockSize ∧ g₂.table .primary = g₁.table .primary) := by
  rw [← hs.consistent, ← hinfo]
  cases h with
  | stopped failed content =>
    obtain ⟨u, hu, -⟩ := failed hff
    exact absurd (hs.load u) hu
  | noValid failed content blockSize => exact absurd (hs.load .primary) (failed hff _)
  | bothValid load consistent reads content blockSize header table =>
    exact ⟨iff_of_true rfl consistent, fun _ =>
      ⟨reads.mono fun _ h => h.1, content, blockSize, (table _).trans (hs.table _)⟩⟩
  | restored t load lost torn done =>
    have hno : r ≠ .ok .bothValid := by
      rintro rfl
      exact nomatch (done _ rfl).1
    obtain ⟨-, hincons⟩ := lost hff (hs.load t)
    exact ⟨iff_of_false hno (by rw [hincons]; nofun), fun h => absurd h hno⟩

end Gpt

/-- **When a second sync finds nothing to do.** On a device without faults, after a sync that settled
on a copy, the next one returns `BothValid`, writes nothing and reports the same partitions, if and
only if the first one could load the primary copy or the secondary header had 1 for its `backup`. -/
theorem sync_converges_iff (P : Platform) (d d₁ d₂ : Disk) (g g₁ g₂ : Gpt) (r : GptSyncResult)
    (r₂ : Result GptSyncResult) (hd : d.scratch.InMemory) (hff : d.io.FaultFree)
    (hrun : Gpt.loadAndSync P (d, g) = (.ok r, d₁, g₁)) (hr : ∀ e e', r ≠ .noValidGpt e e')
    (hrun₂ : Gpt.loadAndSync P (d₁, g₁) = (r₂, d₂, g₂)) :
    (r₂ = .ok .bothValid ∧ d₁.Ran Access.IsRead d₂ ∧ d₂.io.content = d₁.io.content ∧
      ∃ parts, g₁.Reports d.io.info.blockSize parts ∧ g₂.Reports d.io.info.blockSize parts) ↔
    Gpt.Loadable P d g .primary ∨ (diskHeader d.io.info d.io.content .secondary).backup = 1 := by
  obtain ⟨hran, hbuf, hout⟩ := Gpt.syncOutcome_of_run hd hrun
  have hs := hout.settled hr hran hbuf hff
  obtain ⟨-, -, hout₂⟩ := Gpt.syncOutcome_of_run (hran.inMemory hd) hrun₂
  obtain ⟨hiff, hthen⟩ := hs.next hran.io.info (hran.io.faultFree hff) hout₂
  rw [← hiff]
  refine ⟨fun h => h.1, fun h => ?_⟩
  obtain ⟨hreads, hcontent, hflag, htable⟩ := hthen h
  have hreports := Gpt.reports_of_blockSize hflag
  rw [htable] at hreports
  exact ⟨h, hreads, hcontent, _, Gpt.reports_of_blockSize hs.blockSize, hreports⟩

theorem sync_converges_primary :
    ∃ r d₁ g₁ d₂ g₂, Gpt.loadAndSync referencePlatform
        (sampleDisk (sampleCopy [sampleEntry 145 155] .primary),
          sampleGpt [nullEntry, nullEntry] (by decide)) = (.ok r, d₁, g₁) ∧
      Gpt.loadAndSync referencePlatform (d₁, g₁) = (.ok .bothValid, d₂, g₂) ∧
      d₂.io.content = d₁.io.content := by
  have hok : (Gpt.loadAndSync referencePlatform
      (sampleDisk (sampleCopy [sampleEntry 145 155] .primary),
        sampleGpt [nullEntry, nullEntry] (by decide))).1 =
      .ok (.secondaryRestored (.gptError (.incorrectMagic 0))) := by decide +kernel
  rcases hrun : Gpt.loadAndSync referencePlatform
      (sampleDisk (sampleCopy [sampleEntry 145 155] .primary),
        sampleGpt [nullEntry, nullEntry] (by decide)) with ⟨r, d₁, g₁⟩
  rw [hrun] at hok
  dsimp only at hok
  subst hok
  rcases hrun₂ : Gpt.loadAndSync referencePlatform (d₁, g₁) with ⟨r₂, d₂, g₂⟩
  have hd := inMemory_sampleDisk (sampleCopy [sampleEntry 145 155] .primary)
  obtain ⟨-, -, hout⟩ := Gpt.syncOutcome_of_run hd hrun
  have h := sync_converges_iff referencePlatform _ d₁ d₂ _ g₁ g₂ _ r₂ hd (fun _ => rfl) hrun
    (fun _ _ h => by cases h) hrun₂
  obtain ⟨rfl, -, hcontent, -⟩ := h.mpr (Or.inl (hout.accepted rfl).1)
  exact ⟨_, d₁, g₁, d₂, g₂, rfl, hrun₂, hcontent⟩

def strangeDisk : Disk :=
  sampleDisk [(299 * 128, GptHeader.codec.enc (sampleHeader 299 7 130 170 171 [sampleEntry 145 155])),
    (171 * 128, GptEntry.codec.encAll [sampleEntry 145 155])]

/-- The header passes the check and the primary copy is restored from it; the next sync does not return
`BothValid`. -/
theorem sync_does_not_converge :
    ∃ d₁ g₁ r₂ d₂ g₂, Gpt.loadAndSync referencePlatform
        (strangeDisk, sampleGpt [nullEntry, nullEntry] (by decide)) =
        (.ok (.primaryRestored (.gptError (.incorrectMagic 0))), d₁, g₁) ∧
      Gpt.loadAndSync referencePlatform (d₁, g₁) = (r₂, d₂, g₂) ∧ r₂ ≠ .ok .bothValid := by
  have hok : (Gpt.loadAndSync referencePlatform
      (strangeDisk, sampleGpt [nullEntry, nullEntry] (by decide))).1 =
      .ok (.primaryRestored (.gptError (.incorrectMagic 0))) := by decide +kernel
  have hbackup : (diskHeader sampleInfo strangeDisk.io.content .secondary).backup ≠ 1 := by
    decide +kernel
  rcases hrun : Gpt.loadAndSync referencePlatform
      (strangeDisk, sampleGpt [nullEntry, nullEntry] (by decide)) with ⟨r, d₁, g₁⟩
  rw [hrun] at hok
  dsimp only at hok
  subst hok
  rcases hrun₂ : Gpt.loadAndSync referencePlatform (d₁, g₁) with ⟨r₂, d₂, g₂⟩
  have hd : strangeDisk.scratch.InMemory := inMemory_sampleDisk _
  have hff : strangeDisk.io.FaultFree := fun _ => rfl
  obtain ⟨hran, hbuf, hout⟩ := Gpt.syncOutcome_of_run hd hrun
  obtain ⟨-, -, hout₂⟩ := Gpt.syncOutcome_of_run (hran.inMemory hd) hrun₂
  have hs := hout.settled (fun _ _ h => by cases h) hran hbuf hff
  refine ⟨d₁, g₁, r₂, d₂, g₂, rfl, hrun₂, fun h => ?_⟩
  rcases (hs.next hran.io.info (hran.io.faultFree hff) hout₂).1.mp h with hl | hb
  · exact nomatch ((hout.accepted rfl).2.2.2 hff).mpr hl
  · exact hbackup hb

end Gbl.Storage
