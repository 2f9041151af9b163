import Gbl.Storage.Gpt.Check

/-!
# The arithmetic of the checks

The fields of a header and of an entry are whatever was on the disk, and the checks add and multiply them unchecked.
-/

namespace Gbl.Storage

open Lib

variable {P : Platform} {info : BlockInfo} {header : GptHeader} {t : HeaderType} {entries : List UInt8}

/-! ## The header -/

structure LastOverflows (info : BlockInfo) (header : GptHeader) : Prop where
  diskSize : (info.entriesBlk + 1) * 2 + 1 ≤ info.numBlocks
  magic : header.magic = gptMagic
  size : header.size.toNat = gptHeaderSize
  entriesSize : header.entriesSize.toNat = gptEntrySize
  last : header.last.toNat + 1 = 2 ^ 64

theorem gptEntriesBlk_of_dvd (hdvd : info.blockSize ∣ gptMaxNumEntriesSize) :
    gptEntriesBlk info.blockSize = .ok info.entriesBlk := by
  rw [gptEntriesBlk_eq_ok_iff]
  exact ⟨Nat.pos_of_dvd_of_pos hdvd (by decide), Nat.div_mul_cancel hdvd⟩

theorem returns_checkEntriesStart {e maxLast lastEnd : Nat} (hfirst : e + 2 ≤ header.first.toNat) :
    (checkEntriesStart header e maxLast lastEnd t).Returns := by
  have hlt := header.first.toNat_lt
  cases t with
  | primary =>
    have hright : ((header.first.toNat : SafeNum) - (e : SafeNum)).toU64 = .ok (header.first.toNat - e) := by
      rw [SafeNum.ofNat_of_lt (by omega), SafeNum.ofNat_of_lt (by omega), SafeNum.valid_sub, if_pos (by omega)]
      rfl
    simp only [checkEntriesStart, hright, unwrap, Res.ok_bind, returns_ensure]
  | secondary => simp only [checkEntriesStart, returns_ensure]

theorem returns_checkHeader_iff (hdvd : info.blockSize ∣ gptMaxNumEntriesSize)
    (hcrc : header.calculateHeaderCrc P = header.crc32) :
    (checkHeader P info header t).Returns ↔ ¬ LastOverflows info header := by
  have hlast := header.last.toNat_lt
  have hmax : (info.entriesBlk + 1) * 2 + 1 ≤ info.numBlocks →
      ((info.numBlocks : SafeNum) - 1 - info.entriesBlk - 1).toU64 =
        .ok (info.numBlocks - 1 - info.entriesBlk - 1) := by
    intro hdisk
    rw [maxLast_eq hdisk, SafeNum.toU64_valid]
  unfold checkHeader
  rw [gptEntriesBlk_of_dvd hdvd]
  simp only [Res.ok_bind, Res.returns_bind_iff, returns_ensure, ensure_eq_ok, true_and, forall_const,
    returns_unwrap_iff, unwrap_eq_ok, returns_addU64_iff, addU64_eq_ok, and_true, implies_true]
  constructor
  · intro h hover
    have hsum := ((h hover.diskSize hover.magic hcrc hover.size hover.entriesSize).2 _ (hmax hover.diskSize)).1
    have heq := hover.last
    omega
  · intro h hdisk hmagic _ hsize hesize
    refine ⟨⟨_, hmax hdisk⟩, ?_⟩
    intro maxLast _
    have hsum : header.last.toNat + 1 < 2 ^ 64 := by
      by_contra hge
      exact h ⟨hdisk, hmagic, hsize, hesize, by omega⟩
    refine ⟨hsum, ?_⟩
    intro lastEnd _ hrange
    exact returns_checkEntriesStart (by omega)

/-! ## The entries -/

structure GptEntry.Passes (header : GptHeader) (e : GptEntry) : Prop where
  first_le : e.first.toNat ≤ e.last.toNat + 1
  last_le : e.last.toNat ≤ header.last.toNat
  le_first : header.first.toNat ≤ e.first.toNat
  partType : e.partType ≠ Vector.replicate 16 0
  guid : e.guid ≠ Vector.replicate 16 0

def EntryOverflows (header : GptHeader) (table : List GptEntry) : Prop :=
  ∃ front e rest, partitions table = front ++ e :: rest ∧ (∀ a ∈ front, a.Passes header) ∧
    e.last.toNat + 1 = 2 ^ 64

theorem not_entryOverflows_nil : ¬ EntryOverflows header [] := by
  rintro ⟨front, e, rest, h, -⟩
  simp [partitions] at h

variable {e : GptEntry} {es table : List GptEntry}

theorem not_entryOverflows_null (hnull : e.isNull = true) : ¬ EntryOverflows header (e :: es) := by
  rintro ⟨front, a, rest, h, -⟩
  simp [partitions, hnull] at h

theorem entryOverflows_cons_iff (hnull : e.isNull = false) : EntryOverflows header (e :: es) ↔
      e.last.toNat + 1 = 2 ^ 64 ∨ e.Passes header ∧ EntryOverflows header es := by
  have hcons : partitions (e :: es) = e :: partitions es := by simp [partitions, hnull]
  unfold EntryOverflows
  rw [hcons]
  constructor
  · rintro ⟨front, a, rest, hsplit, hfront, ha⟩
    cases front with
    | nil =>
      cases hsplit
      exact .inl ha
    | cons b front =>
      obtain ⟨rfl, htail⟩ := List.cons.inj hsplit
      exact .inr ⟨hfront e (by simp), front, a, rest, htail, fun b hb => hfront b (by simp [hb]), ha⟩
  · rintro (ha | ⟨he, front, a, rest, hsplit, hfront, ha⟩)
    · exact ⟨[], e, partitions es, rfl, by simp, ha⟩
    · exact ⟨e :: front, a, rest, by simp [hsplit], by simpa using ⟨he, hfront⟩, ha⟩

theorem returns_checkEach_iff (idx : Nat) (es : List GptEntry) :
    (checkEach header idx es).Returns ↔ ¬ EntryOverflows header es := by
  induction es generalizing idx with
  | nil => exact iff_of_true trivial not_entryOverflows_nil
  | cons e es ih =>
    have hmax := e.last.toNat_lt
    unfold checkEach
    cases hnull : e.isNull with
    | true => exact iff_of_true trivial (not_entryOverflows_null hnull)
    | false =>
      simp only [Bool.false_eq_true, if_false, Res.returns_bind_iff, returns_ensure, ensure_eq_ok, true_and,
        forall_const, returns_addU64_iff, addU64_eq_ok, ih, entryOverflows_cons_iff hnull]
      constructor
      · rintro ⟨hsum, h⟩ (heq | ⟨he, hover⟩)
        · omega
        · have hrange := he.first_le
          have hle := he.last_le
          have hge := he.le_first
          exact h _ ⟨hsum, rfl⟩ (by omega) he.partType he.guid hover
      · intro h
        refine ⟨by have := fun heq => h (.inl heq); omega, ?_⟩
        rintro lastEnd ⟨-, rfl⟩ hrange htype hguid hover
        exact h (.inr ⟨⟨by omega, by omega, by omega, htype, hguid⟩, hover⟩)

theorem returns_checkNeighbours {l : List Nat} (h : ∀ i ∈ l, i < table.length) :
    (checkNeighbours table l).Returns := by
  induction l with
  | nil => trivial
  | cons i l ih =>
    cases l with
    | nil => trivial
    | cons j l =>
      unfold checkNeighbours
      rw [List.getElem?_eq_getElem (h i (by simp)), List.getElem?_eq_getElem (h j (by simp))]
      dsimp only
      split
      · trivial
      · exact ih fun k hk => h k (by simp [hk])

theorem lt_length_of_mem_sorted {i : Nat} (hlen : table.length ≤ gptMaxNumEntries)
    (hlast : header.last.toNat + 2 < 2 ^ 64) (heach : ∀ e ∈ partitions table, e.InUsable header)
    (hi : i ∈ (P.sort (sortKey table) (List.range gptMaxNumEntries)).take (partitions table).length) :
    i < table.length := by
  have hcount : (partitions table).length ≤ (P.sort (sortKey table) (List.range gptMaxNumEntries)).countP
        fun k => decide (sortKey table k < 2 ^ 64 - 1) := by
    rw [(P.sort_perm _ _).countP_eq]
    have hle : (partitions table).length ≤ gptMaxNumEntries := (List.takeWhile_sublist _).length_le.trans hlen
    have hall : ∀ k ∈ List.range (partitions table).length, decide (sortKey table k < 2 ^ 64 - 1) = true := by
      intro k hk
      have hpart := List.getElem?_eq_getElem (List.mem_range.1 hk)
      have huse := heach _ (List.mem_of_getElem? hpart)
      have hfirst := huse.first_le
      have hle := huse.last_le
      rw [(keys_of_partition heach hpart).1]
      exact decide_eq_true (by omega)
    calc (partitions table).length
        = (List.range (partitions table).length).countP fun k => decide (sortKey table k < 2 ^ 64 - 1) := by
          rw [List.countP_eq_length.2 hall, List.length_range]
      _ ≤ _ := (List.range_sublist.2 hle).countP_le
  have hkey := key_lt_of_mem_take (P.sort_sorted _ _) hcount i hi
  by_contra hge
  rw [sortKey, List.getElem?_eq_none (Nat.not_lt.1 hge)] at hkey
  exact absurd hkey (Nat.lt_irrefl _)

theorem returns_checkEntries_iff (hvalid : header.Valid P info t) : (checkEntries P header entries).Returns ↔
      (header.entriesCount.toNat * gptEntrySize ≤ entries.length →
        header.entriesCrc = P.crc32 (entries.take (header.entriesCount.toNat * gptEntrySize)) →
          ¬ EntryOverflows header (header.table entries)) := by
  have hblocks := hvalid.last_le
  have hnum := info.numBlocks_lt
  unfold checkEntries
  rw [if_pos hvalid.entriesCount]
  simp only [Res.returns_bind_iff, returns_ensure, ensure_eq_ok, true_and, forall_const, returns_checkEach_iff]
  constructor
  · intro h hlen hcrc
    exact (h hlen hcrc).1
  · intro h hlen hcrc
    refine ⟨h hlen hcrc, ?_⟩
    intro _ heach
    refine returns_checkNeighbours ?_
    intro i hi
    refine lt_length_of_mem_sorted ?_ (by omega) (inUsable_of_checkEach heach) hi
    rw [GptHeader.table, Codec.length_decAll]
    exact hvalid.entriesCount

structure TableOverflows (P : Platform) (info : BlockInfo) (t : HeaderType) (header : GptHeader)
    (entries : List UInt8) : Prop where
  header_valid : header.Valid P info t
  length : header.entriesCount.toNat * gptEntrySize ≤ entries.length
  crc : header.entriesCrc = P.crc32 (entries.take (header.entriesCount.toNat * gptEntrySize))
  entry : EntryOverflows header (header.table entries)

/-- **Arithmetic of the checks.** On a device whose block size divides the space for entries, a header
with a matching checksum and any entries: the two checks return, unless `last + 1` overflows for the
header or for the first partition that is not in order. -/
theorem checks_return_iff (P : Platform) (info : BlockInfo) (header : GptHeader) (t : HeaderType)
    (entries : List UInt8) (hdvd : info.blockSize ∣ gptMaxNumEntriesSize)
    (hcrc : header.calculateHeaderCrc P = header.crc32) :
    (checkHeader P info header t >>= fun _ => checkEntries P header entries).Returns ↔
      ¬ LastOverflows info header ∧ ¬ TableOverflows P info t header entries := by
  rw [Res.returns_bind_iff, returns_checkHeader_iff hdvd hcrc]
  refine and_congr_right fun _ => ?_
  constructor
  · intro h hover
    have hok := (checkHeader_eq_ok_iff P info header t).2 hover.header_valid
    exact (returns_checkEntries_iff hover.header_valid).1 (h () hok) hover.length hover.crc hover.entry
  · intro h _ hok
    have hvalid := (checkHeader_eq_ok_iff P info header t).1 hok
    exact (returns_checkEntries_iff hvalid).2 fun hlen hcrc hentry => h ⟨hvalid, hlen, hcrc, hentry⟩

def orderlyTable : List GptEntry := [sampleEntry 40 50, sampleEntry 60 97]

theorem checks_return_sample :
    (checkHeader referencePlatform ⟨16384, 100, 1, by decide, by decide, by decide⟩
      (sampleHeader 1 99 3 97 2 orderlyTable)
        .primary >>=
      fun _ => checkEntries referencePlatform (sampleHeader 1 99 3 97 2 orderlyTable)
        (GptEntry.codec.encAll orderlyTable)).Returns := by
  have hall : ∀ e ∈ partitions ((sampleHeader 1 99 3 97 2 orderlyTable).table (GptEntry.codec.encAll orderlyTable)),
      e.last.toNat + 1 ≠ 2 ^ 64 := by
    decide +kernel
  refine (checks_return_iff referencePlatform ⟨16384, 100, 1, by decide, by decide, by decide⟩
    (sampleHeader 1 99 3 97 2 orderlyTable) .primary (GptEntry.codec.encAll orderlyTable) (by decide)
    (by decide +kernel)).2 ⟨?_, ?_⟩
  · intro h
    exact absurd h.last (by decide +kernel)
  · intro h
    obtain ⟨front, e, rest, hparts, -, hlast⟩ := h.entry
    exact hall e (hparts ▸ List.mem_append_right front List.mem_cons_self) hlast

/-- The sum overflows for a header, and for an entry under a header that is in order. -/
theorem checks_overflow :
    checkHeader referencePlatform ⟨16384, 100, 1, by decide, by decide, by decide⟩
        (sampleHeader 1 99 3 0xFFFFFFFFFFFFFFFF 2 []) .primary = panic ∧
      (checkHeader referencePlatform ⟨16384, 100, 1, by decide, by decide, by decide⟩
          (sampleHeader 1 99 3 97 2 [sampleEntry 40 0xFFFFFFFFFFFFFFFF]) .primary >>=
        fun _ => checkEntries referencePlatform (sampleHeader 1 99 3 97 2 [sampleEntry 40 0xFFFFFFFFFFFFFFFF])
          (GptEntry.codec.encAll [sampleEntry 40 0xFFFFFFFFFFFFFFFF])) = panic := by
  constructor
  · decide +kernel
  · decide +kernel

end Gbl.Storage
