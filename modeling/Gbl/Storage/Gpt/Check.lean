import Gbl.Storage.Gpt.Layout
import Gbl.Storage.Basic
import Gbl.Lib.Sorted

/-!
# Validation of GPT headers and entries (`libstorage`, `gpt.rs`)

`check_header` and `check_entries`, and what a table that passes both is good for.
-/

namespace Gbl.Storage

open Lib

inductive HeaderType where
  | primary
  | secondary
  deriving DecidableEq, Repr

def gptEntriesBlk (blockSize : Nat) : Result Nat :=
  if blockSize = 0 then panic
  else if gptMaxNumEntriesSize % blockSize = 0 then .ok (gptMaxNumEntriesSize / blockSize)
  else err .invalidInput

def checkEntriesStart (header : GptHeader) (minReservedEntriesBlk maxLast lastEnd : Nat) :
    HeaderType → Result Unit
  | .primary => do
    let right ← unwrap ((header.first.toNat : SafeNum) - minReservedEntriesBlk).toU64
    ensure (header.entries.toNat ≥ 2 ∧ header.entries.toNat ≤ right)
      (.gptError (.invalidPrimaryEntriesStart header.entries.toNat (2, right)))
  | .secondary =>
    ensure (header.entries.toNat > header.last.toNat ∧ header.entries.toNat ≤ maxLast + 1)
      (.gptError (.invalidSecondaryEntriesStart header.entries.toNat (lastEnd, maxLast + 1)))

variable (P : Platform)

def checkHeader (info : BlockInfo) (header : GptHeader) (t : HeaderType) : Result Unit := do
  let minReservedEntriesBlk ← gptEntriesBlk info.blockSize
  -- Minimum space needed: 2 * (header + entries) + MBR.
  let minDiskBlks := (minReservedEntriesBlk + 1) * 2 + 1
  ensure (minDiskBlks ≤ info.numBlocks) (.gptError .diskTooSmall)
  ensure (header.magic = gptMagic) (.gptError (.incorrectMagic header.magic.toNat))
  ensure (header.calculateHeaderCrc P = header.crc32) (.gptError .incorrectHeaderCrc)
  ensure (header.size.toNat = gptHeaderSize)
    (.gptError (.unexpectedHeaderSize header.size.toNat gptHeaderSize))
  ensure (header.entriesSize.toNat = gptEntrySize)
    (.gptError (.unexpectedEntrySize header.entriesSize.toNat gptEntrySize))
  -- Checks first/last usable block.
  let minFirst := minReservedEntriesBlk + 2
  let maxLast ← unwrap ((info.numBlocks : SafeNum) - 1 - minReservedEntriesBlk - 1).toU64
  let lastEnd ← addU64 header.last.toNat 1
  ensure (¬ (header.first.toNat > lastEnd ∨ header.first.toNat < minFirst ∨
      header.last.toNat > maxLast))
    (.gptError (.invalidFirstLastUsableBlock header.first.toNat header.last.toNat
      (minFirst, maxLast)))
  checkEntriesStart header minReservedEntriesBlk maxLast lastEnd t
  ensure (header.entriesCount.toNat ≤ gptMaxNumEntries)
    (.gptError (.numberOfEntriesOverflow header.entriesCount.toNat gptMaxNumEntries))

/-! ## Accepted headers -/

def BlockInfo.entriesBlk (info : BlockInfo) : Nat := gptMaxNumEntriesSize / info.blockSize

structure GptHeader.Valid (info : BlockInfo) (t : HeaderType) (h : GptHeader) : Prop where
  blockSize_pos : 0 < info.blockSize
  entriesBlk_mul : info.entriesBlk * info.blockSize = gptMaxNumEntriesSize
  diskSize : (info.entriesBlk + 1) * 2 + 1 ≤ info.numBlocks
  magic : h.magic = gptMagic
  crc32 : h.calculateHeaderCrc P = h.crc32
  size : h.size.toNat = gptHeaderSize
  entriesSize : h.entriesSize.toNat = gptEntrySize
  first_le : h.first.toNat ≤ h.last.toNat + 1
  le_first : info.entriesBlk + 2 ≤ h.first.toNat
  last_le : h.last.toNat + info.entriesBlk + 2 ≤ info.numBlocks
  entries : match t with
    | .primary => 2 ≤ h.entries.toNat ∧ h.entries.toNat + info.entriesBlk ≤ h.first.toNat
    | .secondary => h.last.toNat < h.entries.toNat ∧
        h.entries.toNat + info.entriesBlk + 1 ≤ info.numBlocks
  entriesCount : h.entriesCount.toNat ≤ gptMaxNumEntries

theorem gptEntriesBlk_eq_ok_iff (blockSize e : Nat) :
    gptEntriesBlk blockSize = .ok e ↔ 0 < blockSize ∧ e * blockSize = gptMaxNumEntriesSize := by
  unfold gptEntriesBlk
  split
  · next h0 =>
    refine iff_of_false nofun fun h => ?_
    omega
  · next h0 =>
    have hpos : 0 < blockSize := Nat.pos_of_ne_zero h0
    split
    · next hdvd =>
      have hmul := Nat.div_mul_cancel (Nat.dvd_of_mod_eq_zero hdvd)
      constructor
      · intro h
        cases h
        exact ⟨hpos, hmul⟩
      · rintro ⟨-, h⟩
        rw [← h, Nat.mul_div_cancel _ hpos]
    · next hdvd =>
      refine iff_of_false nofun fun h => hdvd ?_
      rw [← h.2, Nat.mul_mod_left]

variable {info : BlockInfo} {e : Nat} {entries : List UInt8} {header : GptHeader}

theorem maxLast_eq (hdisk : (e + 1) * 2 + 1 ≤ info.numBlocks) :
    (info.numBlocks : SafeNum) - 1 - (e : SafeNum) - 1 = .valid (info.numBlocks - 1 - e - 1) := by
  have hN := info.numBlocks_lt
  rw [SafeNum.ofNat_of_lt hN, SafeNum.ofNat_of_lt (show e < 2 ^ 64 by omega), SafeNum.one_eq,
    SafeNum.valid_sub, if_pos (by omega), SafeNum.valid_sub, if_pos (by omega), SafeNum.valid_sub,
    if_pos (by omega)]

theorem checkEntriesStart_eq_ok_iff {h : GptHeader} {maxLast lastEnd : Nat} (t : HeaderType)
    (hfirst : e + 2 ≤ h.first.toNat) (hmax : maxLast + e + 2 = info.numBlocks) :
    checkEntriesStart h e maxLast lastEnd t = .ok () ↔ match t with
      | .primary => 2 ≤ h.entries.toNat ∧ h.entries.toNat + e ≤ h.first.toNat
      | .secondary => h.last.toNat < h.entries.toNat ∧ h.entries.toNat + e + 1 ≤ info.numBlocks := by
  have hlt := h.first.toNat_lt
  cases t with
  | primary =>
    have hright : ((h.first.toNat : SafeNum) - (e : SafeNum)).toU64 = .ok (h.first.toNat - e) := by
      rw [SafeNum.ofNat_of_lt (by omega), SafeNum.ofNat_of_lt (by omega), SafeNum.valid_sub, if_pos (by omega)]
      rfl
    simp only [checkEntriesStart, hright, unwrap, Res.ok_bind, ensure_eq_ok]
    omega
  | secondary =>
    simp only [checkEntriesStart, ensure_eq_ok]
    omega

theorem checkHeader_eq_ok_iff (info : BlockInfo) (h : GptHeader) (t : HeaderType) :
    checkHeader P info h t = .ok () ↔ h.Valid P info t := by
  have hlast := h.last.toNat_lt
  have hN := info.numBlocks_lt
  unfold checkHeader
  simp only [Res.bind_eq_ok, ensure_eq_ok, unwrap_eq_ok, addU64_eq_ok, SafeNum.toU64_eq_ok,
    gptEntriesBlk_eq_ok_iff, exists_and_left, exists_const]
  constructor
  · rintro ⟨e, ⟨hbs, he⟩, hdisk, hmagic, hcrc, hsize, hesize, maxLast, hmax, lastEnd, ⟨-, rfl⟩, hfl,
      ⟨⟩, hstart, hcount⟩
    obtain rfl : e = info.entriesBlk := by
      unfold BlockInfo.entriesBlk
      rw [← he, Nat.mul_div_cancel _ hbs]
    rw [maxLast_eq hdisk] at hmax
    cases hmax
    refine ⟨hbs, he, hdisk, hmagic, hcrc, hsize, hesize, by omega, by omega, by omega, ?_, hcount⟩
    exact (checkEntriesStart_eq_ok_iff t (by omega) (by omega)).mp hstart
  · intro hv
    have hfirst := hv.first_le
    have hle := hv.le_first
    have hla := hv.last_le
    have hdisk := hv.diskSize
    refine ⟨info.entriesBlk, ⟨hv.blockSize_pos, hv.entriesBlk_mul⟩, hv.diskSize, hv.magic, hv.crc32,
      hv.size, hv.entriesSize, _, maxLast_eq hv.diskSize, _, ⟨by omega, rfl⟩, by omega, (), ?_,
      hv.entriesCount⟩
    exact (checkEntriesStart_eq_ok_iff t (by omega) (by omega)).mpr hv.entries

/-! ## Entries -/

def partitions (entries : List GptEntry) : List GptEntry := entries.takeWhile fun e => !e.isNull

def GptHeader.table (header : GptHeader) (entries : List UInt8) : List GptEntry :=
  GptEntry.codec.decAll header.entriesCount.toNat entries

def checkEach (header : GptHeader) : Nat → List GptEntry → Result Unit
  | _, [] => .ok ()
  | idx, e :: es =>
    if e.isNull then .ok () else do
      let lastEnd ← addU64 e.last.toNat 1
      ensure (¬ (e.first.toNat > lastEnd ∨ e.last.toNat > header.last.toNat ∨
          e.first.toNat < header.first.toNat))
        (.gptError (.invalidPartitionRange idx (e.first.toNat, e.last.toNat)
          (header.first.toNat, header.last.toNat)))
      ensure (e.partType ≠ Vector.replicate 16 0) (.gptError (.zeroPartitionTypeGUID idx))
      ensure (e.guid ≠ Vector.replicate 16 0) (.gptError (.zeroPartitionUniqueGUID idx))
      checkEach header (idx + 1) es

def sortKey (entries : List GptEntry) (i : Nat) : Nat :=
  match entries[i]? with
  | some e => if e.isNull then 2 ^ 64 - 1 else e.first.toNat
  | none => 2 ^ 64 - 1

def checkNeighbours (entries : List GptEntry) : List Nat → Result Unit
  | prev :: next :: rest =>
    match entries[prev]?, entries[next]? with
    | some a, some b =>
      if a.last ≥ b.first then
        err (.gptError (.partitionRangeOverlap (prev + 1, a.first.toNat, a.last.toNat)
          (next + 1, b.first.toNat, b.last.toNat)))
      else checkNeighbours entries (next :: rest)
    | _, _ => panic
  | _ => .ok ()

def checkEntries (header : GptHeader) (entries : List UInt8) : Result Unit := do
  -- `assert!`
  if header.entriesCount.toNat ≤ gptMaxNumEntries then do
    let entriesSize := header.entriesCount.toNat * gptEntrySize
    ensure (entriesSize ≤ entries.length) (.gptError .entriesTruncated)
    ensure (header.entriesCrc = P.crc32 (entries.take entriesSize)) (.gptError .incorrectEntriesCrc)
    let table := header.table entries
    checkEach header 1 table
    -- The indices of all 128 possible entries are sorted, those of the first `actual` positions are
    -- compared.
    let sortedIndices := P.sort (sortKey table) (List.range gptMaxNumEntries)
    let actual := (partitions table).length
    checkNeighbours table (sortedIndices.take actual)
  else panic

theorem checkEntries_append (header : GptHeader) (rest : List UInt8)
    (h : entries.length = header.entriesCount.toNat * gptEntrySize) :
    checkEntries P header (entries ++ rest) = checkEntries P header entries := by
  have htable : header.table (entries ++ rest) = header.table entries := Codec.decAll_append _ rest h
  unfold checkEntries
  simp only [htable, ← h, List.take_left, List.take_length, List.length_append, Nat.le_add_right, Nat.le_refl]

theorem checkEntries_congr {header' : GptHeader} (entries : List UInt8)
    (hcount : header'.entriesCount = header.entriesCount) (hcrc : header'.entriesCrc = header.entriesCrc)
    (hfirst : header'.first = header.first) (hlast : header'.last = header.last) :
    checkEntries P header' entries = checkEntries P header entries := by
  have heach : ∀ idx es, checkEach header' idx es = checkEach header idx es := by
    intro idx es
    induction es generalizing idx with
    | nil => rfl
    | cons e es ih => simp only [checkEach, hfirst, hlast, ih]
  unfold checkEntries GptHeader.table
  simp only [hcount, hcrc, heach]

structure GptEntry.InUsable (header : GptHeader) (e : GptEntry) : Prop where
  not_null : e.isNull = false
  first_le : e.first.toNat ≤ e.last.toNat + 1
  le_first : header.first.toNat ≤ e.first.toNat
  last_le : e.last.toNat ≤ header.last.toNat

theorem inUsable_of_checkEach {idx : Nat} {es : List GptEntry} (h : checkEach header idx es = .ok ()) :
    ∀ e ∈ partitions es, e.InUsable header := by
  induction es generalizing idx with
  | nil => intro e he; cases he
  | cons a es ih =>
    intro e he
    unfold partitions at he
    rw [List.takeWhile_cons] at he
    cases hnull : a.isNull with
    | true => simp [hnull] at he
    | false =>
      simp only [hnull, Bool.not_false, if_true, List.mem_cons] at he
      unfold checkEach at h
      simp only [hnull, Bool.false_eq_true, if_false, Res.bind_eq_ok, ensure_eq_ok, addU64_eq_ok,
        exists_and_left, exists_const] at h
      obtain ⟨lastEnd, ⟨-, rfl⟩, hrange, -, -, hrest⟩ := h
      rcases he with rfl | he
      · exact ⟨hnull, by omega, by omega, by omega⟩
      · exact ih hrest e he

structure EntriesValid (header : GptHeader) (entries : List UInt8) : Prop where
  count : header.entriesCount.toNat ≤ gptMaxNumEntries
  length : header.entriesCount.toNat * gptEntrySize ≤ entries.length
  crc : header.entriesCrc = P.crc32 (entries.take (header.entriesCount.toNat * gptEntrySize))
  each : ∀ e ∈ partitions (header.table entries), e.InUsable header
  neighbours : checkNeighbours (header.table entries)
    ((P.sort (sortKey (header.table entries)) (List.range gptMaxNumEntries)).take
      (partitions (header.table entries)).length) = .ok ()

theorem entriesValid_of_checkEntries (h : checkEntries P header entries = .ok ()) :
    EntriesValid P header entries := by
  unfold checkEntries at h
  split at h
  · next hcount =>
    simp only [Res.bind_eq_ok, ensure_eq_ok, exists_and_left, exists_const] at h
    obtain ⟨hlen, hcrc, ⟨⟩, heach, hnext⟩ := h
    exact ⟨hcount, hlen, hcrc, inUsable_of_checkEach heach, hnext⟩
  · cases h

/-! ## What an accepted table guarantees -/

def GptEntry.Covers (e : GptEntry) (blk : Nat) : Prop := e.first.toNat ≤ blk ∧ blk ≤ e.last.toNat

def GptEntry.Meets (a b : GptEntry) : Prop := ∃ blk, a.Covers blk ∧ b.Covers blk

theorem GptEntry.Meets.symm {a b : GptEntry} (h : a.Meets b) : b.Meets a := by
  obtain ⟨blk, ha, hb⟩ := h
  exact ⟨blk, hb, ha⟩

structure TableSound (info : BlockInfo) (header : GptHeader) (parts : List GptEntry) : Prop where
  disjoint : parts.Pairwise fun a b => ¬ a.Meets b
  inside : ∀ e ∈ parts, header.first.toNat ≤ e.first.toNat ∧ e.last.toNat ≤ header.last.toNat
  mbr : ∀ e ∈ parts, ¬ e.Covers 0
  headers : ∀ e ∈ parts, ¬ e.Covers 1 ∧ ¬ e.Covers (info.numBlocks - 1)
  entries : ∀ e ∈ parts, ∀ blk, header.entries.toNat ≤ blk →
    blk < header.entries.toNat + info.entriesBlk → ¬ e.Covers blk

def crowd (table : List GptEntry) (i : Nat) : Nat :=
  (List.range gptMaxNumEntries).countP fun k =>
    match table[k]?, table[i]? with
    | some a, some b => decide (k ≠ i) && !a.isNull && decide (a.first.toNat ≤ b.first.toNat)
    | _, _ => false

def lastOf (table : List GptEntry) (i : Nat) : Nat := (table[i]?.map fun e => e.last.toNat).getD 0

variable {table : List GptEntry} {i : Nat}

theorem isChain_of_checkNeighbours {l : List Nat} (h : checkNeighbours table l = .ok ()) :
    l.IsChain fun i j => lastOf table i < sortKey table j := by
  induction l with
  | nil => exact List.IsChain.nil
  | cons i l ih =>
    cases l with
    | nil => exact List.IsChain.singleton _
    | cons j l =>
      unfold checkNeighbours at h
      split at h
      · next a b ha hb =>
        split at h
        · cases h
        · next hlt =>
          have hlt' : a.last.toNat < b.first.toNat := by
            rw [ge_iff_le, UInt64.le_iff_toNat_le] at hlt
            omega
          have hnull : b.isNull = false := by
            unfold GptEntry.isNull
            rw [Bool.and_eq_false_iff, beq_eq_false_iff_ne]
            refine Or.inl fun h0 => ?_
            rw [h0] at hlt'
            exact absurd hlt' (Nat.not_lt_zero _)
          refine List.isChain_cons_cons.mpr ⟨?_, ih h⟩
          unfold lastOf sortKey
          rw [ha, hb]
          simpa [hnull] using hlt'
      · cases h

theorem apart_of_checkNeighbours {n j : Nat} (h : checkNeighbours table
      ((P.sort (sortKey table) (List.range gptMaxNumEntries)).take n) = .ok ())
    (hi : i ∈ (P.sort (sortKey table) (List.range gptMaxNumEntries)).take n)
    (hj : j ∈ (P.sort (sortKey table) (List.range gptMaxNumEntries)).take n) (hne : i ≠ j) :
    lastOf table i < sortKey table j ∨ lastOf table j < sortKey table i := by
  have hsorted := (P.sort_sorted (sortKey table) (List.range gptMaxNumEntries)).sublist (List.take_sublist n _)
  have hpair := pairwise_of_sorted_of_chain hsorted (isChain_of_checkNeighbours h)
  have hsym : Std.Symm fun a b => lastOf table a < sortKey table b ∨
      lastOf table b < sortKey table a := ⟨fun _ _ h => h.symm⟩
  have hboth : ((P.sort (sortKey table) (List.range gptMaxNumEntries)).take n).Pairwise
      fun a b => lastOf table a < sortKey table b ∨ lastOf table b < sortKey table a :=
    hpair.imp Or.inl
  exact hboth.forall hi hj hne

theorem getElem?_partitions {e : GptEntry} (h : (partitions table)[i]? = some e) : table[i]? = some e := by
  obtain ⟨rest, hrest⟩ := List.takeWhile_prefix (l := table) fun e => !e.isNull
  have hlt : i < (partitions table).length := (List.getElem?_eq_some_iff.mp h).1
  rw [← hrest]
  exact (List.getElem?_append_left hlt).trans h

section Accepted

variable {P : Platform} {info : BlockInfo} {header : GptHeader} {t : HeaderType}
  {entries : List UInt8}

variable {table : List GptEntry} {i : Nat} {e : GptEntry}

theorem keys_of_partition (heach : ∀ e ∈ partitions table, e.InUsable header) (h : (partitions table)[i]? = some e) :
    sortKey table i = e.first.toNat ∧ lastOf table i = e.last.toNat := by
  have hnull := (heach e (List.mem_of_getElem? h)).not_null
  have ht := getElem?_partitions h
  unfold sortKey lastOf
  rw [ht]
  simp [hnull]

theorem mem_take_of_crowd_lt (hh : header.Valid P info t) (hv : EntriesValid P header entries) {n : Nat}
    (h : (partitions (header.table entries))[i]? = some e) (hcrowd : crowd (header.table entries) i < n) :
    i ∈ (P.sort (sortKey (header.table entries)) (List.range gptMaxNumEntries)).take n := by
  have hkey := (keys_of_partition hv.each h).1
  have huse := hv.each e (List.mem_of_getElem? h)
  have hsmall : e.first.toNat < 2 ^ 64 - 1 := by
    have := huse.first_le
    have := huse.last_le
    have := hh.last_le
    have := info.numBlocks_lt
    omega
  have hlen : i < (header.table entries).length := (List.getElem?_eq_some_iff.mp (getElem?_partitions h)).1
  have hrange : i ∈ List.range gptMaxNumEntries := by
    rw [List.mem_range]
    unfold GptHeader.table at hlen
    rw [Codec.length_decAll] at hlen
    exact hlen.trans_le hv.count
  refine mem_take_of_rankIn_lt (P.sort_perm _ _) (P.sort_sorted _ _) hrange ?_
  refine lt_of_eq_of_lt ?_ hcrowd
  unfold rankIn crowd
  refine List.countP_congr fun k _ => ?_
  rw [getElem?_partitions h, hkey]
  unfold sortKey
  cases hk : (header.table entries)[k]? with
  | none => simp; omega
  | some a =>
    cases hnull : a.isNull with
    | true => simp [hnull]; omega
    | false => simp [hnull]

theorem inside_of_accepted (hh : header.Valid P info t) (hv : EntriesValid P header entries)
    (he : e ∈ partitions (header.table entries)) :
    (header.first.toNat ≤ e.first.toNat ∧ e.last.toNat ≤ header.last.toNat) ∧ ¬ e.Covers 0 ∧
    (¬ e.Covers 1 ∧ ¬ e.Covers (info.numBlocks - 1)) ∧
    ∀ blk, header.entries.toNat ≤ blk → blk < header.entries.toNat + info.entriesBlk → ¬ e.Covers blk := by
  have huse := hv.each e he
  have hfirst := huse.le_first
  have hlast := huse.last_le
  have hlow := hh.le_first
  have hhigh := hh.last_le
  refine ⟨⟨hfirst, hlast⟩, fun h => ?_, ⟨fun h => ?_, fun h => ?_⟩, fun blk h₁ h₂ h => ?_⟩
  · have := h.1; omega
  · have := h.1; omega
  · have := h.2; omega
  · -- the entries lie before the first usable block, or behind the last
    have hfrom := h.1
    have hto := h.2
    have hentries := hh.entries
    cases t with
    | primary => simp only at hentries; omega
    | secondary => simp only at hentries; omega

theorem crowd_lt_of_clean (hclean : ∀ k e, (partitions table).length ≤ k → table[k]? = some e → e.isNull = true)
    (hi : i < (partitions table).length) : crowd table i < (partitions table).length := by
  have hsub : (List.range gptMaxNumEntries).filter (fun k =>
      match table[k]?, table[i]? with
      | some a, some b => decide (k ≠ i) && !a.isNull && decide (a.first.toNat ≤ b.first.toNat)
      | _, _ => false) ⊆ (List.range (partitions table).length).erase i := by
    intro k hk
    rw [List.mem_filter] at hk
    split at hk
    · next a b ha hb =>
      simp only [Bool.and_eq_true, decide_eq_true_eq, Bool.not_eq_true'] at hk
      refine (List.mem_erase_of_ne hk.2.1.1).mpr (List.mem_range.mpr ?_)
      by_contra hge
      have hnull := hclean k a (by omega) ha
      rw [hnull] at hk
      exact absurd hk.2.1.2 (by decide)
    · exact absurd hk.2 (by decide)
  have hlen := (List.subperm_of_subset (List.nodup_range.filter _) hsub).length_le
  rw [← List.countP_eq_length_filter, List.length_erase_of_mem (List.mem_range.mpr hi), List.length_range] at hlen
  unfold crowd
  omega

end Accepted

/-- **What an accepted table guarantees.** Its partitions are disjoint and clear of everything else
exactly if no partition that is crowded out of the compared positions — as many other entries start
no later as there are partitions, which takes entries behind the terminating null entry — meets
another partition. -/
theorem accepted_table_sound_iff (P : Platform) (info : BlockInfo) (header : GptHeader)
    (t : HeaderType) (entries : List UInt8) (hh : checkHeader P info header t = .ok ())
    (he : checkEntries P header entries = .ok ()) :
    TableSound info header (partitions (header.table entries)) ↔
      ∀ i j a b, (partitions (header.table entries))[i]? = some a →
        (partitions (header.table entries))[j]? = some b → i ≠ j →
        (partitions (header.table entries)).length ≤ crowd (header.table entries) i →
        ¬ a.Meets b := by
  have hvalid := (checkHeader_eq_ok_iff P info header t).mp hh
  have hv := entriesValid_of_checkEntries P he
  constructor
  · intro hsound i j a b ha hb hne _
    obtain ⟨hi, rfl⟩ := List.getElem?_eq_some_iff.mp ha
    obtain ⟨hj, rfl⟩ := List.getElem?_eq_some_iff.mp hb
    have hpair := List.pairwise_iff_getElem.mp hsound.disjoint
    rcases Nat.lt_or_gt_of_ne hne with hlt | hlt
    · exact hpair i j hi hj hlt
    · exact fun h => hpair j i hj hi hlt h.symm
  · intro hcrowd
    refine ⟨?_, fun e he => (inside_of_accepted hvalid hv he).1,
      fun e he => (inside_of_accepted hvalid hv he).2.1,
      fun e he => (inside_of_accepted hvalid hv he).2.2.1,
      fun e he => (inside_of_accepted hvalid hv he).2.2.2⟩
    rw [List.pairwise_iff_getElem]
    intro i j hi hj hlt hmeets
    have ha := List.getElem?_eq_getElem hi
    have hb := List.getElem?_eq_getElem hj
    have hi' : crowd (header.table entries) i < (partitions (header.table entries)).length := by
      by_contra hge
      exact hcrowd i j _ _ ha hb (by omega) (by omega) hmeets
    have hj' : crowd (header.table entries) j < (partitions (header.table entries)).length := by
      by_contra hge
      exact hcrowd j i _ _ hb ha (by omega) (by omega) hmeets.symm
    -- both stand among the compared positions
    have hapart := apart_of_checkNeighbours P hv.neighbours
      (mem_take_of_crowd_lt hvalid hv ha hi') (mem_take_of_crowd_lt hvalid hv hb hj') (by omega)
    rw [(keys_of_partition hv.each ha).1, (keys_of_partition hv.each ha).2,
      (keys_of_partition hv.each hb).1, (keys_of_partition hv.each hb).2] at hapart
    obtain ⟨blk, ⟨hc₁, hc₂⟩, hc₃, hc₄⟩ := hmeets
    omega

theorem accepted_table_sound_two :
    TableSound ⟨16384, 100, 1, by decide, by decide, by decide⟩
      (sampleHeader 1 99 3 97 2 [sampleEntry 40 50, sampleEntry 51 60])
      [sampleEntry 40 50, sampleEntry 51 60] := by
  have hparts : partitions ((sampleHeader 1 99 3 97 2 [sampleEntry 40 50, sampleEntry 51 60]).table
      (GptEntry.codec.encAll [sampleEntry 40 50, sampleEntry 51 60])) =
        [sampleEntry 40 50, sampleEntry 51 60] := by decide +kernel
  have h := accepted_table_sound_iff referencePlatform
    ⟨16384, 100, 1, by decide, by decide, by decide⟩
    (sampleHeader 1 99 3 97 2 [sampleEntry 40 50, sampleEntry 51 60]) .primary
    (GptEntry.codec.encAll [sampleEntry 40 50, sampleEntry 51 60]) (by decide +kernel)
    (by decide +kernel)
  rw [← hparts]
  refine h.mpr fun i j a b ha hb hne hcrowd => ?_
  refine absurd (crowd_lt_of_clean ?_ (List.getElem?_eq_some_iff.mp ha).1) (Nat.not_lt.mpr hcrowd)
  intro k e hk he
  have hlen := (List.getElem?_eq_some_iff.mp he).1
  rw [GptHeader.table, Codec.length_decAll] at hlen
  rw [hparts] at hk
  exact absurd hlen (Nat.not_lt.mpr hk)

/-- The check misses an overlap: an entry behind the terminating null entry starts first, takes the
first of the two compared positions and leaves one partition out of the comparison. -/
theorem accepted_table_overlap :
    ∃ (info : BlockInfo) (header : GptHeader) (entries : List UInt8),
      checkHeader referencePlatform info header .primary = .ok () ∧
      checkEntries referencePlatform header entries = .ok () ∧
      ¬ TableSound info header (partitions (header.table entries)) := by
  refine ⟨⟨16384, 100, 1, by decide, by decide, by decide⟩, sampleHeader 1 99 3 97 2
    [sampleEntry 40 50, sampleEntry 45 60, nullEntry, sampleEntry 1 1], GptEntry.codec.encAll
    [sampleEntry 40 50, sampleEntry 45 60, nullEntry, sampleEntry 1 1], by decide +kernel,
    by decide +kernel, fun hsound => ?_⟩
  have hparts : partitions ((sampleHeader 1 99 3 97 2
      [sampleEntry 40 50, sampleEntry 45 60, nullEntry, sampleEntry 1 1]).table
      (GptEntry.codec.encAll [sampleEntry 40 50, sampleEntry 45 60, nullEntry, sampleEntry 1 1])) =
        [sampleEntry 40 50, sampleEntry 45 60] := by decide +kernel
  have hdisjoint := hsound.disjoint
  rw [hparts] at hdisjoint
  refine List.rel_of_pairwise_cons hdisjoint (List.mem_singleton.mpr rfl) ⟨45, ?_, ?_⟩
  · exact ⟨by decide, by decide⟩
  · exact ⟨by decide, by decide⟩

end Gbl.Storage
