import Gbl.Storage.Gpt.Update
import Gbl.Storage.Gpt.Arithmetic

/-!
# Resizing the last partition (`libstorage`, `gpt.rs`)

With `resize`, `update_gpt` makes the last partition end at the last usable block.
-/

namespace Gbl.Storage

open Lib Lib.Exec

/-! ## The last entry of the array -/

structure LastUsed (table : List GptEntry) (k : Nat) (e : GptEntry) : Prop where
  get : table[k]? = some e
  not_null : e.isNull = false
  null_behind : ∀ j a, k < j → table[j]? = some a → a.isNull = true

variable {table : List GptEntry} {k : Nat} {e : GptEntry} {last : UInt64}

theorem LastUsed.unique {k' : Nat} {e' : GptEntry} (h : LastUsed table k e) (h' : LastUsed table k' e') : k = k' := by
  rcases Nat.lt_trichotomy k k' with hlt | heq | hgt
  · exact absurd (h.null_behind k' e' hlt h'.get) (by simp [h'.not_null])
  · exact heq
  · exact absurd (h'.null_behind k e hgt h.get) (by simp [h.not_null])

def GptEntry.endingAt (last : UInt64) (e : GptEntry) : GptEntry := { e with last }

@[simp] theorem GptEntry.first_endingAt (last : UInt64) (e : GptEntry) : (e.endingAt last).first = e.first := rfl

@[simp] theorem GptEntry.last_endingAt (last : UInt64) (e : GptEntry) : (e.endingAt last).last = last := rfl

theorem GptEntry.endingAt_eq_self_iff : e.endingAt last = e ↔ e.last = last := by
  constructor
  · intro h
    rw [← h, GptEntry.last_endingAt]
  · rintro rfl
    rfl

theorem extendLast_cases (last : UInt64) (table : List GptEntry) :
    (∃ k e, LastUsed table k e ∧ Session.extendLast last table = table.set k (e.endingAt last)) ∨
      (∀ e ∈ table, e.isNull = true) ∧ Session.extendLast last table = table := by
  unfold Session.extendLast
  split
  · next k hk =>
    left
    obtain ⟨hlt, hused, hbehind⟩ := List.findIdx?_eq_some_iff_getElem.1 hk
    rw [List.length_reverse] at hlt
    have hpos : table.length - 1 - k < table.length := by omega
    refine ⟨table.length - 1 - k, table[table.length - 1 - k], ⟨List.getElem?_eq_getElem hpos, ?_, ?_⟩, ?_⟩
    · simpa [List.getElem_reverse] using hused
    · intro j a hj ha
      obtain ⟨hlen, rfl⟩ := List.getElem?_eq_some_iff.1 ha
      have := hbehind (table.length - 1 - j) (by omega)
      have hidx : table.length - 1 - (table.length - 1 - j) = j := by omega
      simpa [List.getElem_reverse, hidx] using this
    · rw [List.modify_eq_set_getElem?, List.getElem?_eq_getElem hpos]
      rfl
  · next hnone =>
    right
    refine ⟨?_, rfl⟩
    simpa using hnone

/-! ## Changing where an entry ends -/

section Set

variable {table : List GptEntry} {k : Nat} {e e' : GptEntry}

theorem partitions_set (hget : table[k]? = some e) (hnull : e'.isNull = e.isNull) :
    partitions (table.set k e') = (partitions table).set k e' := by
  induction table generalizing k with
  | nil => simp at hget
  | cons a table ih =>
    cases k with
    | zero =>
      obtain rfl : a = e := by simpa using hget
      by_cases ha : a.isNull = true
      · simp [partitions, ha, hnull]
      · simp [partitions, ha, hnull]
    | succ k =>
      have ih := ih (by simpa using hget)
      by_cases ha : a.isNull = true
      · simp [partitions, ha]
      · simp only [partitions] at ih
        simp [partitions, ha, ih]

theorem sortKey_set (hget : table[k]? = some e) (hnull : e'.isNull = e.isNull) (hfirst : e'.first = e.first) :
    sortKey (table.set k e') = sortKey table := by
  funext i
  unfold sortKey
  by_cases hi : k = i
  · subst hi
    obtain ⟨hlt, -⟩ := List.getElem?_eq_some_iff.1 hget
    rw [List.getElem?_set_self hlt, hget]
    simp [hnull, hfirst]
  · rw [List.getElem?_set_ne hi]

def Follows (l : List Nat) (k next : Nat) : Prop := ∃ front rest, l = front ++ k :: next :: rest

theorem follows_cons_cons_iff {l : List Nat} {i j next : Nat} :
    Follows (i :: j :: l) k next ↔ (i = k ∧ j = next) ∨ Follows (j :: l) k next := by
  constructor
  · rintro ⟨front, rest, h⟩
    cases front with
    | nil =>
      obtain ⟨rfl, htail⟩ := List.cons.inj h
      exact .inl ⟨rfl, (List.cons.inj htail).1⟩
    | cons a front => exact .inr ⟨front, rest, (List.cons.inj h).2⟩
  · rintro (⟨rfl, rfl⟩ | ⟨front, rest, h⟩)
    · exact ⟨[], l, rfl⟩
    · exact ⟨i :: front, rest, by rw [h]; rfl⟩

theorem checkNeighbours_set_iff (hget : table[k]? = some e) (hfirst : e'.first = e.first) {l : List Nat}
    (h : checkNeighbours table l = .ok ()) :
    checkNeighbours (table.set k e') l = .ok () ↔
      ∀ next b, Follows l k next → table[next]? = some b → e'.last < b.first := by
  obtain ⟨hlt, -⟩ := List.getElem?_eq_some_iff.1 hget
  -- the entry at a position and its first block afterwards
  have hother : ∀ i, i ≠ k → (table.set k e')[i]? = table[i]? := fun i hi => List.getElem?_set_ne (Ne.symm hi)
  induction l with
  | nil => exact iff_of_true rfl fun next b hf => by obtain ⟨front, rest, heq⟩ := hf; simp at heq
  | cons i l ih =>
    cases l with
    | nil =>
      refine iff_of_true rfl fun next b hf => ?_
      obtain ⟨front, rest, heq⟩ := hf
      have := congrArg List.length heq
      simp at this
      omega
    | cons j l =>
      rw [checkNeighbours] at h
      split at h
      · next a b ha hb =>
        split at h
        · cases h
        · next hab =>
          have ih := ih h
          obtain ⟨b', hb', hbfirst⟩ : ∃ b', (table.set k e')[j]? = some b' ∧ b'.first = b.first := by
            by_cases hj : j = k
            · subst hj
              obtain rfl : e = b := Option.some.inj (hget.symm.trans hb)
              exact ⟨e', List.getElem?_set_self hlt, hfirst⟩
            · exact ⟨b, (hother j hj).trans hb, rfl⟩
          by_cases hi : i = k
          · subst hi
            rw [checkNeighbours, List.getElem?_set_self hlt, hb']
            simp only [hbfirst]
            constructor
            · intro hok next c hf hc
              split at hok
              · cases hok
              · next hlast =>
                rcases follows_cons_cons_iff.1 hf with ⟨-, rfl⟩ | hf
                · obtain rfl : b = c := Option.some.inj (hb.symm.trans hc)
                  exact UInt64.not_le.1 hlast
                · exact ih.1 hok next c hf hc
            · intro hall
              rw [if_neg (UInt64.not_le.2 (hall j b (follows_cons_cons_iff.2 (.inl ⟨rfl, rfl⟩)) hb))]
              exact ih.2 fun next c hf => hall next c (follows_cons_cons_iff.2 (.inr hf))
          · rw [checkNeighbours, hother i hi, ha, hb']
            simp only [hbfirst, if_neg hab]
            refine ih.trans (forall_congr' fun next => forall_congr' fun c => ?_)
            rw [follows_cons_cons_iff, or_iff_right fun hf => hi hf.1]
      · cases h

end Set

/-! ## Checking the changed table -/

variable {P : Platform} {info : BlockInfo} {header : GptHeader}

theorem checkEach_eq_ok_iff (hlast : header.last.toNat + 1 < 2 ^ 64) (idx : Nat) (es : List GptEntry) :
    checkEach header idx es = .ok () ↔ ∀ e ∈ partitions es, e.Passes header := by
  induction es generalizing idx with
  | nil => exact iff_of_true rfl nofun
  | cons e es ih =>
    unfold checkEach
    cases hnull : e.isNull with
    | true =>
      refine iff_of_true rfl ?_
      simp [partitions, hnull]
    | false =>
      have hcons : partitions (e :: es) = e :: partitions es := by simp [partitions, hnull]
      rw [hcons, List.forall_mem_cons]
      simp only [Bool.false_eq_true, if_false, Res.bind_eq_ok, ensure_eq_ok, addU64_eq_ok, exists_and_left,
        exists_const, ih]
      constructor
      · rintro ⟨lastEnd, ⟨-, rfl⟩, hrange, htype, hguid, hrest⟩
        exact ⟨⟨by omega, by omega, by omega, htype, hguid⟩, hrest⟩
      · rintro ⟨hpass, hrest⟩
        have h1 := hpass.first_le
        have h2 := hpass.last_le
        have h3 := hpass.le_first
        exact ⟨_, ⟨by omega, rfl⟩, by omega, hpass.partType, hpass.guid, hrest⟩

def comparedPositions (P : Platform) (table : List GptEntry) : List Nat :=
  (P.sort (sortKey table) (List.range gptMaxNumEntries)).take (partitions table).length

theorem checkEntries_eq_ok_iff {entries : List UInt8} (hlast : header.last.toNat + 1 < 2 ^ 64) :
    checkEntries P header entries = .ok () ↔ header.entriesCount.toNat ≤ gptMaxNumEntries ∧
      header.entriesCount.toNat * gptEntrySize ≤ entries.length ∧
      header.entriesCrc = P.crc32 (entries.take (header.entriesCount.toNat * gptEntrySize)) ∧
      (∀ e ∈ partitions (header.table entries), e.Passes header) ∧
      checkNeighbours (header.table entries) (comparedPositions P (header.table entries)) = .ok () := by
  unfold checkEntries
  split
  · next hcount =>
    simp only [Res.bind_eq_ok, ensure_eq_ok, exists_and_left, exists_const, checkEach_eq_ok_iff hlast, hcount, true_and]
    rfl
  · next hcount => exact iff_of_false nofun fun h => hcount h.1

structure AcceptedTable (P : Platform) (info : BlockInfo) (header : GptHeader) (entries : List UInt8) : Prop where
  valid : header.Valid P info .primary
  length : entries.length = header.entriesCount.toNat * gptEntrySize
  check : checkEntries P header entries = .ok ()

def GptHeader.withEntries (P : Platform) (header : GptHeader) (entries : List UInt8) : GptHeader :=
  GptHeader.updateCrc P { header with entriesCrc := P.crc32 entries }

namespace AcceptedTable

variable {entries : List UInt8} (h : AcceptedTable P info header entries)

include h

theorem last_lt : header.last.toNat + 1 < 2 ^ 64 := by
  have := h.valid.last_le
  have := info.numBlocks_lt
  omega

theorem passes : ∀ e ∈ partitions (header.table entries), e.Passes header :=
  ((checkEntries_eq_ok_iff h.last_lt).1 h.check).2.2.2.1

theorem neighbours : checkNeighbours (header.table entries) (comparedPositions P (header.table entries)) = .ok () :=
  ((checkEntries_eq_ok_iff h.last_lt).1 h.check).2.2.2.2

theorem withEntries_valid (es : List UInt8) : (header.withEntries P es).Valid P info .primary :=
  { h.valid with crc32 := GptHeader.calculateHeaderCrc_updateCrc P _ }

theorem isNull_endingAt {e : GptEntry} : (e.endingAt header.last).isNull = false := by
  have h1 := h.valid.first_le
  have h2 := h.valid.le_first
  have hlast : header.last ≠ 0 := by
    intro h0
    rw [h0] at h1
    simp at h1
    omega
  simp [GptEntry.isNull, hlast]

theorem recheck_iff {table : List GptEntry} (hlen : table.length = header.entriesCount.toNat) :
    checkEntries P (header.withEntries P (GptEntry.codec.encAll table)) (GptEntry.codec.encAll table) = .ok () ↔
      (∀ e ∈ partitions table, e.Passes header) ∧
      checkNeighbours table (comparedPositions P table) = .ok () := by
  have hsize : (GptEntry.codec.encAll table).length = header.entriesCount.toNat * gptEntrySize := by
    rw [Codec.length_encAll, hlen, GptEntry.codec_width]
  have htable : (header.withEntries P (GptEntry.codec.encAll table)).table (GptEntry.codec.encAll table) = table := by
    have hcount : (header.withEntries P (GptEntry.codec.encAll table)).entriesCount.toNat = table.length := hlen.symm
    rw [GptHeader.table, hcount, Codec.decAll_encAll]
  have hpasses : ∀ e : GptEntry, e.Passes (header.withEntries P (GptEntry.codec.encAll table)) ↔ e.Passes header :=
    fun e => ⟨fun hp => ⟨hp.first_le, hp.last_le, hp.le_first, hp.partType, hp.guid⟩,
      fun hp => ⟨hp.first_le, hp.last_le, hp.le_first, hp.partType, hp.guid⟩⟩
  have hcrc : (header.withEntries P (GptEntry.codec.encAll table)).entriesCrc =
      P.crc32 ((GptEntry.codec.encAll table).take (header.entriesCount.toNat * gptEntrySize)) := by
    rw [List.take_of_length_le (Nat.le_of_eq hsize)]
    rfl
  have hlast : (header.withEntries P (GptEntry.codec.encAll table)).last.toNat + 1 < 2 ^ 64 := h.last_lt
  rw [checkEntries_eq_ok_iff hlast, htable]
  simp only [hpasses]
  exact ⟨fun hall => hall.2.2.2, fun hall => ⟨h.valid.entriesCount, Nat.le_of_eq hsize.symm, hcrc, hall⟩⟩

omit h in
theorem length_extendLast :
    (Session.extendLast header.last (header.table entries)).length = header.entriesCount.toNat := by
  have hlen : (header.table entries).length = header.entriesCount.toNat := Codec.length_decAll _ _ _
  rcases extendLast_cases header.last (header.table entries) with ⟨k, e, -, hext⟩ | ⟨-, hext⟩
  · rw [hext, List.length_set, hlen]
  · rw [hext, hlen]

theorem resizeMbr_eq_ok_iff {r : GptHeader × List UInt8} : Session.resizeMbr P info header entries = .ok r ↔
      ∃ table, table = Session.extendLast header.last (header.table entries) ∧
        r = (header.withEntries P (GptEntry.codec.encAll table), GptEntry.codec.encAll table) ∧
        (∀ e ∈ partitions table, e.Passes header) ∧
        checkNeighbours table (comparedPositions P table) = .ok () := by
  have hmod : entries.length % gptEntrySize = 0 := by rw [h.length, Nat.mul_mod_left]
  have hdiv : entries.length / gptEntrySize = header.entriesCount.toNat := by
    rw [h.length, Nat.mul_div_cancel _ (by decide)]
  have hlen : (Session.extendLast header.last (header.table entries)).length = _ := length_extendLast
  generalize hext : Session.extendLast header.last (header.table entries) = table at hlen
  have hsize : (GptEntry.codec.encAll table).length = header.entriesCount.toNat * gptEntrySize := by
    rw [Codec.length_encAll, hlen, GptEntry.codec_width]
  have hcrc : GptHeader.updateEntriesCrc P header (GptEntry.codec.encAll table) =
      .ok (header.withEntries P (GptEntry.codec.encAll table)) := by
    have hcount := header.entriesCount.toNat_lt
    have hmul : ((header.entriesCount.toNat : SafeNum) * header.entriesSize.toNat).toU64 =
        .ok (header.entriesCount.toNat * gptEntrySize) := by
      rw [h.valid.entriesSize]
      exact (SafeNum.mul_toU64_eq_ok (by omega) (by decide)).2 ⟨by rw [show gptEntrySize = 128 from rfl]; omega, rfl⟩
    rw [GptHeader.updateEntriesCrc, hmul]
    simp only
    rw [if_pos (Nat.le_of_eq hsize.symm), List.take_of_length_le (Nat.le_of_eq hsize)]
    rfl
  have hheader := (checkHeader_eq_ok_iff P info _ .primary).2 (h.withEntries_valid (GptEntry.codec.encAll table))
  have htable : GptEntry.codec.decAll header.entriesCount.toNat entries = header.table entries := rfl
  rw [Session.resizeMbr, if_neg (not_not.2 hmod), hdiv, htable]
  simp only [hext, hcrc, hheader, unwrap, Res.ok_bind, exists_eq_left, ← h.recheck_iff hlen]
  cases hcheck : checkEntries P (header.withEntries P (GptEntry.codec.encAll table)) (GptEntry.codec.encAll table) with
  | ok u =>
    rw [Res.ok_bind]
    constructor
    · intro hr
      exact ⟨(Except.ok.inj hr).symm, rfl⟩
    · rintro ⟨rfl, -⟩
      rfl
  | error e =>
    refine iff_of_false (fun hr => ?_) fun hr => absurd hr.2 Res.error_ne_ok
    cases e <;> cases hr

theorem recheck_set_iff {k : Nat} {e : GptEntry} (hused : LastUsed (header.table entries) k e) :
    ((∀ a ∈ partitions ((header.table entries).set k (e.endingAt header.last)), a.Passes header) ∧
      checkNeighbours ((header.table entries).set k (e.endingAt header.last))
        (comparedPositions P ((header.table entries).set k (e.endingAt header.last))) = .ok ()) ↔
      ∀ next b, Follows (comparedPositions P (header.table entries)) k next →
        (header.table entries)[next]? = some b → header.last < b.first := by
  have hnull : (e.endingAt header.last).isNull = e.isNull := by
    rw [h.isNull_endingAt, hused.not_null]
  have hparts := partitions_set hused.get hnull
  have hcompared : comparedPositions P ((header.table entries).set k (e.endingAt header.last)) =
      comparedPositions P (header.table entries) := by
    rw [comparedPositions, sortKey_set hused.get hnull rfl, hparts, List.length_set]
    rfl
  have hpass : ∀ a ∈ partitions ((header.table entries).set k (e.endingAt header.last)), a.Passes header := by
    intro a ha
    rw [hparts] at ha
    by_cases hk : k < (partitions (header.table entries)).length
    · rcases List.mem_or_eq_of_mem_set ha with hold | rfl
      · exact h.passes a hold
      · have hget := List.getElem?_eq_getElem hk
        have he : e = (partitions (header.table entries))[k] :=
          Option.some.inj (hused.get.symm.trans (getElem?_partitions hget))
        have hpass := h.passes e (he ▸ List.getElem_mem hk)
        exact ⟨Nat.le_trans hpass.first_le (Nat.succ_le_succ hpass.last_le), Nat.le_refl _, hpass.le_first,
          hpass.partType, hpass.guid⟩
    · rw [List.set_eq_of_length_le (Nat.not_lt.1 hk)] at ha
      exact h.passes a ha
  have hnext := checkNeighbours_set_iff hused.get (GptEntry.first_endingAt header.last e) h.neighbours
  rw [hcompared, hnext]
  exact and_iff_right hpass

theorem exists_partition_ge {next : Nat} (hnext : next ∈ comparedPositions P (header.table entries)) :
    ∃ a ∈ partitions (header.table entries), sortKey (header.table entries) next ≤ a.first.toNat := by
  have hcount : (partitions (header.table entries)).length ≤ gptMaxNumEntries := by
    have hle := (List.takeWhile_sublist (fun e : GptEntry => !e.isNull) (l := header.table entries)).length_le
    have hlen : (header.table entries).length = header.entriesCount.toNat := Codec.length_decAll _ _ _
    exact Nat.le_trans hle (hlen ▸ h.valid.entriesCount)
  have hall : ∀ r < (partitions (header.table entries)).length,
      r ∈ P.sort (sortKey (header.table entries)) (List.range gptMaxNumEntries) := by
    intro r hr
    rw [(P.sort_perm _ _).mem_iff, List.mem_range]
    omega
  obtain ⟨r, hr, hle⟩ := exists_key_le_of_mem_take (P.sort_sorted _ _) hall hnext
  have heach := inUsable_of_checkEach ((checkEach_eq_ok_iff h.last_lt 1 _).2 h.passes)
  rw [(keys_of_partition heach (List.getElem?_eq_getElem hr)).1] at hle
  exact ⟨_, List.getElem_mem hr, hle⟩

end AcceptedTable

/-! ## Tables that are resized as they should be -/

structure Highest (table : List GptEntry) (m : Nat) (a : GptEntry) : Prop where
  get : (partitions table)[m]? = some a
  max : ∀ b ∈ partitions table, b.first.toNat ≤ a.first.toNat

def Extended (last : UInt64) (table table' : List GptEntry) : Prop :=
  (partitions table = [] ∧ table' = table) ∨ ∃ m a, Highest table m a ∧ table' = table.set m (a.endingAt last)

def ExtendsHighest (P : Platform) (last : UInt64) (table : List GptEntry) : Prop :=
  ∀ k e, LastUsed table k e →
    if e.last = last then partitions table = [] ∨ ∃ m a, Highest table m a ∧ a.last = last
    else Highest table k e ∧ ∀ next, ¬Follows (comparedPositions P table) k next

theorem Extended.length_eq {table' : List GptEntry} (h : Extended last table table') :
    table'.length = table.length := by
  rcases h with ⟨-, rfl⟩ | ⟨m, a, -, rfl⟩
  · rfl
  · exact List.length_set

theorem Highest.get_table {m : Nat} {a : GptEntry} (h : Highest table m a) :
    table[m]? = some a := getElem?_partitions h.get

theorem set_eq_self_of_get (h : table[k]? = some e) : table.set k e = table := by
  obtain ⟨hlt, rfl⟩ := List.getElem?_eq_some_iff.1 h
  exact List.set_getElem_self hlt

theorem extended_self_iff :
    Extended last table table ↔ partitions table = [] ∨ ∃ m a, Highest table m a ∧ a.last = last := by
  constructor
  · rintro (⟨hnil, -⟩ | ⟨m, a, hhigh, heq⟩)
    · exact .inl hnil
    · right
      have hlt := (List.getElem?_eq_some_iff.1 hhigh.get_table).1
      have hget := hhigh.get_table
      rw [heq, List.getElem?_set_self hlt] at hget
      exact ⟨m, a, hhigh, GptEntry.endingAt_eq_self_iff.1 (Option.some.inj hget)⟩
  · rintro (hnil | ⟨m, a, hhigh, hlast⟩)
    · exact .inl ⟨hnil, rfl⟩
    · right
      refine ⟨m, a, hhigh, ?_⟩
      rw [GptEntry.endingAt_eq_self_iff.2 hlast, set_eq_self_of_get hhigh.get_table]

theorem extended_set_iff (hget : table[k]? = some e) (hne : e.last ≠ last) :
    Extended last table (table.set k (e.endingAt last)) ↔ Highest table k e := by
  have hlt := (List.getElem?_eq_some_iff.1 hget).1
  have hchange : (table.set k (e.endingAt last))[k]? ≠ some e := by
    rw [List.getElem?_set_self hlt]
    intro heq
    exact hne (GptEntry.endingAt_eq_self_iff.1 (Option.some.inj heq))
  constructor
  · rintro (⟨-, heq⟩ | ⟨m, a, hhigh, heq⟩)
    · rw [heq] at hchange
      exact absurd hget hchange
    · by_cases hm : m = k
      · subst hm
        obtain rfl : a = e := Option.some.inj (hhigh.get_table.symm.trans hget)
        exact hhigh
      · rw [heq, List.getElem?_set_ne hm] at hchange
        exact absurd hget hchange
  · intro hhigh
    exact .inr ⟨k, e, hhigh, rfl⟩

def ResizesRight (P : Platform) (info : BlockInfo) (header : GptHeader) (entries : List UInt8)
    (table' : List GptEntry) : Prop :=
  Extended header.last (header.table entries) table' ∧
    Session.resizeMbr P info header entries =
      .ok (header.withEntries P (GptEntry.codec.encAll table'), GptEntry.codec.encAll table')

namespace AcceptedTable

variable {entries : List UInt8} (h : AcceptedTable P info header entries)

include h

theorem exists_resizesRight_iff : (∃ table', ResizesRight P info header entries table') ↔
      Extended header.last (header.table entries) (Session.extendLast header.last (header.table entries)) ∧
      (∀ e ∈ partitions (Session.extendLast header.last (header.table entries)), e.Passes header) ∧
      checkNeighbours (Session.extendLast header.last (header.table entries))
        (comparedPositions P (Session.extendLast header.last (header.table entries))) = .ok () := by
  constructor
  · rintro ⟨table', hext, hresize⟩
    obtain ⟨table, rfl, heq, hcheck⟩ := h.resizeMbr_eq_ok_iff.1 hresize
    -- the bytes determine the table
    have hlen : table'.length = (Session.extendLast header.last (header.table entries)).length := by
      rw [hext.length_eq, length_extendLast]
      exact Codec.length_decAll _ _ _
    have hbytes := congrArg (GptEntry.codec.decAll table'.length) (congrArg Prod.snd heq)
    simp only at hbytes
    rw [Codec.decAll_encAll, hlen, Codec.decAll_encAll] at hbytes
    rw [hbytes] at hext
    exact ⟨hext, hcheck⟩
  · rintro ⟨hext, hcheck⟩
    exact ⟨_, hext, h.resizeMbr_eq_ok_iff.2 ⟨_, rfl, rfl, hcheck⟩⟩

theorem resizesRight_iff : (∃ table', ResizesRight P info header entries table') ↔
      ExtendsHighest P header.last (header.table entries) := by
  rw [h.exists_resizesRight_iff]
  rcases extendLast_cases header.last (header.table entries) with ⟨k, e, hused, hext⟩ | ⟨hnull, hext⟩
  · rw [hext, h.recheck_set_iff hused]
    have hcond : ExtendsHighest P header.last (header.table entries) ↔
        if e.last = header.last then partitions (header.table entries) = [] ∨
            ∃ m a, Highest (header.table entries) m a ∧ a.last = header.last
          else Highest (header.table entries) k e ∧
            ∀ next, ¬Follows (comparedPositions P (header.table entries)) k next := by
      constructor
      · intro hall
        exact hall k e hused
      · intro hk k' e' hused'
        obtain rfl := hused.unique hused'
        obtain rfl : e = e' := Option.some.inj (hused.get.symm.trans hused'.get)
        exact hk
    rw [hcond]
    by_cases hlast : e.last = header.last
    · -- nothing changes
      have hself : (header.table entries).set k (e.endingAt header.last) = header.table entries := by
        rw [GptEntry.endingAt_eq_self_iff.2 hlast, set_eq_self_of_get hused.get]
      have hnext := (checkNeighbours_set_iff hused.get (GptEntry.first_endingAt header.last e) h.neighbours).1
        (hself.symm ▸ h.neighbours)
      rw [if_pos hlast, hself, extended_self_iff]
      exact and_iff_left hnext
    · rw [if_neg hlast, extended_set_iff hused.get hlast]
      refine and_congr_right fun hhigh => ?_
      constructor
      · -- what comes behind starts behind the last usable block, so the highest partition does as well
        intro hnext next hfollows
        have hmem : next ∈ comparedPositions P (header.table entries) := by
          obtain ⟨front, rest, heq⟩ := hfollows
          rw [heq]
          simp
        have hlt := lt_length_of_mem_sorted (by
            rw [GptHeader.table, Codec.length_decAll]
            exact h.valid.entriesCount)
          (by
            have := h.valid.last_le
            have := info.numBlocks_lt
            omega)
          (inUsable_of_checkEach ((checkEach_eq_ok_iff h.last_lt 1 _).2 h.passes)) hmem
        have hb := List.getElem?_eq_getElem hlt
        have hstart := UInt64.lt_iff_toNat_lt.1 (hnext next _ hfollows hb)
        obtain ⟨a, ha, hkey⟩ := h.exists_partition_ge hmem
        have hnotnull : (header.table entries)[next].isNull = false := by
          have h0 : (header.table entries)[next].first ≠ 0 := by
            intro h0
            rw [h0] at hstart
            exact absurd hstart (Nat.not_lt_zero _)
          simp [GptEntry.isNull, h0]
        rw [sortKey, hb] at hkey
        simp only [hnotnull, Bool.false_eq_true, if_false] at hkey
        have hmax := hhigh.max a ha
        have hpass := h.passes e (List.mem_of_getElem? hhigh.get)
        have h1 := hpass.first_le
        have h2 := hpass.last_le
        exact hlast (UInt64.toNat_inj.1 (by omega))
      · intro hnone next b hfollows
        exact absurd hfollows (hnone next)
  · have hnil : partitions (header.table entries) = [] := by
      cases htable : header.table entries with
      | nil => rfl
      | cons a rest => simp [partitions, hnull a (by simp [htable])]
    rw [hext]
    refine iff_of_true ⟨.inl ⟨hnil, rfl⟩, h.passes, h.neighbours⟩ ?_
    intro k e hused
    exact absurd (hnull e (List.mem_of_getElem? hused.get)) (by simp [hused.not_null])

end AcceptedTable

/-! ## `update_gpt` -/

namespace Session

def writeMbr (P : Platform) : Exec Error (Session × Buf) Unit := do
  Exec.zoom (fun p => (p.1.disk, p.2)) (fun p q => ({ p.1 with disk := q.1 }, q.2)) (Disk.write 0)
  let res ← Exec.zoom (fun p => p.1) (fun p s => (s, p.2)) (syncGpt P)
  Exec.lift res.res

structure Accepts (P : Platform) (p : Session × Buf) (header : GptHeader) (start size : Nat) : Prop where
  long : ∃ need, mulU64 p.1.disk.io.info.blockSize 2 = .ok need ∧ need ≤ p.2.len
  headerFits : gptHeaderSize ≤ p.1.disk.io.info.blockSize
  adjusted : adjustHeader P p.1.disk.io.info (mbrHeader p.1.disk.io.info p.2) = .ok header
  valid : checkHeader P p.1.disk.io.info header .primary = .ok ()
  entries : mbrEntries p.1.disk.io.info header p.2.len = .ok (start, size)
  check : checkEntries P header ((p.2.bytes.drop start).take size) = .ok ()

variable {p : Session × Buf} {start size : Nat}

theorem updateGpt_run (h : Accepts P p header start size) (resize : Bool) : updateGpt P resize p = (do
      Exec.when (resize = true) do
        let (header, entries) ← Exec.lift (resizeMbr P p.1.disk.io.info header ((p.2.bytes.drop start).take size))
        Exec.modify fun q => (q.1, (setMbrHeader p.1.disk.io.info header q.2).patch start entries)
      writeMbr P : Exec Error (Session × Buf) Unit) (p.1, setMbrHeader p.1.disk.io.info header p.2) := by
  obtain ⟨need, hneed, hlong⟩ := h.long
  have hensure : ensure (need ≤ p.2.len) (.bufferTooSmall (some need)) = .ok () := if_pos hlong
  unfold updateGpt
  rw [bind_run_ok (get_run p), bind_run_ok (lift_run_ok hneed p),
    bind_run_ok (lift_run_ok hensure p), assert_bind_run_true (decide_eq_true h.headerFits),
    bind_run_ok (lift_run_ok h.adjusted p), bind_run_ok (modify_run _ p),
    bind_run_ok (lift_run_ok h.valid _), bind_run_ok (lift_run_ok h.entries _)]
  exact bind_run_ok (lift_run_ok h.check _)

theorem updateGpt_resized (h : Accepts P p header start size) {header' : GptHeader} {entries : List UInt8}
    (hresize : resizeMbr P p.1.disk.io.info header ((p.2.bytes.drop start).take size) = .ok (header', entries)) :
    updateGpt P true p = writeMbr P (p.1, (setMbrHeader p.1.disk.io.info header'
      (setMbrHeader p.1.disk.io.info header p.2)).patch start entries) := by
  rw [updateGpt_run h true, hresize]
  rfl

theorem updateGpt_resize_error (h : Accepts P p header start size) {e : Stop Error}
    (hresize : resizeMbr P p.1.disk.io.info header ((p.2.bytes.drop start).take size) = .error e) :
    updateGpt P true p = (.error e, (p.1, setMbrHeader p.1.disk.io.info header p.2)) := by
  rw [updateGpt_run h true, hresize]
  rfl

theorem Accepts.acceptedTable (h : Accepts P p header start size) :
    AcceptedTable P p.1.disk.io.info header ((p.2.bytes.drop start).take size) := by
  have hvalid := (checkHeader_eq_ok_iff P _ _ _).1 h.valid
  refine ⟨hvalid, ?_, h.check⟩
  have hentries := h.entries
  unfold mbrEntries at hentries
  simp only [Res.bind_eq_ok, unwrap_eq_ok, addU64_eq_ok, ensure_eq_ok, exists_and_left, exists_const] at hentries
  obtain ⟨off, -, n, hsize, _, ⟨-, rfl⟩, _, ⟨-, rfl⟩, hle, heq⟩ := hentries
  cases heq
  have hcount := header.entriesCount.toNat_lt
  have hesize := hvalid.entriesSize
  rw [hesize, SafeNum.mul_toU64_eq_ok (by omega) (by decide)] at hsize
  have hlen : p.2.len = p.2.bytes.length := rfl
  rw [List.length_take, List.length_drop, ← hsize.2]
  omega

def UpdatesRight (P : Platform) (p : Session × Buf) (header : GptHeader) (start size : Nat) : Prop :=
  ∃ table', ResizesRight P p.1.disk.io.info header ((p.2.bytes.drop start).take size) table' ∧
    updateGpt P true p = writeMbr P (p.1,
      (setMbrHeader p.1.disk.io.info (header.withEntries P (GptEntry.codec.encAll table'))
        (setMbrHeader p.1.disk.io.info header p.2)).patch start (GptEntry.codec.encAll table'))

/-- Of the buffers that it accepts, `update_gpt` resizes exactly those as it should whose last entry is the one to
extend. -/
theorem resize_right_iff (P : Platform) (p : Session × Buf) (header : GptHeader) (start size : Nat)
    (h : Accepts P p header start size) :
    UpdatesRight P p header start size ↔
      ExtendsHighest P header.last (header.table ((p.2.bytes.drop start).take size)) := by
  rw [← h.acceptedTable.resizesRight_iff]
  constructor
  · rintro ⟨table', hright, -⟩
    exact ⟨table', hright⟩
  · rintro ⟨table', hright⟩
    exact ⟨table', hright, updateGpt_resized h hright.2⟩

def sampleUpdate (table : List GptEntry) : Session × Buf where
  fst := ⟨sampleDisk [], sampleGpt [] length_nil_le, []⟩
  snd := ⟨65536, List.replicate 128 0 ++ GptHeader.codec.enc (sampleHeader 1 299 130 170 2 table) ++
    List.replicate 36 0 ++ GptEntry.codec.encAll table⟩

theorem extendsHighest_two : ExtendsHighest referencePlatform 170 [sampleEntry 130 140, sampleEntry 141 150] := by
  have hcompared : comparedPositions referencePlatform [sampleEntry 130 140, sampleEntry 141 150] = [0, 1] := by
    decide +kernel
  have hused : LastUsed [sampleEntry 130 140, sampleEntry 141 150] 1 (sampleEntry 141 150) := by
    refine ⟨rfl, rfl, ?_⟩
    rintro (_ | _ | j) a hj ha
    · omega
    · omega
    · cases ha
  intro k e hlast
  obtain rfl := hused.unique hlast
  obtain rfl : sampleEntry 141 150 = e := Option.some.inj hlast.get
  rw [if_neg (by decide)]
  refine ⟨⟨rfl, ?_⟩, ?_⟩
  · have hparts : partitions [sampleEntry 130 140, sampleEntry 141 150] =
        [sampleEntry 130 140, sampleEntry 141 150] := rfl
    rw [hparts]
    simp only [List.forall_mem_cons, List.not_mem_nil, false_implies, implies_true, and_true]
    decide
  · rintro next ⟨front, rest, hsplit⟩
    rw [hcompared] at hsplit
    rcases front with _ | ⟨a, _ | ⟨b, front⟩⟩ <;> simp at hsplit

theorem resize_right_two :
    UpdatesRight referencePlatform (sampleUpdate [sampleEntry 130 140, sampleEntry 141 150])
      (sampleHeader 1 299 130 170 2 [sampleEntry 130 140, sampleEntry 141 150]) 256 256 := by
  refine (resize_right_iff referencePlatform _ _ 256 256 ⟨⟨256, rfl, by decide +kernel⟩, by decide, by decide +kernel,
    by decide +kernel, by decide +kernel, by decide +kernel⟩).2 ?_
  have htable : (sampleHeader 1 299 130 170 2 [sampleEntry 130 140, sampleEntry 141 150]).table
      (((sampleUpdate [sampleEntry 130 140, sampleEntry 141 150]).2.bytes.drop 256).take 256) =
      [sampleEntry 130 140, sampleEntry 141 150] := by
    decide +kernel
  rw [htable]
  exact extendsHighest_two

/-- The same partitions in the other order are accepted as well, and the step panics. With a used entry behind the null
entry, it is that one that is changed. -/
theorem resize_wrong :
    (Accepts referencePlatform (sampleUpdate [sampleEntry 141 150, sampleEntry 130 140])
        (sampleHeader 1 299 130 170 2 [sampleEntry 141 150, sampleEntry 130 140]) 256 256 ∧
      (updateGpt referencePlatform true (sampleUpdate [sampleEntry 141 150, sampleEntry 130 140])).1 = panic) ∧
    (Accepts referencePlatform (sampleUpdate [sampleEntry 130 140, nullEntry, sampleEntry 1 2])
        (sampleHeader 1 299 130 170 2 [sampleEntry 130 140, nullEntry, sampleEntry 1 2]) 256 384 ∧
      resizeMbr referencePlatform sampleInfo
          (sampleHeader 1 299 130 170 2 [sampleEntry 130 140, nullEntry, sampleEntry 1 2])
          (GptEntry.codec.encAll [sampleEntry 130 140, nullEntry, sampleEntry 1 2]) =
        .ok (sampleHeader 1 299 130 170 2 [sampleEntry 130 140, nullEntry, sampleEntry 1 170],
          GptEntry.codec.encAll [sampleEntry 130 140, nullEntry, sampleEntry 1 170])) := by
  have haccepts : Accepts referencePlatform (sampleUpdate [sampleEntry 141 150, sampleEntry 130 140])
      (sampleHeader 1 299 130 170 2 [sampleEntry 141 150, sampleEntry 130 140]) 256 256 :=
    ⟨⟨256, rfl, by decide +kernel⟩, by decide, by decide +kernel, by decide +kernel, by decide +kernel,
      by decide +kernel⟩
  refine ⟨⟨haccepts, ?_⟩, ⟨⟨256, rfl, by decide +kernel⟩, by decide, by decide +kernel, by decide +kernel,
    by decide +kernel, by decide +kernel⟩, by decide +kernel⟩
  rw [updateGpt_resize_error haccepts (show resizeMbr _ _ _ _ = panic by decide +kernel)]

end Session

end Gbl.Storage
