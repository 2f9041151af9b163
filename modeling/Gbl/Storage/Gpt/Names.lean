import Gbl.Storage.Gpt.Report

/-!
# Partition names

A name is 36 UTF-16 units. `decodedName` is what they spell: the characters up to the first NUL, with the replacement
character for a surrogate without its partner. Nothing about that is fallible.
-/

namespace Gbl.Storage

open Lib

namespace GptEntry

def nameChars (e : GptEntry) : List Char :=
  ((decodeUtf16 e.name.toList).map fun c => c.getD (Char.ofNat 0xFFFD)).takeWhile fun c => c.toNat ≠ 0

def decodedName (e : GptEntry) : String := String.ofList e.nameChars

end GptEntry

/-! ## Decoding through a buffer -/

theorem utf8ByteSize_ofList (cs : List Char) : (String.ofList cs).utf8ByteSize = (cs.map Char.utf8Size).sum := by
  induction cs with
  | nil => simp
  | cons c cs ih => simp [String.ofList_cons, String.utf8ByteSize_append, ih]

theorem encodeName_eq (cs : List (Option Char)) (room : Nat) (acc : List Char) : GptEntry.encodeName cs room acc =
      (let name := (cs.map fun c => c.getD (Char.ofNat 0xFFFD)).takeWhile fun c => c.toNat ≠ 0
       if (name.map Char.utf8Size).sum ≤ room then .ok (String.ofList (acc.reverse ++ name))
       else err .invalidInput) := by
  induction cs generalizing room acc with
  | nil => simp [GptEntry.encodeName]
  | cons c cs ih =>
    rw [GptEntry.encodeName, List.map_cons]
    by_cases hnul : (c.getD (Char.ofNat 0xFFFD)).toNat = 0
    · rw [List.takeWhile_cons_of_neg (by simpa using hnul)]
      simp [hnul]
    · rw [List.takeWhile_cons_of_pos (by simpa using hnul)]
      simp only [hnul, if_false, List.map_cons, List.sum_cons]
      by_cases hfits : (c.getD (Char.ofNat 0xFFFD)).utf8Size ≤ room
      · rw [if_pos hfits, ih]
        simp only [List.reverse_cons, List.append_assoc, List.singleton_append]
        exact if_congr (by omega) rfl rfl
      · rw [if_neg hfits, if_neg (by omega)]

namespace GptEntry

theorem nameToStr_eq (e : GptEntry) (n : Nat) :
    e.nameToStr n = if e.decodedName.utf8ByteSize ≤ n then .ok e.decodedName else err .invalidInput := by
  unfold nameToStr decodedName nameChars
  rw [encodeName_eq, utf8ByteSize_ofList]
  rfl

theorem nameToStr_eq_ok {e : GptEntry} {n : Nat} {s : String} :
    e.nameToStr n = .ok s ↔ e.decodedName = s ∧ s.utf8ByteSize ≤ n := by
  rw [nameToStr_eq]
  split
  · next h =>
    constructor
    · intro hs
      cases hs
      exact ⟨rfl, h⟩
    · rintro ⟨rfl, -⟩
      rfl
  · next h =>
    refine iff_of_false nofun ?_
    rintro ⟨rfl, hle⟩
    exact h hle

end GptEntry

/-! ## Searching -/

structure FirstNamed (s : String) (entries front : List GptEntry) (e : GptEntry) : Prop where
  split : ∃ rest, entries = front ++ e :: rest
  named : e.decodedName = s
  others : ∀ a ∈ front, a.decodedName ≠ s

def FindsByName (g : Gpt) (blockSize : Nat) (s : String) : Prop :=
  (∀ front e, FirstNamed s (partitions g.primaryEntries) front e →
      g.findPartition s = .ok (Partition.new e blockSize)) ∧
    (g.findPartition s = err .notFound → ∀ e ∈ partitions g.primaryEntries, e.decodedName ≠ s)

section Search

variable {s : String} {blockSize : Nat} {entries front rest : List GptEntry} {e : GptEntry}

theorem findIn_cons_of_ne (hsize : e.decodedName.utf8ByteSize ≤ 72) (hne : e.decodedName ≠ s) :
    Gpt.findIn s blockSize (e :: rest) = Gpt.findIn s blockSize rest := by
  simp [Gpt.findIn, GptEntry.nameToStr_eq, gptNameLenU16, hsize, hne]

theorem findIn_cons_of_eq (hsize : e.decodedName.utf8ByteSize ≤ 72) (heq : e.decodedName = s) :
    Gpt.findIn s blockSize (e :: rest) = .ok (Partition.new e blockSize) := by
  have hname : e.nameToStr 72 = .ok s := GptEntry.nameToStr_eq_ok.2 ⟨heq, heq ▸ hsize⟩
  simp [Gpt.findIn, gptNameLenU16, hname]
  rfl

theorem findIn_cons_of_long (hsize : 72 < e.decodedName.utf8ByteSize) :
    Gpt.findIn s blockSize (e :: rest) = err .invalidInput := by
  simp [Gpt.findIn, GptEntry.nameToStr_eq, gptNameLenU16, Nat.not_le.2 hsize]

theorem findIn_append (hsize : ∀ a ∈ front, a.decodedName.utf8ByteSize ≤ 72) (hne : ∀ a ∈ front, a.decodedName ≠ s) :
    Gpt.findIn s blockSize (front ++ rest) = Gpt.findIn s blockSize rest := by
  induction front with
  | nil => rfl
  | cons a front ih =>
    rw [List.cons_append, findIn_cons_of_ne (hsize a (by simp)) (hne a (by simp))]
    exact ih (fun b hb => hsize b (by simp [hb])) fun b hb => hne b (by simp [hb])

theorem findIn_of_long (hne : ∀ a ∈ front, a.decodedName ≠ s) (hlong : ∃ a ∈ front, 72 < a.decodedName.utf8ByteSize) :
    Gpt.findIn s blockSize (front ++ rest) = err .invalidInput := by
  induction front with
  | nil => simp at hlong
  | cons a front ih =>
    rw [List.cons_append]
    by_cases hsize : a.decodedName.utf8ByteSize ≤ 72
    · rw [findIn_cons_of_ne hsize (hne a (by simp))]
      refine ih (fun b hb => hne b (by simp [hb])) ?_
      obtain ⟨b, hb, hlong⟩ := hlong
      rcases List.mem_cons.1 hb with rfl | hb
      · omega
      · exact ⟨b, hb, hlong⟩
    · exact findIn_cons_of_long (Nat.not_le.1 hsize)

theorem findIn_of_absent (hne : ∀ a ∈ entries, a.decodedName ≠ s) (p : Partition) :
    Gpt.findIn s blockSize entries ≠ .ok p := by
  induction entries with
  | nil => exact nofun
  | cons a entries ih =>
    by_cases hsize : a.decodedName.utf8ByteSize ≤ 72
    · rw [findIn_cons_of_ne hsize (hne a (by simp))]
      exact ih fun b hb => hne b (by simp [hb])
    · rw [findIn_cons_of_long (Nat.not_le.1 hsize)]
      exact nofun

theorem findPartition_eq {g : Gpt} (hvalid : g.blockSize = some blockSize) :
    g.findPartition s = Gpt.findIn s blockSize (partitions g.primaryEntries) := by
  simp [Gpt.findPartition, Gpt.entries, Gpt.checkValid, hvalid]

theorem exists_firstNamed (h : ∃ e ∈ entries, e.decodedName = s) : ∃ front e, FirstNamed s entries front e := by
  induction entries with
  | nil => simp at h
  | cons a entries ih =>
    by_cases ha : a.decodedName = s
    · exact ⟨[], a, ⟨entries, rfl⟩, ha, by simp⟩
    · obtain ⟨e, he, hname⟩ := h
      have htail : e ∈ entries := by
        rcases List.mem_cons.1 he with rfl | he
        · exact absurd hname ha
        · exact he
      obtain ⟨front, e', ⟨rest, rfl⟩, hname', hothers⟩ := ih ⟨e, htail, hname⟩
      refine ⟨a :: front, e', ⟨rest, rfl⟩, hname', ?_⟩
      intro b hb
      rcases List.mem_cons.1 hb with rfl | hb
      · exact ha
      · exact hothers b hb

theorem findIn_eq_ok {p : Partition} (h : Gpt.findIn s blockSize entries = .ok p) :
    ∃ e ∈ entries, e.decodedName = s ∧ p = Partition.new e blockSize := by
  by_cases hex : ∃ e ∈ entries, e.decodedName = s
  · obtain ⟨front, e, ⟨rest, rfl⟩, hname, hothers⟩ := exists_firstNamed hex
    by_cases hlong : ∃ a ∈ front, 72 < a.decodedName.utf8ByteSize
    · rw [findIn_of_long hothers hlong] at h
      cases h
    · have hfits : ∀ a ∈ front, a.decodedName.utf8ByteSize ≤ 72 := by
        intro a ha
        by_contra hgt
        exact hlong ⟨a, ha, Nat.not_le.1 hgt⟩
      rw [findIn_append hfits hothers] at h
      by_cases hsize : e.decodedName.utf8ByteSize ≤ 72
      · rw [findIn_cons_of_eq hsize hname] at h
        cases h
        exact ⟨e, by simp, hname, rfl⟩
      · rw [findIn_cons_of_long (Nat.not_le.1 hsize)] at h
        cases h
  · exact absurd h (findIn_of_absent (fun a ha hname => hex ⟨a, ha, hname⟩) p)

theorem findIn_firstNamed_iff (h : FirstNamed s entries front e) :
    Gpt.findIn s blockSize entries = .ok (Partition.new e blockSize) ↔
      ∀ a ∈ front ++ [e], a.decodedName.utf8ByteSize ≤ 72 := by
  obtain ⟨⟨rest, rfl⟩, hname, hothers⟩ := h
  constructor
  · intro hfound a ha
    by_contra hgt
    have hstop : Gpt.findIn s blockSize (front ++ e :: rest) = err .invalidInput := by
      rcases List.mem_append.1 ha with ha | ha
      · exact findIn_of_long hothers ⟨a, ha, Nat.not_le.1 hgt⟩
      · obtain rfl := List.mem_singleton.1 ha
        by_cases hlong : ∃ b ∈ front, 72 < b.decodedName.utf8ByteSize
        · exact findIn_of_long hothers hlong
        · rw [findIn_append (fun b hb => Nat.not_lt.1 fun h => hlong ⟨b, hb, h⟩) hothers]
          exact findIn_cons_of_long (Nat.not_le.1 hgt)
    rw [hstop] at hfound
    cases hfound
  · intro hsize
    rw [findIn_append (fun a ha => hsize a (by simp [ha])) hothers]
    exact findIn_cons_of_eq (hsize e (by simp)) hname

end Search

/-- **Looking up a name.** The search is exact if and only if no name up to the first match takes more
than 72 bytes. -/
theorem findPartition_exact_iff (g : Gpt) (blockSize : Nat) (s : String) (hvalid : g.blockSize = some blockSize) :
    FindsByName g blockSize s ↔
      ∀ front e, FirstNamed s (partitions g.primaryEntries) front e →
        ∀ a ∈ front ++ [e], a.decodedName.utf8ByteSize ≤ 72 := by
  unfold FindsByName
  rw [findPartition_eq hvalid]
  constructor
  · intro h front e hfirst
    exact (findIn_firstNamed_iff hfirst).1 (h.1 front e hfirst)
  · intro h
    refine ⟨fun front e hfirst => (findIn_firstNamed_iff hfirst).2 (h front e hfirst), ?_⟩
    intro hnone e he hname
    obtain ⟨front, e', hfirst⟩ := exists_firstNamed ⟨e, he, hname⟩
    rw [(findIn_firstNamed_iff hfirst).2 (h front e' hfirst)] at hnone
    cases hnone

def nameField (units : List UInt16) : Vector UInt16 36 := Vector.ofFn fun i => units[i.val]?.getD 0

def ideographEntry : GptEntry := { sampleEntry 140 149 with name := Vector.replicate 36 0x4E2D }

def bootEntry : GptEntry := { sampleEntry 150 159 with name := nameField [0x62, 0x6F, 0x6F, 0x74] }

theorem decodedName_bootEntry : bootEntry.decodedName = "boot" := by
  have hchars : bootEntry.nameChars = "boot".toList := by decide
  rw [GptEntry.decodedName, hchars, String.ofList_toList]

theorem utf8ByteSize_ideographEntry : ideographEntry.decodedName.utf8ByteSize = 108 := by
  rw [GptEntry.decodedName, utf8ByteSize_ofList]
  decide

def loadedGpt (table : List GptEntry) (h : table.length ≤ gptMaxNumEntries) : Gpt :=
  { sampleGpt table h with blockSize := some 128 }

theorem findPartition_exact_boot : FindsByName (loadedGpt [bootEntry] (by decide)) 128 "boot" := by
  refine (findPartition_exact_iff _ 128 "boot" rfl).2 ?_
  intro front e hfirst a ha
  obtain ⟨rest, hsplit⟩ := hfirst.split
  have hparts : partitions (loadedGpt [bootEntry] (by decide)).primaryEntries = [bootEntry] := by decide
  have hmem : a ∈ [bootEntry] := by
    rw [← hparts, hsplit]
    simp only [List.mem_append, List.mem_cons] at ha ⊢
    tauto
  rw [List.mem_singleton.1 hmem, decodedName_bootEntry]
  decide

/-- A table that passes both checks has a partition `boot`, and the search for it ends in an error at
the entry in front of it. -/
theorem findPartition_prevented :
    checkHeader referencePlatform sampleInfo (sampleHeader 1 299 130 170 2 [ideographEntry, bootEntry]) .primary =
        .ok () ∧
      checkEntries referencePlatform (sampleHeader 1 299 130 170 2 [ideographEntry, bootEntry])
        (GptEntry.codec.encAll [ideographEntry, bootEntry]) = .ok () ∧
      partitions (loadedGpt [ideographEntry, bootEntry] (by decide)).primaryEntries = [ideographEntry, bootEntry] ∧
      bootEntry.decodedName = "boot" ∧
      (loadedGpt [ideographEntry, bootEntry] (by decide)).findPartition "boot" = err .invalidInput ∧
      ¬ FindsByName (loadedGpt [ideographEntry, bootEntry] (by decide)) 128 "boot" := by
  have hparts : partitions (loadedGpt [ideographEntry, bootEntry] (by decide)).primaryEntries =
      [ideographEntry, bootEntry] := by decide
  have hrun : (loadedGpt [ideographEntry, bootEntry] (by decide)).findPartition "boot" = err .invalidInput := by
    rw [findPartition_eq rfl, hparts]
    exact findIn_cons_of_long (by rw [utf8ByteSize_ideographEntry]; decide)
  have hother : ideographEntry.decodedName ≠ "boot" := by
    intro hname
    have hsize := utf8ByteSize_ideographEntry
    rw [hname] at hsize
    exact absurd hsize (by decide)
  refine ⟨by decide +kernel, by decide +kernel, hparts, decodedName_bootEntry, hrun, ?_⟩
  intro h
  have hfound := h.1 [ideographEntry] bootEntry ⟨⟨[], hparts⟩, decodedName_bootEntry, by simpa using hother⟩
  rw [hrun] at hfound
  cases hfound

/-! ## The name of a partition -/

namespace Partition

def name (p : Partition) : Option String := p.decodedName

theorem name_new (e : GptEntry) (blockSize : Nat) :
    (new e blockSize).name = if e.decodedName.utf8ByteSize ≤ 32 then some e.decodedName else none := by
  unfold name new
  rw [GptEntry.nameToStr_eq]
  by_cases hsize : e.decodedName.utf8ByteSize ≤ 32
  · simp [hsize]
  · simp [hsize]

theorem name_new_eq_some_iff (e : GptEntry) (blockSize : Nat) :
    (new e blockSize).name = some e.decodedName ↔ e.decodedName.utf8ByteSize ≤ 32 := by
  rw [name_new]
  split
  · next h => simp [h]
  · next h => simp [h]

end Partition

theorem getPartition_eq_ok {g : Gpt} {blockSize idx : Nat} {p : Partition} (hvalid : g.blockSize = some blockSize)
    (h : g.getPartition idx = .ok p) : ∃ e, p = Partition.new e blockSize := by
  simp only [Gpt.getPartition, Gpt.checkValid, hvalid, Res.ok_bind, Res.bind_eq_ok] at h
  obtain ⟨entries, -, h⟩ := h
  cases hget : entries[idx]? with
  | none =>
    rw [hget] at h
    cases h
  | some e =>
    rw [hget] at h
    cases h
    exact ⟨e, rfl⟩

theorem mem_collect {g : Gpt} {blockSize n : Nat} {it : PartitionIterator} {p : Partition}
    (hvalid : g.blockSize = some blockSize) (hit : g.partitionIter = .ok it) (h : p ∈ it.collect n) :
    ∃ e, p = Partition.new e blockSize := by
  simp only [Gpt.partitionIter, Gpt.checkValid, hvalid, Res.ok_bind] at hit
  cases hit
  rw [PartitionIterator.collect_eq] at h
  obtain ⟨e, -, rfl⟩ := List.mem_map.1 h
  exact ⟨e, rfl⟩

/-- **Names of partitions.** Whichever way a partition was obtained, it knows its name if and only if the
name takes at most 32 bytes. -/
theorem partition_name_iff (g : Gpt) (blockSize : Nat) (hvalid : g.blockSize = some blockSize) :
    (∀ s p, g.findPartition s = .ok p → (p.name = some s ↔ s.utf8ByteSize ≤ 32)) ∧
    (∀ it n p t, g.partitionIter = .ok it → p ∈ it.collect n → p.entry.nameToStr 72 = .ok t →
      (p.name = some t ↔ t.utf8ByteSize ≤ 32)) ∧
    (∀ idx p t, g.getPartition idx = .ok p → p.entry.nameToStr 72 = .ok t →
      (p.name = some t ↔ t.utf8ByteSize ≤ 32)) := by
  have hnamed : ∀ e t, (Partition.new e blockSize).entry.nameToStr 72 = .ok t →
      ((Partition.new e blockSize).name = some t ↔ t.utf8ByteSize ≤ 32) := by
    intro e t ht
    obtain ⟨rfl, -⟩ := GptEntry.nameToStr_eq_ok.1 ht
    exact Partition.name_new_eq_some_iff e blockSize
  refine ⟨?_, ?_, ?_⟩
  · intro s p h
    rw [findPartition_eq hvalid] at h
    obtain ⟨e, -, rfl, rfl⟩ := findIn_eq_ok h
    exact Partition.name_new_eq_some_iff e blockSize
  · intro it n p t hit hp ht
    obtain ⟨e, rfl⟩ := mem_collect hvalid hit hp
    exact hnamed e t ht
  · intro idx p t h ht
    obtain ⟨e, rfl⟩ := getPartition_eq_ok hvalid h
    exact hnamed e t ht

theorem partition_name_boot :
    ∃ p, (loadedGpt [bootEntry] (by decide)).findPartition "boot" = .ok p ∧ p.name = some "boot" := by
  have hparts : partitions (loadedGpt [bootEntry] (by decide)).primaryEntries = [bootEntry] := by decide
  have hrun : (loadedGpt [bootEntry] (by decide)).findPartition "boot" = .ok (Partition.new bootEntry 128) := by
    rw [findPartition_eq rfl, hparts]
    exact findIn_cons_of_eq (by rw [decodedName_bootEntry]; decide) decodedName_bootEntry
  exact ⟨_, hrun, ((partition_name_iff _ 128 rfl).1 "boot" _ hrun).2 (by decide)⟩

/-- A name of 33 letters is found and then lost. -/
theorem partition_name_lost :
    ∃ (e : GptEntry) (p : Partition) (s : String),
      checkHeader referencePlatform sampleInfo (sampleHeader 1 299 130 170 2 [e]) .primary = .ok () ∧
      checkEntries referencePlatform (sampleHeader 1 299 130 170 2 [e]) (GptEntry.codec.encAll [e]) = .ok () ∧
      partitions (loadedGpt [e] (by simp [gptMaxNumEntries])).primaryEntries = [e] ∧
      (loadedGpt [e] (by simp [gptMaxNumEntries])).findPartition s = .ok p ∧ p.name = none := by
  let e : GptEntry := { sampleEntry 140 149 with name := nameField (List.replicate 33 0x61) }
  have hsize : e.decodedName.utf8ByteSize = 33 := by
    rw [GptEntry.decodedName, utf8ByteSize_ofList]
    decide
  have hparts : partitions (loadedGpt [e] (by simp [gptMaxNumEntries])).primaryEntries = [e] := by decide
  refine ⟨e, Partition.new e 128, e.decodedName, by decide +kernel, by decide +kernel, hparts, ?_, ?_⟩
  · rw [findPartition_eq rfl, hparts]
    exact findIn_cons_of_eq (by rw [hsize]; decide) rfl
  · rw [Partition.name_new, if_neg (by rw [hsize]; decide)]

end Gbl.Storage
