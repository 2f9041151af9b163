import Gbl.Storage.Gpt.Builder
import Gbl.Storage.Gpt.Check

/-!
# Adding a partition (`libstorage`, `gpt.rs`)

`GptBuilder::add` tries to insert the new partition before every entry in turn and takes the first position that
works.
-/

namespace Gbl.Storage

open Lib Lib.Exec

namespace BuilderTable

/-! ## Gaps -/

def parts (b : BuilderTable) : List GptEntry := partitions b.entries

def gapStart (b : BuilderTable) : Nat → Nat
  | 0 => b.header.first.toNat
  | idx + 1 => match b.parts[idx]? with
    | some e => e.last.toNat + 1
    | none => 0

def gapStop (b : BuilderTable) (idx : Nat) : Nat :=
  match b.parts[idx]? with
  | some e => e.first.toNat
  | none => b.header.last.toNat + 1

def Fits (b : BuilderTable) (idx blocks : Nat) : Prop := b.gapStart idx + blocks ≤ b.gapStop idx

def Buried (b : BuilderTable) (idx : Nat) : Prop :=
  ∃ j a e, idx = j + 1 ∧ b.parts[j]? = some a ∧ b.parts[j + 1]? = some e ∧ a.Covers e.first.toNat

structure WellFormed (b : BuilderTable) : Prop where
  count : b.header.entriesCount.toNat = b.parts.length
  capacity : b.entries.length ≤ gptMaxNumEntries
  first_pos : 0 < b.header.first.toNat
  usable : b.header.first.toNat ≤ b.header.last.toNat + 1
  last_lt : b.header.last.toNat + 1 < 2 ^ 64
  inside : ∀ e ∈ b.parts, b.header.first.toNat ≤ e.first.toNat ∧ e.first.toNat ≤ e.last.toNat + 1 ∧
    e.last.toNat ≤ b.header.last.toNat
  sorted : b.parts.Pairwise fun a e => a.first.toNat ≤ e.first.toNat
  disjoint : b.parts.Pairwise fun a e => ¬a.Meets e

theorem findIdx?_eq_length_takeWhile {α : Type} (p : α → Bool) (l : List α) : l.findIdx? p =
      if (l.takeWhile fun a => !p a).length < l.length then some (l.takeWhile fun a => !p a).length
      else none := by
  induction l with
  | nil => rfl
  | cons a l ih =>
    by_cases hp : p a = true
    · simp [List.findIdx?_cons, hp]
    · simp only [List.findIdx?_cons, List.takeWhile_cons, hp, ih, Bool.not_false, if_true, if_false,
        List.length_cons, Nat.succ_lt_succ_iff, Bool.false_eq_true]
      split <;> rfl

theorem nullPos_eq (entries : List GptEntry) :
    nullPos entries = if (partitions entries).length < entries.length then some (partitions entries).length
      else none :=
  findIdx?_eq_length_takeWhile GptEntry.isNull entries

variable {b : BuilderTable} {n blockSize : Nat} {p : NewPartition}

theorem nullPos_eq_some (h : nullPos b.entries = some n) : n = b.parts.length ∧ n < b.entries.length := by
  rw [nullPos_eq] at h
  split at h
  · next hlt =>
    cases h
    exact ⟨rfl, hlt⟩
  · cases h

section Gaps

variable {b : BuilderTable} (hwf : b.WellFormed)

include hwf

theorem WellFormed.gapStart_pos {idx : Nat} (h : idx ≤ b.parts.length) : 0 < b.gapStart idx := by
  cases idx with
  | zero => exact hwf.first_pos
  | succ j => simp [gapStart, List.getElem?_eq_getElem (show j < b.parts.length from h)]

theorem WellFormed.gapStart_lt {idx : Nat} (h : idx ≤ b.parts.length) : b.gapStart idx ≤ b.header.last.toNat + 1 := by
  cases idx with
  | zero => exact hwf.usable
  | succ j =>
    have hj : j < b.parts.length := h
    have := hwf.inside _ (List.getElem_mem hj)
    simp only [gapStart, List.getElem?_eq_getElem hj]
    omega

theorem WellFormed.gapStop_le (idx : Nat) : b.gapStop idx ≤ b.header.last.toNat + 1 := by
  unfold gapStop
  split
  · next e he =>
    have := hwf.inside e (List.mem_of_getElem? he)
    omega
  · exact Nat.le_refl _

theorem WellFormed.gapStop_lt_iff {idx : Nat} (h : idx ≤ b.parts.length) :
    b.gapStop idx < b.gapStart idx ↔ b.Buried idx := by
  cases idx with
  | zero =>
    refine iff_of_false ?_ nofun
    have hle : b.header.first.toNat ≤ b.gapStop 0 := by
      unfold gapStop
      split
      · next e he => exact (hwf.inside e (List.mem_of_getElem? he)).1
      · exact hwf.usable
    exact Nat.not_lt.2 hle
  | succ j =>
    have hj : j < b.parts.length := h
    have ha := List.getElem?_eq_getElem hj
    by_cases hlast : j + 1 < b.parts.length
    · have he := List.getElem?_eq_getElem hlast
      have hsorted := List.pairwise_iff_getElem.1 hwf.sorted j (j + 1) hj hlast (Nat.lt_succ_self j)
      simp only [gapStop, gapStart, ha, he]
      constructor
      · intro hlt
        exact ⟨j, _, _, rfl, ha, he, hsorted, Nat.le_of_lt_succ hlt⟩
      · rintro ⟨j', a, e, hidx, ha', he', -, hle⟩
        obtain rfl : j = j' := Nat.succ.inj hidx
        rw [ha] at ha'
        rw [he] at he'
        cases ha'
        cases he'
        exact Nat.lt_succ_of_le hle
    · have hnone : b.parts[j + 1]? = none := List.getElem?_eq_none (Nat.not_lt.1 hlast)
      refine iff_of_false ?_ ?_
      · have := hwf.inside _ (List.getElem_mem hj)
        simp only [gapStop, gapStart, ha, hnone]
        omega
      · rintro ⟨j', a, e, hidx, -, he', -⟩
        obtain rfl : j = j' := Nat.succ.inj hidx
        rw [hnone] at he'
        cases he'

theorem WellFormed.gapAt_eq {n idx : Nat} (hn : nullPos b.entries = some n) (hidx : idx ≤ n) :
    b.gapAt n idx = .ok (b.gapStart idx, b.gapStop idx) := by
  obtain ⟨rfl, hlen⟩ := nullPos_eq_some hn
  have hlast := hwf.last_lt
  have hget : ∀ j (hj : j < b.parts.length), b.entries[j]? = some b.parts[j] := fun j hj =>
    getElem?_partitions (List.getElem?_eq_getElem hj)
  have hend : addU64 b.header.last.toNat 1 = .ok (b.header.last.toNat + 1) := if_pos hlast
  have hprev : ∀ j (hj : j < b.parts.length), addU64 b.parts[j].last.toNat 1 = .ok (b.gapStart (j + 1)) := by
    intro j hj
    have := hwf.inside _ (List.getElem_mem hj)
    rw [gapStart, List.getElem?_eq_getElem hj]
    exact if_pos (by omega)
  unfold gapAt
  by_cases heq : idx = b.parts.length
  · have hstop : b.gapStop idx = b.header.last.toNat + 1 := by
      simp [gapStop, heq]
    rw [hstop]
    cases idx with
    | zero =>
      simp only [if_pos heq, hend]
      rfl
    | succ j =>
      simp only [if_pos heq, hend, if_neg (Nat.succ_ne_zero j), Nat.add_sub_cancel, hget j hidx, hprev j hidx]
      rfl
  · have hlt : idx < b.parts.length := by omega
    have hstop : b.gapStop idx = b.parts[idx].first.toNat := by
      simp [gapStop, List.getElem?_eq_getElem hlt]
    rw [hstop]
    cases idx with
    | zero =>
      simp only [if_neg heq, hget 0 hlt]
      rfl
    | succ j =>
      simp only [if_neg heq, if_neg (Nat.succ_ne_zero j), Nat.add_sub_cancel, hget j hidx, hprev j hidx, hget _ hlt]
      rfl

end Gaps

/-! ## One position -/

def placed (b : BuilderTable) (n idx : Nat) (p : NewPartition) (first blocks : Nat) (slot : GptEntry) :
    BuilderTable where
  header := { b.header with entriesCount := UInt32.ofNat (n + 1) }
  entries := b.entries.take idx ++ newEntry p first (first + blocks - 1) slot :: (b.entries.take n).drop idx ++
    b.entries.drop (n + 1)

def blocksOf (blockSize size : Nat) : Nat := (size + blockSize - 1) / blockSize

theorem blocksFor_some {v : Nat} (hpos : 0 < blockSize) (hlt : blockSize < 2 ^ 64) (hv : v < 2 ^ 64)
    (gap : Nat × Nat) :
    blocksFor blockSize gap (some v) =
      if v + blockSize < 2 ^ 64 then .ok (blocksOf blockSize v) else err .arithmeticOverflow := by
  have hb : (blockSize : SafeNum) = .valid blockSize := SafeNum.ofNat_of_lt hlt
  have hs : (v : SafeNum) = .valid v := SafeNum.ofNat_of_lt hv
  rw [blocksFor, hb, hs]
  by_cases hsum : v + blockSize < 2 ^ 64
  · have hdiv : (v + blockSize - 1 - (v + blockSize - 1) % blockSize) / blockSize = blocksOf blockSize v := by
      rw [Nat.sub_eq_of_eq_add (Nat.div_add_mod (v + blockSize - 1) blockSize).symm, Nat.mul_div_cancel_left _ hpos,
        blocksOf]
    rw [if_pos hsum, SafeNum.roundUp_valid hpos hsum, SafeNum.valid_div, if_neg (Nat.ne_of_gt hpos), hdiv,
      SafeNum.toU64_valid]
  · rw [if_neg hsum, SafeNum.roundUp_error_of_ge (Nat.not_lt.1 hsum), SafeNum.error_div, SafeNum.toU64_error]

section Insert

variable {b : BuilderTable} (hwf : b.WellFormed) {n idx blockSize : Nat} (hn : nullPos b.entries = some n)
  (hidx : idx ≤ n) {p : NewPartition}

include hwf hn hidx

theorem insertBefore_of_blocks {k : Nat}
    (hblocks : blocksFor blockSize (b.gapStart idx, b.gapStop idx) p.size = .ok k) :
    b.insertBefore blockSize idx p =
      if b.gapStop idx < b.gapStart idx then panic
      else if b.gapStart idx + k ≤ b.gapStop idx then
        match b.entries[n]? with
        | none => panic
        | some slot => .ok (b.placed n idx p (b.gapStart idx) k slot)
      else err .outOfResources := by
  obtain ⟨hlen, hlt⟩ := nullPos_eq_some hn
  have hparts : idx ≤ b.parts.length := hlen ▸ hidx
  have hpos := hwf.gapStart_pos hparts
  have hstop := hwf.gapStop_le idx
  have hlast := hwf.last_lt
  have hcap := hwf.capacity
  rw [insertBefore, hn]
  simp only [Nat.min_eq_right hidx, hwf.gapAt_eq hn hidx, Res.ok_bind, hblocks]
  by_cases hneg : b.gapStop idx < b.gapStart idx
  · rw [if_pos hneg, subU64, if_neg (Nat.not_le.2 hneg)]
    rfl
  · rw [if_neg hneg, subU64, if_pos (Nat.not_lt.1 hneg), Res.ok_bind]
    by_cases hfits : b.gapStart idx + k ≤ b.gapStop idx
    · have hsum : addU64 (b.gapStart idx) k = .ok (b.gapStart idx + k) := if_pos (by omega)
      have hsub : subU64 (b.gapStart idx + k) 1 = .ok (b.gapStart idx + k - 1) := if_pos (by omega)
      have hcount : b.header.entriesCount.toNat + 1 < 2 ^ 32 := by
        rw [hwf.count, ← hlen]
        exact Nat.lt_of_le_of_lt (Nat.le_trans hlt hcap) (by decide)
      rw [ensure, if_pos (by omega), Res.ok_bind, if_pos hfits]
      cases b.entries[n]? with
      | none => rfl
      | some slot =>
        simp only [hsum, hsub, Res.ok_bind, if_pos hcount]
        rw [hwf.count, ← hlen]
        rfl
    · rw [ensure, if_neg (by omega), if_neg hfits]
      rfl

theorem insertBefore_of_overflow (hblocks : blocksFor blockSize (b.gapStart idx, b.gapStop idx) p.size =
    err .arithmeticOverflow) : b.insertBefore blockSize idx p = err .arithmeticOverflow := by
  rw [insertBefore, hn]
  simp only [Nat.min_eq_right hidx, hwf.gapAt_eq hn hidx, Res.ok_bind, hblocks]
  rfl

end Insert

/-! ## The search -/

section Search

variable {b : BuilderTable} {blockSize : Nat} {p : NewPartition}

theorem addFrom_skip {fuel idx j : Nat} (hidx : idx ≤ j)
    (herr : ∀ i, idx ≤ i → i < j → (b.insertBefore blockSize i p).IsErr) :
    b.addFrom blockSize p (fuel + (j - idx)) idx = b.addFrom blockSize p fuel j := by
  induction h : j - idx generalizing idx with
  | zero =>
    obtain rfl : idx = j := by omega
    rfl
  | succ d ih =>
    obtain ⟨e, he⟩ := (herr idx (Nat.le_refl _) (by omega)).exists_err
    rw [← Nat.add_assoc, addFrom, he]
    exact ih (by omega) (fun i hi => herr i (by omega)) (by omega)

theorem addFrom_of_first {n idx j : Nat} (hidx : idx ≤ j) (hj : j ≤ n)
    (herr : ∀ i, idx ≤ i → i < j → (b.insertBefore blockSize i p).IsErr)
    (hno : ¬(b.insertBefore blockSize j p).IsErr) :
    b.addFrom blockSize p (n + 1 - idx) idx = b.insertBefore blockSize j p := by
  have hfuel : n + 1 - idx = n - j + 1 + (j - idx) := by omega
  rw [hfuel, addFrom_skip hidx herr, addFrom]
  cases h : b.insertBefore blockSize j p with
  | ok b' => rfl
  | error e =>
    cases e with
    | err e => exact absurd (h ▸ trivial) hno
    | panic => rfl
    | hang => rfl

theorem addFrom_of_all {n idx : Nat} (hidx : idx ≤ n + 1)
    (herr : ∀ i, idx ≤ i → i ≤ n → (b.insertBefore blockSize i p).IsErr) :
    b.addFrom blockSize p (n + 1 - idx) idx = err .outOfResources := by
  have hskip : b.addFrom blockSize p (0 + (n + 1 - idx)) idx = b.addFrom blockSize p 0 (n + 1) :=
    addFrom_skip hidx fun i hi hlt => herr i hi (Nat.le_of_lt_succ hlt)
  rwa [Nat.zero_add] at hskip

end Search

/-! ## Behind all partitions -/

def partsEnd (b : BuilderTable) : Nat :=
  b.parts.foldl (fun m e => max m (e.last.toNat + 1)) b.header.first.toNat

theorem foldl_max_le_iff (l : List GptEntry) (m x : Nat) :
    l.foldl (fun m e => max m (e.last.toNat + 1)) m ≤ x ↔ m ≤ x ∧ ∀ e ∈ l, e.last.toNat + 1 ≤ x := by
  induction l generalizing m with
  | nil => simp
  | cons e l ih =>
    rw [List.foldl_cons, ih, Nat.max_le, List.forall_mem_cons, and_assoc]

theorem WellFormed.partsEnd_eq_iff (hwf : b.WellFormed) :
    b.partsEnd = b.gapStart b.parts.length ↔ ∀ e ∈ b.parts, e.last.toNat + 1 ≤ b.gapStart b.parts.length := by
  have hle := foldl_max_le_iff b.parts b.header.first.toNat
  have hself := (hle b.partsEnd).1 (Nat.le_refl _)
  have hbounds : b.header.first.toNat ≤ b.gapStart b.parts.length ∧ b.gapStart b.parts.length ≤ b.partsEnd := by
    cases hlen : b.parts.length with
    | zero => exact ⟨Nat.le_refl _, hself.1⟩
    | succ j =>
      have hj : j < b.parts.length := by omega
      have hinside := hwf.inside _ (List.getElem_mem hj)
      have hend := hself.2 _ (List.getElem_mem hj)
      simp only [gapStart, List.getElem?_eq_getElem hj]
      omega
  constructor
  · intro heq
    exact ((hle _).1 (Nat.le_of_eq heq)).2
  · intro hall
    exact Nat.le_antisymm ((hle _).2 ⟨hbounds.1, hall⟩) hbounds.2

theorem first_of_placed {idx first first' blocks blocks' : Nat} {slot slot' : GptEntry}
    (hfirst : first < 2 ^ 64) (hfirst' : first' < 2 ^ 64)
    (h : b.placed n idx p first blocks slot = b.placed n idx p first' blocks' slot') : first = first' := by
  have hentries := congrArg BuilderTable.entries h
  simp only [placed, List.append_assoc] at hentries
  have hentry := (List.cons.inj (List.append_cancel_left hentries)).1
  have hnum := congrArg (fun e : GptEntry => e.first.toNat) hentry
  simp only [newEntry, UInt64.toNat_ofNat'] at hnum
  rwa [Nat.mod_eq_of_lt hfirst, Nat.mod_eq_of_lt hfirst'] at hnum

/-! ## When the search finds the first gap -/

def Searchable (blockSize : Nat) (p : NewPartition) (b : BuilderTable) : Prop :=
  match nullPos b.entries, p.size with
  | none, _ => True
  | some n, some v =>
    if v + blockSize < 2 ^ 64 then ∀ idx ≤ n, b.Buried idx → ∃ i < idx, b.Fits i (blocksOf blockSize v)
    else ∀ idx ≤ n, ¬b.Fits idx (blocksOf blockSize v)
  | some n, none => ∀ e ∈ b.parts, e.last.toNat + 1 ≤ b.gapStart n

section Add

variable {b : BuilderTable} {blockSize : Nat} {p : NewPartition}

theorem add_of_full (hn : nullPos b.entries = none) : b.add blockSize p = err .outOfResources := by
  have hall : ∀ i, (b.insertBefore blockSize i p).IsErr := by
    intro i
    rw [insertBefore, hn]
    trivial
  exact addFrom_of_all (by split <;> omega) fun i _ _ => hall i

variable (hwf : b.WellFormed) {n : Nat} (hn : nullPos b.entries = some n)

include hwf hn

theorem add_some {v : Nat} (hsize : p.size = some v) : b.add blockSize p = b.addFrom blockSize p (n + 1 - 0) 0 := by
  rw [add, hwf.count, ← (nullPos_eq_some hn).1, hsize]
  rfl

variable {v k : Nat} (hsize : p.size = some v)
  (hblocks : ∀ gap, blocksFor blockSize gap p.size = .ok k)

include hblocks

variable {idx : Nat}

theorem insertBefore_fits (hidx : idx ≤ n) (hfits : b.Fits idx k) : ∃ slot, b.entries[n]? = some slot ∧
      b.insertBefore blockSize idx p = .ok (b.placed n idx p (b.gapStart idx) k slot) := by
  have hslot := List.getElem?_eq_getElem (nullPos_eq_some hn).2
  have hle : b.gapStart idx + k ≤ b.gapStop idx := hfits
  refine ⟨_, hslot, ?_⟩
  rw [insertBefore_of_blocks hwf hn hidx (hblocks _), if_neg (by omega), if_pos hle, hslot]

theorem insertBefore_isErr (hidx : idx ≤ n) (hfits : ¬b.Fits idx k) (hburied : ¬b.Buried idx) :
    (b.insertBefore blockSize idx p).IsErr := by
  have hparts : idx ≤ b.parts.length := (nullPos_eq_some hn).1 ▸ hidx
  have hlt : ¬b.gapStart idx + k ≤ b.gapStop idx := hfits
  rw [insertBefore_of_blocks hwf hn hidx (hblocks _), if_neg fun h => hburied ((hwf.gapStop_lt_iff hparts).1 h),
    if_neg hlt]
  trivial

theorem insertBefore_buried (hidx : idx ≤ n) (hburied : b.Buried idx) : b.insertBefore blockSize idx p = panic := by
  have hparts : idx ≤ b.parts.length := (nullPos_eq_some hn).1 ▸ hidx
  rw [insertBefore_of_blocks hwf hn hidx (hblocks _), if_pos ((hwf.gapStop_lt_iff hparts).2 hburied)]

include hsize

theorem add_fits (hidx : idx ≤ n) (hfits : b.Fits idx k) (hleast : ∀ i < idx, ¬b.Fits i k)
    (hclear : ∀ i < idx, ¬b.Buried i) :
    ∃ slot, b.entries[n]? = some slot ∧ b.add blockSize p = .ok (b.placed n idx p (b.gapStart idx) k slot) := by
  obtain ⟨slot, hslot, hinsert⟩ := insertBefore_fits hwf hn hblocks hidx hfits
  refine ⟨slot, hslot, ?_⟩
  rw [add_some hwf hn hsize, ← hinsert]
  refine addFrom_of_first (Nat.zero_le _) hidx (fun i _ hi => ?_) (by rw [hinsert]; exact id)
  exact insertBefore_isErr hwf hn hblocks (by omega) (hleast i hi) (hclear i hi)

theorem add_buried (hidx : idx ≤ n) (hburied : b.Buried idx) (hleast : ∀ i < idx, ¬b.Fits i k)
    (hclear : ∀ i < idx, ¬b.Buried i) : b.add blockSize p = panic := by
  have hinsert := insertBefore_buried hwf hn hblocks hidx hburied
  rw [add_some hwf hn hsize, ← hinsert]
  refine addFrom_of_first (Nat.zero_le _) hidx (fun i _ hi => ?_) (by rw [hinsert]; exact id)
  exact insertBefore_isErr hwf hn hblocks (by omega) (hleast i hi) (hclear i hi)

theorem add_none (hno : ∀ idx ≤ n, ¬b.Fits idx k) (hclear : ∀ idx ≤ n, ¬b.Buried idx) :
    b.add blockSize p = err .outOfResources := by
  rw [add_some hwf hn hsize]
  exact addFrom_of_all (Nat.zero_le _) fun i _ hi => insertBefore_isErr hwf hn hblocks hi (hno i hi) (hclear i hi)

end Add

theorem add_rest (hwf : b.WellFormed) (hn : nullPos b.entries = some n) (hsize : p.size = none) :
    ∃ slot, b.entries[n]? = some slot ∧ b.add blockSize p =
      .ok (b.placed n n p (b.gapStart n) (b.header.last.toNat + 1 - b.gapStart n) slot) := by
  obtain ⟨hlen, hlt⟩ := nullPos_eq_some hn
  have hstop : b.gapStop n = b.header.last.toNat + 1 := by
    rw [gapStop, hlen, List.getElem?_eq_none (Nat.le_refl _)]
  have hle : b.gapStart n ≤ b.header.last.toNat + 1 := hwf.gapStart_lt (Nat.le_of_eq hlen)
  have hblocks : blocksFor blockSize (b.gapStart n, b.gapStop n) p.size =
      .ok (b.header.last.toNat + 1 - b.gapStart n) := by
    rw [hsize, blocksFor, hstop, subU64, if_pos hle]
  have hslot := List.getElem?_eq_getElem hlt
  refine ⟨_, hslot, ?_⟩
  have hinsert := insertBefore_of_blocks hwf hn (Nat.le_refl n) hblocks
  rw [hstop, if_neg (by omega), if_pos (by omega), hslot] at hinsert
  rw [add, hwf.count, ← hlen, hsize]
  have hone : n + 1 - n = 1 := by omega
  simp only [Option.isSome_none, Bool.false_eq_true, if_false, hone]
  rw [addFrom, hinsert]

end BuilderTable

namespace Session

open BuilderTable

def AddsAt (s : Session) (p : NewPartition) (n idx first blocks : Nat) : Prop :=
  ∃ slot, s.builderTable.entries[n]? = some slot ∧
    s.builderTable.add s.disk.io.info.blockSize p = .ok (s.builderTable.placed n idx p first blocks slot) ∧
    builderAdd p s = setBuilderTable (s.builderTable.placed n idx p first blocks slot) s

def AddFails (s : Session) (p : NewPartition) : Prop := ∃ e, builderAdd p s = (err e, s)

def AddsFirstFit (s : Session) (p : NewPartition) : Prop :=
  match nullPos s.builderTable.entries, p.size with
  | none, _ => s.AddFails p
  | some n, some v =>
    (∀ idx ≤ n, s.builderTable.Fits idx (blocksOf s.disk.io.info.blockSize v) →
      (∀ i < idx, ¬s.builderTable.Fits i (blocksOf s.disk.io.info.blockSize v)) →
      s.AddsAt p n idx (s.builderTable.gapStart idx) (blocksOf s.disk.io.info.blockSize v)) ∧
    ((∀ idx ≤ n, ¬s.builderTable.Fits idx (blocksOf s.disk.io.info.blockSize v)) → s.AddFails p)
  | some n, none =>
    s.AddsAt p n n s.builderTable.partsEnd (s.builderTable.header.last.toNat + 1 - s.builderTable.partsEnd)

variable {s : Session} {p : NewPartition}

theorem builderAdd_of_ok {b : BuilderTable} (h : s.builderTable.add s.disk.io.info.blockSize p = .ok b) :
    builderAdd p s = setBuilderTable b s := by
  unfold builderAdd
  rw [bind_run_ok (show Exec.get s = (.ok s, s) from rfl)]
  rw [h]
  rfl

variable {e : Stop Error} {n v k : Nat}

theorem builderAdd_of_error (h : s.builderTable.add s.disk.io.info.blockSize p = .error e) :
    builderAdd p s = (.error e, s) := by
  unfold builderAdd
  rw [bind_run_ok (show Exec.get s = (.ok s, s) from rfl)]
  rw [h]
  rfl

theorem addFails_of_err {e : Error} (h : s.builderTable.add s.disk.io.info.blockSize p = err e) : s.AddFails p :=
  ⟨e, builderAdd_of_error h⟩

theorem not_addFails_of_panic (h : s.builderTable.add s.disk.io.info.blockSize p = panic) : ¬s.AddFails p := by
  rintro ⟨e, he⟩
  rw [builderAdd_of_error h] at he
  cases he

theorem not_addsAt_of_error (h : s.builderTable.add s.disk.io.info.blockSize p = .error e)
    (n idx first blocks : Nat) : ¬s.AddsAt p n idx first blocks := by
  rintro ⟨slot, -, hadd, -⟩
  rw [h] at hadd
  cases hadd

theorem addsFirstFit_of_blocks (hwf : s.builderTable.WellFormed)
    (hn : nullPos s.builderTable.entries = some n) (hsize : p.size = some v)
    (hblocks : ∀ gap, blocksFor s.disk.io.info.blockSize gap p.size = .ok k) :
    ((∀ idx ≤ n, s.builderTable.Fits idx k → (∀ i < idx, ¬s.builderTable.Fits i k) →
        s.AddsAt p n idx (s.builderTable.gapStart idx) k) ∧
      ((∀ idx ≤ n, ¬s.builderTable.Fits idx k) → s.AddFails p)) ↔
    ∀ idx ≤ n, s.builderTable.Buried idx → ∃ i < idx, s.builderTable.Fits i k := by
  classical
  constructor
  · rintro ⟨hfit, hfail⟩ idx hidx hburied
    by_contra hno
    push Not at hno
    -- the search stops at the first buried partition
    have hex : ∃ i, i ≤ n ∧ s.builderTable.Buried i := ⟨idx, hidx, hburied⟩
    obtain ⟨hj, hjburied⟩ := Nat.find_spec hex
    have hjle : Nat.find hex ≤ idx := Nat.find_min' hex ⟨hidx, hburied⟩
    have hpanic := add_buried hwf hn hsize hblocks hj hjburied (fun i hi => hno i (by omega))
      fun i hi hbur => Nat.find_min hex hi ⟨by omega, hbur⟩
    by_cases hsome : ∃ i, i ≤ n ∧ s.builderTable.Fits i k
    · obtain ⟨hi, hifits⟩ := Nat.find_spec hsome
      exact not_addsAt_of_error hpanic _ _ _ _ (hfit _ hi hifits fun i hlt hf =>
        Nat.find_min hsome hlt ⟨by omega, hf⟩)
    · push Not at hsome
      exact not_addFails_of_panic hpanic (hfail hsome)
  · intro hcond
    refine ⟨?_, ?_⟩
    · intro idx hidx hfits hleast
      have hclear : ∀ i < idx, ¬s.builderTable.Buried i := by
        intro i hi hburied
        obtain ⟨j, hj, hjfits⟩ := hcond i (by omega) hburied
        exact hleast j (by omega) hjfits
      obtain ⟨slot, hslot, hadd⟩ := add_fits hwf hn hsize hblocks hidx hfits hleast hclear
      exact ⟨slot, hslot, hadd, builderAdd_of_ok hadd⟩
    · intro hno
      refine addFails_of_err (add_none hwf hn hsize hblocks hno ?_)
      intro idx hidx hburied
      obtain ⟨i, hi, hfits⟩ := hcond idx hidx hburied
      exact hno i (by omega) hfits

theorem addsFirstFit_of_overflow (hwf : s.builderTable.WellFormed)
    (hn : nullPos s.builderTable.entries = some n) (hsize : p.size = some v)
    (hblocks : ∀ gap, blocksFor s.disk.io.info.blockSize gap p.size = err .arithmeticOverflow) :
    ((∀ idx ≤ n, s.builderTable.Fits idx k → (∀ i < idx, ¬s.builderTable.Fits i k) →
        s.AddsAt p n idx (s.builderTable.gapStart idx) k) ∧
      ((∀ idx ≤ n, ¬s.builderTable.Fits idx k) → s.AddFails p)) ↔
    ∀ idx ≤ n, ¬s.builderTable.Fits idx k := by
  classical
  have hadd : s.builderTable.add s.disk.io.info.blockSize p = err .outOfResources := by
    rw [add_some hwf hn hsize]
    refine addFrom_of_all (Nat.zero_le _) fun i _ hi => ?_
    rw [insertBefore_of_overflow hwf hn hi (hblocks _)]
    trivial
  constructor
  · rintro ⟨hfit, -⟩ idx hidx hfits
    have hex : ∃ i, i ≤ n ∧ s.builderTable.Fits i k := ⟨idx, hidx, hfits⟩
    obtain ⟨hi, hifits⟩ := Nat.find_spec hex
    exact not_addsAt_of_error hadd _ _ _ _ (hfit _ hi hifits fun i hlt hf => Nat.find_min hex hlt ⟨by omega, hf⟩)
  · intro hno
    exact ⟨fun idx hidx hfits => absurd hfits (hno idx hidx), fun _ => addFails_of_err hadd⟩

theorem addsAt_rest_iff (hwf : s.builderTable.WellFormed) (hn : nullPos s.builderTable.entries = some n)
    (hsize : p.size = none) :
    s.AddsAt p n n s.builderTable.partsEnd (s.builderTable.header.last.toNat + 1 - s.builderTable.partsEnd) ↔
      ∀ e ∈ s.builderTable.parts, e.last.toNat + 1 ≤ s.builderTable.gapStart n := by
  obtain ⟨hlen, -⟩ := nullPos_eq_some hn
  have hiff := hwf.partsEnd_eq_iff
  rw [← hlen] at hiff
  obtain ⟨slot, hslot, hadd⟩ : ∃ slot, s.builderTable.entries[n]? = some slot ∧
      s.builderTable.add s.disk.io.info.blockSize p = .ok (s.builderTable.placed n n p (s.builderTable.gapStart n)
        (s.builderTable.header.last.toNat + 1 - s.builderTable.gapStart n) slot) := add_rest hwf hn hsize
  have hstart : s.builderTable.gapStart n ≤ s.builderTable.header.last.toNat + 1 := hwf.gapStart_lt (Nat.le_of_eq hlen)
  have hlast := hwf.last_lt
  have hend : s.builderTable.partsEnd ≤ s.builderTable.header.last.toNat + 1 :=
    (foldl_max_le_iff _ _ _).2 ⟨hwf.usable, fun e he => Nat.succ_le_succ (hwf.inside e he).2.2⟩
  rw [← hiff]
  constructor
  · rintro ⟨slot', -, hadd', -⟩
    rw [hadd] at hadd'
    exact (first_of_placed (by omega) (by omega) (Except.ok.inj hadd')).symm
  · intro heq
    rw [heq]
    exact ⟨slot, hslot, hadd, builderAdd_of_ok hadd⟩

/-- `add` is exact first-fit on exactly the tables that can be searched. -/
theorem add_first_fit_iff (s : Session) (p : NewPartition) (hpos : 0 < s.disk.io.info.blockSize)
    (hv : ∀ v, p.size = some v → v < 2 ^ 64) (hwf : s.builderTable.WellFormed) :
    s.AddsFirstFit p ↔ s.builderTable.Searchable s.disk.io.info.blockSize p := by
  unfold AddsFirstFit Searchable
  cases hn : nullPos s.builderTable.entries with
  | none => exact iff_of_true (addFails_of_err (add_of_full hn)) trivial
  | some n =>
    cases hsize : p.size with
    | none => exact addsAt_rest_iff hwf hn hsize
    | some v =>
      have hblocks := blocksFor_some hpos s.disk.io.info.blockSize_lt (hv v hsize)
      simp only
      by_cases hsum : v + s.disk.io.info.blockSize < 2 ^ 64
      · rw [if_pos hsum]
        refine addsFirstFit_of_blocks hwf hn hsize fun gap => ?_
        rw [hsize, hblocks, if_pos hsum]
      · rw [if_neg hsum]
        refine addsFirstFit_of_overflow hwf hn hsize fun gap => ?_
        rw [hsize, hblocks, if_neg hsum]

def sampleBuilder (table : List GptEntry) (h : table.length ≤ gptMaxNumEntries) : Session where
  disk := sampleDisk []
  gpt := { sampleGpt table h with secondaryHeader := sampleHeader 299 1 130 170 171 (partitions table) }
  history := []

def fiveBlocks : NewPartition := ⟨"new", Vector.replicate 16 2, Vector.replicate 16 3, 0, some 640⟩

theorem add_first_fit_behind :
    (sampleBuilder [sampleEntry 130 140, sampleEntry 143 150, nullEntry] (by decide)).AddsFirstFit fiveBlocks := by
  refine (add_first_fit_iff _ _ (by decide) ?_ ?_).2 ?_
  · rintro v ⟨⟩
    decide
  · have hparts : (sampleBuilder [sampleEntry 130 140, sampleEntry 143 150, nullEntry] (by decide)).builderTable.parts =
        [sampleEntry 130 140, sampleEntry 143 150] := rfl
    refine ⟨rfl, by decide, by decide, by decide, by decide, ?_, ?_, ?_⟩
    · rw [hparts]
      simp only [List.forall_mem_cons, List.not_mem_nil, false_implies, implies_true, and_true]
      decide
    · rw [hparts]
      simp only [List.pairwise_pair]
      decide
    · rw [hparts]
      simp only [List.pairwise_pair]
      rintro ⟨blk, ⟨-, hhi⟩, hlo, -⟩
      exact absurd (Nat.le_trans hlo hhi) (by decide)
  · rintro (_ | _ | _ | idx) hidx ⟨j, a, e, hj, ha, he, -, hcovers⟩
    · cases hj
    · cases hj
      cases ha
      cases he
      exact absurd hcovers (by decide)
    · cases hj
      cases he
    · exact absurd hidx (by omega)

/-- An empty partition that starts where the one before it starts: the search panics. -/
theorem add_first_fit_overflow :
    (sampleBuilder [sampleEntry 130 140, sampleEntry 130 129, nullEntry] (by decide)).builderTable.WellFormed ∧
    builderAdd fiveBlocks (sampleBuilder [sampleEntry 130 140, sampleEntry 130 129, nullEntry] (by decide)) =
      (panic, sampleBuilder [sampleEntry 130 140, sampleEntry 130 129, nullEntry] (by decide)) := by
  have hparts : (sampleBuilder [sampleEntry 130 140, sampleEntry 130 129, nullEntry] (by decide)).builderTable.parts =
      [sampleEntry 130 140, sampleEntry 130 129] := rfl
  refine ⟨⟨rfl, by decide, by decide, by decide, by decide, ?_, ?_, ?_⟩, rfl⟩
  · rw [hparts]
    simp only [List.forall_mem_cons, List.not_mem_nil, false_implies, implies_true, and_true]
    decide
  · rw [hparts]
    simp only [List.pairwise_pair]
    decide
  · rw [hparts]
    simp only [List.pairwise_pair]
    rintro ⟨blk, -, hlo, hhi⟩
    exact absurd (Nat.le_trans hlo hhi) (by decide)

end Session

end Gbl.Storage
