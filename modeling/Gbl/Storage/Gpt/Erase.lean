import Gbl.Storage.Gpt.Converge
import Gbl.Storage.Gpt.Update
import Gbl.Storage.Fill
import Gbl.Lib.Regions

/-!
# Erasing a GPT

`erase_gpt` fills four ranges with zeros: for each copy the block that its header names as its own (`current`) and the
entries.
-/

namespace Gbl.Storage

open Lib Lib.Exec

namespace Session

/-! ## Filling -/

structure Filled (s s' : Session) : Prop where
  ran : s.disk.Ran (fun a => a.Proper s.disk.io.info) s'.disk
  buffer : Gpt.SameBuffer s.gpt s'.gpt
  header : ∀ t, s'.gpt.header t = s.gpt.header t

namespace Filled

variable {s s' s'' : Session}

theorem refl (s : Session) : Filled s s := ⟨.refl _ _, .refl _, fun _ => rfl⟩

theorem trans (h : Filled s s') (h' : Filled s' s'') : Filled s s'' :=
  ⟨h.ran.trans (h.ran.io.info ▸ h'.ran), h.buffer.trans h'.buffer, fun t => (h'.header t).trans (h.header t)⟩

end Filled

def fillBuffer (s : Session) : Slice := (s.gpt.tableBuf .primary).toSlice

def CanFill (s : Session) (r : Nat × Nat) : Prop := r.1 < 2 ^ 64 ∧ s.disk.Fillable s.fillBuffer r.1 r.2

variable {s s' : Session}

theorem canFill_iff {R : Access → Prop} (hran : s.disk.Ran R s'.disk) (hbuf : Gpt.SameBuffer s.gpt s'.gpt)
    (r : Nat × Nat) : s'.CanFill r ↔ s.CanFill r := by
  have hlen : (s'.gpt.tableBuf .primary).len = (s.gpt.tableBuf .primary).len := by
    rw [Gpt.len_tableBuf, Gpt.len_tableBuf, hbuf.capacity]
  have hslice : s'.fillBuffer = s.fillBuffer := by
    unfold fillBuffer Buf.toSlice
    rw [hbuf.tableAddr .primary, hlen]
  unfold CanFill Disk.Fillable Disk.CanFill
  rw [hslice, hran.io.info]
  simp only [hran.covers_iff]

theorem Filled.canFill_iff (h : Filled s s') (r : Nat × Nat) : s'.CanFill r ↔ s.CanFill r :=
  Session.canFill_iff h.ran h.buffer r

def zeroed (ranges : List (Nat × Nat)) (c : Content) : Content :=
  storeAll 0 (ranges.map fun r => (r.1, List.replicate r.2 0)) c

structure Zeroes (ranges : List (Nat × Nat)) (s : Session) (r : Result Unit) (s' : Session) : Prop where
  filled : Filled s s'
  canFill : r = .ok () → ∀ q ∈ ranges, s.CanFill q
  content : r = .ok () → s'.disk.io.content = zeroed ranges s.disk.io.content
  returns : s.disk.io.FaultFree → (∀ q ∈ ranges, s.CanFill q) → r = .ok ()

variable {l l' : List (Nat × Nat)}

theorem wp_zeroes_bind {m : Exec Error Session Unit} {f : Unit → Exec Error Session Unit}
    (hm : wp m s (Zeroes l s)) (hf : ∀ s', Filled s s' → wp (f ()) s' (Zeroes l' s')) :
    wp (m >>= f) s (Zeroes (l ++ l') s) := by
  refine wp_bind hm ?_ ?_
  · rintro ⟨⟩ s₁ h₁
    refine wp_mono (hf s₁ h₁.filled) fun r s₂ h₂ => ?_
    constructor
    case filled => exact h₁.filled.trans h₂.filled
    case canFill =>
      intro hr q hq
      rcases List.mem_append.mp hq with hq | hq
      · exact h₁.canFill rfl q hq
      · exact (h₁.filled.canFill_iff q).mp (h₂.canFill hr q hq)
    case content =>
      intro hr
      rw [h₂.content hr, h₁.content rfl, zeroed, zeroed, zeroed, List.map_append, storeAll_append]
    case returns =>
      intro hff hcan
      refine h₂.returns (h₁.filled.ran.io.faultFree hff) fun q hq => ?_
      exact (h₁.filled.canFill_iff q).mpr (hcan q (List.mem_append_right _ hq))
  · intro e s₁ h₁
    refine ⟨h₁.filled, nofun, nofun, fun hff hcan => ?_⟩
    exact h₁.returns hff fun q hq => hcan q (List.mem_append_left _ hq)

theorem wp_mulU64_zeroes {a b n : Nat} {f : Nat → Exec Error Session Unit} (hmem : (a * b, n) ∈ l)
    (hf : a * b < 2 ^ 64 → wp (f (a * b)) s (Zeroes l s)) :
    wp (lift (mulU64 a b) >>= f) s (Zeroes l s) := by
  refine wp_lift_bind (fun pos hpos => ?_) fun e he => ⟨.refl s, nofun, nofun, fun _ hcan => ?_⟩
  · obtain ⟨hlt, rfl⟩ := mulU64_eq_ok.mp hpos
    exact hf hlt
  · exact absurd (he.symm.trans (mulU64_eq_ok.mpr ⟨(hcan _ hmem).1, rfl⟩)) Res.error_ne_ok

theorem fillFromGpt_wp (hd : s.disk.scratch.InMemory) {offset size : Nat} (ho : offset < 2 ^ 64)
    (hs : size < 2 ^ 64) : wp (fillFromGpt offset size 0) s (Zeroes [(offset, size)] s) := by
  have hsub : (s.gpt.tableBuf .primary).sub 0 (s.gpt.capacity * gptEntrySize) = s.gpt.tableBuf .primary := by
    show Buf.mk _ _ = _
    rw [Nat.add_zero, List.drop_zero, List.take_of_length_le (s.gpt.len_tableBuf .primary).le]
  unfold fillFromGpt
  apply wp_get_bind
  unfold onGpt Gpt.onTable
  apply wp_zoom
  apply wp_zoom
  dsimp only
  rw [hsub]
  refine wp_mono (Disk.fill_wp 0 hd (s.gpt.inMemory_tableBuf .primary) ho hs) ?_
  rintro r ⟨d', b'⟩ ⟨-, -, hfill⟩
  constructor
  case filled =>
    exact ⟨hfill.ran, (Gpt.sameBut_setTable s.gpt _ .primary).toSameBuffer, fun t => Gpt.header_setTable _ _ _ _⟩
  case canFill =>
    intro hr q hq
    obtain rfl := List.mem_singleton.mp hq
    exact ⟨ho, (hfill.stored hr).1⟩
  case content =>
    intro hr
    rw [zeroed, List.map_singleton, storeAll_cons, storeAll_nil, Nat.zero_add]
    exact (hfill.stored hr).2
  case returns => exact fun hff hcan => hfill.succeeds hff (hcan _ (List.mem_singleton_self _)).2

def copyRanges (info : BlockInfo) (n : Nat) (h : GptHeader) : List (Nat × Nat) :=
  [(h.current.toNat * info.blockSize, info.blockSize), (h.entriesPos info, n)]

theorem eraseCopy_wp (hd : s.disk.scratch.InMemory) {size : SafeNum} {n : Nat} (hn : n < 2 ^ 64)
    (hsize : size.toU64 = .ok n) (t : HeaderType) :
    wp (eraseCopy size t) s (Zeroes (copyRanges s.disk.io.info n (s.gpt.header t)) s) := by
  unfold eraseCopy
  apply wp_get_bind
  refine wp_mulU64_zeroes (List.mem_cons_self ..) fun hlt => ?_
  refine wp_zeroes_bind (fillFromGpt_wp hd hlt s.disk.io.info.blockSize_lt) fun s₁ h₁ => ?_
  refine wp_mulU64_zeroes (List.mem_singleton_self _) fun hlt' => ?_
  refine wp_lift_ok_bind (unwrap_eq_ok.mpr hsize) ?_
  exact fillFromGpt_wp (h₁.ran.inMemory hd) hlt' hn

def eraseRanges (info : BlockInfo) (header : HeaderType → GptHeader) : List (Nat × Nat) :=
  copyRanges info ((header .primary).entriesCount.toNat * gptEntrySize) (header .primary) ++
    copyRanges info ((header .primary).entriesCount.toNat * gptEntrySize) (header .secondary)

theorem eraseLoaded_wp (hd : s.disk.scratch.InMemory) :
    wp eraseLoaded s (Zeroes (eraseRanges s.disk.io.info s.gpt.header) s) := by
  have hlt := s.gpt.primaryHeader.entriesCount.toNat_lt
  have hn : s.gpt.primaryHeader.entriesCount.toNat * gptEntrySize < 2 ^ 64 := by
    unfold gptEntrySize
    omega
  have hsize : ((s.gpt.primaryHeader.entriesCount.toNat : SafeNum) * gptEntrySize).toU64 = .ok _ :=
    (SafeNum.mul_toU64_eq_ok (by omega) (by decide)).mpr ⟨hn, rfl⟩
  have hcopy := fun (t : HeaderType) (s₁ : Session) (h₁ : Filled s s₁) =>
    h₁.ran.io.info ▸ h₁.header t ▸ eraseCopy_wp (h₁.ran.inMemory hd) hn hsize t
  unfold eraseLoaded
  apply wp_get_bind
  refine wp_zeroes_bind (l := []) ?_ fun s₁ h₁ => ?_
  · -- the cached block size is dropped
    refine wp_modify ⟨⟨.refl _ _, ⟨rfl, rfl⟩, fun t => ?_⟩, nofun, fun _ => rfl, fun _ _ => rfl⟩
    cases t <;> rfl
  · exact wp_zeroes_bind (hcopy .primary s₁ h₁) fun s₂ h₂ => hcopy .secondary s₂ (h₁.trans h₂)

end Session

/-! ## What is left of the copies -/

def ownBlock (info : BlockInfo) : HeaderType → Nat
  | .primary => 1
  | .secondary => info.numBlocks - 1

theorem headerPos_eq_ownBlock (info : BlockInfo) (t : HeaderType) :
    headerPos info t = ownBlock info t * info.blockSize := by
  cases t with
  | primary => exact (Nat.one_mul _).symm
  | secondary => rfl

theorem decAll_zeros (n : Nat) : GptEntry.codec.decAll n (List.replicate (n * gptEntrySize) 0) =
      List.replicate n (GptEntry.codec.dec (List.replicate gptEntrySize 0)) := by
  induction n with
  | zero => rfl
  | succ n ih =>
    have hw : GptEntry.codec.width = gptEntrySize := rfl
    rw [Nat.add_mul, Nat.one_mul, Nat.add_comm (n * _), Codec.decAll, hw, List.take_replicate,
      List.drop_replicate, Nat.min_eq_left (Nat.le_add_right _ _), Nat.add_sub_cancel_left, ih,
      List.replicate_succ]

variable {h : GptHeader} {info : BlockInfo} {h' : GptHeader} {q : Nat × Nat}

theorem checkEntries_zeros (P : Platform) (hcount : h.entriesCount.toNat ≤ gptMaxNumEntries) :
    checkEntries P h (List.replicate (h.entriesCount.toNat * gptEntrySize) 0) =
      ensure (h.entriesCrc = P.crc32 (List.replicate (h.entriesCount.toNat * gptEntrySize) 0))
        (.gptError .incorrectEntriesCrc) := by
  have hnull : (GptEntry.codec.dec (List.replicate gptEntrySize 0)).isNull = true := by decide +kernel
  have heach : checkEach h 1 (List.replicate h.entriesCount.toNat
      (GptEntry.codec.dec (List.replicate gptEntrySize 0))) = .ok () := by
    cases h.entriesCount.toNat with
    | zero => rfl
    | succ n => rw [List.replicate_succ, checkEach, if_pos hnull]
  have hparts : partitions (List.replicate h.entriesCount.toNat
      (GptEntry.codec.dec (List.replicate gptEntrySize 0))) = [] := by
    cases h.entriesCount.toNat with
    | zero => rfl
    | succ n => rw [List.replicate_succ, partitions, List.takeWhile_cons, hnull]; rfl
  unfold checkEntries GptHeader.table
  rw [if_pos hcount, decAll_zeros]
  dsimp only
  rw [List.length_replicate, List.take_replicate, Nat.min_self, heach, hparts]
  by_cases hcrc : h.entriesCrc = P.crc32 (List.replicate (h.entriesCount.toNat * gptEntrySize) 0)
  · simp only [ensure, hcrc, if_true, Nat.le_refl]
    rfl
  · simp only [ensure, hcrc, if_false, if_true, Nat.le_refl]
    rfl

theorem checkHeader_zeros {P : Platform} {t : HeaderType} (hv : h.Valid P info t) :
    checkHeader P info (GptHeader.codec.dec (List.replicate gptHeaderSize 0)) t =
      err (.gptError (.incorrectMagic 0)) := by
  have hmagic : (GptHeader.codec.dec (List.replicate gptHeaderSize 0)).magic = 0 := by decide +kernel
  have hblk := (gptEntriesBlk_eq_ok_iff info.blockSize _).mpr ⟨hv.blockSize_pos, hv.entriesBlk_mul⟩
  have hdisk : ensure ((info.entriesBlk + 1) * 2 + 1 ≤ info.numBlocks) (.gptError .diskTooSmall) = .ok () :=
    ensure_eq_ok.mpr hv.diskSize
  have hne : ¬ (0 : UInt64) = gptMagic := by decide
  unfold checkHeader
  rw [hblk, Res.ok_bind]
  dsimp only
  rw [hdisk, Res.ok_bind, hmagic, ensure, if_neg hne]
  rfl

/-! ## The headers after the sync -/

structure GptHeader.SameTable (h h' : GptHeader) : Prop where
  first : h'.first = h.first
  last : h'.last = h.last
  entriesCount : h'.entriesCount = h.entriesCount
  entriesCrc : h'.entriesCrc = h.entriesCrc

theorem sameTable_of_isConsistent (hc : Gpt.isConsistent h h' = true) : h.SameTable h' := by
  unfold Gpt.isConsistent at hc
  have heq := eq_of_beq hc
  exact ⟨(congrArg GptHeader.first heq).symm, (congrArg GptHeader.last heq).symm,
    (congrArg GptHeader.entriesCount heq).symm, (congrArg GptHeader.entriesCrc heq).symm⟩

theorem sameTable_restoredHeader (P : Platform) (info : BlockInfo) (h : GptHeader) (t : HeaderType) :
    h.SameTable (restoredHeader P info h t) :=
  ⟨restoredHeader_first, restoredHeader_last, restoredHeader_entriesCount, restoredHeader_entriesCrc⟩

theorem GptHeader.SameTable.refl (h : GptHeader) : h.SameTable h := ⟨rfl, rfl, rfl, rfl⟩

theorem GptHeader.SameTable.symm (hs : h.SameTable h') : h'.SameTable h :=
  ⟨hs.first.symm, hs.last.symm, hs.entriesCount.symm, hs.entriesCrc.symm⟩

def syncedHeader (P : Platform) (info : BlockInfo) (c : Content) (r : GptSyncResult) (t : HeaderType) :
    GptHeader :=
  if r.restoredCopy = some t then restoredHeader P info (diskHeader info c t.other) t
  else diskHeader info c t

structure Synced (P : Platform) (d : Disk) (g : Gpt) : Prop where
  load : ∀ t, Gpt.Loadable P d g t
  header : ∀ t, g.header t = diskHeader d.io.info d.io.content t
  same : ∀ t, (g.header .primary).SameTable (g.header t)

namespace Gpt.SyncOutcome

variable {P : Platform} {d d' : Disk} {g g' : Gpt} {r : GptSyncResult}

theorem header_eq (h : SyncOutcome P d g (.ok r) d' g') (hr : ∀ e e', r ≠ .noValidGpt e e') :
    (∀ t, g'.header t = syncedHeader P d.io.info d.io.content r t) ∧
      ∀ t, (g'.header .primary).SameTable (g'.header t) := by
  cases h with
  | noValid => exact absurd rfl (hr _ _)
  | bothValid load consistent reads content blockSize header table =>
    refine ⟨fun t => (header t).trans (if_neg nofun).symm, fun t => ?_⟩
    rw [header, header]
    cases t with
    | primary => exact .refl _
    | secondary => exact sameTable_of_isConsistent consistent
  | restored t load lost torn done =>
    obtain ⟨hres, hdone⟩ := done r rfl
    have hother : r.restoredCopy ≠ some t.other := by
      rw [hres]
      cases t <;> nofun
    have hrestored : (g'.header t.other).SameTable (g'.header t) := by
      rw [hdone.headerOther, hdone.header]
      exact sameTable_restoredHeader _ _ _ _
    refine ⟨?_, fun u => ?_⟩
    · refine HeaderType.forall_of_other (t := t) ?_ ?_
      · rw [hdone.header, syncedHeader, if_pos hres]
      · rw [hdone.headerOther, syncedHeader, if_neg hother]
    · cases t <;> cases u
      · exact .refl _
      · exact hrestored.symm
      · exact .refl _
      · exact hrestored

theorem synced (h : SyncOutcome P d g (.ok r) d' g') (hr : ∀ e e', r ≠ .noValidGpt e e')
    (hran : d.Ran (fun a => a.Proper d.io.info) d') (hbuf : SameBuffer g g') (hff : d.io.FaultFree) :
    Synced P d' g' := by
  have hs := h.settled hr hran hbuf hff
  exact ⟨hs.load, fun t => (hs.header t).trans (by rw [hran.io.info]), (h.header_eq hr).2⟩

end Gpt.SyncOutcome

/-! ## What is left of the copies -/

def HeaderErased (info : BlockInfo) (header : HeaderType → GptHeader) (t : HeaderType) : Prop :=
  ∃ u, (header u).current.toNat = ownBlock info t

theorem Session.zeroed_apply (ranges : List (Nat × Nat)) (c : Content) (i : Nat) :
    Session.zeroed ranges c i = if ∃ r ∈ ranges, r.1 ≤ i ∧ i < r.1 + r.2 then 0 else c i := by
  unfold Session.zeroed
  rw [storeAll_replicate_apply]
  simp only [Nat.zero_add]

theorem Session.mem_eraseRanges {header : HeaderType → GptHeader} :
    q ∈ Session.eraseRanges info header ↔ ∃ t, q = ((header t).current.toNat * info.blockSize, info.blockSize) ∨
      q = ((header t).entriesPos info, (header .primary).entriesCount.toNat * gptEntrySize) := by
  simp only [Session.eraseRanges, Session.copyRanges, List.cons_append, List.nil_append, List.mem_cons,
    List.not_mem_nil, or_false]
  constructor
  · rintro (h | h | h | h)
    · exact ⟨.primary, .inl h⟩
    · exact ⟨.primary, .inr h⟩
    · exact ⟨.secondary, .inl h⟩
    · exact ⟨.secondary, .inr h⟩
  · rintro ⟨_ | _, h | h⟩
    · exact .inl h
    · exact .inr (.inl h)
    · exact .inr (.inr (.inl h))
    · exact .inr (.inr (.inr h))

theorem block_unique {a b bs i : Nat} (ha : a * bs ≤ i ∧ i < a * bs + bs) (hb : b * bs ≤ i ∧ i < b * bs + bs) :
    a = b := by
  rcases Nat.lt_trichotomy a b with h | h | h
  · have hle := Nat.mul_le_mul_right bs h
    rw [Nat.succ_mul] at hle
    omega
  · exact h
  · have hle := Nat.mul_le_mul_right bs h
    rw [Nat.succ_mul] at hle
    omega

namespace GptHeader.Valid

variable {P : Platform} {info : BlockInfo} {t : HeaderType} {h : GptHeader}

theorem entries_between (hv : h.Valid P info t) : 2 * info.blockSize ≤ h.entriesPos info ∧
      h.entriesPos info + gptMaxNumEntriesSize ≤ headerPos info .secondary := by
  have hareas := hv.areas
  have hpos := hareas.headerPos_eq
  have hentries := hv.entries
  cases t with
  | primary =>
    have hclear := hv.entriesPos_clear (t := .secondary)
    refine ⟨Nat.mul_le_mul_right _ hentries.1, ?_⟩
    simp only at hclear
    omega
  | secondary =>
    have hclear := hv.entriesPos_clear (t := .primary)
    have hend : (h.entries.toNat + info.entriesBlk) * info.blockSize ≤ (info.numBlocks - 1) * info.blockSize :=
      Nat.mul_le_mul_right _ (by omega)
    rw [Nat.add_mul, hv.entriesBlk_mul] at hend
    simp only at hclear
    exact ⟨by omega, hend⟩

theorem entries_outside (hv : h.Valid P info t) :
    h.entriesPos info + gptMaxNumEntriesSize ≤ h.first.toNat * info.blockSize ∨
      (h.last.toNat + 1) * info.blockSize ≤ h.entriesPos info := by
  have hentries := hv.entries
  cases t with
  | primary =>
    have hend := Nat.mul_le_mul_right info.blockSize hentries.2
    rw [Nat.add_mul, hv.entriesBlk_mul] at hend
    exact .inl hend
  | secondary => exact .inr (Nat.mul_le_mul_right _ hentries.1)

end GptHeader.Valid

namespace Synced

variable {P : Platform} {d : Disk} {g : Gpt}

theorem valid (hs : Synced P d g) (t : HeaderType) : (g.header t).Valid P d.io.info t := by
  rw [hs.header]
  exact (checkHeader_eq_ok_iff _ _ _ _).mp (hs.load t).valid.header

theorem blockSize_ge (hs : Synced P d g) : gptHeaderSize ≤ d.io.info.blockSize :=
  gptHeaderSize_le_blockSize (hs.valid .primary) (hs.load .secondary).header

theorem tableSize_le (hs : Synced P d g) :
    (g.header .primary).entriesCount.toNat * gptEntrySize ≤ gptMaxNumEntriesSize :=
  (hs.valid .primary).tableSize_le

variable {t : HeaderType} {i : Nat}

theorem zeroed_header (hs : Synced P d g) (hlo : headerPos d.io.info t ≤ i)
    (hhi : i < headerPos d.io.info t + gptHeaderSize) :
    (HeaderErased d.io.info g.header t → Session.zeroed (Session.eraseRanges d.io.info g.header) d.io.content i = 0) ∧
    (¬ HeaderErased d.io.info g.header t →
      Session.zeroed (Session.eraseRanges d.io.info g.header) d.io.content i = d.io.content i) := by
  have hbs := hs.blockSize_ge
  have htable := hs.tableSize_le
  have hareas := (hs.valid .primary).areas
  have hpos := hareas.headerPos_eq
  have husable := hareas.usable
  rw [Session.zeroed_apply]
  refine ⟨fun ⟨u, hu⟩ => ?_, fun hno => ?_⟩
  · refine if_pos ⟨_, Session.mem_eraseRanges.mpr ⟨u, .inl rfl⟩, ?_⟩
    dsimp only
    rw [hu, ← headerPos_eq_ownBlock]
    omega
  · refine if_neg ?_
    rintro ⟨q, hq, hin⟩
    obtain ⟨u, rfl | rfl⟩ := Session.mem_eraseRanges.mp hq
    · refine hno ⟨u, block_unique hin ?_⟩
      rw [← headerPos_eq_ownBlock]
      omega
    · have hbetween := (hs.valid u).entries_between
      dsimp only at hin
      cases t with
      | primary =>
        rw [headerPos_primary] at hlo hhi
        omega
      | secondary => omega

theorem diskHeader_of_headerErased (hs : Synced P d g) (ht : HeaderErased d.io.info g.header t) :
    diskHeader d.io.info (Session.zeroed (Session.eraseRanges d.io.info g.header) d.io.content) t =
      GptHeader.codec.dec (List.replicate gptHeaderSize 0) := by
  unfold diskHeader
  have hslice : slice (Session.zeroed (Session.eraseRanges d.io.info g.header) d.io.content)
      (headerPos d.io.info t) gptHeaderSize = slice (fun _ => 0) (headerPos d.io.info t) gptHeaderSize :=
    slice_congr fun i hlo hhi => (hs.zeroed_header hlo hhi).1 ht
  rw [hslice, slice, List.map_const', List.length_range]

theorem diskHeader_of_not_headerErased (hs : Synced P d g) (ht : ¬ HeaderErased d.io.info g.header t) :
    diskHeader d.io.info (Session.zeroed (Session.eraseRanges d.io.info g.header) d.io.content) t =
      g.header t := by
  rw [hs.header]
  unfold diskHeader
  congr 1
  exact slice_congr fun i hlo hhi => (hs.zeroed_header hlo hhi).2 ht

theorem tableBytes_zeroed (hs : Synced P d g) (t : HeaderType) : (g.header t).tableBytes d.io.info
        (Session.zeroed (Session.eraseRanges d.io.info g.header) d.io.content) =
      List.replicate ((g.header t).entriesCount.toNat * gptEntrySize) 0 := by
  unfold GptHeader.tableBytes
  have hslice : slice (Session.zeroed (Session.eraseRanges d.io.info g.header) d.io.content)
      ((g.header t).entriesPos d.io.info) ((g.header t).entriesCount.toNat * gptEntrySize) =
      slice (fun _ => 0) ((g.header t).entriesPos d.io.info)
        ((g.header t).entriesCount.toNat * gptEntrySize) := by
    refine slice_congr fun i hlo hhi => ?_
    rw [Session.zeroed_apply]
    refine if_pos ⟨_, Session.mem_eraseRanges.mpr ⟨t, .inr rfl⟩, hlo, ?_⟩
    dsimp only
    rw [← (hs.same t).entriesCount]
    exact hhi
  rw [hslice, slice, List.map_const', List.length_range]

theorem zeroed_usable (hs : Synced P d g) (hlo : (g.header .primary).first.toNat * d.io.info.blockSize ≤ i)
    (hhi : i < ((g.header .primary).last.toNat + 1) * d.io.info.blockSize) :
    Session.zeroed (Session.eraseRanges d.io.info g.header) d.io.content i = d.io.content i ↔
      ∀ t, (g.header t).current.toNat * d.io.info.blockSize ≤ i →
        i < (g.header t).current.toNat * d.io.info.blockSize + d.io.info.blockSize →
        d.io.content i = 0 := by
  rw [Session.zeroed_apply]
  split
  · next hin =>
    obtain ⟨q, hq, hlo', hhi'⟩ := hin
    obtain ⟨t, rfl | rfl⟩ := Session.mem_eraseRanges.mp hq
    · exact ⟨fun h _ _ _ => h.symm, fun h => (h t hlo' hhi').symm⟩
    · have hout := (hs.valid t).entries_outside
      have htable := hs.tableSize_le
      rw [(hs.same t).first, (hs.same t).last] at hout
      dsimp only at hlo' hhi'
      omega
  · next hout =>
    refine ⟨fun _ t hlo' hhi' => absurd ?_ hout, fun _ => rfl⟩
    exact ⟨_, Session.mem_eraseRanges.mpr ⟨t, .inl rfl⟩, hlo', hhi'⟩

theorem left_of_copy (hs : Synced P d g) {R : Access → Prop} {d' : Disk} {g' : Gpt} (hran : d.Ran R d')
    (hbuf : Gpt.SameBuffer g g')
    (hcontent : d'.io.content = Session.zeroed (Session.eraseRanges d.io.info g.header) d.io.content)
    (t : HeaderType) :
    (HeaderErased d.io.info g.header t ∨ (g.header t).entriesCrc ≠
      P.crc32 (List.replicate ((g.header t).entriesCount.toNat * gptEntrySize) 0) →
      Gpt.Refused P d' g' t) ∧
    (¬ (HeaderErased d.io.info g.header t ∨ (g.header t).entriesCrc ≠
      P.crc32 (List.replicate ((g.header t).entriesCount.toNat * gptEntrySize) 0)) →
      Gpt.Loadable P d' g' t) := by
  have hload := hs.load t
  have hv := hs.valid t
  have hinfo := hran.io.info
  have hstart : Gpt.headerStart d'.io.info t = .ok (headerPos d'.io.info t) := by
    rw [hinfo]
    exact hload.start
  have hreach : d'.Reaches (g'.headerBuf t).addr (headerPos d'.io.info t) gptHeaderSize := by
    rw [hinfo, hbuf.headerAddr, hran.reaches_iff]
    exact hload.header
  by_cases ht : HeaderErased d.io.info g.header t
  · refine ⟨fun _ => ⟨hstart, hreach, .inl ⟨.gptError (.incorrectMagic 0), ?_⟩⟩,
      fun h => absurd (.inl ht) h⟩
    rw [hinfo, hcontent, hs.diskHeader_of_headerErased ht]
    exact checkHeader_zeros hv
  · have hheader : diskHeader d'.io.info d'.io.content t = g.header t := by
      rw [hinfo, hcontent, hs.diskHeader_of_not_headerErased ht]
    have hcheck : checkHeader P d'.io.info (diskHeader d'.io.info d'.io.content t) t = .ok () := by
      rw [hheader, hinfo]
      exact (checkHeader_eq_ok_iff _ _ _ _).mpr hv
    have hentries : checkEntries P (diskHeader d'.io.info d'.io.content t)
        ((diskHeader d'.io.info d'.io.content t).tableBytes d'.io.info d'.io.content) =
        ensure ((g.header t).entriesCrc = P.crc32 (List.replicate ((g.header t).entriesCount.toNat * gptEntrySize) 0))
          (.gptError .incorrectEntriesCrc) := by
      rw [hheader, hinfo, hcontent, hs.tableBytes_zeroed]
      exact checkEntries_zeros P hv.entriesCount
    have hcap : (diskHeader d'.io.info d'.io.content t).entriesCount.toNat ≤ g'.capacity := by
      rw [hheader, hbuf.capacity, hs.header]
      exact hload.capacity
    have hoff : (diskHeader d'.io.info d'.io.content t).entriesPos d'.io.info < 2 ^ 64 := by
      rw [hheader, hinfo, hs.header]
      exact hload.offset_lt
    have htable : d'.Reaches (g'.tableBuf t).addr ((diskHeader d'.io.info d'.io.content t).entriesPos d'.io.info)
        ((diskHeader d'.io.info d'.io.content t).entriesCount.toNat * gptEntrySize) := by
      rw [hheader, hinfo, hbuf.tableAddr, hran.reaches_iff, hs.header]
      exact hload.table
    refine ⟨fun h => ⟨hstart, hreach, .inr ⟨hcheck, hcap, hoff, htable,
      .gptError .incorrectEntriesCrc, ?_⟩⟩, fun h => ?_⟩
    · rw [hentries, ensure, if_neg (h.resolve_left ht)]
    · have hcrc := not_not.mp fun hne => h (.inr hne)
      refine ⟨⟨hcheck, ?_⟩, hstart, hreach, hcap, hoff, htable⟩
      rw [hentries, ensure, if_pos hcrc]

end Synced

/-! ## The whole operation -/

structure ErasesGpt (P : Platform) (s : Session) (r : GptSyncResult) : Prop where
  returns : (Session.eraseGpt P s).1 = .ok ()
  gone : ∃ e e', (Session.syncGpt P (Session.eraseGpt P s).2).1 = .ok (.noValidGpt e e')
  kept : ∀ i, (syncedHeader P s.disk.io.info s.disk.io.content r .primary).first.toNat *
      s.disk.io.info.blockSize ≤ i →
    i < ((syncedHeader P s.disk.io.info s.disk.io.content r .primary).last.toNat + 1) *
      s.disk.io.info.blockSize →
    (Session.eraseGpt P s).2.disk.io.content i = s.disk.io.content i

structure EraseSafe (P : Platform) (s : Session) (header : HeaderType → GptHeader) : Prop where
  /-- The four ranges can be filled: those at `current` are on the disk, and the buffer is not empty once
  it is aligned. -/
  fill : ∀ q ∈ Session.eraseRanges s.disk.io.info header, s.CanFill q
  /-- A copy loses its header, or at least the checksum of its entries. -/
  gone : ∀ t, HeaderErased s.disk.io.info header t ∨ (header t).entriesCrc ≠
    P.crc32 (List.replicate ((header t).entriesCount.toNat * gptEntrySize) 0)
  /-- Where a `current` is a usable block, that block is empty. -/
  kept : ∀ t i, (header .primary).first.toNat * s.disk.io.info.blockSize ≤ i →
    i < ((header .primary).last.toNat + 1) * s.disk.io.info.blockSize →
    (header t).current.toNat * s.disk.io.info.blockSize ≤ i →
    i < (header t).current.toNat * s.disk.io.info.blockSize + s.disk.io.info.blockSize →
    s.disk.io.content i = 0

namespace Session

variable {P : Platform} {s : Session} {r : GptSyncResult}

theorem syncGpt_outcome (P : Platform) (hd : s.disk.scratch.InMemory) :
    s.disk.Ran (fun a => a.Proper s.disk.io.info) (syncGpt P s).2.disk ∧
      Gpt.SameBuffer s.gpt (syncGpt P s).2.gpt ∧
      Gpt.SyncOutcome P s.disk s.gpt (syncGpt P s).1 (syncGpt P s).2.disk (syncGpt P s).2.gpt :=
  Gpt.loadAndSync_wp P hd

theorem eraseGpt_eq (hsync : (syncGpt P s).1 = .ok r) (hr : ∀ e e', r ≠ .noValidGpt e e') :
    eraseGpt P s = eraseLoaded (syncGpt P s).2 := by
  have hrun : syncGpt P s = (.ok r, (syncGpt P s).2) := Prod.ext hsync rfl
  unfold eraseGpt
  rw [bind_run_ok hrun]
  cases r with
  | noValidGpt e e' => exact absurd rfl (hr e e')
  | bothValid => rfl
  | primaryRestored e => rfl
  | secondaryRestored e => rfl

section Erase

variable (hd : s.disk.scratch.InMemory) (hff : s.disk.io.FaultFree) (hsync : (syncGpt P s).1 = .ok r)
  (hr : ∀ e e', r ≠ .noValidGpt e e')

include hd hff hsync hr

theorem synced_of_syncGpt : Synced P (syncGpt P s).2.disk (syncGpt P s).2.gpt ∧
      (syncGpt P s).2.gpt.header = syncedHeader P s.disk.io.info s.disk.io.content r ∧
      ∀ i, ((syncGpt P s).2.gpt.header .primary).first.toNat * s.disk.io.info.blockSize ≤ i →
        i < (((syncGpt P s).2.gpt.header .primary).last.toNat + 1) * s.disk.io.info.blockSize →
        (syncGpt P s).2.disk.io.content i = s.disk.io.content i := by
  obtain ⟨hran, hbuf, hout⟩ := syncGpt_outcome P hd
  have hkept := fun i => hout.untouched (i := i)
  rw [hsync] at hout
  have hs := hout.synced hr hran hbuf hff
  have hv := hs.valid .primary
  rw [hran.io.info] at hv
  refine ⟨hs, funext (hout.header_eq hr).1, fun i hlo hhi => hkept i (.inr ⟨?_, ?_⟩)⟩
  · exact hv.le_first_pos.trans hlo
  · exact Nat.lt_of_lt_of_le hhi hv.last_pos_le

theorem eraseGpt_spec (header : HeaderType → GptHeader)
    (hheader : header = syncedHeader P s.disk.io.info s.disk.io.content r) :
    ((eraseGpt P s).1 = .ok () ↔ ∀ q ∈ eraseRanges s.disk.io.info header, s.CanFill q) ∧
    ((eraseGpt P s).1 = .ok () → ((∃ e e', (syncGpt P (eraseGpt P s).2).1 = .ok (.noValidGpt e e')) ↔
        ∀ t, HeaderErased s.disk.io.info header t ∨ (header t).entriesCrc ≠
          P.crc32 (List.replicate ((header t).entriesCount.toNat * gptEntrySize) 0)) ∧
      ∀ i, (header .primary).first.toNat * s.disk.io.info.blockSize ≤ i →
        i < ((header .primary).last.toNat + 1) * s.disk.io.info.blockSize →
        ((eraseGpt P s).2.disk.io.content i = s.disk.io.content i ↔
          ∀ t, (header t).current.toNat * s.disk.io.info.blockSize ≤ i →
            i < (header t).current.toNat * s.disk.io.info.blockSize + s.disk.io.info.blockSize →
            s.disk.io.content i = 0)) := by
  obtain ⟨hran, hbuf, -⟩ := syncGpt_outcome P hd
  obtain ⟨hs, hsynced, hkept⟩ := synced_of_syncGpt hd hff hsync hr
  have hzeroes : Zeroes _ _ _ _ := eraseLoaded_wp (hran.inMemory hd)
  have hinfo := hran.io.info
  have hff₁ := hran.io.faultFree hff
  have husable := fun i hlo hhi => hs.zeroed_usable (i := i) hlo hhi
  have hleft := fun hcontent t => hs.left_of_copy hzeroes.filled.ran hzeroes.filled.buffer hcontent t
  -- everything in terms of the disk before the sync
  rw [← eraseGpt_eq hsync hr] at hzeroes hleft
  obtain ⟨hfilled, hcan, hcontent, hreturns⟩ := hzeroes
  rw [← hheader] at hsynced
  rw [hinfo, hsynced] at hcan hcontent hreturns husable hleft
  rw [hsynced] at hkept
  simp only [canFill_iff hran hbuf] at hcan hreturns
  have hff₂ := hfilled.ran.io.faultFree hff₁
  obtain ⟨-, -, hnext⟩ := syncGpt_outcome P (hfilled.ran.inMemory (hran.inMemory hd))
  refine ⟨⟨hcan, hreturns hff₁⟩, fun hok => ?_⟩
  replace hcontent := hcontent hok
  refine ⟨⟨fun hgone t => ?_, fun hgone => ?_⟩, fun i hlo hhi => ?_⟩
  · obtain ⟨e, e', hno⟩ := hgone
    rw [hno] at hnext
    by_contra hsafe
    cases hnext with
    | noValid failed => exact failed hff₂ t ((hleft hcontent t).2 hsafe)
    | restored _ _ _ _ done => exact nomatch (done _ rfl).1
  · exact hnext.noValid_of_refused hff₂ fun t => (hleft hcontent t).1 (hgone t)
  · rw [hcontent, ← hkept i hlo hhi]
    exact husable i hlo hhi

end Erase

end Session

/-- **When `erase_gpt` erases the GPT and only the GPT.** On a device without faults, after a sync that
settled on a copy, it does what it is for if and only if the four ranges can be filled, each copy loses
its header or its checksum, and no `current` names a usable block that is not empty. -/
theorem erase_gpt_iff (P : Platform) (s : Session) (r : GptSyncResult) (hd : s.disk.scratch.InMemory)
    (hff : s.disk.io.FaultFree) (hsync : (Session.syncGpt P s).1 = .ok r)
    (hr : ∀ e e', r ≠ .noValidGpt e e') :
    ErasesGpt P s r ↔ EraseSafe P s (syncedHeader P s.disk.io.info s.disk.io.content r) := by
  obtain ⟨hreturns, hthen⟩ := Session.eraseGpt_spec hd hff hsync hr _ rfl
  constructor
  · intro h
    obtain ⟨hgone, hkept⟩ := hthen h.returns
    refine ⟨hreturns.mp h.returns, hgone.mp h.gone, fun t i hlo hhi => ?_⟩
    exact (hkept i hlo hhi).mp (h.kept i hlo hhi) t
  · intro h
    have hok := hreturns.mpr h.fill
    obtain ⟨hgone, hkept⟩ := hthen hok
    refine ⟨hok, hgone.mpr h.gone, fun i hlo hhi => ?_⟩
    exact (hkept i hlo hhi).mpr fun t => h.kept t i hlo hhi

def eraseSample (current : UInt64) : Session :=
  ⟨sampleDisk ([(128, GptHeader.codec.enc (sampleHeader current 299 130 170 2 [sampleEntry 145 155])),
      (256, GptEntry.codec.encAll [sampleEntry 145 155])] ++ sampleCopy [sampleEntry 145 155] .secondary ++
      [(150 * 128, [7])]),
    sampleGpt [nullEntry] (length_singleton_le nullEntry), []⟩

theorem eraseSample_inMemory (current : UInt64) : (eraseSample current).disk.scratch.InMemory := inMemory_sampleDisk _

theorem eraseSample_faultFree (current : UInt64) : (eraseSample current).disk.io.FaultFree := fun _ => rfl

theorem usable_sampleDisk (writes : List (Nat × List UInt8)) : (sampleDisk writes).Usable := by
  have hinfo : (sampleDisk writes).io.info = sampleInfo := rfl
  have hscratch : (sampleDisk writes).scratch.toSlice = ⟨4096, 128⟩ := by
    show Slice.mk 4096 (List.replicate 128 (0 : UInt8)).length = _
    rw [List.length_replicate]
  refine ⟨⟨_, (splitScratch_eq_ok_iff _ _ _).mpr ⟨?_, rfl⟩⟩, ?_, ?_⟩
  all_goals rw [hinfo]
  · rw [hscratch]
    decide
  · decide
  · decide

theorem eraseSample_canFill (current : UInt64) (hq : q.1 + q.2 ≤ 300 * 128) : (eraseSample current).CanFill q := by
  have hlen : (eraseSample current).fillBuffer.len = 128 := by
    show ((eraseSample current).gpt.tableBuf .primary).len = 128
    rw [Gpt.len_tableBuf]
    rfl
  have haddr : (eraseSample current).fillBuffer.addr = (eraseSample current).gpt.addr + 192 := rfl
  have hgpt : (eraseSample current).gpt.addr = 65536 := rfl
  have halign : (eraseSample current).disk.io.info.alignment = 1 := rfl
  have htotal : (eraseSample current).disk.io.info.total = 300 * 128 := Nat.mul_comm 128 300
  refine ⟨by omega, ((usable_sampleDisk _).fillable_iff ?_ ?_ ?_).mpr (.inr ?_)⟩
  · rw [hlen]
    decide
  · change (eraseSample current).fillBuffer.addr + (eraseSample current).disk.io.info.alignment < _
    rw [haddr, hgpt, halign]
    decide
  · exact hq.trans_eq htotal.symm
  · change (eraseSample current).fillBuffer.len ≠
      gap (eraseSample current).fillBuffer.addr (eraseSample current).disk.io.info.alignment
    rw [hlen, haddr, hgpt, halign]
    decide

theorem erase_gpt_sample : ErasesGpt referencePlatform (eraseSample 1) .bothValid := by
  have hsync : (Session.syncGpt referencePlatform (eraseSample 1)).1 = .ok .bothValid := by decide +kernel
  refine (erase_gpt_iff referencePlatform (eraseSample 1) .bothValid (eraseSample_inMemory 1)
    (eraseSample_faultFree 1) hsync (fun _ _ h => nomatch h)).mpr
      ⟨fun q hq => eraseSample_canFill 1 ?_, fun t => .inl ⟨t, ?_⟩, fun t i hlo hhi => ?_⟩
  · revert q
    decide +kernel
  · cases t <;> decide +kernel
  · have hfirst : (syncedHeader referencePlatform (eraseSample 1).disk.io.info
        (eraseSample 1).disk.io.content .bothValid .primary).first.toNat = 130 := by decide +kernel
    have hlast : (syncedHeader referencePlatform (eraseSample 1).disk.io.info
        (eraseSample 1).disk.io.content .bothValid .primary).last.toNat = 170 := by decide +kernel
    have hcurrent : ∀ t, (syncedHeader referencePlatform (eraseSample 1).disk.io.info
        (eraseSample 1).disk.io.content .bothValid t).current.toNat = ownBlock sampleInfo t := by
      intro t
      cases t <;> decide +kernel
    have hbs : (eraseSample 1).disk.io.info.blockSize = 128 := rfl
    rw [hfirst, hbs] at hlo
    rw [hlast, hbs] at hhi
    rw [hcurrent, hbs]
    cases t with
    | primary =>
      change 1 * 128 ≤ i → i < 1 * 128 + 128 → _
      omega
    | secondary =>
      change 299 * 128 ≤ i → i < 299 * 128 + 128 → _
      omega

/-- The block of a partition is taken for that of the primary header. -/
theorem erase_gpt_loses_data :
    (Session.eraseGpt referencePlatform (eraseSample 150)).1 = .ok () ∧
    (eraseSample 150).disk.io.content (150 * 128) = 7 ∧
    (Session.eraseGpt referencePlatform (eraseSample 150)).2.disk.io.content (150 * 128) ≠ 7 := by
  have hsync : (Session.syncGpt referencePlatform (eraseSample 150)).1 = .ok .bothValid := by decide +kernel
  have hseven : (eraseSample 150).disk.io.content (150 * 128) = 7 := by decide +kernel
  obtain ⟨hreturns, hthen⟩ := Session.eraseGpt_spec (eraseSample_inMemory 150)
    (eraseSample_faultFree 150) hsync (fun _ _ h => nomatch h) _ rfl
  have hok := hreturns.mpr fun q hq => eraseSample_canFill 150 (by revert q; decide +kernel)
  refine ⟨hok, hseven, fun hsame => ?_⟩
  have hzero := ((hthen hok).2 (150 * 128) (by decide +kernel) (by decide +kernel)).mp
    (hsame.trans hseven.symm) .primary (by decide +kernel) (by decide +kernel)
  rw [hseven] at hzero
  cases hzero

end Gbl.Storage
