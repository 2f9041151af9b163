import Gbl.Storage.Gpt.Load

/-!
# What a sync does

`load_and_sync` tries both copies of the GPT, settles on one and, if the other one is missing or different, writes
that one anew.
-/

namespace Gbl.Storage

open Lib Lib.Exec

def HeaderType.other : HeaderType → HeaderType
  | .primary => .secondary
  | .secondary => .primary

theorem HeaderType.forall_of_other {p : HeaderType → Prop} {t : HeaderType} (h : p t)
    (h' : p t.other) (u : HeaderType) : p u := by
  cases t <;> cases u
  · exact h
  · exact h'
  · exact h'
  · exact h

def GptSyncResult.accepted : GptSyncResult → Option HeaderType
  | .bothValid => some .primary
  | .primaryRestored _ => some .secondary
  | .secondaryRestored _ => some .primary
  | .noValidGpt _ _ => none

def GptSyncResult.restoredCopy : GptSyncResult → Option HeaderType
  | .primaryRestored _ => some .primary
  | .secondaryRestored _ => some .secondary
  | _ => none

theorem GptSyncResult.accepted_of_restoredCopy {r : GptSyncResult} {t : HeaderType}
    (h : r.restoredCopy = some t) : r.accepted = some t.other := by
  cases r <;> cases h <;> rfl

def restoredHeader (P : Platform) (info : BlockInfo) (h : GptHeader) : HeaderType → GptHeader
  | .primary => GptHeader.updateCrc P { h with
      current := 1
      backup := UInt64.ofNat (info.numBlocks - 1)
      entries := 2 }
  | .secondary => GptHeader.updateCrc P { h with
      current := UInt64.ofNat (info.numBlocks - 1)
      backup := 1
      entries := UInt64.ofNat
        (((info.numBlocks - 1) * info.blockSize - gptMaxNumEntriesSize) / info.blockSize) }

def restorePos (info : BlockInfo) : HeaderType → Nat
  | .primary => 2 * info.blockSize
  | .secondary => (info.numBlocks - 1) * info.blockSize - gptMaxNumEntriesSize

namespace Gpt

def loadedTable (d : Disk) (g : Gpt) (t : HeaderType) : List GptEntry :=
  diskTable d.io.info d.io.content t ++
    (g.table t).drop (diskHeader d.io.info d.io.content t).entriesCount.toNat

variable {P : Platform} {R : Access → Prop} {d d' : Disk} {g g' : Gpt} {t : HeaderType} {e : Stop Error}
  {d₂ : Disk} {g₂ : Gpt} {primary secondary : Except Error Unit} {res : HeaderType → Except Error Unit}
  {r : Result GptSyncResult}

theorem loadable_iff_withContent (hran : d.Ran R d') (hbuf : SameBuffer g g') :
    Loadable P d' g' t ↔ Loadable P (d.withContent d'.io.content) g t := by
  have hinfo := hran.io.info
  constructor
  · rintro ⟨hvalid, hstart, hheader, hcap, hoff, htable⟩
    rw [hinfo] at hvalid hstart hheader hcap hoff htable
    rw [hbuf.headerAddr, hran.reaches_iff] at hheader
    rw [hbuf.tableAddr, hran.reaches_iff] at htable
    exact ⟨hvalid, hstart, hheader, hbuf.capacity ▸ hcap, hoff, htable⟩
  · rintro ⟨hvalid, hstart, hheader, hcap, hoff, htable⟩
    change d.Reaches _ _ _ at hheader htable
    rw [← hbuf.headerAddr, ← hran.reaches_iff] at hheader
    rw [← hbuf.tableAddr, ← hran.reaches_iff] at htable
    constructor
    all_goals rw [hinfo]
    · exact hvalid
    · exact hstart
    · exact hheader
    · rw [hbuf.capacity]; exact hcap
    · exact hoff
    · exact htable

theorem loadable_iff (hran : d.Ran R d') (hcontent : d'.io.content = d.io.content) (hbuf : SameBuffer g g') :
    Loadable P d' g' t ↔ Loadable P d g t := by
  rw [loadable_iff_withContent hran hbuf, hcontent]
  exact Iff.rfl

theorem refused_iff (hran : d.Ran R d') (hcontent : d'.io.content = d.io.content) (hbuf : SameBuffer g g') :
    Refused P d' g' t ↔ Refused P d g t := by
  have hinfo := hran.io.info
  constructor
  · rintro ⟨hstart, hheader, href⟩
    rw [hinfo] at hstart hheader href
    rw [hcontent, hbuf.capacity, hbuf.tableAddr, hran.reaches_iff] at href
    rw [hbuf.headerAddr, hran.reaches_iff] at hheader
    exact ⟨hstart, hheader, href⟩
  · rintro ⟨hstart, hheader, href⟩
    rw [← hinfo, ← hcontent, ← hbuf.capacity, ← hbuf.tableAddr, ← hran.reaches_iff] at href
    rw [← hbuf.headerAddr, ← hran.reaches_iff, ← hinfo] at hheader
    exact ⟨hinfo ▸ hstart, hheader, href⟩

theorem Refused.not_loadable (h : Refused P d g t) : ¬ Loadable P d g t := by
  intro hl
  rcases h.refused with ⟨e, he⟩ | ⟨-, -, -, -, e, he⟩
  · exact Res.error_ne_ok (he.symm.trans hl.valid.header)
  · exact Res.error_ne_ok (he.symm.trans hl.valid.entries)

/-! ## Both loads -/

structure Tried (P : Platform) (d : Disk) (g : Gpt) (res : HeaderType → Except Error Unit)
    (d' : Disk) (g' : Gpt) : Prop where
  ran : d.Ran (fun a => a.IsRead ∧ a.Proper d.io.info) d'
  content : d'.io.content = d.io.content
  buffer : SameBuffer g g'
  loaded : ∀ t, res t = .ok () → Loadable P d g t ∧
    g'.header t = diskHeader d.io.info d.io.content t ∧ g'.table t = loadedTable d g t
  succeeds : d.io.FaultFree → ∀ t, Loadable P d g t → res t = .ok ()

def outcomes (primary secondary : Except Error Unit) : HeaderType → Except Error Unit
  | .primary => primary
  | .secondary => secondary

theorem attempt_load_wp (P : Platform) (t : HeaderType) (hd : d.scratch.InMemory) :
    wp (Exec.attempt (loadAndValidateGpt P t)) (d, g) fun r p =>
      (∃ v, r = .ok v ∧ LoadPost P t d g (Res.ofExcept v) p.1 p.2) ∨
      (∃ e, r = .error e ∧ (∀ e', e ≠ .err e') ∧ LoadPost P t d g (.error e) p.1 p.2) := by
  refine wp_attempt (load_wp P t hd) ?_ ?_ ?_ ?_
  · rintro ⟨⟩ ⟨d', g'⟩ h
    exact Or.inl ⟨.ok (), rfl, h⟩
  · rintro e ⟨d', g'⟩ h
    exact Or.inl ⟨.error e, rfl, h⟩
  · rintro ⟨d', g'⟩ h
    exact Or.inr ⟨_, rfl, nofun, h⟩
  · rintro ⟨d', g'⟩ h
    exact Or.inr ⟨_, rfl, nofun, h⟩

theorem LoadPost.failed (h : LoadPost P t d g (.error e) d' g') (hff : d.io.FaultFree)
    (he : ∀ e', e ≠ .err e') : ¬ Loadable P d g t ∧ ¬ Refused P d g t := by
  refine ⟨fun hl => Res.error_ne_ok (h.succeeds hff hl), fun hr => ?_⟩
  obtain ⟨e', heq⟩ := h.refused hff hr
  exact he e' (Except.error.inj heq)

theorem tried_of_loadPost {d₁ : Disk} {g₁ : Gpt} (h₁ : LoadPost P .primary d g (Res.ofExcept primary) d₁ g₁)
    (h₂ : LoadPost P .secondary d₁ g₁ (Res.ofExcept secondary) d₂ g₂) :
    Tried P d g (outcomes primary secondary) d₂ g₂ := by
  have hinfo := h₁.ran.io.info
  have hl : ∀ t, Loadable P d₁ g₁ t ↔ Loadable P d g t := fun t =>
    loadable_iff h₁.ran h₁.content h₁.same.toSameBuffer
  have hok : ∀ {v : Except Error Unit}, v = .ok () ↔ Res.ofExcept v = .ok () := by
    intro v
    rcases v with e | ⟨⟩
    · exact iff_of_false nofun nofun
    · exact iff_of_true rfl rfl
  refine ⟨h₁.ran.trans (hinfo ▸ h₂.ran), h₂.content.trans h₁.content,
    h₁.same.toSameBuffer.trans h₂.same.toSameBuffer, fun t ht => ?_, fun hff t ht => ?_⟩
  · cases t with
    | primary =>
      obtain ⟨hload, hheader, htable⟩ := h₁.loaded (hok.mp ht)
      exact ⟨hload, (h₂.same.header .primary nofun).trans hheader, (h₂.same.table .primary nofun).trans htable⟩
    | secondary =>
      obtain ⟨hload, hheader, htable⟩ := h₂.loaded (hok.mp ht)
      rw [hinfo, h₁.content] at hheader htable
      rw [h₁.same.table .secondary nofun] at htable
      exact ⟨(hl _).mp hload, hheader, htable⟩
  · cases t with
    | primary => exact hok.mpr (h₁.succeeds hff ht)
    | secondary => exact hok.mpr (h₂.succeeds (h₁.ran.io.faultFree hff) ((hl _).mpr ht))

/-! ## Writing a copy -/

structure WritePost (t : HeaderType) (d : Disk) (g : Gpt) (done : Prop) (d' : Disk) : Prop where
  ran : d.Ran (fun a => a.Proper d.io.info) d'
  torn : ∃ c, Torn d.io.content (headerPos d.io.info t) (GptHeader.codec.enc (g.header t)) c ∧
    Torn c (restorePos d.io.info t) (GptEntry.codec.encAll (g.table t)) d'.io.content
  stored : done → d'.io.content =
    store (store d.io.content (headerPos d.io.info t) (GptHeader.codec.enc (g.header t)))
      (restorePos d.io.info t) (GptEntry.codec.encAll (g.table t))
  headerReach : done → d.Reaches (g.headerBuf t).addr (headerPos d.io.info t) gptHeaderSize
  tableReach : done →
    d.Reaches (g.tableBuf t).addr (restorePos d.io.info t) (g.capacity * gptEntrySize)

theorem WritePost.of_torn {done : Prop} {c : Content} (hran : d.Ran (fun a => a.Proper d.io.info) d')
    (hno : ¬ done) (hheader : Torn d.io.content (headerPos d.io.info t) (GptHeader.codec.enc (g.header t)) c)
    (htable : Torn c (restorePos d.io.info t) (GptEntry.codec.encAll (g.table t)) d'.io.content) :
    WritePost t d g done d' :=
  ⟨hran, ⟨c, hheader, htable⟩, fun h => absurd h hno, fun h => absurd h hno, fun h => absurd h hno⟩

theorem writeCopy_wp {entriesPos : Result Nat} (res : GptSyncResult) (hd : d.scratch.InMemory)
    (hpos : headerPos d.io.info t < 2 ^ 64)
    (hentries : ∀ e, entriesPos = .ok e → e = restorePos d.io.info t ∧ e < 2 ^ 64) :
    wp (do
      onHeader t (Disk.write (headerPos d.io.info t))
      let e ← Exec.lift entriesPos
      let p ← Exec.get
      onTable t (p.2.capacity * gptEntrySize) (Disk.write e)
      pure res) (d, g) fun r p =>
        p.2 = g ∧ WritePost t d g (∃ v, r = .ok v) p.1 ∧ ∀ v, r = .ok v → v = res := by
  refine wp_bind (onHeader_write_wp hd hpos) ?_ ?_
  rotate_left
  · rintro e ⟨d', g'⟩ ⟨⟨b, hw⟩, rfl⟩
    have htorn := hw.torn
    rw [bytes_headerBuf] at htorn
    exact ⟨rfl, .of_torn hw.ran Res.not_exists_ok htorn (.refl _ _ _), fun _ h => absurd h Res.error_ne_ok⟩
  rintro ⟨⟩ ⟨d₁, g'⟩ ⟨⟨b, hw⟩, rfl⟩
  dsimp only at hw
  obtain ⟨hreach, hstored⟩ := hw.stored rfl
  have htorn := hw.torn
  rw [bytes_headerBuf] at hstored htorn
  rw [len_headerBuf] at hreach
  refine wp_lift_bind (fun e he => ?_) fun e he =>
    ⟨rfl, .of_torn hw.ran Res.not_exists_ok htorn (.refl _ _ _), fun _ h => absurd h Res.error_ne_ok⟩
  obtain ⟨rfl, hlt⟩ := hentries e he
  refine wp_get_bind ?_
  refine wp_bind (onTable_write_wp (hw.ran.inMemory hd) hlt) ?_ ?_
  · rintro ⟨⟩ ⟨d₂, g''⟩ ⟨⟨b', hw'⟩, rfl⟩
    dsimp only at hw'
    obtain ⟨hreach', hstored'⟩ := hw'.stored rfl
    have htorn' := hw'.torn
    rw [bytes_tableBuf] at hstored' htorn'
    rw [len_tableBuf, hw.ran.reaches_iff] at hreach'
    rw [hstored] at hstored'
    exact wp_pure ⟨rfl, ⟨hw.ran.trans (hw.ran.io.info ▸ hw'.ran), ⟨_, htorn, htorn'⟩,
      fun _ => hstored', fun _ => hreach, fun _ => hreach'⟩, fun v hv => by cases hv; rfl⟩
  · rintro e ⟨d₂, g''⟩ ⟨⟨b', hw'⟩, rfl⟩
    have htorn' := hw'.torn
    rw [bytes_tableBuf] at htorn'
    exact ⟨rfl, .of_torn (hw.ran.trans (hw.ran.io.info ▸ hw'.ran)) Res.not_exists_ok htorn htorn',
      fun _ h => absurd h Res.error_ne_ok⟩

/-! ## Restoring a copy -/

structure Cloned (P : Platform) (info : BlockInfo) (t : HeaderType) (g g' : Gpt) : Prop
    extends SameBuffer g g' where
  headerOther : g'.header t.other = g.header t.other
  tableOther : g'.table t.other = g.table t.other
  header : g'.header t = restoredHeader P info (g.header t.other) t
  table : g'.table t = g.table t.other

structure RestorePost (P : Platform) (t : HeaderType) (d : Disk) (g : Gpt) (r : Result GptSyncResult)
    (d' : Disk) (g' : Gpt) : Prop where
  buffer : SameBuffer g g'
  written : d' = d ∧ (∀ v, r ≠ .ok v) ∨
    Cloned P d.io.info t g g' ∧ WritePost t d g' (∃ v, r = .ok v) d' ∧
      headerStart d.io.info t = .ok (headerPos d.io.info t)
  result : ∀ v, r = .ok v → v.restoredCopy = some t

theorem RestorePost.stopped (h : SameBuffer g g') : RestorePost P t d g (.error e) d g' :=
  ⟨h, Or.inl ⟨rfl, fun _ => Res.error_ne_ok⟩, fun _ h => absurd h Res.error_ne_ok⟩

theorem lastBlk_eq {info : BlockInfo} {n : Nat} (h : ((info.numBlocks : SafeNum) - 1).toU64 = .ok n) :
    (info.numBlocks : SafeNum) - 1 = .valid (info.numBlocks - 1) ∧ n = info.numBlocks - 1 := by
  have hv := SafeNum.toU64_eq_ok.mp h
  obtain ⟨a, b, ha, hb, hle, rfl⟩ := SafeNum.sub_eq_valid.mp hv
  rw [SafeNum.ofNat_of_lt info.numBlocks_lt] at ha
  cases ha
  cases hb
  exact ⟨hv, rfl⟩

theorem restorePrimary_wp (P : Platform) (e : Error) (hd : d.scratch.InMemory) :
    wp (restorePrimary P d.io.info e) (d, g) fun r p => RestorePost P .primary d g r p.1 p.2 := by
  unfold restorePrimary
  refine wp_modify_bind (wp_modify_bind ?_)
  refine wp_lift_bind (fun backup hbackup => ?_) fun _ _ => .stopped ⟨rfl, rfl⟩
  obtain ⟨-, rfl⟩ := lastBlk_eq hbackup
  refine wp_modify_bind ?_
  refine wp_mono (writeCopy_wp (t := .primary) _ hd d.io.info.blockSize_lt fun e he => ?_) ?_
  · obtain ⟨hlt, rfl⟩ := (SafeNum.mul_toU64_eq_ok (by decide) d.io.info.blockSize_lt).mp he
    exact ⟨rfl, hlt⟩
  · rintro r ⟨d', g'⟩ ⟨rfl, hw, hres⟩
    refine ⟨⟨rfl, rfl⟩, Or.inr ⟨⟨⟨rfl, rfl⟩, rfl, rfl, rfl, rfl⟩, hw, rfl⟩, fun v hv => ?_⟩
    rw [hres v hv]
    rfl

theorem restoreSecondary_wp (P : Platform) (v : Except Error Unit) (hd : d.scratch.InMemory) :
    wp (restoreSecondary P d.io.info v) (d, g) fun r p =>
      RestorePost P .secondary d g r p.1 p.2 := by
  unfold restoreSecondary
  refine wp_modify_bind ?_
  refine wp_lift_bind (fun current hcurrent => ?_) fun _ _ => .stopped ⟨rfl, rfl⟩
  obtain ⟨hblk, rfl⟩ := lastBlk_eq hcurrent
  refine wp_modify_bind ?_
  refine wp_lift_bind (fun entriesBlk hentriesBlk => ?_) fun _ _ => .stopped ⟨rfl, rfl⟩
  -- all of the position arithmetic has succeeded
  obtain ⟨entriesPos, bs, hentriesPos, hbs, -, rfl⟩ := SafeNum.div_eq_valid.mp (SafeNum.toU64_eq_ok.mp hentriesBlk)
  obtain ⟨pos, sz, hpos, hsz, hle, rfl⟩ := SafeNum.sub_eq_valid.mp hentriesPos
  obtain ⟨blk, bs', hblk', hbs', hlt, rfl⟩ := SafeNum.mul_eq_valid.mp hpos
  rw [hblk] at hblk'
  rw [SafeNum.ofNat_of_lt d.io.info.blockSize_lt] at hbs hbs'
  rw [SafeNum.ofNat_of_lt (by decide)] at hsz
  obtain rfl := SafeNum.valid.inj hblk'
  obtain rfl := SafeNum.valid.inj hbs
  obtain rfl := SafeNum.valid.inj hbs'
  obtain rfl := SafeNum.valid.inj hsz
  refine wp_modify_bind ?_
  rw [hentriesPos, hpos]
  refine wp_lift_ok_bind rfl ?_
  refine wp_mono (writeCopy_wp (t := .secondary) _ hd hlt fun e he => ?_) ?_
  · obtain rfl := Except.ok.inj he
    exact ⟨rfl, Nat.lt_of_le_of_lt (Nat.sub_le _ _) hlt⟩
  · rintro r ⟨d', g'⟩ ⟨rfl, hw, hres⟩
    have hstart : headerStart d.io.info .secondary = .ok (headerPos d.io.info .secondary) := by
      show (((d.io.info.numBlocks : SafeNum) - 1) * d.io.info.blockSize).toU64 = _
      rw [hpos]
      rfl
    refine ⟨⟨rfl, rfl⟩, Or.inr ⟨⟨⟨rfl, rfl⟩, rfl, rfl, rfl, rfl⟩, hw, hstart⟩, fun v hv => ?_⟩
    rw [hres v hv]
    rfl

/-! ## The whole sync -/

structure RestoreDone (P : Platform) (t : HeaderType) (d : Disk) (g : Gpt) (d' : Disk) (g' : Gpt) :
    Prop where
  blockSize : g'.blockSize = some d.io.info.blockSize
  header : g'.header t = restoredHeader P d.io.info (diskHeader d.io.info d.io.content t.other) t
  headerOther : g'.header t.other = diskHeader d.io.info d.io.content t.other
  table : ∀ u, g'.table u = loadedTable d g t.other
  content : d'.io.content =
    store (store d.io.content (headerPos d.io.info t)
      (GptHeader.codec.enc (restoredHeader P d.io.info (diskHeader d.io.info d.io.content t.other) t)))
      (restorePos d.io.info t) (GptEntry.codec.encAll (loadedTable d g t.other))
  start : headerStart d.io.info t = .ok (headerPos d.io.info t)
  headerReach : d.Reaches (g.headerBuf t).addr (headerPos d.io.info t) gptHeaderSize
  tableReach : d.Reaches (g.tableBuf t).addr (restorePos d.io.info t) (g.capacity * gptEntrySize)

inductive SyncOutcome (P : Platform) (d : Disk) (g : Gpt) : Result GptSyncResult → Disk → Gpt → Prop
  /-- It ended before both copies were tried. -/
  | stopped {e : Stop Error} {d' : Disk} {g' : Gpt}
      (failed : d.io.FaultFree → ∃ t, ¬ Loadable P d g t ∧ ¬ Refused P d g t)
      (content : d'.io.content = d.io.content) : SyncOutcome P d g (.error e) d' g'
  /-- Neither copy was loaded. -/
  | noValid {primary secondary : Error} {d' : Disk} {g' : Gpt}
      (failed : d.io.FaultFree → ∀ t, ¬ Loadable P d g t)
      (content : d'.io.content = d.io.content)
      (blockSize : g'.blockSize = some d.io.info.blockSize) :
      SyncOutcome P d g (.ok (.noValidGpt primary secondary)) d' g'
  /-- Both were loaded and agree. -/
  | bothValid {d' : Disk} {g' : Gpt} (load : ∀ t, Loadable P d g t)
      (consistent : isConsistent (diskHeader d.io.info d.io.content .primary)
        (diskHeader d.io.info d.io.content .secondary) = true)
      (reads : d.Ran (fun a => a.IsRead ∧ a.Proper d.io.info) d')
      (content : d'.io.content = d.io.content)
      (blockSize : g'.blockSize = some d.io.info.blockSize)
      (header : ∀ t, g'.header t = diskHeader d.io.info d.io.content t)
      (table : ∀ t, g'.table t = loadedTable d g t) :
      SyncOutcome P d g (.ok .bothValid) d' g'
  /-- The copy `t` was not loaded, or is a secondary copy that differs, and is written anew. -/
  | restored {r : Result GptSyncResult} {d' : Disk} {g' : Gpt} (t : HeaderType)
      (load : Loadable P d g t.other)
      (lost : d.io.FaultFree → Loadable P d g t → t = .secondary ∧
        isConsistent (diskHeader d.io.info d.io.content .primary)
          (diskHeader d.io.info d.io.content .secondary) = false)
      (torn : ∃ c, Torn d.io.content (headerPos d.io.info t) (GptHeader.codec.enc
          (restoredHeader P d.io.info (diskHeader d.io.info d.io.content t.other) t)) c ∧
        Torn c (restorePos d.io.info t) (GptEntry.codec.encAll (loadedTable d g t.other)) d'.io.content)
      (done : ∀ v, r = .ok v → v.restoredCopy = some t ∧ RestoreDone P t d g d' g') :
      SyncOutcome P d g r d' g'

def setBlockSize (g : Gpt) (b : Option Nat) : Gpt := { g with blockSize := b }

@[simp] theorem header_setBlockSize (g : Gpt) (b : Option Nat) (t : HeaderType) :
    (g.setBlockSize b).header t = g.header t := by
  cases t <;> rfl

theorem SyncOutcome.of_error {g'' : Gpt} (h : SyncOutcome P d g (.error e) d' g') :
    SyncOutcome P d g (.error e) d' g'' := by
  cases h with
  | stopped failed content => exact .stopped failed content
  | restored t load lost torn done =>
    exact .restored t load lost torn fun _ hv => absurd hv Res.error_ne_ok

theorem Tried.restored (hT : Tried P d g res d₂ g₂) (hother : res t.other = .ok ())
    (hlost : res t = .ok () → t = .secondary ∧ isConsistent (diskHeader d.io.info d.io.content .primary)
      (diskHeader d.io.info d.io.content .secondary) = false) (hpost : RestorePost P t d₂ g₂ r d' g') :
    d.Ran (fun a => a.Proper d.io.info) d' ∧ SameBuffer g g' ∧
      SyncOutcome P d g r d' (g'.setBlockSize (some d.io.info.blockSize)) := by
  obtain ⟨hload, hheader, htable⟩ := hT.loaded _ hother
  have hinfo := hT.ran.io.info
  have hran := hT.ran.mono fun _ h => h.2
  have hlost' : d.io.FaultFree → Loadable P d g t → t = .secondary ∧ _ := fun hff hl =>
    hlost (hT.succeeds hff t hl)
  rcases hpost.written with ⟨rfl, hno⟩ | ⟨hclone, hw, hstart⟩
  · refine ⟨hran, hT.buffer.trans hpost.buffer, .restored t hload hlost' ?_ fun v hv => ?_⟩
    · rw [hT.content]
      exact ⟨_, .refl _ _ _, .refl _ _ _⟩
    · exact absurd hv (hno v)
  · have htorn := hw.torn
    have hstored := hw.stored
    have hheaderReach := hw.headerReach
    have htableReach := hw.tableReach
    rw [hclone.header, hclone.table, hinfo, hT.content, hheader, htable] at htorn hstored
    rw [hran.reaches_iff, hclone.headerAddr, hT.buffer.headerAddr, hinfo] at hheaderReach
    rw [hran.reaches_iff, hclone.tableAddr, hT.buffer.tableAddr, hclone.capacity, hT.buffer.capacity,
      hinfo] at htableReach
    have hthis : g'.header t = restoredHeader P d.io.info (diskHeader d.io.info d.io.content t.other) t := by
      rw [hclone.header, hinfo, hheader]
    refine ⟨hran.trans (hinfo ▸ hw.ran), hT.buffer.trans hpost.buffer,
      .restored t hload hlost' htorn fun v hv => ⟨hpost.result v hv, rfl, ?_, ?_, fun u => ?_,
        hstored ⟨v, hv⟩, hinfo ▸ hstart, hheaderReach ⟨v, hv⟩, htableReach ⟨v, hv⟩⟩⟩
    · exact (header_setBlockSize _ _ _).trans hthis
    · exact (header_setBlockSize _ _ _).trans (hclone.headerOther.trans hheader)
    have hu : g'.table u = loadedTable d g t.other :=
      HeaderType.forall_of_other (p := fun u => g'.table u = loadedTable d g t.other)
        (hclone.table.trans htable) (hclone.tableOther.trans htable) u
    cases u <;> exact hu

theorem Tried.setBlockSize (h : Tried P d g res d' g') (b : Option Nat) : Tried P d g res d' (g'.setBlockSize b) := by
  refine ⟨h.ran, h.content, ⟨h.buffer.addr, h.buffer.capacity⟩, fun t ht => ?_, h.succeeds⟩
  have hloaded := h.loaded t ht
  cases t <;> exact hloaded

theorem Tried.settled (hT : Tried P d g res d' g')
    (h : SyncOutcome P d g r d' (g'.setBlockSize (some d.io.info.blockSize))) :
    d.Ran (fun a => a.Proper d.io.info) d' ∧ SameBuffer g g' ∧
      SyncOutcome P d g r d' (g'.setBlockSize (some d.io.info.blockSize)) :=
  ⟨hT.ran.mono fun _ h => h.2, hT.buffer, h⟩

theorem syncWith_wp (hd : d.scratch.InMemory) (hT : Tried P d g (outcomes primary secondary) d' g') :
    wp (syncWith P d.io.info primary secondary) (d', g') fun r p =>
      d.Ran (fun a => a.Proper d.io.info) p.1 ∧ SameBuffer g p.2 ∧
        SyncOutcome P d g r p.1 (p.2.setBlockSize (some d.io.info.blockSize)) := by
  have hd' := hT.ran.inMemory hd
  have hinfo := hT.ran.io.info
  unfold syncWith
  refine wp_get_bind ?_
  rw [← hinfo]
  rcases primary with e | ⟨⟩ <;> rcases secondary with e' | ⟨⟩ <;> dsimp only
  · refine wp_pure (hinfo ▸ hT.settled (.noValid (fun hff t hl => ?_) hT.content rfl))
    have hok := hT.succeeds hff t hl
    cases t <;> cases hok
  · refine wp_mono (restorePrimary_wp P e hd') fun r p hpost => ?_
    rw [hinfo]
    exact hT.restored (t := .primary) rfl nofun hpost
  · refine wp_mono (restoreSecondary_wp P (.error e') hd') fun r p hpost => ?_
    rw [hinfo]
    exact hT.restored (t := .secondary) rfl nofun hpost
  · obtain ⟨hload₁, hheader₁, htable₁⟩ := hT.loaded .primary rfl
    obtain ⟨hload₂, hheader₂, htable₂⟩ := hT.loaded .secondary rfl
    change g'.primaryHeader = _ at hheader₁
    change g'.secondaryHeader = _ at hheader₂
    refine wp_ite (fun hc => ?_) fun hc => ?_
    · rw [hheader₁, hheader₂] at hc
      refine wp_pure (hinfo ▸ hT.settled (.bothValid ?_ hc hT.ran hT.content rfl ?_ ?_))
      · rintro (_ | _)
        · exact hload₁
        · exact hload₂
      · rintro (_ | _)
        · exact hheader₁
        · exact hheader₂
      · rintro (_ | _)
        · exact htable₁
        · exact htable₂
    · rw [hheader₁, hheader₂, Bool.not_eq_true] at hc
      refine wp_mono (restoreSecondary_wp P (.ok ()) hd') fun r p hpost => ?_
      rw [hinfo]
      exact hT.restored (t := .secondary) rfl (fun _ => ⟨rfl, hc⟩) hpost

theorem loadAndSync_wp (P : Platform) (hd : d.scratch.InMemory) : wp (loadAndSync P) (d, g) fun r p =>
      d.Ran (fun a => a.Proper d.io.info) p.1 ∧ SameBuffer g p.2 ∧
        SyncOutcome P d g r p.1 p.2 := by
  unfold loadAndSync
  refine wp_get_bind ?_
  refine wp_lift_bind (fun _ hbs => ?_) fun e he => ?_
  rotate_left
  · have hzero : d.io.info.blockSize = 0 := by
      by_contra hne
      rw [ensure, if_pos hne] at he
      cases he
    have hcheck : ∀ h t, checkHeader P d.io.info h t = panic := by
      intro h t
      rw [checkHeader, hzero]
      rfl
    refine ⟨.refl _ _, .refl _, .stopped (fun _ => ⟨.primary, fun hl => ?_, fun hr => ?_⟩) rfl⟩
    · exact Res.error_ne_ok ((hcheck _ _).symm.trans hl.valid.header)
    · rcases hr.refused with ⟨e', he'⟩ | ⟨hok, -⟩
      · cases (hcheck _ _).symm.trans he'
      · exact Res.error_ne_ok ((hcheck _ _).symm.trans hok)
  refine wp_bind (attempt_load_wp P .primary hd) ?_ ?_
  rotate_left
  · rintro e ⟨d₁, g₁⟩ (⟨v, hv, -⟩ | ⟨_, hv, hstop, h₁⟩)
    · exact absurd hv Res.error_ne_ok
    · cases hv
      exact ⟨h₁.ran.mono fun _ h => h.2, h₁.same.toSameBuffer,
        .stopped (fun hff => ⟨_, h₁.failed hff hstop⟩) h₁.content⟩
  rintro primary ⟨d₁, g₁⟩ (⟨v, hv, h₁⟩ | ⟨e, hv, -⟩)
  rotate_left
  · exact absurd hv.symm Res.error_ne_ok
  cases hv
  dsimp only at h₁
  refine wp_bind (attempt_load_wp P .secondary (h₁.ran.inMemory hd)) ?_ ?_
  rotate_left
  · rintro e ⟨d₂, g₂⟩ (⟨v, hv, -⟩ | ⟨_, hv, hstop, h₂⟩)
    · exact absurd hv Res.error_ne_ok
    · cases hv
      refine ⟨(h₁.ran.trans (h₁.ran.io.info ▸ h₂.ran)).mono fun _ h => h.2,
        h₁.same.toSameBuffer.trans h₂.same.toSameBuffer,
        .stopped (fun hff => ⟨.secondary, ?_⟩) (h₂.content.trans h₁.content)⟩
      have hfailed := h₂.failed (h₁.ran.io.faultFree hff) hstop
      rwa [loadable_iff h₁.ran h₁.content h₁.same.toSameBuffer,
        refused_iff h₁.ran h₁.content h₁.same.toSameBuffer] at hfailed
  rintro secondary ⟨d₂, g₂⟩ (⟨v, hv, h₂⟩ | ⟨e, hv, -⟩)
  rotate_left
  · exact absurd hv.symm Res.error_ne_ok
  cases hv
  dsimp only at h₂
  have hT := (tried_of_loadPost h₁ h₂).setBlockSize none
  refine wp_modify_bind ?_
  refine wp_bind (syncWith_wp hd hT) ?_ ?_
  · rintro v ⟨d', g'⟩ ⟨hran, hbuf, hout⟩
    exact wp_modify_bind (wp_pure ⟨hran, ⟨hbuf.addr, hbuf.capacity⟩, hout⟩)
  · rintro e ⟨d', g'⟩ ⟨hran, hbuf, hout⟩
    exact ⟨hran, hbuf, hout.of_error⟩

theorem syncOutcome_of_run (hd : d.scratch.InMemory) (hrun : loadAndSync P (d, g) = (r, d', g')) :
    d.Ran (fun a => a.Proper d.io.info) d' ∧ SameBuffer g g' ∧ SyncOutcome P d g r d' g' := by
  have h := loadAndSync_wp P (g := g) hd
  unfold wp at h
  rwa [hrun] at h

theorem SyncOutcome.accepted {r : GptSyncResult} (h : SyncOutcome P d g (.ok r) d' g') (ht : r.accepted = some t) :
    Loadable P d g t ∧ g'.blockSize = some d.io.info.blockSize ∧ g'.table .primary = loadedTable d g t ∧
      (d.io.FaultFree → (t = .primary ↔ Loadable P d g .primary)) := by
  cases h with
  | noValid => cases ht
  | bothValid load consistent reads content blockSize header table =>
    cases ht
    exact ⟨load _, blockSize, table _, fun _ => iff_of_true rfl (load _)⟩
  | restored u load lost torn done =>
    obtain ⟨hres, hdone⟩ := done r rfl
    obtain rfl : u.other = t := Option.some.inj ((GptSyncResult.accepted_of_restoredCopy hres).symm.trans ht)
    refine ⟨load, hdone.blockSize, hdone.table _, fun hff => ?_⟩
    cases u with
    | primary => exact iff_of_false nofun fun hl => nomatch (lost hff hl).1
    | secondary => exact iff_of_true rfl load

theorem SyncOutcome.noValid_of_refused (h : SyncOutcome P d g r d' g') (hff : d.io.FaultFree)
    (hr : ∀ t, Refused P d g t) : ∃ primary secondary, r = .ok (.noValidGpt primary secondary) := by
  cases h with
  | stopped failed =>
    obtain ⟨t, -, ht⟩ := failed hff
    exact absurd (hr t) ht
  | noValid => exact ⟨_, _, rfl⟩
  | bothValid load => exact absurd (load .primary) (hr .primary).not_loadable
  | restored t load => exact absurd load (hr _).not_loadable

end Gpt

end Gbl.Storage
