import Gbl.Storage.Gpt.Builder
import Gbl.Storage.Gpt.Report

/-!
# Runs of operations on a `Gpt`

What can be said of a `Gpt` after any sequence of operations, on whatever disks: `Reachable` are the sessions that a
caller can get to, and the results here are invariants of them.
-/

namespace Gbl.Storage

open Lib Lib.Exec

/-! ## Operations -/

inductive Edit where
  | remove (part : String)
  | add (p : BuilderTable.NewPartition)

inductive Op where
  /-- `Gpt::new`, on this or another buffer. -/
  | new (buffer : Buf) (hmem : buffer.addr + buffer.len < 2 ^ 64)
  /-- `Disk::sync_gpt`. -/
  | sync
  /-- `Disk::update_gpt`. -/
  | update (mbrPrimary : Buf) (resize : Bool)
  /-- `Disk::erase_gpt`. -/
  | erase
  /-- `GptBuilder::new`, some calls on the builder and, if the builder is not dropped, `persist`. -/
  | build (edits : List Edit) (persist : Option Nat)

namespace Session

variable (P : Platform)

def create (buffer : Buf) (hmem : buffer.addr + buffer.len < 2 ^ 64) : Exec Error Session Unit := do
  let g ← Exec.lift (Gpt.new buffer hmem)
  Exec.modify fun s => { s with gpt := g, history := .created :: s.history }

def edit : Edit → Exec Error Session Unit
  | .remove part => do
    let _ ← Exec.attempt (builderRemove part)
    pure ()
  | .add p => do
    let _ ← Exec.attempt (builderAdd p)
    pure ()

def editAll : List Edit → Exec Error Session Unit
  | [] => pure ()
  | e :: es => do
    edit e
    editAll es

def build (edits : List Edit) (persist : Option Nat) : Exec Error Session Unit := do
  let _ ← builderNew P
  editAll edits
  match persist with
  | some zeros => builderPersist P zeros
  | none => pure ()

def run : Op → Exec Error Session Unit
  | .new buffer hmem => create buffer hmem
  | .sync => do
    let _ ← syncGpt P
    pure ()
  | .update mbrPrimary resize => Exec.zoom (fun s => (s, mbrPrimary)) (fun _ q => q.1) (updateGpt P resize)
  | .erase => eraseGpt P
  | .build edits persist => build P edits persist

inductive Reachable : Session → Prop
  | create {disk : Disk} {buffer : Buf} {hmem : buffer.addr + buffer.len < 2 ^ 64} {g : Gpt}
      (h : Gpt.new buffer hmem = .ok g) : Reachable ⟨disk, g, [.created]⟩
  | step {s s' : Session} (disk : Disk) (op : Op) {r : Result Unit} (h : Reachable s)
      (hrun : run P op { s with disk } = (r, s')) (hret : r.Returns) : Reachable s'

/-! ## The flag -/

def lastSync : List Event → Option (Result GptSyncResult)
  | [] => none
  | .synced r :: _ => some r
  | .created :: events => lastSync events

def FlagInv (s : Session) : Prop :=
  ∀ e e', lastSync s.history = some (.ok (.noValidGpt e e')) →
    (s.gpt.blockSize = none ↔ s.history.head? = some .created)

variable {s : Session} {buffer : Buf} {hmem : buffer.addr + buffer.len < 2 ^ 64} {g : Gpt}

theorem FlagInv.congr {s' : Session} (h : FlagInv s) (hflag : s'.gpt.blockSize = s.gpt.blockSize)
    (hhist : s'.history = s.history) : FlagInv s' := by
  unfold FlagInv
  rw [hflag, hhist]
  exact h

theorem blockSize_of_loadAndSync (p : Disk × Gpt) : wp (Gpt.loadAndSync P) p fun r p' =>
      (∃ v, r = .ok v) → p'.2.blockSize = some p.1.io.info.blockSize := by
  have hstop : ∀ (e : Stop Error) (p' : Disk × Gpt), (∃ v, (.error e : Result GptSyncResult) = .ok v) →
        p'.2.blockSize = some p.1.io.info.blockSize :=
    fun _ _ h => absurd h Res.not_exists_ok
  unfold Gpt.loadAndSync
  refine wp_get_bind (wp_lift_bind (fun _ _ => ?_) fun e _ => hstop e p)
  refine wp_bind (R := fun _ _ => True) trivial (fun _ _ _ => ?_) fun e p' _ => hstop e p'
  refine wp_bind (R := fun _ _ => True) trivial (fun _ _ _ => ?_) fun e p' _ => hstop e p'
  refine wp_modify_bind ?_
  refine wp_bind (R := fun _ _ => True) trivial (fun _ _ _ => ?_) fun e p' _ => hstop e p'
  exact wp_modify_bind (wp_pure fun _ => rfl)

theorem syncGpt_flagInv (s : Session) : FlagInv (syncGpt P s).2 := by
  intro e e' hlast
  have hok : (Gpt.loadAndSync P (s.disk, s.gpt)).1 = .ok (.noValidGpt e e') := Option.some.inj hlast
  have hflag := blockSize_of_loadAndSync P (s.disk, s.gpt) ⟨_, hok⟩
  constructor
  · intro hnone
    exact nomatch hflag.symm.trans hnone
  · intro hhead
    exact nomatch Option.some.inj hhead

section Keeps

theorem keeps_setBuilderTable (b : BuilderTable) : Keeps FlagInv (setBuilderTable b) :=
  keeps_modify fun _ h => h.congr rfl rfl

theorem keeps_onHeader (t : HeaderType) (m : Exec Error (Disk × Buf) Unit) :
    Keeps FlagInv (onGpt (Gpt.onHeader t m)) := by
  intro s h
  refine h.congr ?_ rfl
  cases t <;> rfl

theorem keeps_onTable (t : HeaderType) (n : Nat) (m : Exec Error (Disk × Buf) Unit) :
    Keeps FlagInv (onGpt (Gpt.onTable t n m)) := by
  intro s h
  refine h.congr ?_ rfl
  cases t <;> rfl

theorem keeps_syncGpt : Keeps FlagInv (syncGpt P) := fun s _ => syncGpt_flagInv P s

theorem keeps_builderNew : Keeps FlagInv (builderNew P) := by
  unfold builderNew
  refine keeps_bind keeps_get fun s => ?_
  refine keeps_bind (keeps_lift _) fun need => ?_
  refine keeps_bind (keeps_lift _) fun _ => ?_
  refine keeps_bind (keeps_syncGpt P) fun res => ?_
  refine keeps_bind keeps_get fun s => ?_
  refine keeps_bind (keeps_lift _) fun table => ?_
  exact keeps_bind (keeps_setBuilderTable _) fun _ => keeps_pure _

theorem keeps_edit (e : Edit) : Keeps FlagInv (edit e) := by
  cases e with
  | remove part =>
    refine keeps_bind (keeps_attempt ?_) fun _ => keeps_pure _
    refine keeps_bind keeps_get fun s => ?_
    refine keeps_bind (keeps_lift _) fun found => ?_
    cases found with
    | none => exact keeps_pure _
    | some b => exact keeps_bind (keeps_setBuilderTable b) fun _ => keeps_pure _
  | add p =>
    refine keeps_bind (keeps_attempt ?_) fun _ => keeps_pure _
    refine keeps_bind keeps_get fun s => ?_
    exact keeps_bind (keeps_lift _) fun b => keeps_setBuilderTable b

theorem keeps_editAll (es : List Edit) : Keeps FlagInv (editAll es) := by
  induction es with
  | nil => exact keeps_pure _
  | cons e es ih => exact keeps_bind (keeps_edit e) fun _ => ih

theorem keeps_builderPersist (zeros : Nat) : Keeps FlagInv (builderPersist P zeros) := by
  unfold builderPersist
  refine keeps_bind keeps_get fun s => ?_
  refine keeps_bind (keeps_lift _) fun header => ?_
  refine keeps_bind (keeps_setBuilderTable _) fun _ => ?_
  refine keeps_bind (keeps_lift _) fun _ => ?_
  refine keeps_bind (keeps_lift _) fun _ => ?_
  refine keeps_bind (keeps_lift _) fun pos => ?_
  refine keeps_bind (keeps_onHeader _ _) fun _ => ?_
  refine keeps_bind (keeps_lift _) fun pos => ?_
  refine keeps_bind (keeps_onTable _ _ _) fun _ => ?_
  refine keeps_bind (keeps_zoom fun s _ h => h.congr rfl rfl) fun _ => ?_
  exact keeps_bind (keeps_syncGpt P) fun _ => keeps_lift _

theorem keeps_build (edits : List Edit) (persist : Option Nat) : Keeps FlagInv (build P edits persist) := by
  refine keeps_bind (keeps_builderNew P) fun _ => ?_
  refine keeps_bind (keeps_editAll edits) fun _ => ?_
  cases persist with
  | none => exact keeps_pure _
  | some zeros => exact keeps_builderPersist P zeros

theorem keeps_updateGpt (resize : Bool) : Keeps (fun p : Session × Buf => FlagInv p.1) (updateGpt P resize) := by
  unfold updateGpt
  refine keeps_bind keeps_get fun p => ?_
  refine keeps_bind (keeps_lift _) fun need => ?_
  refine keeps_bind (keeps_lift _) fun _ => ?_
  refine keeps_bind (keeps_lift _) fun _ => ?_
  refine keeps_bind (keeps_lift _) fun header => ?_
  refine keeps_bind (keeps_modify fun _ h => h) fun _ => ?_
  refine keeps_bind (keeps_lift _) fun _ => ?_
  refine keeps_bind (keeps_lift _) fun range => ?_
  refine keeps_bind (keeps_lift _) fun _ => ?_
  refine keeps_bind (keeps_when ?_) fun _ => ?_
  · exact keeps_bind (keeps_lift _) fun _ => keeps_modify fun _ h => h
  refine keeps_bind (keeps_zoom fun p _ h => FlagInv.congr h rfl rfl) fun _ => ?_
  refine keeps_bind ?_ fun _ => keeps_lift _
  intro p _
  exact syncGpt_flagInv P p.1

theorem keeps_history_eraseLoaded (events : List Event) : Keeps (fun s => s.history = events) eraseLoaded := by
  have hfill : ∀ offset size val, Keeps (fun s => s.history = events) (fillFromGpt offset size val) := fun _ _ _ =>
    keeps_bind keeps_get fun _ => keeps_zoom fun _ _ h => h
  have hcopy : ∀ size t, Keeps (fun s => s.history = events) (eraseCopy size t) := by
    intro size t
    refine keeps_bind keeps_get fun s => ?_
    refine keeps_bind (keeps_lift _) fun pos => ?_
    refine keeps_bind (hfill _ _ _) fun _ => ?_
    refine keeps_bind (keeps_lift _) fun pos => ?_
    exact keeps_bind (keeps_lift _) fun size => hfill _ _ _
  refine keeps_bind keeps_get fun s => ?_
  refine keeps_bind (keeps_modify fun _ h => h) fun _ => ?_
  exact keeps_bind (hcopy _ _) fun _ => hcopy _ _

theorem keeps_eraseGpt : Keeps FlagInv (eraseGpt P) := by
  intro s _
  have h : wp (eraseGpt P) s fun _ s' => FlagInv s' := by
    unfold eraseGpt
    refine wp_bind (R := fun r s' => FlagInv s' ∧ lastSync s'.history = some r)
      ⟨syncGpt_flagInv P s, rfl⟩ ?_ fun _ _ h => h.1
    rintro res s' ⟨hinv, hlast⟩
    rcases hres : res.res with e | ⟨⟩
    · exact wp_pure hinv
    · -- the flag is cleared, but the last sync has found a valid GPT
      have hhist := keeps_history_eraseLoaded s'.history s' rfl
      intro e e' hno
      change lastSync (eraseLoaded s').2.history = _ at hno
      rw [hhist, hlast] at hno
      cases Except.ok.inj (Option.some.inj hno)
      cases hres
  exact h

end Keeps

theorem blockSize_of_new (h : Gpt.new buffer hmem = .ok g) : g.blockSize = none := by
  unfold Gpt.new at h
  split at h
  · cases h
  · cases h
    rfl

theorem keeps_create (buffer : Buf) (hmem : buffer.addr + buffer.len < 2 ^ 64) :
    Keeps FlagInv (create buffer hmem) := by
  intro s hinv
  have h : wp (create buffer hmem) s fun _ s' => FlagInv s' := by
    unfold create
    refine wp_lift_bind (fun g hg => wp_modify ?_) fun _ _ => hinv
    intro e e' _
    exact iff_of_true (blockSize_of_new hg) rfl
  exact h

theorem keeps_run (op : Op) : Keeps FlagInv (run P op) := by
  cases op with
  | new buffer hmem => exact keeps_create buffer hmem
  | sync => exact keeps_bind (keeps_syncGpt P) fun _ => keeps_pure _
  | update mbrPrimary resize =>
    intro s h
    exact keeps_updateGpt P resize (s, mbrPrimary) h
  | erase => exact keeps_eraseGpt P
  | build edits persist => exact keeps_build P edits persist

theorem Reachable.flagInv (h : Reachable P s) : FlagInv s := by
  induction h with
  | create h =>
    intro e e' hlast
    cases hlast
  | @step s s' disk op _ _ hrun _ ih =>
    have hkeep := keeps_run P op { s with disk } (ih.congr rfl rfl)
    rwa [hrun] at hkeep

theorem run_new (s : Session) (h : Gpt.new buffer hmem = .ok g) :
    run P (.new buffer hmem) s = (.ok (), { s with gpt := g, history := .created :: s.history }) := by
  unfold run create
  dsimp only
  rw [h]
  rfl

theorem Reachable.of_ok (h : Reachable P s) (disk : Disk) (op : Op)
    (hok : (run P op { s with disk }).1 = .ok ()) : Reachable P (run P op { s with disk }).2 := by
  rcases hrun : run P op { s with disk } with ⟨r, s'⟩
  rw [hrun] at hok
  obtain rfl : r = .ok () := hok
  exact h.step disk op hrun trivial

end Session

/-! ## Visibility -/

namespace Gpt

structure Blind (g : Gpt) : Prop where
  entries : g.entries.IsErr
  partitionIter : g.partitionIter.IsErr
  numPartitions : g.numPartitions.IsErr
  getPartition : ∀ idx, (g.getPartition idx).IsErr
  findPartition : ∀ part, (g.findPartition part).IsErr
  checkRange : ∀ part offset size, (g.checkRange part offset size).IsErr

theorem blind_iff (g : Gpt) : g.Blind ↔ g.blockSize = none := by
  rcases hflag : g.blockSize with _ | b
  · have hvalid : g.checkValid = err .invalidState := by rw [checkValid, hflag]
    have hentries : g.entries = err .invalidState := by rw [Gpt.entries, hvalid]; rfl
    have hfind : ∀ part, g.findPartition part = err .invalidState := by
      intro part
      rw [Gpt.findPartition, hvalid]
      rfl
    refine iff_of_true ⟨?_, ?_, ?_, fun idx => ?_, fun part => ?_, fun part offset size => ?_⟩ rfl
    · rw [hentries]; trivial
    · rw [Gpt.partitionIter, hvalid]; trivial
    · rw [Gpt.numPartitions, hentries]; trivial
    · rw [Gpt.getPartition, hvalid]; trivial
    · rw [hfind]; trivial
    · rw [Gpt.checkRange, hfind]; trivial
  · refine iff_of_false (fun hblind => ?_) (by rintro ⟨⟩)
    have hseen := hblind.entries
    rw [(reports_of_blockSize hflag).entries] at hseen
    exact hseen

end Gpt

/-- **When nothing is visible without a valid GPT.** In every session that a caller can get to whose
last sync returned `NoValidGpt`, the accessors of the `Gpt` all return errors if and only if the `Gpt`
was created again since that sync. -/
theorem blind_after_noValidGpt_iff (P : Platform) (s : Session) (e e' : Error)
    (hs : Session.Reachable P s)
    (hlast : Session.lastSync s.history = some (.ok (.noValidGpt e e'))) :
    s.gpt.Blind ↔ s.history.head? = some .created := by
  rw [Gpt.blind_iff]
  exact hs.flagInv P e e' hlast

def zeroBuffer : Buf := ⟨65536, List.replicate 448 0⟩

theorem zeroBuffer_inMemory : zeroBuffer.addr + zeroBuffer.len < 2 ^ 64 := by
  unfold zeroBuffer Buf.len
  rw [List.length_replicate]
  decide

def zeroGpt : Gpt :=
  match Gpt.new zeroBuffer zeroBuffer_inMemory with
  | .ok g => g
  | .error _ => sampleGpt [] length_nil_le

theorem new_zeroBuffer : Gpt.new zeroBuffer zeroBuffer_inMemory = .ok zeroGpt := by
  unfold zeroGpt Gpt.new
  have hlen : ¬ zeroBuffer.len < gptLoadBufferSize := by
    unfold zeroBuffer Buf.len
    rw [List.length_replicate]
    decide
  rw [dif_neg hlen]

def zeroSession : Session := ⟨sampleDisk [], zeroGpt, [.created]⟩

def loadedSession : Session :=
  (Session.run referencePlatform .sync
    { zeroSession with disk := sampleDisk (sampleCopy [sampleEntry 145 155] .primary) }).2

def lostSession : Session :=
  (Session.run referencePlatform .sync { loadedSession with disk := sampleDisk [] }).2

theorem reachable_lostSession : Session.Reachable referencePlatform lostSession := by
  have hzero : Session.Reachable referencePlatform zeroSession := .create new_zeroBuffer
  have hloaded : Session.Reachable referencePlatform loadedSession := by
    unfold loadedSession
    exact hzero.of_ok _ _ _ (by decide +kernel)
  unfold lostSession
  exact hloaded.of_ok _ _ _ (by decide +kernel)

theorem blind_after_new :
    ∃ s, Session.Reachable referencePlatform s ∧
      Session.lastSync s.history =
        some (.ok (.noValidGpt (.gptError (.incorrectMagic 0)) (.gptError (.incorrectMagic 0)))) ∧
      s.gpt.Blind := by
  obtain ⟨s, hs, hlast⟩ : ∃ s, Session.Reachable referencePlatform s ∧
      Session.lastSync s.history =
        some (.ok (.noValidGpt (.gptError (.incorrectMagic 0)) (.gptError (.incorrectMagic 0)))) :=
    ⟨lostSession, reachable_lostSession, by decide +kernel⟩
  have hnew := hs.step s.disk _ (Session.run_new referencePlatform s new_zeroBuffer) trivial
  exact ⟨_, hnew, hlast, (blind_after_noValidGpt_iff referencePlatform _ _ _ hnew hlast).mpr rfl⟩

/-- Neither copy is found on the disk, and the partition of the table that is gone can still be looked
up and addressed. -/
theorem partition_visible_without_gpt :
    Session.Reachable referencePlatform lostSession ∧
    Session.lastSync lostSession.history =
      some (.ok (.noValidGpt (.gptError (.incorrectMagic 0)) (.gptError (.incorrectMagic 0)))) ∧
    lostSession.gpt.entries = .ok [sampleEntry 145 155] ∧
    lostSession.gpt.checkRange "" 0 1280 = .ok (145 * 128) := by
  exact ⟨reachable_lostSession, by decide +kernel⟩

end Gbl.Storage
