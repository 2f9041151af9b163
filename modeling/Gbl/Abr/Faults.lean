import Gbl.Abr.Operations

/-!
# When the metadata cannot be read

`load_metadata` tells three kinds of errors apart, and an error of the storage is one of them: what it takes for a
failed read is `Error::Other`, and what it takes for a record of a later version is `Error::UnsupportedVersion`.
-/

namespace Gbl.Abr

open Lib Lib.Exec AbrData

def RefusesLoad (e : Error) : Prop := (∃ msg, e = .other msg) ∨ e = .unsupportedVersion

theorem loaded_of_refuses {e : Error} (h : RefusesLoad e) : loaded (.error e) = err e := by
  obtain ⟨msg, rfl⟩ | rfl := h
  · rfl
  · rfl

theorem loaded_of_not_refuses {e : Error} (h : ¬ RefusesLoad e) :
    loaded (.error e) = .ok (AbrData.default.normalize, AbrData.null) := by
  unfold loaded
  split
  · next heq => cases heq
  · next msg heq => exact absurd (Or.inl ⟨msg, Except.error.inj heq⟩) h
  · next heq => exact absurd (Or.inr (Except.error.inj heq)) h
  · rfl

variable {s : Ops} {d d' orig : AbrData}

theorem writes_writeAbrMetadata (data : Metadata) (s : Ops) :
    (Ops.writeAbrMetadata data s).2.writes = data :: s.writes := by
  unfold Ops.writeAbrMetadata
  split <;> rfl

theorem writes_save (hne : d' ≠ orig) : (saveMetadataIfChanged d' orig s).2.writes = d'.serialize :: s.writes := by
  rw [saveMetadataIfChanged, if_neg hne, saveMetadata, Ops.backend_write, writes_writeAbrMetadata]

theorem writes_transact {α : Type} {edit : AbrData → Result (AbrData × α)} {a : α}
    (hl : loaded s.record = .ok (d, orig)) (he : edit d = .ok (d', a)) (hne : d' ≠ orig) :
    (transact edit s).2.writes = d'.serialize :: s.writes := by
  have hload := loadMetadata_run s
  rw [hl] at hload
  have hedit : Exec.lift (edit d) (s.called .readAbrMetadata) =
      (.ok (d', a), s.called .readAbrMetadata) := by rw [lift_run, he]
  rw [transact, bind_run_ok hload]
  simp only
  rw [bind_run_ok hedit]
  simp only
  rw [bind_snd_of_const (fun _ _ => rfl), writes_save hne, Ops.writes_called_read]

theorem writes_getBootSlot (hl : loaded s.record = .ok (d, orig)) (hrec : d.isOneShotRecovery = false)
    (hboot : d.bootSlot d.getActiveSlot = .ok d') (hne : d' ≠ orig) :
    (getBootSlot true s).2.writes = d'.serialize :: s.writes := by
  rw [getBootSlot_eq_boot hl hrec hboot, bind_snd_of_const (fun _ _ => rfl), attempt_snd,
    writes_save hne, Ops.writes_called_read]

theorem ne_null_of_edit {op : Op} (he : op.edit AbrData.default.normalize = .ok d') : d' ≠ AbrData.null := by
  rintro rfl
  have hkind := (op.edit_spec (wf_normalize _) he).1.kind.1
  exact absurd hkind (by decide)

namespace Op

theorem writes_of_not_mutates {op : Op} (h : op.mutates = false) : (op.run s).2.writes = s.writes := by
  have hload := loadMetadata_run s
  cases op with
  | getBootSlot update =>
    cases h
    rw [run, ignore_snd]
    obtain ⟨_ | ⟨d, orig⟩, hl⟩ := exists_loaded_eq s.record
    · rw [getBootSlot_run_error hl, Ops.writes_called_read]
    · rw [getBootSlot_run_peek hl, Ops.writes_called_read]
  | markSlotActive slot | markSlotUnbootable slot | markSlotSuccessful slot =>
    obtain rfl : slot = .r := by simpa [mutates] using h
    rfl
  | getSlotLastMarkedActive =>
    rw [run, ignore_snd, Abr.getSlotLastMarkedActive, bind_snd_of_const (fun _ _ => rfl), hload,
      Ops.writes_called_read]
  | getSlotInfo slot =>
    rw [run, ignore_snd, Abr.getSlotInfo, bind_snd_of_const (fun _ _ => by cases slot <;> rfl),
      hload, Ops.writes_called_read]
  | setOneShotRecovery enable | setOneShotBootloader enable | getAndClearOneShotFlag
  | getAndClearOneShotBootloader => cases h

theorem run_mark {slot : SlotIndex} {e : AbrData → Result (AbrData × Unit)} (hr : decide (slot ≠ .r) = true) :
    (if slot = .r then Exec.lift (err .invalidInput) else transact e : Exec Error Ops Unit) = transact e :=
  if_neg (by simpa using hr)

theorem writes_of_load_error {op : Op} {e : Error} (h : op.mutates = true)
    (hl : loaded s.record = err e) : (op.run s).2.writes = s.writes := by
  have htransact : ∀ {α : Type} (edit : AbrData → Result (AbrData × α)), (transact edit s).2.writes = s.writes := by
    intro α edit
    rw [transact_run_unloaded edit hl, Ops.writes_called_read]
  cases op with
  | getBootSlot update => rw [run, ignore_snd, getBootSlot_run_error hl, Ops.writes_called_read]
  | markSlotActive slot => rw [run, Abr.markSlotActive, run_mark h, htransact]
  | markSlotUnbootable slot => rw [run, Abr.markSlotUnbootable, run_mark h, htransact]
  | markSlotSuccessful slot => rw [run, Abr.markSlotSuccessful, run_mark h, htransact]
  | setOneShotRecovery enable | setOneShotBootloader enable => exact htransact _
  | getAndClearOneShotFlag | getAndClearOneShotBootloader => rw [run, ignore_snd]; exact htransact _
  | getSlotLastMarkedActive | getSlotInfo slot => cases h

theorem writes_of_made_up {op : Op} (h : op.mutates = true)
    (hl : loaded s.record = .ok (AbrData.default.normalize, AbrData.null)) :
    (op.run s).2.writes ≠ s.writes := by
  have hgrow : ∀ (data : Metadata) {t : Ops}, t.writes = data :: s.writes → t.writes ≠ s.writes :=
    fun data t ht heq => List.cons_ne_self data s.writes (ht.symm.trans heq)
  have htransact : ∀ {α : Type} {edit : AbrData → Result (AbrData × α)} {d' : AbrData} {a : α},
      op.edit AbrData.default.normalize = .ok d' → edit AbrData.default.normalize = .ok (d', a) →
      (transact edit s).2.writes ≠ s.writes :=
    fun hop he => hgrow _ (writes_transact hl he (ne_null_of_edit hop))
  cases op with
  | getBootSlot update =>
    cases h
    rw [run, ignore_snd]
    exact hgrow _ (writes_getBootSlot hl (by decide) rfl (by decide))
  | markSlotActive slot =>
    rw [run, Abr.markSlotActive, run_mark h]
    cases slot with
    | a => exact htransact rfl rfl
    | b => exact htransact rfl rfl
    | r => cases h
  | markSlotUnbootable slot =>
    rw [run, Abr.markSlotUnbootable, run_mark h]
    cases slot with
    | a => exact htransact rfl rfl
    | b => exact htransact rfl rfl
    | r => cases h
  | markSlotSuccessful slot =>
    rw [run, Abr.markSlotSuccessful, run_mark h]
    cases slot with
    | a => exact htransact rfl rfl
    | b => exact htransact rfl rfl
    | r => cases h
  | setOneShotRecovery enable | setOneShotBootloader enable => exact htransact rfl rfl
  | getAndClearOneShotFlag | getAndClearOneShotBootloader =>
    rw [run, ignore_snd]
    exact htransact rfl rfl
  | getSlotLastMarkedActive | getSlotInfo slot => cases h

end Op

/-- **When a failed read leaves the metadata alone.** If the read of an operation fails, the operation
writes nothing exactly if it is one that would not write anyway, or the error is `Error::Other` or
`Error::UnsupportedVersion`. -/
theorem failed_read_writes_nothing_iff (s : Ops) (f : Fault)
    (hf : s.faults s.calls.length = some f) (op : Op) :
    (op.run s).2.writes = s.writes ↔ op.mutates = false ∨ RefusesLoad f.error := by
  have hrec : s.record = .error f.error := by simp only [Ops.record, hf]
  cases hmut : op.mutates with
  | false => exact iff_of_true (Op.writes_of_not_mutates hmut) (Or.inl rfl)
  | true =>
    by_cases hrefuse : RefusesLoad f.error
    · have hl : loaded s.record = err f.error := by rw [hrec, loaded_of_refuses hrefuse]
      exact iff_of_true (Op.writes_of_load_error hmut hl) (Or.inr hrefuse)
    · have hl := hrec ▸ loaded_of_not_refuses hrefuse
      exact iff_of_false (Op.writes_of_made_up hmut hl) (by simp [hrefuse])

def unreadableOps (error : Error) : Ops :=
  let record := { AbrData.default with slotA := ⟨abrMaxPriority, 0, 1, 0⟩ }
  ⟨record.serialize, fun n => if n = 0 then some ⟨error, record.serialize⟩ else none, []⟩

theorem failed_read_writes_nothing_other :
    ((Op.getBootSlot true).run (unreadableOps (.other none))).2.writes = [] :=
  (failed_read_writes_nothing_iff (unreadableOps (.other none)) _ rfl (.getBootSlot true)).mpr
    (Or.inr (Or.inl ⟨none, rfl⟩))

/-- An error of the block device: booting writes a fresh record over the one in which slot A is marked
successful. -/
theorem failed_read_resets_slots : ∃ (s : Ops) (f : Fault),
    s.faults s.calls.length = some f ∧ f.error = .blockIoError ∧ s.writes = [] ∧
    (parse s.content).map (·.slotA.state) = .ok .successful ∧
    (getBootSlot true s).1 = .ok (.a, false) ∧ (getBootSlot true s).2.writes.length = 1 ∧
    (parse (getBootSlot true s).2.content).map (·.slotA.state) = .ok (.bootable 6) :=
  ⟨unreadableOps .blockIoError, _, rfl, rfl, rfl, by decide +kernel, by decide +kernel,
    by decide +kernel, by decide +kernel⟩

end Gbl.Abr
