import Gbl.Abr.Policy

/-!
# The record in storage

What the operations do to the bytes, on a storage that works: they load the record that the bytes hold, or a fresh one
if they hold none, and leave bytes that hold the record they made of it.
-/

namespace Gbl.Abr

open Lib Lib.Exec

namespace AbrData

variable {c : Metadata} {d d' orig : AbrData}

def Genuine (d : AbrData) : Prop := d.magic = abrMagic ∧ d.versionMajor ≤ abrMajorVersion

theorem SameKind.genuine (h : d.SameKind d') (hd : d.Genuine) : d'.Genuine := ⟨h.1.trans hd.1, h.2.symm ▸ hd.2⟩

theorem take_bytes (d : AbrData) : d.bytes.val.take 28 = bodyCodec.enc d.body :=
  List.take_left' (bodyCodec.length_enc _)

theorem parse_serialize (h : d.Genuine) : parse d.serialize = .ok d.updateCrc := by
  obtain ⟨hm, hv⟩ := h
  have hdec : codec.dec d.serialize = d.updateCrc := codec.dec_enc _
  have hcrc : d.updateCrc.crc32 = Abr.crc32 (d.serialize.val.take 28) := by
    rw [serialize, take_bytes]
    rfl
  have hmag : d.updateCrc.magic = abrMagic := hm
  have hver : ¬ abrMajorVersion < d.updateCrc.versionMajor := by
    show ¬ abrMajorVersion < d.versionMajor
    grind
  simp only [parse, hdec]
  rw [if_neg (not_not.mpr hmag), if_neg (not_not.mpr hcrc), if_neg hver]

theorem parse_eq_ok (h : parse c = .ok d) : codec.dec c = d ∧ d.Genuine ∧ d.crc32 = Abr.crc32 (c.val.take 28) := by
  simp only [parse] at h
  split at h
  · cases h
  · next hm =>
    split at h
    · cases h
    · next hcrc =>
      split at h
      · cases h
      · next hv =>
        cases h
        exact ⟨rfl, ⟨not_not.mp hm, by grind⟩, not_not.mp hcrc⟩

theorem genuine_of_parse (h : parse c = .ok d) : d.Genuine := (parse_eq_ok h).2.1

def Supported (c : Metadata) : Prop := parse c ≠ .error .unsupportedVersion

instance (c : Metadata) : Decidable (Supported c) := inferInstanceAs (Decidable (¬ _))

theorem genuine_default : default.Genuine := ⟨rfl, by decide⟩

variable {r : Except Error AbrData}

theorem loaded_eq_ok (hr : ∀ d, r = .ok d → d.Genuine) (h : loaded r = .ok (d, orig)) :
    d.Genuine ∧ d.WF ∧ (r = .ok orig ∨ orig.magic ≠ abrMagic) := by
  unfold loaded at h
  split at h
  · next v =>
    obtain ⟨rfl, rfl⟩ := Prod.mk.inj (Except.ok.inj h)
    exact ⟨hr v rfl, wf_normalize v, Or.inl rfl⟩
  · cases h
  · cases h
  · cases h
    exact ⟨genuine_default, wf_normalize _, Or.inr (by decide)⟩

theorem exists_loaded (h : Supported c) : ∃ d orig, loaded (parse c) = .ok (d, orig) := by
  unfold Supported at h
  simp only [parse] at h ⊢
  split
  · exact ⟨_, _, rfl⟩
  · split
    · exact ⟨_, _, rfl⟩
    · split
      · next h1 h2 h3 => exact absurd (by rw [if_neg h1, if_neg h2, if_pos h3]) h
      · exact ⟨_, _, rfl⟩

def kept (d orig : AbrData) (c : Metadata) : Metadata := if d = orig then c else d.serialize

theorem parse_kept (hr : ∀ v, r = .ok v → parse c = .ok v) (hl : loaded r = .ok (d, orig)) (hg : d'.Genuine) :
    ∃ crc, parse (kept d' orig c) = .ok { d' with crc32 := crc } := by
  unfold kept
  split
  · next heq =>
    subst heq
    obtain ⟨-, -, hstored | hno⟩ := loaded_eq_ok (fun v hv => genuine_of_parse (hr v hv)) hl
    · exact ⟨d'.crc32, hr _ hstored⟩
    · exact absurd hg.1 hno
  · exact ⟨_, parse_serialize hg⟩

theorem loaded_of_parse (h : parse c = .ok d) (hwf : d.WF) : loaded (parse c) = .ok (d, d) := by
  rw [h, loaded, normalize_of_wf hwf]

end AbrData

open AbrData

/-! ## Running on a storage -/

namespace Ops

def called (call : Call) (s : Ops) : Ops := { s with calls := call :: s.calls }

def stored (data : Metadata) (s : Ops) : Ops := { s.called (.writeAbrMetadata data) with content := data }

def saved (d orig : AbrData) (s : Ops) : Ops := if d = orig then s else s.stored d.serialize

variable {s : Ops}

theorem Working.called (h : s.Working) (call : Call) : (s.called call).Working :=
  fun n hn => h n (Nat.le_of_succ_le hn)

theorem Working.stored (h : s.Working) (data : Metadata) : (s.stored data).Working :=
  fun n hn => h n (Nat.le_of_succ_le hn)

theorem Working.saved (h : s.Working) (d orig : AbrData) : (s.saved d orig).Working := by
  unfold Ops.saved
  split
  · exact h
  · exact h.stored _

@[simp] theorem saved_content (d orig : AbrData) : (s.saved d orig).content = kept d orig s.content := by
  unfold Ops.saved kept
  split <;> rfl

end Ops

variable {s : Ops} {d d' orig : AbrData}

def Ops.record (s : Ops) : Except Error AbrData :=
  match s.faults s.calls.length with
  | none => parse s.content
  | some f => .error f.error

theorem Ops.Working.record (hw : s.Working) : s.record = parse s.content := by
  simp only [Ops.record, hw _ (Nat.le_refl _)]

theorem Ops.parse_of_record {v : AbrData} (h : s.record = .ok v) : parse s.content = .ok v := by
  unfold Ops.record at h
  split at h
  · exact h
  · cases h

theorem attempt_deserialize_run (s : Ops) :
    Exec.attempt deserialize s = (.ok s.record, s.called .readAbrMetadata) := by
  cases hf : s.faults s.calls.length with
  | none =>
    have hread : Ops.readAbrMetadata s = (.ok s.content, s.called .readAbrMetadata) := by
      simp only [Ops.readAbrMetadata, hf]
      rfl
    have hrun : deserialize s = (Res.ofExcept (parse s.content), s.called .readAbrMetadata) := bind_run_ok hread
    simp only [Exec.attempt, hrun, Ops.record, hf]
    cases parse s.content <;> rfl
  | some f =>
    have hread : Ops.readAbrMetadata s = (err f.error, s.called .readAbrMetadata) := by
      simp only [Ops.readAbrMetadata, hf]
      rfl
    have hrun : deserialize s = (err f.error, s.called .readAbrMetadata) := bind_run_error hread
    rw [attempt_run_err hrun]
    simp only [Ops.record, hf]

theorem loadMetadata_run (s : Ops) : loadMetadata s = (loaded s.record, s.called .readAbrMetadata) :=
  bind_run_ok (attempt_deserialize_run s)

variable {s' : Ops} {α : Type} {edit : AbrData → Result (AbrData × α)} {a : α} {e : Stop Error}

theorem content_of_save {u : Unit} (h : saveMetadataIfChanged d orig s = (.ok u, s')) :
    s'.content = kept d orig s.content := by
  unfold saveMetadataIfChanged at h
  unfold kept
  split at h
  · next heq =>
    rw [if_pos heq, ← (Prod.mk.inj h).2]
  · next heq =>
    rw [if_neg heq]
    simp only [saveMetadata, Ops.backend_write, Ops.writeAbrMetadata] at h
    split at h
    · rw [← (Prod.mk.inj h).2]
    · exact absurd (Prod.mk.inj h).1 Res.error_ne_ok

theorem saveMetadata_run (hw : s.Working) (d : AbrData) : saveMetadata d s = (.ok (), s.stored d.serialize) := by
  simp only [saveMetadata, Ops.backend_write, Ops.writeAbrMetadata, hw _ (Nat.le_refl _)]
  rfl

theorem saveMetadataIfChanged_run (hw : s.Working) (d orig : AbrData) :
    saveMetadataIfChanged d orig s = (.ok (), s.saved d orig) := by
  unfold saveMetadataIfChanged Ops.saved
  split
  · rfl
  · exact saveMetadata_run hw d

theorem attempt_loadMetadata_run {r : Except Error (AbrData × AbrData)} (hl : loaded s.record = Res.ofExcept r) :
    Exec.attempt loadMetadata s = (.ok r, s.called .readAbrMetadata) := by
  have hload := loadMetadata_run s
  rw [hl] at hload
  cases r with
  | ok v => exact attempt_run_ok hload
  | error e => exact attempt_run_err hload

theorem transact_run_ok (hw : s.Working) (hl : loaded (parse s.content) = .ok (d, orig)) (he : edit d = .ok (d', a)) :
    transact edit s = (.ok a, (s.called .readAbrMetadata).saved d' orig) := by
  have hload := loadMetadata_run s
  rw [hw.record, hl] at hload
  refine (bind_run_ok hload).trans ?_
  refine (bind_run_ok (lift_run_ok he _)).trans ?_
  exact bind_run_ok (saveMetadataIfChanged_run (hw.called _) d' orig)

theorem transact_run_unloaded (edit : AbrData → Result (AbrData × α)) (h : loaded s.record = .error e) :
    transact edit s = (.error e, s.called .readAbrMetadata) := by
  have hload := loadMetadata_run s
  rw [h] at hload
  exact bind_run_error hload

theorem transact_run_error (hl : loaded s.record = .ok (d, orig)) (he : edit d = .error e) :
    transact edit s = (.error e, s.called .readAbrMetadata) := by
  have hload := loadMetadata_run s
  rw [hl] at hload
  refine (bind_run_ok hload).trans (bind_run_error ?_)
  rw [lift_run, he]

theorem transact_spec (hw : s.Working) (hkind : ∀ d d' a, d.WF → edit d = .ok (d', a) → d.SameKind d') :
    (transact edit s).2.Working ∧ ((transact edit s).2.content = s.content ∧ (∀ a, (transact edit s).1 ≠ .ok a) ∨
        ∃ d orig d' a crc, loaded (parse s.content) = .ok (d, orig) ∧ edit d = .ok (d', a) ∧
          (transact edit s).1 = .ok a ∧
          parse (transact edit s).2.content = .ok { d' with crc32 := crc }) := by
  rcases hl : loaded (parse s.content) with e | ⟨d, orig⟩
  · rw [transact_run_unloaded _ (hw.record.symm ▸ hl)]
    exact ⟨hw.called _, Or.inl ⟨rfl, fun _ => Res.error_ne_ok⟩⟩
  · obtain ⟨hg, hwf, -⟩ := loaded_eq_ok (fun _ => genuine_of_parse) hl
    rcases he : edit d with e | ⟨d', a⟩
    · rw [transact_run_error (hw.record.symm ▸ hl) he]
      exact ⟨hw.called _, Or.inl ⟨rfl, fun _ => Res.error_ne_ok⟩⟩
    · have hd' := (hkind d d' a hwf he).genuine hg
      rw [transact_run_ok hw hl he]
      obtain ⟨crc, hparse⟩ := parse_kept (fun _ h => h) hl hd'
      refine ⟨(hw.called _).saved _ _, Or.inr ⟨d, orig, d', a, crc, rfl, he, rfl, ?_⟩⟩
      rw [Ops.saved_content]
      exact hparse

theorem transact_eq_ok (h : transact edit s = (.ok a, s')) : ∃ d orig d', loaded s.record = .ok (d, orig) ∧
      edit d = .ok (d', a) ∧ s'.content = kept d' orig s.content := by
  obtain ⟨⟨d, orig⟩, t, hload, h₁⟩ := bind_run_eq_ok h
  obtain ⟨⟨d', a'⟩, t', hedit, h₂⟩ := bind_run_eq_ok h₁
  obtain ⟨u, t'', hsave, h₃⟩ := bind_run_eq_ok h₂
  rw [loadMetadata_run] at hload
  obtain ⟨hl, rfl⟩ := Prod.mk.inj hload
  obtain ⟨he, rfl⟩ := Prod.mk.inj hedit
  obtain ⟨ha, rfl⟩ := Prod.mk.inj h₃
  obtain rfl : a' = a := Except.ok.inj ha
  have hcontent := content_of_save hsave
  exact ⟨d, orig, d', hl, he, hcontent⟩

/-! ### `get_boot_slot` -/

theorem getBootSlot_run_error {e : Error} (hl : loaded s.record = .error (.err e)) (update : Bool) :
    getBootSlot update s = (.ok (.r, false), s.called .readAbrMetadata) :=
  bind_run_ok (attempt_loadMetadata_run (r := .error e) hl)

theorem getBootSlot_run_recovery (hw : s.Working) (hl : loaded (parse s.content) = .ok (d, orig))
    (hrec : d.isOneShotRecovery = true) :
    getBootSlot true s = (.ok (.r, false),
      (s.called .readAbrMetadata).stored (d.setOneShotRecovery false).updateCrc.serialize) := by
  refine (bind_run_ok (attempt_loadMetadata_run (r := .ok (d, orig)) (hw.record.symm ▸ hl))).trans ?_
  simp only [hrec, and_self, if_true]
  exact bind_run_ok (attempt_run_ok (saveMetadata_run (hw.called _) _))

theorem getBootSlot_eq_boot (hl : loaded s.record = .ok (d, orig))
    (hrec : d.isOneShotRecovery = false) (hboot : d.bootSlot d.getActiveSlot = .ok d') :
    getBootSlot true s = (do
      let _ ← Exec.attempt (saveMetadataIfChanged d' orig)
      pure (d.getActiveSlot, d.isMarkedSuccessful d.getActiveSlot)) (s.called .readAbrMetadata) := by
  refine (bind_run_ok (attempt_loadMetadata_run (r := .ok (d, orig)) hl)).trans ?_
  have hlift : (Exec.lift (.ok d') : Exec Error Ops AbrData) = pure d' := rfl
  simp only [hrec, Bool.false_eq_true, false_and, if_false, bootActive, Exec.when, if_true, hboot,
    hlift, pure_bind, bind_assoc]

theorem getBootSlot_run_boot (hw : s.Working) (hl : loaded (parse s.content) = .ok (d, orig))
    (hrec : d.isOneShotRecovery = false) (hboot : d.bootSlot d.getActiveSlot = .ok d') :
    getBootSlot true s = (.ok (d.getActiveSlot, d.isMarkedSuccessful d.getActiveSlot),
      (s.called .readAbrMetadata).saved d' orig) := by
  rw [getBootSlot_eq_boot (hw.record.symm ▸ hl) hrec hboot]
  exact bind_run_ok (attempt_run_ok (saveMetadataIfChanged_run (hw.called _) d' orig))

theorem exists_loaded_eq (r : Except Error AbrData) : ∃ x, loaded r = Res.ofExcept x := by
  unfold loaded
  split
  · exact ⟨.ok _, rfl⟩
  · exact ⟨.error _, rfl⟩
  · exact ⟨.error _, rfl⟩
  · exact ⟨.ok _, rfl⟩

theorem getBootSlot_run_peek (hl : loaded s.record = .ok (d, orig)) :
    getBootSlot false s = (.ok (d.getActiveSlot, d.isMarkedSuccessful d.getActiveSlot),
      s.called .readAbrMetadata) := by
  refine (bind_run_ok (attempt_loadMetadata_run (r := .ok (d, orig)) hl)).trans ?_
  simp only [Bool.false_eq_true, and_false, if_false]
  rfl

end Gbl.Abr
