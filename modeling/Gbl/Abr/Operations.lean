import Gbl.Abr.Boot

/-!
# Sequences of A/B/R operations

All operations of the library as the letters of an alphabet (`Op`), and what holds after any word over it.
-/

namespace Gbl.Abr

open Lib Lib.Exec AbrData

inductive Op where
  | getBootSlot (updateMetadata : Bool)
  | markSlotActive (slot : SlotIndex)
  | getSlotLastMarkedActive
  | markSlotUnbootable (slot : SlotIndex)
  | markSlotSuccessful (slot : SlotIndex)
  | getSlotInfo (slot : SlotIndex)
  | setOneShotRecovery (enable : Bool)
  | setOneShotBootloader (enable : Bool)
  | getAndClearOneShotFlag
  | getAndClearOneShotBootloader
  deriving DecidableEq

namespace Op

def ignore {α : Type} (m : Exec Error Ops α) : Exec Error Ops Unit := do
  let _ ← m
  pure ()

def run : Op → Exec Error Ops Unit
  | getBootSlot update => ignore (Abr.getBootSlot update)
  | markSlotActive slot => Abr.markSlotActive slot
  | getSlotLastMarkedActive => ignore Abr.getSlotLastMarkedActive
  | markSlotUnbootable slot => Abr.markSlotUnbootable slot
  | markSlotSuccessful slot => Abr.markSlotSuccessful slot
  | getSlotInfo slot => ignore (Abr.getSlotInfo slot)
  | setOneShotRecovery enable => Abr.setOneShotRecovery enable
  | setOneShotBootloader enable => Abr.setOneShotBootloader enable
  | getAndClearOneShotFlag => ignore Abr.getAndClearOneShotFlag
  | getAndClearOneShotBootloader => ignore Abr.getAndClearOneShotBootloader

def runAll : List Op → Ops → Ops
  | [], s => s
  | op :: ops, s => runAll ops (op.run s).2

def mutates : Op → Bool
  | getBootSlot update => update
  | markSlotActive slot => slot ≠ .r
  | getSlotLastMarkedActive => false
  | markSlotUnbootable slot => slot ≠ .r
  | markSlotSuccessful slot => slot ≠ .r
  | getSlotInfo _ => false
  | setOneShotRecovery _ => true
  | setOneShotBootloader _ => true
  | getAndClearOneShotFlag => true
  | getAndClearOneShotBootloader => true

def edit : Op → AbrData → Result AbrData
  | getBootSlot true, d =>
    if d.isOneShotRecovery then pure (d.setOneShotRecovery false) else d.bootSlot d.getActiveSlot
  | markSlotActive slot, d => Prod.fst <$> d.markActive slot
  | markSlotUnbootable slot, d => Prod.fst <$> d.markUnbootable slot
  | markSlotSuccessful slot, d => Prod.fst <$> d.markSuccessful slot
  | setOneShotRecovery enable, d => pure (d.setOneShotRecovery enable)
  | setOneShotBootloader enable, d => pure (d.setOneShotBootloader enable)
  | getAndClearOneShotFlag, d => pure { d with oneShotFlags := 0 }
  | getAndClearOneShotBootloader, d => pure (d.setOneShotBootloader false)
  | _, d => pure d

end Op

/-! ## What an edit keeps -/

namespace AbrSlotData

variable {x : AbrSlotData}

theorem wf_markActive (x : AbrSlotData) : WF { x.restart with priority := abrMaxPriority } := by
  constructor <;> simp [AbrSlotData.restart, abrMaxPriority, abrMaxTriesRemaining]

theorem WF.lowerPriority (h : x.WF) : WF { x with priority := min x.priority (abrMaxPriority - 1) } := by
  obtain ⟨h1, h2, h3, h4, h5⟩ := h
  constructor <;> simp only [min_eq, abrMaxPriority] at * <;> grind

theorem WF.setSlotUnbootable (h : x.WF) : x.setSlotUnbootable.WF :=
  ⟨h.priority_le, by simp [AbrSlotData.setSlotUnbootable, abrMaxTriesRemaining], fun _ => rfl, fun _ => rfl,
    fun _ => rfl⟩

theorem WF.markSuccessful (h : x.WF) (hb : x.isSlotBootable) :
    WF { x with triesRemaining := 0, successfulBoot := 1 } := by
  refine ⟨h.priority_le, by simp [abrMaxTriesRemaining], fun _ => rfl, fun _ => rfl, fun h0 => ?_⟩
  simp only [isSlotBootable] at hb
  grind

theorem WF.isSlotBootable (h : x.WF) (hs : x.successfulBoot = 1) : x.isSlotBootable := by
  have hz := h.successful_of_zero
  simp only [AbrSlotData.isSlotBootable]
  grind

theorem WF.demote (h : x.WF) : WF (if x.isSlotBootable then x.restart else x) ∧
    (if x.isSlotBootable then x.restart else x).successfulBoot ≠ 1 := by
  split
  · next hb =>
    refine ⟨⟨h.priority_le, by simp [restart], by simp [restart], fun h0 => ?_, fun _ => rfl⟩,
      by simp [restart]⟩
    have hz := h.successful_of_zero h0
    have ht := h.tries_of_zero h0
    simp [AbrSlotData.isSlotBootable, hz, ht] at hb
  · next hb => exact ⟨h, fun hs => hb (h.isSlotBootable hs)⟩

end AbrSlotData

structure AbrData.Edited (d d' : AbrData) : Prop where
  kind : d.SameKind d'
  wf : d'.WF

def AbrData.SamePriorities (d d' : AbrData) : Prop :=
  d'.slotA.priority = d.slotA.priority ∧ d'.slotB.priority = d.slotB.priority

def AbrData.OneSuccessful (d : AbrData) : Prop :=
  ¬ (d.slotA.successfulBoot = 1 ∧ d.slotB.successfulBoot = 1)

variable {d d' orig : AbrData}

theorem AbrData.edited_of_slots (h : d.WF) (ha : d'.slotA = d.slotA) (hb : d'.slotB = d.slotB)
    (hkind : d.SameKind d') : d.Edited d' :=
  ⟨hkind, ha ▸ h.a, hb ▸ h.b⟩

variable {u : Unit} {op : Op}

theorem markActive_spec (h : d.WF) {slot : SlotIndex} (he : d.markActive slot = .ok (d', u)) :
    d.Edited d' := by
  cases slot with
  | a => cases he; exact ⟨⟨rfl, rfl⟩, AbrSlotData.wf_markActive _, h.b.lowerPriority⟩
  | b => cases he; exact ⟨⟨rfl, rfl⟩, h.a.lowerPriority, AbrSlotData.wf_markActive _⟩
  | r => cases he

theorem markUnbootable_spec (h : d.WF) {slot : SlotIndex} (he : d.markUnbootable slot = .ok (d', u)) :
    d.Edited d' ∧ d.SamePriorities d' := by
  cases slot with
  | a => cases he; exact ⟨⟨⟨rfl, rfl⟩, h.a.setSlotUnbootable, h.b⟩, rfl, rfl⟩
  | b => cases he; exact ⟨⟨⟨rfl, rfl⟩, h.a, h.b.setSlotUnbootable⟩, rfl, rfl⟩
  | r => cases he

theorem demote_priority (x : AbrSlotData) : (if x.isSlotBootable then x.restart else x).priority = x.priority := by
  split <;> rfl

theorem markSuccessful_spec (h : d.WF) {slot : SlotIndex} (he : d.markSuccessful slot = .ok (d', u)) :
    d.Edited d' ∧ d.SamePriorities d' ∧ d'.OneSuccessful := by
  obtain ⟨x, hx, hcheck⟩ := Res.bind_eq_ok.mp he
  obtain ⟨_, hb, hedit⟩ := Res.bind_eq_ok.mp hcheck
  rw [ensure_eq_ok] at hb
  cases slot with
  | a =>
    cases hx
    cases hedit
    obtain ⟨hwf, hno⟩ := h.b.demote
    exact ⟨⟨⟨rfl, rfl⟩, h.a.markSuccessful hb, hwf⟩, ⟨rfl, demote_priority _⟩, fun hc => hno hc.2⟩
  | b =>
    cases hx
    cases hedit
    obtain ⟨hwf, hno⟩ := h.a.demote
    exact ⟨⟨⟨rfl, rfl⟩, hwf, h.b.markSuccessful hb⟩, ⟨demote_priority _, rfl⟩, fun hc => hno hc.1⟩
  | r => cases hx

theorem bootSlot_edited (h : d.WF) (hrec : d.isOneShotRecovery = false) (he : d.bootSlot d.getActiveSlot = .ok d') :
    d.Edited d' ∧ d.SamePriorities d' ∧ d'.OneSuccessful := by
  obtain ⟨d'', hd'', hkind, hwf, hsees⟩ := bootSlot_spec h hrec
  obtain rfl : d'' = d' := Except.ok.inj (hd''.symm.trans he)
  have hprio := (d.policy h).boot_priority
  have hone := Policy.boot_not_both (p := d.policy h) hrec
  rw [← hsees] at hprio hone
  refine ⟨⟨hkind, hwf⟩, hprio, fun hc => hone ⟨?_, ?_⟩⟩
  · exact AbrSlotData.state_eq_successful_iff.mpr hc.1
  · exact AbrSlotData.state_eq_successful_iff.mpr hc.2

theorem Op.edit_spec (op : Op) (h : d.WF) (he : op.edit d = .ok d') :
    d.Edited d' ∧ ((∀ slot, op ≠ .markSlotActive slot) → d.SamePriorities d') := by
  cases op with
  | getBootSlot update =>
    cases update with
    | false => cases he; exact ⟨edited_of_slots h rfl rfl ⟨rfl, rfl⟩, fun _ => ⟨rfl, rfl⟩⟩
    | true =>
      simp only [edit] at he
      split at he
      · cases he; exact ⟨edited_of_slots h rfl rfl ⟨rfl, rfl⟩, fun _ => ⟨rfl, rfl⟩⟩
      · next hrec =>
        obtain ⟨hed, hprio, -⟩ := bootSlot_edited h (by simpa using hrec) he
        exact ⟨hed, fun _ => hprio⟩
  | markSlotActive slot =>
    obtain ⟨⟨d'', u⟩, hm, rfl⟩ := Res.map_eq_ok.mp he
    exact ⟨markActive_spec h hm, fun hno => absurd rfl (hno slot)⟩
  | markSlotUnbootable slot =>
    obtain ⟨⟨d'', u⟩, hm, rfl⟩ := Res.map_eq_ok.mp he
    obtain ⟨hed, hprio⟩ := markUnbootable_spec h hm
    exact ⟨hed, fun _ => hprio⟩
  | markSlotSuccessful slot =>
    obtain ⟨⟨d'', u⟩, hm, rfl⟩ := Res.map_eq_ok.mp he
    obtain ⟨hed, hprio, -⟩ := markSuccessful_spec h hm
    exact ⟨hed, fun _ => hprio⟩
  | getSlotLastMarkedActive | getSlotInfo slot | setOneShotRecovery enable
  | setOneShotBootloader enable | getAndClearOneShotFlag | getAndClearOneShotBootloader =>
    cases he
    exact ⟨edited_of_slots h rfl rfl ⟨rfl, rfl⟩, fun _ => ⟨rfl, rfl⟩⟩

/-! ## What an operation leaves in storage -/

namespace Op

variable {s : Ops}

variable {α : Type} {op : Op}

@[simp] theorem ignore_snd (m : Exec Error Ops α) (s : Ops) : (ignore m s).2 = (m s).2 := by
  rcases hm : m s with ⟨e | a, t⟩
  · rw [ignore, bind_run_error hm]
  · rw [ignore, bind_run_ok hm]
    rfl

theorem exists_ok_of_ignore {m : Exec Error Ops α} {u : Unit} (h : (ignore m s).1 = .ok u) : ∃ a, (m s).1 = .ok a := by
  rcases hm : m s with ⟨e | a, t⟩
  · rw [ignore, bind_run_error hm] at h
    exact absurd h Res.error_ne_ok
  · exact ⟨a, rfl⟩

def Spec (op : Op) (s : Ops) : Prop :=
  (op.run s).2.Working ∧
    ((op.run s).2.content = s.content ∧
        (op.mutates = true → (op.run s).1 = .ok () → ¬ Supported s.content) ∨
      ∃ d orig d' crc, loaded (parse s.content) = .ok (d, orig) ∧ op.edit d = .ok d' ∧
        parse (op.run s).2.content = .ok { d' with crc32 := crc })

theorem spec_of_transact {e : AbrData → Result (AbrData × α)} (hw : s.Working)
    (hstate : (op.run s).2 = (transact e s).2) (hok : (op.run s).1 = .ok () → ∃ a, (transact e s).1 = .ok a)
    (hedit : ∀ d, op.edit d = Prod.fst <$> e d) : op.Spec s := by
  have hkind : ∀ d d' a, d.WF → e d = .ok (d', a) → d.SameKind d' := by
    intro d d' a hwf he
    exact (op.edit_spec hwf ((hedit d).trans (by rw [he]; rfl))).1.kind
  obtain ⟨hwork, hcase⟩ := transact_spec hw hkind
  unfold Spec
  rw [hstate]
  refine ⟨hwork, ?_⟩
  rcases hcase with ⟨hc, hno⟩ | ⟨d, orig, d', a, crc, hl, he, -, hp⟩
  · refine Or.inl ⟨hc, fun _ h => ?_⟩
    obtain ⟨a, ha⟩ := hok h
    exact absurd ha (hno a)
  · exact Or.inr ⟨d, orig, d', crc, hl, by rw [hedit, he]; rfl, hp⟩

theorem spec_of_unchanged (hno : op.mutates = false) (hwork : (op.run s).2.Working)
    (hc : (op.run s).2.content = s.content) : op.Spec s :=
  ⟨hwork, Or.inl ⟨hc, fun h => by simp [hno] at h⟩⟩

theorem spec_of_mark {slot : SlotIndex} {e : AbrData → Result (AbrData × Unit)} (hw : s.Working)
    (hrun : op.run = if slot = .r then Exec.lift (err .invalidInput) else transact e)
    (hmut : op.mutates = decide (slot ≠ .r)) (hedit : ∀ d, op.edit d = Prod.fst <$> e d) :
    op.Spec s := by
  by_cases hr : slot = .r
  · rw [if_pos hr] at hrun
    refine spec_of_unchanged (by simp [hmut, hr]) ?_ ?_
    · rw [hrun]
      exact hw
    · rw [hrun]
      rfl
  · rw [if_neg hr] at hrun
    exact spec_of_transact hw (by rw [hrun]) (fun h => ⟨(), by rw [← hrun]; exact h⟩) hedit

theorem spec_of_reader {f : AbrData × AbrData → Exec Error Ops α} (hw : s.Working) (hno : op.mutates = false)
    (hrun : op.run = ignore (loadMetadata >>= f)) (hf : ∀ p t, (f p t).2 = t) : op.Spec s := by
  have hload := loadMetadata_run s
  have hstate : (op.run s).2 = s.called .readAbrMetadata := by
    rw [hrun, ignore_snd]
    rcases hl : loaded s.record with e | p
    · rw [hl] at hload
      rw [bind_run_error hload]
    · rw [hl] at hload
      rw [bind_run_ok hload, hf]
  exact spec_of_unchanged hno (by rw [hstate]; exact hw.called _) (by rw [hstate]; rfl)

theorem loaded_of_not_supported (hw : s.Working) (h : ¬ Supported s.content) :
    loaded s.record = .error (.err .unsupportedVersion) := by
  rw [hw.record, not_not.mp h]
  rfl

theorem spec_getBootSlot (hw : s.Working) (update : Bool) : (getBootSlot update).Spec s := by
  have hstate : ((getBootSlot update).run s).2 = (Abr.getBootSlot update s).2 := ignore_snd _ _
  by_cases hsup : Supported s.content
  · obtain ⟨d, orig, hl⟩ := exists_loaded hsup
    obtain ⟨hg, hwf, -⟩ := loaded_eq_ok (fun _ => genuine_of_parse) hl
    cases update with
    | false =>
      rw [getBootSlot_run_peek (hw.record.symm ▸ hl)] at hstate
      exact spec_of_unchanged rfl (by rw [hstate]; exact hw.called _) (by rw [hstate]; rfl)
    | true =>
      cases hrec : d.isOneShotRecovery with
      | true =>
        rw [getBootSlot_run_recovery hw hl hrec] at hstate
        refine ⟨by rw [hstate]; exact (hw.called _).stored _, Or.inr ⟨d, orig, d.setOneShotRecovery false,
          (d.setOneShotRecovery false).updateCrc.calculateCrc, hl, if_pos hrec, ?_⟩⟩
        rw [hstate]
        exact parse_serialize hg
      | false =>
        obtain ⟨d', hd', hkind, -⟩ := bootSlot_spec hwf hrec
        rw [getBootSlot_run_boot hw hl hrec hd'] at hstate
        obtain ⟨crc, hparse⟩ := parse_kept (fun _ h => h) hl (hkind.genuine hg)
        refine ⟨by rw [hstate]; exact (hw.called _).saved _ _, Or.inr ⟨d, orig, d', crc, hl, ?_, ?_⟩⟩
        · rw [edit, if_neg (by simp [hrec]), hd']
        · rw [hstate, Ops.saved_content]
          exact hparse
  · rw [getBootSlot_run_error (loaded_of_not_supported hw hsup)] at hstate
    refine ⟨by rw [hstate]; exact hw.called _, Or.inl ⟨by rw [hstate]; rfl, fun _ _ => hsup⟩⟩

theorem run_spec (hw : s.Working) (op : Op) : op.Spec s := by
  cases op with
  | getBootSlot update => exact spec_getBootSlot hw update
  | markSlotActive slot => exact spec_of_mark hw rfl rfl fun _ => rfl
  | getSlotLastMarkedActive => exact spec_of_reader hw rfl rfl fun _ _ => rfl
  | markSlotUnbootable slot => exact spec_of_mark hw rfl rfl fun _ => rfl
  | markSlotSuccessful slot => exact spec_of_mark hw rfl rfl fun _ => rfl
  | getSlotInfo slot =>
    refine spec_of_reader hw rfl rfl fun p t => ?_
    cases slot <;> rfl
  | setOneShotRecovery enable => exact spec_of_transact hw rfl (fun h => ⟨(), h⟩) fun _ => rfl
  | setOneShotBootloader enable => exact spec_of_transact hw rfl (fun h => ⟨(), h⟩) fun _ => rfl
  | getAndClearOneShotFlag =>
    exact spec_of_transact hw (ignore_snd _ _) exists_ok_of_ignore fun _ => rfl
  | getAndClearOneShotBootloader =>
    exact spec_of_transact hw (ignore_snd _ _) exists_ok_of_ignore fun _ => rfl

theorem runAll_working (hw : s.Working) (ops : List Op) : (runAll ops s).Working := by
  induction ops generalizing s with
  | nil => exact hw
  | cons op ops ih => exact ih (op.run_spec hw).1

end Op

/-! ## Stored slots are well-formed -/

def AbrSlotData.WellFormed (x : AbrSlotData) : Prop :=
  x.priority ≤ 15 ∧ x.triesRemaining ≤ 7 ∧
    ¬ (x.successfulBoot = 1 ∧ (0 < x.triesRemaining ∨ x.priority = 0))

theorem AbrSlotData.WF.wellFormed {x : AbrSlotData} (h : x.WF) : x.WellFormed := by
  refine ⟨h.priority_le, h.tries_le, ?_⟩
  rintro ⟨hs, ht | hp⟩
  · rw [h.tries_of_successful hs] at ht
    exact absurd ht (by decide)
  · rw [h.successful_of_zero hp] at hs
    exact absurd hs (by decide)

def Op.settles (c : Metadata) : Op → Prop
  | .markSlotSuccessful _ => True
  | .getBootSlot true => wantsRecovery c = false
  | _ => False

theorem Op.oneSuccessful_of_settles {c : Metadata} (hl : loaded (parse c) = .ok (d, orig)) (hwf : d.WF)
    (h : op.settles c) (he : op.edit d = .ok d') : d'.OneSuccessful := by
  cases op with
  | markSlotSuccessful slot =>
    obtain ⟨⟨d'', u⟩, hm, rfl⟩ := Res.map_eq_ok.mp he
    exact (markSuccessful_spec hwf hm).2.2
  | getBootSlot update =>
    cases update with
    | false => exact h.elim
    | true =>
      have hrec : d.isOneShotRecovery = false := (wantsRecovery_eq hl).symm.trans h
      rw [edit, if_neg (by simp [hrec])] at he
      exact (bootSlot_edited hwf hrec he).2.2
  | markSlotActive slot | getSlotLastMarkedActive | markSlotUnbootable slot | getSlotInfo slot
  | setOneShotRecovery enable | setOneShotBootloader enable | getAndClearOneShotFlag
  | getAndClearOneShotBootloader => exact h.elim

/-- **Only well-formed slots are stored.** After any operations on any bytes, one that changes a supported record
leaves well-formed slots; at most one of them is marked successful after marking one, or booting without a request for
recovery. -/
theorem stored_slots_well_formed (s : Ops) (hw : s.Working) (before : List Op) (op : Op)
    (hmut : op.mutates = true) (hsup : Supported (Op.runAll before s).content)
    (hok : (op.run (Op.runAll before s)).1 = .ok ()) :
    ∃ d, parse (op.run (Op.runAll before s)).2.content = .ok d ∧
      d.slotA.WellFormed ∧ d.slotB.WellFormed ∧
      (op.settles (Op.runAll before s).content → d.OneSuccessful) := by
  obtain ⟨-, ⟨-, hno⟩ | ⟨d, orig, d', crc, hl, he, hp⟩⟩ := op.run_spec (Op.runAll_working hw before)
  · exact absurd hsup (hno hmut hok)
  · obtain ⟨-, hwf, -⟩ := loaded_eq_ok (fun _ => genuine_of_parse) hl
    obtain ⟨hed, -⟩ := op.edit_spec hwf he
    have hone : op.settles (Op.runAll before s).content → d'.OneSuccessful :=
      fun h => Op.oneSuccessful_of_settles hl hwf h he
    exact ⟨_, hp, hed.wf.a.wellFormed, hed.wf.b.wellFormed, hone⟩

theorem stored_slots_well_formed_blank :
    ∃ d, parse ((Op.markSlotActive .a).run (Op.runAll [.markSlotSuccessful .b] blankOps)).2.content = .ok d ∧
      d.slotA.WellFormed ∧ d.slotB.WellFormed :=
  have ⟨d, hp, ha, hb, _⟩ := stored_slots_well_formed blankOps (fun _ _ => rfl) [.markSlotSuccessful .b]
    (.markSlotActive .a) rfl (by decide +kernel) (by decide +kernel)
  ⟨d, hp, ha, hb⟩

/-! ## The slot last marked active -/

def AbrData.Tops (slot : SlotIndex) (d : AbrData) : Prop :=
  match slot with
  | .a => d.slotB.priority < d.slotA.priority
  | .b => d.slotA.priority < d.slotB.priority
  | .r => False

theorem AbrData.Tops.of_samePriorities {slot : SlotIndex} (h : d.Tops slot)
    (hp : d.SamePriorities d') : d'.Tops slot := by
  obtain ⟨ha, hb⟩ := hp
  cases slot with
  | a => simpa [Tops, ha, hb] using h
  | b => simpa [Tops, ha, hb] using h
  | r => exact h

def Ops.Remembers (s : Ops) (slot : SlotIndex) : Prop :=
  s.Working ∧ ∃ d orig, loaded (parse s.content) = .ok (d, orig) ∧ d.Tops slot

variable {s : Ops} {slot : SlotIndex}

theorem Op.remembers (h : s.Remembers slot) (hno : ∀ x, op ≠ .markSlotActive x) : (op.run s).2.Remembers slot := by
  obtain ⟨hw, d, orig, hl, htop⟩ := h
  obtain ⟨hwork, ⟨hc, -⟩ | ⟨d₁, orig₁, d', crc, hl₁, he, hp⟩⟩ := op.run_spec hw
  · exact ⟨hwork, d, orig, by rw [hc]; exact hl, htop⟩
  · obtain ⟨rfl, rfl⟩ := Prod.mk.inj (Except.ok.inj (hl.symm.trans hl₁))
    obtain ⟨-, hwf, -⟩ := loaded_eq_ok (fun _ => genuine_of_parse) hl
    obtain ⟨hed, hprio⟩ := op.edit_spec hwf he
    have htop' : AbrData.Tops slot { d' with crc32 := crc } := htop.of_samePriorities (hprio hno)
    exact ⟨hwork, _, _, loaded_of_parse hp ⟨hed.wf.a, hed.wf.b⟩, htop'⟩

theorem Op.runAll_remembers (h : s.Remembers slot) (ops : List Op)
    (hno : ∀ op ∈ ops, ∀ x, op ≠ .markSlotActive x) : (Op.runAll ops s).Remembers slot := by
  induction ops generalizing s with
  | nil => exact h
  | cons op ops ih =>
    refine ih (op.remembers h (hno op (List.mem_cons_self ..))) fun o ho => ?_
    exact hno o (List.mem_cons_of_mem op ho)

theorem getSlotLastMarkedActive_of_remembers (h : s.Remembers slot) : (getSlotLastMarkedActive s).1 = .ok slot := by
  obtain ⟨hw, d, orig, hl, htop⟩ := h
  have hload := loadMetadata_run s
  rw [hw.record, hl] at hload
  rw [getSlotLastMarkedActive, bind_run_ok hload]
  cases slot with
  | a =>
    have hlt : ¬ d.slotA.priority < d.slotB.priority := by
      simp only [AbrData.Tops] at htop
      grind
    simp [hlt]
  | b => simp [show d.slotA.priority < d.slotB.priority from htop]
  | r => exact htop.elim

structure AbrData.Activated (slot : SlotIndex) (d : AbrData) : Prop where
  tops : d.Tops slot
  active : d.getActiveSlot = slot
  unmarked : d.isMarkedSuccessful slot = false
  info : ∃ x, d.slotData slot = .ok x ∧ x.state = .bootable 7

theorem lowered_lt (x : AbrSlotData) : min x.priority (abrMaxPriority - 1) < abrMaxPriority := by
  simp only [AbrSlotData.min_eq, abrMaxPriority]
  grind

theorem normalizedPriority_le (x : AbrSlotData) : x.getNormalizedPriority ≤ x.priority := by
  unfold AbrSlotData.getNormalizedPriority
  grind

theorem activated_of_markActive (he : d.markActive slot = .ok (d', u)) : d'.Activated slot := by
  have hrank : ∀ x : AbrSlotData, ({ x.restart with priority := abrMaxPriority } :
      AbrSlotData).getNormalizedPriority = abrMaxPriority := fun _ => rfl
  cases slot with
  | r => cases he
  | a =>
    cases he
    have hlt := lowered_lt d.slotB
    refine ⟨hlt, ?_, rfl, _, rfl, rfl⟩
    have hle := normalizedPriority_le { d.slotB with priority := min d.slotB.priority (abrMaxPriority - 1) }
    simp only [getActiveSlot, hrank]
    rw [if_neg (by grind), if_pos (by decide)]
  | b =>
    cases he
    have hlt := lowered_lt d.slotA
    refine ⟨hlt, ?_, rfl, _, rfl, rfl⟩
    have hle := normalizedPriority_le { d.slotA with priority := min d.slotA.priority (abrMaxPriority - 1) }
    simp only [getActiveSlot, hrank]
    rw [if_pos (by grind)]

theorem loaded_of_markSlotActive {s' : Ops} (h : markSlotActive slot s = (.ok (), s')) :
    ∃ d orig, loaded (parse s'.content) = .ok (d, orig) ∧ d.Activated slot := by
  by_cases hr : slot = .r
  · rw [markSlotActive, if_pos hr] at h
    exact absurd (congrArg Prod.fst h) Res.error_ne_ok
  · rw [markSlotActive, if_neg hr] at h
    obtain ⟨d, orig, d', hl, he, hc⟩ := transact_eq_ok h
    obtain ⟨hg, hwf, -⟩ := loaded_eq_ok (fun v hv => genuine_of_parse (Ops.parse_of_record hv)) hl
    have hed := markActive_spec hwf he
    obtain ⟨crc, hp⟩ := parse_kept (fun v hv => Ops.parse_of_record hv) hl (hed.kind.genuine hg)
    rw [hc]
    obtain ⟨htop, hact, hun, hinfo⟩ := activated_of_markActive he
    exact ⟨_, _, loaded_of_parse hp ⟨hed.wf.a, hed.wf.b⟩, htop, hact, hun, hinfo⟩

/-- **Marking a slot active takes effect and is remembered.** If the call succeeds, then on a storage
that works from there on the slot is reported as bootable with seven tries, it is the next to boot
unless recovery is asked for, and it stays the slot last marked active until another one is. -/
theorem mark_slot_active_remembered (s s' : Ops) (slot : SlotIndex)
    (h : markSlotActive slot s = (.ok (), s')) (hw : s'.Working) :
    (getSlotInfo slot s').1 = .ok ⟨.bootable 7, true⟩ ∧
    (wantsRecovery s'.content = false → ∀ update, (getBootSlot update s').1 = .ok (slot, false)) ∧
    ∀ later : List Op, (∀ op ∈ later, ∀ x, op ≠ .markSlotActive x) →
      (getSlotLastMarkedActive (Op.runAll later s')).1 = .ok slot := by
  obtain ⟨d, orig, hl, htop, hact, hun, x, hx, hstate⟩ := loaded_of_markSlotActive h
  obtain ⟨-, hwf, -⟩ := loaded_eq_ok (fun _ => genuine_of_parse) hl
  refine ⟨?_, fun hrec update => ?_, fun later hno => ?_⟩
  · have hload := loadMetadata_run s'
    rw [hw.record, hl] at hload
    have hslot : d.isSlotActive slot = true := by simp [isSlotActive, hact]
    rw [getSlotInfo, bind_run_ok hload]
    cases slot with
    | a => cases hx; rw [← hstate, ← hslot]; rfl
    | b => cases hx; rw [← hstate, ← hslot]; rfl
    | r => cases hx
  · cases update with
    | false => rw [getBootSlot_run_peek (hw.record.symm ▸ hl), hact, hun]
    | true =>
      have hrec' : d.isOneShotRecovery = false := (wantsRecovery_eq hl).symm.trans hrec
      obtain ⟨d', hd', -⟩ := bootSlot_spec hwf hrec'
      rw [getBootSlot_run_boot hw hl hrec' hd', hact, hun]
  · exact getSlotLastMarkedActive_of_remembers (Op.runAll_remembers ⟨hw, d, orig, hl, htop⟩ later hno)

/-- B is marked active on a storage that was never written, fails its seven tries and is given up. -/
theorem mark_slot_active_remembered_blank :
    (getSlotLastMarkedActive (Op.runAll (List.replicate 7 (.getBootSlot true) ++ [.markSlotUnbootable .b])
      (markSlotActive .b blankOps).2)).1 = .ok .b :=
  (mark_slot_active_remembered blankOps _ .b (Prod.ext (by decide +kernel) rfl)
    (Op.runAll_working (s := blankOps) (fun _ _ => rfl) [.markSlotActive .b])).2.2 _ (by simp)

end Gbl.Abr
