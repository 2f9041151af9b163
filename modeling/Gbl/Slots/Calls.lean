import Gbl.Slots.Managers

/-!
# What the calls on a manager do

The `Manager` trait has five calls that may change the metadata.
-/

namespace Gbl.Slots

open Lib Lib.Exec

inductive Call where
  | markBootAttempt
  | setActiveSlot (suffix : Char)
  | setSlotUnbootable (suffix : Char) (reason : UnbootableReason)
  | setOneshotStatus (oneshot : OneShot)
  | clearOneshotStatus
  deriving DecidableEq

structure SlotManager (α : Type) extends Manager α where
  getBootTarget : α → Result BootTarget
  getOneshotStatus : α → Option OneShot
  /-- The one-shots that the format has room for. -/
  oneshots : List OneShot
  setActiveSlot : Char → Exec Error (SlotBlock α) Unit
  setSlotUnbootable : Char → UnbootableReason → Exec Error (SlotBlock α) Unit
  setOneshotStatus : OneShot → Exec Error (SlotBlock α) Unit
  clearOneshotStatus : Exec Error (SlotBlock α) Unit

def Slot.isRetriable (s : Slot) : Bool :=
  match s.bootability with
  | .retriable _ => true
  | _ => false

namespace SlotManager

variable {α : Type} (M : SlotManager α)

def call : Call → Exec Error (SlotBlock α) Unit
  | .markBootAttempt => M.markBootAttempt
  | .setActiveSlot suffix => M.setActiveSlot suffix
  | .setSlotUnbootable suffix reason => M.setSlotUnbootable suffix reason
  | .setOneshotStatus oneshot => M.setOneshotStatus oneshot
  | .clearOneshotStatus => M.clearOneshotStatus

def modifies : Call → α → Bool
  | .markBootAttempt, d =>
    match M.target d with
    | .ok (.normalBoot slot) => slot.isRetriable
    | _ => false
  | .setActiveSlot suffix, d => (M.slots d).any fun s => s.suffix == suffix
  | .setSlotUnbootable suffix reason, d =>
    (M.slots d).any fun s => s.suffix == suffix && s.bootability != .unbootable reason
  | .setOneshotStatus oneshot, d => M.oneshots.contains oneshot && M.getOneshotStatus d != some oneshot
  | .clearOneshotStatus, d => (M.getOneshotStatus d).isSome

structure Edited (Inv : α → Prop) (c : Call) (d d' : α) : Prop where
  inv : Inv d → Inv d'
  /-- Only setting a slot active changes priorities. -/
  keys : (∀ suffix, c ≠ .setActiveSlot suffix) → (M.slots d').map Slot.key = (M.slots d).map Slot.key
  /-- A boot attempt counts one try. -/
  tries : c = .markBootAttempt → totalTries (M.slots d') + 1 = totalTries (M.slots d)

def tokenResult (b : SlotBlock α) : Result Unit :=
  if b.bootToken = true then .ok () else err .operationProhibited

inductive Did (Inv : α → Prop) (c : Call) (b : SlotBlock α) : Result Unit → SlotBlock α → Prop
  /-- Nothing; a boot attempt that does nothing has failed. -/
  | nothing {r : Result Unit} (h : M.modifies c b.data = false) (hr : r.Returns)
      (hc : c = .markBootAttempt → r ≠ .ok ()) : Did Inv c b r b
  /-- The token was asked for. -/
  | token (h : M.modifies c b.data = false) (hc : c = .markBootAttempt) :
      Did Inv c b (tokenResult b) { b with bootToken := false }
  /-- The metadata was changed. -/
  | edited {d : α} (h : M.modifies c b.data = true) (hc : c ≠ .markBootAttempt)
      (hd : M.Edited Inv c b.data d) : Did Inv c b (.ok ()) ⟨.dirty, b.bootToken, d⟩
  /-- A try was counted, and then the token was asked for. -/
  | tried {d : α} (h : M.modifies c b.data = true) (hc : c = .markBootAttempt)
      (hd : M.Edited Inv c b.data d) : Did Inv c b (tokenResult b) ⟨.dirty, false, d⟩

structure Lawful (Inv : α → Prop) : Prop where
  did : ∀ c b, M.Did Inv c b (M.call c b).1 (M.call c b).2
  /-- What is loaded has the property. -/
  checked : ∀ d, M.bytes.check d = .ok () → Inv d
  default : Inv M.bytes.default
  /-- What is written back is valid and means the same. -/
  prepare : ∀ d, Inv d → M.bytes.check (M.bytes.prepareForSync d) = .ok ()
  slots : ∀ d, M.slots (M.bytes.prepareForSync d) = M.slots d
  bootTarget : ∀ d, M.getBootTarget (M.bytes.prepareForSync d) = M.getBootTarget d
  oneshotStatus : ∀ d, M.getOneshotStatus (M.bytes.prepareForSync d) = M.getOneshotStatus d

end SlotManager

/-! ## What the managers have in common -/

section Common

variable {α : Type} {slots : α → List Slot}

variable {l : List Slot} {idx : Nat} {t s : Slot}

theorem findSuffix_cases (hn : (l.map Slot.suffix).Nodup) (suffix : Char) :
    (∃ idx, ∃ h : idx < l.length, l[idx].suffix = suffix ∧ findSuffix suffix l = .ok (idx, l[idx])) ∨
      (∀ s ∈ l, s.suffix ≠ suffix) ∧ findSuffix suffix l = err .invalidInput := by
  by_cases h : ∃ s ∈ l, s.suffix = suffix
  · obtain ⟨s, hs, rfl⟩ := h
    obtain ⟨idx, hidx, hget, hfind⟩ := findSuffix_eq hn hs
    exact .inl ⟨idx, hidx, by rw [hget], by rw [hget, hfind]⟩
  · have hno : ∀ s ∈ l, s.suffix ≠ suffix := fun s hs heq => h ⟨s, hs, heq⟩
    refine .inr ⟨hno, ?_⟩
    have hfind : (l.zipIdx.find? fun p => p.1.suffix == suffix) = none := by
      refine List.find?_eq_none.mpr fun p hp => ?_
      have hmem : p.1 ∈ l := List.fst_mem_of_mem_zipIdx hp
      simpa using hno p.1 hmem
    rw [findSuffix, hfind]

theorem any_suffix_eq (hn : (l.map Slot.suffix).Nodup) (h : idx < l.length) (p : Slot → Bool) :
    (l.any fun s => s.suffix == l[idx].suffix && p s) = p l[idx] := by
  rw [Bool.eq_iff_iff, List.any_eq_true]
  constructor
  · rintro ⟨s, hs, hsp⟩
    rw [Bool.and_eq_true, beq_iff_eq] at hsp
    have hsame : s = l[idx] := List.inj_on_of_nodup_map hn hs (List.getElem_mem h) hsp.1
    rw [← hsame]
    exact hsp.2
  · intro hp
    exact ⟨l[idx], List.getElem_mem h, by simp [hp]⟩

theorem map_key_set (h : idx < l.length) (ht : t.key = l[idx].key) : (l.set idx t).map Slot.key = l.map Slot.key := by
  have hlen : idx < (l.map Slot.key).length := by simpa using h
  have hget : l[idx].key = (l.map Slot.key)[idx] := by simp
  rw [List.map_set, ht, hget, List.set_getElem_self]

theorem totalTries_set (h : idx < l.length)
    (ht : t.bootability.usability.counter + 1 = l[idx].bootability.usability.counter) :
    totalTries (l.set idx t) + 1 = totalTries l := by
  induction l generalizing idx with
  | nil => cases h
  | cons s l ih =>
    cases idx with
    | zero =>
      simp only [List.getElem_cons_zero] at ht
      simp only [totalTries, List.set_cons_zero, List.map_cons, List.sum_cons]
      omega
    | succ idx =>
      have hl := ih (by simpa using h) ht
      simp only [totalTries, List.set_cons_succ, List.map_cons, List.sum_cons] at hl ⊢
      omega

theorem Attempted.counter {tries : Nat} (h : Attempted s.suffix s t) (hs : s.Sound)
    (hb : s.bootability = .retriable tries) :
    t.bootability.usability.counter + 1 = s.bootability.usability.counter := by
  have huse : t.bootability.usability = s.bootability.usability.spend := by
    have hoption := congrArg Prod.snd h.option_eq
    have hsuffix : s.option.1 = s.suffix := rfl
    rwa [Options.spendAt, if_pos hsuffix] at hoption
  have hpos : tries ≠ 0 := fun hzero => hs (hb.trans (by rw [hzero]))
  rw [huse, hb]
  show tries - 1 + 1 = tries
  omega

theorem Attempted.key {suffix : Char} (h : Attempted suffix s t) : t.key = s.key := by
  simp only [Slot.key, Slot.rank, h.suffix_eq, h.priority_eq]

theorem setUnbootable_run (disable : UnbootableReason → Nat → α → Result α) (b : SlotBlock α)
    (hn : ((slots b.data).map Slot.suffix).Nodup) (suffix : Char) (reason : UnbootableReason) :
    (∃ idx, ∃ h : idx < (slots b.data).length,
      ((slots b.data).any fun s => s.suffix == suffix && s.bootability != .unbootable reason) = true ∧
      (slots b.data)[idx].suffix = suffix ∧ ∀ d, disable reason idx b.data = .ok d →
        SlotBlock.setUnbootable slots disable suffix reason b = (.ok (), ⟨.dirty, b.bootToken, d⟩)) ∨
    ((slots b.data).any fun s => s.suffix == suffix && s.bootability != .unbootable reason) = false ∧
      ∃ r, r.Returns ∧ SlotBlock.setUnbootable slots disable suffix reason b = (r, b) := by
  obtain ⟨idx, hidx, rfl, hfind⟩ | ⟨hno, hfind⟩ := findSuffix_cases hn suffix
  · rw [any_suffix_eq hn hidx fun s => s.bootability != Bootability.unbootable reason]
    have hrun : SlotBlock.setUnbootable slots disable (slots b.data)[idx].suffix reason b =
        (if (slots b.data)[idx].bootability = Bootability.unbootable reason then pure () else do
          let data ← Exec.lift (disable reason idx b.data)
          SlotBlock.modifyData fun _ => data) b := by
      refine (bind_run_ok (get_run b)).trans ?_
      exact bind_run_ok (lift_run_ok hfind b)
    by_cases hb : (slots b.data)[idx].bootability = Bootability.unbootable reason
    · rw [if_pos hb] at hrun
      exact .inr ⟨by simpa using hb, .ok (), trivial, hrun⟩
    · rw [if_neg hb] at hrun
      refine .inl ⟨idx, hidx, by simpa using hb, rfl, fun d hd => hrun.trans ?_⟩
      exact bind_run_ok (lift_run_ok hd b)
  · refine .inr ⟨?_, err .invalidInput, trivial, ?_⟩
    · refine List.any_eq_false.mpr fun s hs => ?_
      simp [hno s hs]
    · refine (bind_run_ok (get_run b)).trans ?_
      refine bind_run_error ?_
      rw [hfind]
      rfl

theorem setActive_run (activate : Nat → Char → α → α) (b : SlotBlock α)
    (hn : ((slots b.data).map Slot.suffix).Nodup) (suffix : Char) :
    (∃ idx, ∃ h : idx < (slots b.data).length, (slots b.data)[idx].suffix = suffix ∧
      SlotBlock.setActive slots activate suffix b = (.ok (), ⟨.dirty, b.bootToken, activate idx suffix b.data⟩)) ∨
    (∀ s ∈ slots b.data, s.suffix ≠ suffix) ∧
      SlotBlock.setActive slots activate suffix b = (err .invalidInput, b) := by
  obtain ⟨idx, hidx, hsuffix, hfind⟩ | ⟨hno, hfind⟩ := findSuffix_cases hn suffix
  · refine .inl ⟨idx, hidx, hsuffix, ?_⟩
    refine (bind_run_ok (get_run b)).trans ?_
    exact bind_run_ok (lift_run_ok hfind b)
  · refine .inr ⟨hno, ?_⟩
    refine (bind_run_ok (get_run b)).trans ?_
    refine bind_run_error ?_
    rw [hfind]
    rfl

end Common

/-! ## The calls of a manager, one by one -/

namespace SlotManager

variable {α : Type} {M : SlotManager α} {Inv : α → Prop} {b : SlotBlock α}

theorem did_markBootAttempt (decrementTries : Nat → α → Result α) (hproper : Proper (M.slots b.data))
    (hdec : ∀ idx, ∀ h : idx < (M.slots b.data).length, ∀ tries, (M.slots b.data)[idx].bootability = .retriable tries →
      ∃ d t, decrementTries idx b.data = .ok d ∧ (Inv b.data → Inv d) ∧ M.slots d = (M.slots b.data).set idx t ∧
        Attempted (M.slots b.data)[idx].suffix (M.slots b.data)[idx] t)
    (hrun : (∃ e, M.target b.data = err e ∧ M.markBootAttempt b = (err e, b)) ∨
      (∃ r, M.target b.data = .ok (.recovery r) ∧ M.markBootAttempt b = SlotBlock.takeBootToken b) ∨
      ∃ slot, M.target b.data = .ok (.normalBoot slot) ∧ bestBootable (M.slots b.data) = some slot ∧
        M.markBootAttempt b = SlotBlock.attemptSlot M.slots decrementTries b.data slot b) :
    M.Did Inv .markBootAttempt b (M.call .markBootAttempt b).1 (M.call .markBootAttempt b).2 := by
  rw [call]
  obtain ⟨e, htarget, hrun⟩ | ⟨r, htarget, hrun⟩ | ⟨slot, htarget, hbest, hrun⟩ := hrun
  · rw [hrun]
    exact .nothing (by rw [modifies, htarget]) trivial fun _ => Res.error_ne_ok
  · rw [hrun]
    exact .token (by rw [modifies, htarget]) rfl
  · obtain ⟨hb, hatt⟩ | ⟨idx, tries, hidx, hget, hb, hatt⟩ := attemptSlot_run decrementTries hproper hbest
    · rw [hrun, hatt]
      refine .token ?_ rfl
      simp [modifies, htarget, Slot.isRetriable, hb]
    · rw [← hget] at hb
      obtain ⟨d, t, hd, hinv, hslots, ht⟩ := hdec idx hidx tries hb
      rw [hrun, hatt d hd]
      refine .tried ?_ rfl ⟨hinv, fun _ => ?_, fun _ => ?_⟩
      · rw [hget] at hb
        simp [modifies, htarget, Slot.isRetriable, hb]
      · rw [hslots]
        exact map_key_set hidx ht.key
      · rw [hslots]
        exact totalTries_set hidx (ht.counter (hproper.sound _ (List.getElem_mem hidx)) hb)

theorem did_setSlotUnbootable (disable : UnbootableReason → Nat → α → Result α)
    (hproper : Proper (M.slots b.data)) (suffix : Char) (reason : UnbootableReason)
    (hdisable : ∀ idx, ∀ h : idx < (M.slots b.data).length, ∃ d t, disable reason idx b.data = .ok d ∧
      (Inv b.data → Inv d) ∧ M.slots d = (M.slots b.data).set idx t ∧ t.key = (M.slots b.data)[idx].key)
    (hrun : M.setSlotUnbootable = SlotBlock.setUnbootable M.slots disable) :
    M.Did Inv (.setSlotUnbootable suffix reason) b (M.call (.setSlotUnbootable suffix reason) b).1
      (M.call (.setSlotUnbootable suffix reason) b).2 := by
  rw [call, hrun]
  obtain ⟨idx, hidx, hany, -, hrun⟩ | ⟨hany, r, hr, hrun⟩ := setUnbootable_run disable b hproper.nodup suffix reason
  · obtain ⟨d, t, hd, hinv, hslots, ht⟩ := hdisable idx hidx
    rw [hrun d hd]
    refine .edited hany nofun ⟨hinv, fun _ => ?_, nofun⟩
    rw [hslots]
    exact map_key_set hidx ht
  · rw [hrun]
    exact .nothing hany hr nofun

theorem did_setActiveSlot (activate : Nat → Char → α → α) (hproper : Proper (M.slots b.data))
    (suffix : Char) (hactivate : ∀ idx, Inv b.data → Inv (activate idx suffix b.data))
    (hrun : M.setActiveSlot = SlotBlock.setActive M.slots activate) :
    M.Did Inv (.setActiveSlot suffix) b (M.call (.setActiveSlot suffix) b).1 (M.call (.setActiveSlot suffix) b).2 := by
  rw [call, hrun]
  obtain ⟨idx, hidx, hsuffix, hrun⟩ | ⟨hno, hrun⟩ := setActive_run activate b hproper.nodup suffix
  · rw [hrun]
    refine .edited ?_ nofun ⟨hactivate idx, fun hne => absurd rfl (hne suffix), nofun⟩
    exact List.any_eq_true.mpr ⟨_, List.getElem_mem hidx, by simp [hsuffix]⟩
  · rw [hrun]
    refine .nothing ?_ trivial nofun
    exact List.any_eq_false.mpr fun s hs => by simp [hno s hs]

end SlotManager

/-! ## The Android manager -/

namespace Android

variable (crc32 : List UInt8 → UInt32)

def slotManager : SlotManager BootloaderControl where
  toManager := manager crc32
  getBootTarget := getBootTarget
  getOneshotStatus _ := none
  oneshots := []
  setActiveSlot := setActiveSlot
  setSlotUnbootable := setSlotUnbootable
  setOneshotStatus := setOneshotStatus
  clearOneshotStatus := clearOneshotStatus

structure Genuine (d : BootloaderControl) : Prop where
  magic : d.magic = bootCtrlMagic
  version : d.version ≤ bootCtrlVersion

theorem markBootAttempt_cases (b : SlotBlock BootloaderControl) :
    (∃ e, getBootTarget b.data = err e ∧ markBootAttempt b = (err e, b)) ∨
      (∃ r, getBootTarget b.data = .ok (.recovery r) ∧ markBootAttempt b = SlotBlock.takeBootToken b) ∨
      ∃ slot, getBootTarget b.data = .ok (.normalBoot slot) ∧ bestBootable (slots b.data) = some slot ∧
        markBootAttempt b = SlotBlock.attemptSlot slots decrementTries b.data slot b := by
  by_cases hempty : slots b.data = []
  · -- there is no slot to boot and none to recover
    have htarget : getBootTarget b.data = err (.other (some "Couldn't get slot last set active")) := by
      rw [getBootTarget, hempty]
      rfl
    refine .inl ⟨_, htarget, ?_⟩
    refine (bind_run_ok (get_run b)).trans ?_
    refine bind_run_error ?_
    rw [htarget]
    rfl
  obtain ⟨last, hlast, hactive⟩ := getSlotLastSetActive_spec hempty
  cases hbest : bestBootable (slots b.data) with
  | none =>
    have htarget : getBootTarget b.data = .ok (.recovery (.slotted last)) := by
      simp [getBootTarget, hactive, hbest]
    obtain ⟨idx, -, -, hfind⟩ := findSuffix_eq (proper_slots b.data).nodup hlast
    refine .inr (.inl ⟨_, htarget, ?_⟩)
    simp only [markBootAttempt, bind_run_ok (get_run _),
      bind_run_ok (lift_run_ok htarget _), bind_run_ok (lift_run_ok hfind _)]
  | some slot =>
    have htarget : getBootTarget b.data = .ok (.normalBoot slot) := by
      simp [getBootTarget, hactive, hbest]
    refine .inr (.inr ⟨slot, htarget, rfl, ?_⟩)
    simp only [markBootAttempt, bind_run_ok (get_run _), bind_run_ok (lift_run_ok htarget _)]

theorem priority_setSuccessful (m : SlotMetaData) (successful : Bool) :
    (SlotMetaData.setSuccessful successful m).priority = m.priority := by
  simp only [SlotMetaData.priority, SlotMetaData.setSuccessful, getField, setField,
    SlotMetaData.priorityMask_eq, SlotMetaData.successfulMask_eq,
    BitField.get_set_of_disjoint m _ (o := SlotMetaData.successfulOffset) (k := 1)
      (p := SlotMetaData.priorityOffset) (l := 4) (by decide)]

theorem disable_spec {d : BootloaderControl} {idx : Nat} (hidx : idx < (slots d).length) (reason : UnbootableReason) :
    ∃ d' t, disable reason idx d = .ok d' ∧ (Genuine d → Genuine d') ∧
      slots d' = (slots d).set idx t ∧ t.key = (slots d)[idx].key := by
  obtain ⟨h4, hget⟩ := getElem_slots hidx
  have hdisable : disable reason idx d = .ok { d with
      slotMetadata := d.slotMetadata.set idx
        (SlotMetaData.setSuccessful false (SlotMetaData.setTries 0 d.slotMetadata[idx])) } := by
    rw [disable, modifySlot, dif_pos h4]
  have hsuffix : idx < lowerAsciiSuffixes.length := h4.trans (by decide)
  refine ⟨_, toSlot lowerAsciiSuffixes[idx]
    (SlotMetaData.setSuccessful false (SlotMetaData.setTries 0 d.slotMetadata[idx])), hdisable,
    fun h => ⟨h.magic, h.version⟩, ?_, ?_⟩
  · rw [slots_eq, slots_eq, Vector.toList_set]
    exact suffixed_set _ _ _ hsuffix
  · rw [hget]
    simp only [Slot.key, Slot.rank, toSlot, priority_setSuccessful, SlotMetaData.priority_setTries]
    rfl

theorem slotManager_lawful : (slotManager crc32).Lawful Genuine where
  did c b := by
    cases c with
    | markBootAttempt =>
      refine SlotManager.did_markBootAttempt (M := slotManager crc32) decrementTries (proper_slots b.data) ?_
        (markBootAttempt_cases b)
      intro idx hidx tries hb
      obtain ⟨d', t, hdec, hmagic, hversion, hslots, hatt⟩ := decrementTries_spec hidx hb
      exact ⟨d', t, hdec, fun h => ⟨hmagic.trans h.magic, hversion ▸ h.version⟩, hslots, hatt⟩
    | setActiveSlot suffix =>
      exact SlotManager.did_setActiveSlot (M := slotManager crc32) activate (proper_slots b.data) suffix
        (fun _ h => ⟨h.magic, h.version⟩) rfl
    | setSlotUnbootable suffix reason =>
      refine SlotManager.did_setSlotUnbootable (M := slotManager crc32) disable (proper_slots b.data) suffix
        reason ?_ rfl
      intro idx hidx
      exact disable_spec hidx reason
    | setOneshotStatus oneshot => exact .nothing rfl trivial nofun
    | clearOneshotStatus => exact .nothing rfl trivial nofun
  checked d h := ⟨((check_eq_ok crc32).mp h).1, ((check_eq_ok crc32).mp h).2.1⟩
  default := ⟨rfl, UInt8.le_refl bootCtrlVersion⟩
  prepare _ h := (check_eq_ok crc32).mpr ⟨h.magic, h.version, rfl⟩
  slots _ := rfl
  bootTarget _ := rfl
  oneshotStatus _ := rfl

end Android

/-! ## The Fuchsia manager -/

namespace Fuchsia

variable (crc32 : List UInt8 → UInt32)

def slotManager : SlotManager AbrData where
  toManager := manager crc32
  getBootTarget := getBootTarget
  getOneshotStatus := getOneshotStatus
  oneshots := [.bootloader, .continueTo .dedicated]
  setActiveSlot := setActiveSlot
  setSlotUnbootable := setSlotUnbootable
  setOneshotStatus := setOneshotStatus
  clearOneshotStatus := clearOneshotStatus

structure Genuine (d : AbrData) : Prop where
  magic : d.magic = abrMagic
  version : d.versionMajor ≤ abrVersionMajor

theorem attemptTarget_eq (d : AbrData) : attemptTarget d =
    if d.oneshotFlag = OneShotFlags.recovery then .ok (.recovery .dedicated) else getBootTarget d := by
  unfold attemptTarget getOneshotStatus OneShotFlags.toOneShot
  by_cases hrec : d.oneshotFlag = OneShotFlags.recovery
  · simp [hrec]
  · by_cases hboot : d.oneshotFlag = OneShotFlags.bootloader
    · simp [hboot, OneShotFlags.bootloader, OneShotFlags.recovery]
    · simp [hrec, hboot]

theorem markBootAttempt_cases (b : SlotBlock AbrData) :
    (∃ e, attemptTarget b.data = err e ∧ markBootAttempt b = (err e, b)) ∨
      (∃ r, attemptTarget b.data = .ok (.recovery r) ∧ markBootAttempt b = SlotBlock.takeBootToken b) ∨
      ∃ slot, attemptTarget b.data = .ok (.normalBoot slot) ∧ bestBootable (slots b.data) = some slot ∧
        markBootAttempt b = SlotBlock.attemptSlot slots decrementTries b.data slot b := by
  have hrecovery : attemptTarget b.data = .ok (.recovery .dedicated) →
      markBootAttempt b = SlotBlock.takeBootToken b := by
    intro htarget
    simp only [markBootAttempt, bind_run_ok (get_run _), bind_run_ok (lift_run_ok htarget _)]
  by_cases hrec : b.data.oneshotFlag = OneShotFlags.recovery
  · have htarget : attemptTarget b.data = .ok (.recovery .dedicated) := by rw [attemptTarget_eq, if_pos hrec]
    exact .inr (.inl ⟨_, htarget, hrecovery htarget⟩)
  · cases hbest : bestBootable (slots b.data) with
    | none =>
      have htarget : attemptTarget b.data = .ok (.recovery .dedicated) := by
        rw [attemptTarget_eq, if_neg hrec, getBootTarget, hbest]
      exact .inr (.inl ⟨_, htarget, hrecovery htarget⟩)
    | some slot =>
      have htarget : attemptTarget b.data = .ok (.normalBoot slot) := by
        rw [attemptTarget_eq, if_neg hrec, getBootTarget, hbest]
      refine .inr (.inr ⟨slot, htarget, rfl, ?_⟩)
      simp only [markBootAttempt, bind_run_ok (get_run _), bind_run_ok (lift_run_ok htarget _)]

theorem disable_spec {d : AbrData} {idx : Nat} (hidx : idx < (slots d).length) (reason : UnbootableReason) :
    ∃ d' t, disable reason idx d = .ok d' ∧ (Genuine d → Genuine d') ∧
      slots d' = (slots d).set idx t ∧ t.key = (slots d)[idx].key := by
  obtain ⟨h2, hget⟩ := getElem_slots hidx
  have hdisable : disable reason idx d = .ok { d with
      slotData := d.slotData.set idx
        { d.slotData[idx] with unbootableReason := reason.toU8, tries := 0, successful := 0 } } := by
    rw [disable, dif_pos h2]
  have hsuffix : idx < lowerAsciiSuffixes.length := h2.trans (by decide)
  refine ⟨_, toSlot lowerAsciiSuffixes[idx]
    { d.slotData[idx] with unbootableReason := reason.toU8, tries := 0, successful := 0 }, hdisable,
    fun h => ⟨h.magic, h.version⟩, ?_, ?_⟩
  · rw [slots_eq, slots_eq, Vector.toList_set]
    exact suffixed_set _ _ _ hsuffix
  · rw [hget]
    rfl

theorem ofOneShot_ne_none_iff (oneshot : OneShot) : OneShotFlags.ofOneShot oneshot ≠ OneShotFlags.none ↔
      oneshot ∈ [.bootloader, .continueTo .dedicated] := by
  rcases oneshot with _ | (_ | slot)
  · simp [OneShotFlags.ofOneShot, OneShotFlags.bootloader, OneShotFlags.none]
  · simp [OneShotFlags.ofOneShot, OneShotFlags.recovery, OneShotFlags.none]
  · simp [OneShotFlags.ofOneShot]

theorem edited_oneshotFlag {c : Call} (hc : c ≠ .markBootAttempt) (d : AbrData) (flag : OneShotFlags) :
    (slotManager crc32).Edited Genuine c d { d with oneshotFlag := flag } :=
  ⟨fun h => ⟨h.magic, h.version⟩, fun _ => rfl, fun h => absurd h hc⟩

theorem setOneshotStatus_did (b : SlotBlock AbrData) (oneshot : OneShot) :
    (slotManager crc32).Did Genuine (.setOneshotStatus oneshot) b (setOneshotStatus oneshot b).1
      (setOneshotStatus oneshot b).2 := by
  have hmod : (slotManager crc32).modifies (.setOneshotStatus oneshot) b.data =
      (decide (oneshot ∈ [.bootloader, .continueTo .dedicated]) && getOneshotStatus b.data != some oneshot) := by
    rw [SlotManager.modifies, ← List.contains_eq_mem]
    rfl
  have hrun : setOneshotStatus oneshot b = (if some oneshot = getOneshotStatus b.data then pure ()
      else if OneShotFlags.ofOneShot oneshot = OneShotFlags.none then Exec.lift (err .operationProhibited)
      else SlotBlock.modifyData fun d =>
        { d with oneshotFlag := OneShotFlags.ofOneShot oneshot } : Exec Error (SlotBlock AbrData) Unit) b :=
    bind_run_ok (get_run b)
  have hstored := ofOneShot_ne_none_iff oneshot
  by_cases hsame : some oneshot = getOneshotStatus b.data
  · rw [hrun, if_pos hsame]
    exact .nothing (by simp [hmod, ← hsame]) trivial nofun
  · rw [if_neg hsame] at hrun
    by_cases hnone : OneShotFlags.ofOneShot oneshot = OneShotFlags.none
    · rw [hrun, if_pos hnone]
      have hno : oneshot ∉ [OneShot.bootloader, .continueTo .dedicated] := fun h => hstored.mpr h hnone
      exact .nothing (by rw [hmod, decide_eq_false hno]; rfl) trivial nofun
    · rw [hrun, if_neg hnone]
      refine .edited ?_ nofun (edited_oneshotFlag crc32 (c := .setOneshotStatus oneshot) nofun _ _)
      rw [hmod, decide_eq_true (hstored.mp hnone)]
      simpa using Ne.symm hsame

theorem clearOneshotStatus_did (b : SlotBlock AbrData) :
    (slotManager crc32).Did Genuine .clearOneshotStatus b (clearOneshotStatus b).1 (clearOneshotStatus b).2 := by
  have hrun : clearOneshotStatus b = (if (getOneshotStatus b.data).isSome then
      SlotBlock.modifyData fun d => { d with oneshotFlag := OneShotFlags.none }
      else pure () : Exec Error (SlotBlock AbrData) Unit) b :=
    bind_run_ok (get_run b)
  cases hs : (getOneshotStatus b.data).isSome with
  | true =>
    rw [hrun, if_pos hs]
    exact .edited hs nofun (edited_oneshotFlag crc32 (c := .clearOneshotStatus) nofun _ _)
  | false =>
    rw [hrun, if_neg (by simp [hs])]
    exact .nothing hs trivial nofun

theorem slotManager_lawful : (slotManager crc32).Lawful Genuine where
  did c b := by
    cases c with
    | markBootAttempt =>
      refine SlotManager.did_markBootAttempt (M := slotManager crc32) decrementTries (proper_slots b.data) ?_
        (markBootAttempt_cases b)
      intro idx hidx tries hb
      obtain ⟨d', t, hdec, hmagic, hversion, -, hslots, hatt⟩ := decrementTries_spec hidx hb
      exact ⟨d', t, hdec, fun h => ⟨hmagic.trans h.magic, hversion ▸ h.version⟩, hslots, hatt⟩
    | setActiveSlot suffix =>
      exact SlotManager.did_setActiveSlot (M := slotManager crc32) activate (proper_slots b.data) suffix
        (fun _ h => ⟨h.magic, h.version⟩) rfl
    | setSlotUnbootable suffix reason =>
      refine SlotManager.did_setSlotUnbootable (M := slotManager crc32) disable (proper_slots b.data) suffix
        reason ?_ rfl
      intro idx hidx
      exact disable_spec hidx reason
    | setOneshotStatus oneshot => exact setOneshotStatus_did crc32 b oneshot
    | clearOneshotStatus => exact clearOneshotStatus_did crc32 b
  checked d h := ⟨((check_eq_ok crc32).mp h).1, ((check_eq_ok crc32).mp h).2.1⟩
  default := ⟨rfl, UInt8.le_refl abrVersionMajor⟩
  prepare _ h := (check_eq_ok crc32).mpr ⟨h.magic, h.version, rfl⟩
  slots _ := rfl
  bootTarget _ := rfl
  oneshotStatus _ := rfl

end Fuchsia

end Gbl.Slots
