import Gbl.Abr.Basic

/-!
# What A/B/R booting is for

Without its bytes, the library is a small machine: two slots, each with a priority and a state, and a request for
recovery. `Policy` is that machine, with its invariants in its type; `AbrData.Sees` relates records to policies.
-/

namespace Gbl.Abr

open Lib

/-! ## Policies -/

@[ext]
structure Standing where
  priority : UInt8
  state : SlotState
  /-- A slot without priority is never tried. -/
  unbootable_of_zero : priority = 0 → state = .unbootable
  /-- A slot that can be tried has tries left, and not too many. -/
  tries_of_bootable : ∀ n, state = .bootable n → 0 < n ∧ n ≤ abrMaxTriesRemaining

namespace SlotState

def tried : SlotState → SlotState
  | .bootable n => if n = 1 then .unbootable else .bootable (n - 1)
  | s => s

def passedOver : SlotState → SlotState
  | .successful => .bootable abrMaxTriesRemaining
  | s => s

def budget : SlotState → Nat
  | .unbootable => 0
  | .bootable n => n.toNat
  | .successful => abrMaxTriesRemaining.toNat

@[simp] theorem passedOver_budget (s : SlotState) : s.passedOver.budget = s.budget := by
  cases s <;> rfl

@[simp] theorem passedOver_ne_successful (s : SlotState) : s.passedOver ≠ .successful := by
  cases s <;> simp [passedOver]

theorem tried_budget {n : UInt8} (h : 0 < n) :
    (SlotState.bootable n).tried.budget + 1 = (SlotState.bootable n).budget := by
  simp only [tried]
  split
  · next h1 => subst h1; rfl
  · next h1 =>
    have hle : 1 ≤ n := by grind
    have hnat := UInt8.le_iff_toNat_le.mp hle
    simp only [budget, UInt8.toNat_sub_of_le _ _ hle]
    exact Nat.sub_add_cancel hnat

theorem tried_ne_successful {n : UInt8} : (SlotState.bootable n).tried ≠ .successful := by
  simp only [tried]
  split <;> simp

end SlotState

namespace Standing

def rank (st : Standing) : UInt8 := if st.state = .unbootable then 0 else st.priority

def tried (st : Standing) : Standing where
  priority := st.priority
  state := st.state.tried
  unbootable_of_zero h := by rw [st.unbootable_of_zero h]; rfl
  tries_of_bootable n h := by
    cases hs : st.state with
    | unbootable => simp [hs, SlotState.tried] at h
    | successful => simp [hs, SlotState.tried] at h
    | bootable m =>
      obtain ⟨hpos, hle⟩ := st.tries_of_bootable m hs
      simp only [hs, SlotState.tried] at h
      grind [abrMaxTriesRemaining]

def passedOver (st : Standing) : Standing where
  priority := st.priority
  state := st.state.passedOver
  unbootable_of_zero h := by rw [st.unbootable_of_zero h]; rfl
  tries_of_bootable n h := by
    cases hs : st.state with
    | unbootable => simp [hs, SlotState.passedOver] at h
    | successful =>
      simp only [hs, SlotState.passedOver, SlotState.bootable.injEq] at h
      subst h
      decide
    | bootable m =>
      simp only [hs, SlotState.passedOver] at h
      exact st.tries_of_bootable n (hs.trans h)

theorem rank_pos_iff (st : Standing) : 0 < st.rank ↔ st.state ≠ .unbootable := by
  have hzero := st.unbootable_of_zero
  unfold rank
  split
  · next h => simp [h]
  · next h => grind

theorem budget_le (st : Standing) : st.state.budget ≤ 7 := by
  cases hs : st.state with
  | unbootable => simp [SlotState.budget]
  | successful => simp [SlotState.budget, abrMaxTriesRemaining]
  | bootable n =>
    have hn := (st.tries_of_bootable n hs).2
    exact UInt8.le_iff_toNat_le.mp hn

theorem budget_eq_zero_iff (st : Standing) : st.state.budget = 0 ↔ st.state = .unbootable := by
  cases hs : st.state with
  | unbootable => simp [SlotState.budget]
  | successful => simp [SlotState.budget, abrMaxTriesRemaining]
  | bootable n =>
    have hn := UInt8.lt_iff_toNat_lt.mp (st.tries_of_bootable n hs).1
    exact iff_of_false (Nat.ne_of_gt hn) (by simp)

@[simp] theorem passedOver_rank (st : Standing) : st.passedOver.rank = st.rank := by
  cases hs : st.state <;> simp [rank, passedOver, SlotState.passedOver, hs]

theorem passedOver_of_unbootable {st : Standing} (h : st.state = .unbootable) : st.passedOver = st :=
  Standing.ext rfl (by simp [passedOver, h, SlotState.passedOver])

theorem tried_of_successful {st : Standing} (h : st.state = .successful) : st.tried = st :=
  Standing.ext rfl (by simp [tried, h, SlotState.tried])

end Standing

@[ext]
structure Policy where
  a : Standing
  b : Standing
  recovery : Bool

namespace Policy

def active (p : Policy) : SlotIndex :=
  if p.a.rank < p.b.rank then .b else if 0 < p.a.rank then .a else .r

def state (p : Policy) : SlotIndex → SlotState
  | .a => p.a.state
  | .b => p.b.state
  | .r => .unbootable

def boot (p : Policy) : (SlotIndex × Bool) × Policy :=
  if p.recovery then ((.r, false), { p with recovery := false })
  else ((p.active, p.state p.active = .successful), match p.active with
    | .a => { p with a := p.a.tried, b := p.b.passedOver }
    | .b => { p with a := p.a.passedOver, b := p.b.tried }
    | .r => { p with a := p.a.passedOver, b := p.b.passedOver })

def budget (p : Policy) : Nat := p.a.state.budget + p.b.state.budget

def Settled (p : Policy) : Prop := p.state p.active = .successful

theorem budget_le (p : Policy) : p.budget ≤ 14 := by
  have ha := p.a.budget_le
  have hb := p.b.budget_le
  unfold budget
  omega

theorem active_eq_r_iff (p : Policy) : p.active = .r ↔ p.budget = 0 := by
  have ha := p.a.rank_pos_iff
  have hb := p.b.rank_pos_iff
  have ha0 := p.a.budget_eq_zero_iff
  have hb0 := p.b.budget_eq_zero_iff
  unfold active budget
  grind

variable {p : Policy}

theorem boot_of_active_a (hrec : p.recovery = false) (h : p.active = .a) : p.boot =
    ((.a, decide (p.a.state = .successful)), { p with a := p.a.tried, b := p.b.passedOver }) := by
  rw [boot, if_neg (by simp [hrec]), h]
  rfl

theorem boot_of_active_b (hrec : p.recovery = false) (h : p.active = .b) : p.boot =
    ((.b, decide (p.b.state = .successful)), { p with a := p.a.passedOver, b := p.b.tried }) := by
  rw [boot, if_neg (by simp [hrec]), h]
  rfl

theorem boot_of_active_r (hrec : p.recovery = false) (h : p.active = .r) : p.boot =
    ((.r, false), { p with a := p.a.passedOver, b := p.b.passedOver }) := by
  rw [boot, if_neg (by simp [hrec]), h]
  rfl

theorem not_settled_of_states (ha : p.a.state ≠ .successful) (hb : p.b.state ≠ .successful) : ¬ p.Settled := by
  unfold Settled
  cases p.active with
  | a => exact ha
  | b => exact hb
  | r => simp [state]

theorem state_active_ne_unbootable (p : Policy) (hr : p.active ≠ .r) : p.state p.active ≠ .unbootable := by
  have ha := p.a.rank_pos_iff
  have hb := p.b.rank_pos_iff
  unfold active at hr ⊢
  split
  · next hlt => exact hb.mp (by grind)
  · next hlt =>
    split
    · next hpos => exact ha.mp hpos
    · next hpos => simp [hlt, hpos] at hr

theorem bootable_of_active (p : Policy) (hr : p.active ≠ .r) (h : ¬ p.Settled) :
    ∃ n, p.state p.active = .bootable n := by
  have hne := p.state_active_ne_unbootable hr
  unfold Settled at h
  cases hs : p.state p.active with
  | unbootable => exact absurd hs hne
  | successful => exact absurd hs h
  | bootable n => exact ⟨n, rfl⟩

theorem boot_priority (p : Policy) : p.boot.2.a.priority = p.a.priority ∧ p.boot.2.b.priority = p.b.priority := by
  unfold boot
  split
  · exact ⟨rfl, rfl⟩
  · cases p.active <;> exact ⟨rfl, rfl⟩

theorem boot_not_both (hrec : p.recovery = false) :
    ¬ (p.boot.2.a.state = .successful ∧ p.boot.2.b.state = .successful) := by
  cases hact : p.active with
  | a =>
    rw [boot_of_active_a hrec hact]
    exact fun h => SlotState.passedOver_ne_successful _ h.2
  | b =>
    rw [boot_of_active_b hrec hact]
    exact fun h => SlotState.passedOver_ne_successful _ h.1
  | r =>
    rw [boot_of_active_r hrec hact]
    exact fun h => SlotState.passedOver_ne_successful _ h.1

theorem boot_of_settled (hrec : p.recovery = false) (h : p.Settled) :
    p.active ≠ .r ∧ p.boot.1 = (p.active, true) ∧ p.boot.2.recovery = false ∧
      p.boot.2.Settled ∧ p.boot.2.active = p.active := by
  cases hact : p.active with
  | r => simp [Settled, hact, state] at h
  | a =>
    have hgood : p.a.state = .successful := by simpa [Settled, hact, state] using h
    have hboot : p.boot = ((.a, true), { p with b := p.b.passedOver }) := by
      simp [boot_of_active_a hrec hact, hgood, Standing.tried_of_successful hgood]
    have hsame : p.boot.2.active = .a := by
      rw [hboot, ← hact]
      simp [active]
    refine ⟨by simp, by rw [hboot], by rw [hboot]; exact hrec, ?_, hsame⟩
    rw [Settled, hsame, hboot]
    exact hgood
  | b =>
    have hgood : p.b.state = .successful := by simpa [Settled, hact, state] using h
    have hboot : p.boot = ((.b, true), { p with a := p.a.passedOver }) := by
      simp [boot_of_active_b hrec hact, hgood, Standing.tried_of_successful hgood]
    have hsame : p.boot.2.active = .b := by
      rw [hboot, ← hact]
      simp [active]
    refine ⟨by simp, by rw [hboot], by rw [hboot]; exact hrec, ?_, hsame⟩
    rw [Settled, hsame, hboot]
    exact hgood

theorem boot_of_trying (hrec : p.recovery = false) (h : ¬ p.Settled) {k : Nat} (hk : p.budget = k + 1) :
    p.active ≠ .r ∧ p.boot.1 = (p.active, false) ∧ p.boot.2.recovery = false ∧
      ¬ p.boot.2.Settled ∧ p.boot.2.budget = k := by
  have hr : p.active ≠ .r := fun h => by simp [p.active_eq_r_iff.mp h] at hk
  obtain ⟨n, hn⟩ := p.bootable_of_active hr h
  cases hact : p.active with
  | r => exact absurd hact hr
  | a =>
    rw [hact] at hn
    replace hn : p.a.state = .bootable n := hn
    have hpos := (p.a.tries_of_bootable n hn).1
    have hboot : p.boot = ((.a, false), { p with a := p.a.tried, b := p.b.passedOver }) := by
      simp [boot_of_active_a hrec hact, hn]
    refine ⟨by simp, by rw [hboot], by rw [hboot]; exact hrec, ?_, ?_⟩
    · rw [hboot]
      refine not_settled_of_states ?_ (SlotState.passedOver_ne_successful _)
      show p.a.state.tried ≠ _
      rw [hn]
      exact SlotState.tried_ne_successful
    · have hcount := SlotState.tried_budget hpos
      rw [hboot]
      simp only [budget, Standing.tried, Standing.passedOver, SlotState.passedOver_budget] at hk ⊢
      rw [hn] at hk ⊢
      omega
  | b =>
    rw [hact] at hn
    replace hn : p.b.state = .bootable n := hn
    have hpos := (p.b.tries_of_bootable n hn).1
    have hboot : p.boot = ((.b, false), { p with a := p.a.passedOver, b := p.b.tried }) := by
      simp [boot_of_active_b hrec hact, hn]
    refine ⟨by simp, by rw [hboot], by rw [hboot]; exact hrec, ?_, ?_⟩
    · rw [hboot]
      refine not_settled_of_states (SlotState.passedOver_ne_successful _) ?_
      show p.b.state.tried ≠ _
      rw [hn]
      exact SlotState.tried_ne_successful
    · have hcount := SlotState.tried_budget hpos
      rw [hboot]
      simp only [budget, Standing.tried, Standing.passedOver, SlotState.passedOver_budget] at hk ⊢
      rw [hn] at hk ⊢
      omega

theorem boot_of_used_up (hrec : p.recovery = false) (hk : p.budget = 0) : p.boot = ((.r, false), p) := by
  have hr := p.active_eq_r_iff.mpr hk
  have ha := p.a.budget_eq_zero_iff.mp (by unfold budget at hk; omega)
  have hb := p.b.budget_eq_zero_iff.mp (by unfold budget at hk; omega)
  rw [boot_of_active_r hrec hr, Standing.passedOver_of_unbootable ha, Standing.passedOver_of_unbootable hb]

end Policy

/-! ## Slots and records as policies -/

namespace AbrSlotData

structure WF (x : AbrSlotData) : Prop where
  priority_le : x.priority ≤ abrMaxPriority
  tries_le : x.triesRemaining ≤ abrMaxTriesRemaining
  tries_of_successful : x.successfulBoot = 1 → x.triesRemaining = 0
  tries_of_zero : x.priority = 0 → x.triesRemaining = 0
  successful_of_zero : x.priority = 0 → x.successfulBoot = 0

theorem min_eq (x y : UInt8) : min x y = if x ≤ y then x else y := rfl

theorem slotNormalize_eq (x : AbrSlotData) : x.slotNormalize =
    if 0 < x.priority then (if 0 < x.triesRemaining ∧ x.successfulBoot = 1 then x.restart else x).cap
    else x.setSlotUnbootable := by
  have hnop : (if x.triesRemaining = 0 ∧ x.successfulBoot = 0 then x.setSlotUnbootable else x) = x := by
    split
    · next h =>
      obtain ⟨ht, hs⟩ := h
      cases x
      simp_all [setSlotUnbootable]
    · rfl
  simp only [slotNormalize, hnop]

theorem wf_slotNormalize (x : AbrSlotData) : x.slotNormalize.WF := by
  rw [slotNormalize_eq]
  split
  · next hp =>
    split
    · constructor <;> simp [cap, restart, min_eq, abrMaxPriority, abrMaxTriesRemaining] <;> grind
    · constructor <;> simp [cap, min_eq, abrMaxPriority, abrMaxTriesRemaining] <;> grind
  · constructor <;> simp_all [setSlotUnbootable]

theorem slotNormalize_of_wf {x : AbrSlotData} (h : x.WF) : x.slotNormalize = x := by
  obtain ⟨h1, h2, h3, h4, h5⟩ := h
  rw [slotNormalize_eq]
  cases x
  simp only [cap, restart, min_eq, setSlotUnbootable, abrMaxPriority, abrMaxTriesRemaining] at *
  grind

variable {x : AbrSlotData}

def standing (x : AbrSlotData) (h : x.WF) : Standing where
  priority := x.priority
  state := x.state
  unbootable_of_zero h0 := by
    have ht := h.tries_of_zero h0
    have hs := h.successful_of_zero h0
    simp [state, isSlotBootable, ht, hs]
  tries_of_bootable n hn := by
    have hle := h.tries_le
    simp only [state, isSlotBootable] at hn
    grind

theorem state_eq_successful_iff : x.state = .successful ↔ x.successfulBoot = 1 := by
  unfold state
  grind

theorem getNormalizedPriority_eq (h : x.WF) : x.getNormalizedPriority = (x.standing h).rank := by
  have hz := h.successful_of_zero
  simp only [getNormalizedPriority, Standing.rank, standing, state, isSlotBootable]
  grind

def booted (x : AbrSlotData) : AbrSlotData :=
  if x.successfulBoot = 1 then x else { x with triesRemaining := x.triesRemaining - 1 }

theorem tries_ne_zero (hb : x.state ≠ .unbootable) (hs : x.successfulBoot ≠ 1) : x.triesRemaining ≠ 0 := by
  simp only [state, isSlotBootable] at hb
  grind

theorem WF.booted (h : x.WF) (hb : x.state ≠ .unbootable) :
    ∃ h' : x.booted.WF, standing _ h' = (x.standing h).tried := by
  by_cases hs : x.successfulBoot = 1
  · have hsame : x.booted = x := if_pos hs
    rw [hsame]
    exact ⟨h, (Standing.tried_of_successful (state_eq_successful_iff.mpr hs)).symm⟩
  · have hcount : x.booted = { x with triesRemaining := x.triesRemaining - 1 } := if_neg hs
    have hpos := tries_ne_zero hb hs
    have hle := h.tries_le
    have hz := h.tries_of_zero
    have hwf : WF { x with triesRemaining := x.triesRemaining - 1 } :=
      ⟨h.priority_le, by simp only [abrMaxTriesRemaining] at *; grind, fun h1 => absurd h1 hs,
        fun h0 => absurd (hz h0) hpos, h.successful_of_zero⟩
    rw [hcount]
    refine ⟨hwf, Standing.ext rfl ?_⟩
    simp only [standing, Standing.tried, state, isSlotBootable] at hb ⊢
    grind [SlotState.tried]

theorem WF.clearUnless (h : x.WF) {boot slot : SlotIndex} (hne : slot ≠ boot) :
    ∃ h' : (x.clearUnless boot slot).WF, standing _ h' = (x.standing h).passedOver := by
  by_cases hs : x.successfulBoot = 1
  · have hclear : x.clearUnless boot slot = x.restart := if_pos ⟨hne, hs⟩
    have hp : 0 < x.priority := by
      have hz := h.successful_of_zero
      grind
    have hwf : x.restart.WF := by
      obtain ⟨h1, h2, h3, h4, h5⟩ := h
      constructor <;> simp only [AbrSlotData.restart] <;> grind
    rw [hclear]
    refine ⟨hwf, Standing.ext rfl ?_⟩
    simp only [standing, Standing.passedOver, state, isSlotBootable, AbrSlotData.restart, hs, SlotState.passedOver]
    grind [abrMaxTriesRemaining]
  · have hclear : x.clearUnless boot slot = x := if_neg fun hc => hs hc.2
    rw [hclear]
    refine ⟨h, Standing.ext rfl ?_⟩
    have hne : x.state ≠ .successful := fun hc => hs (state_eq_successful_iff.mp hc)
    show x.state = x.state.passedOver
    cases hst : x.state with
    | successful => exact absurd hst hne
    | unbootable => rfl
    | bootable n => rfl

@[simp] theorem clearUnless_self (x : AbrSlotData) (slot : SlotIndex) : x.clearUnless slot slot = x :=
  if_neg fun h => h.1 rfl

end AbrSlotData

namespace AbrData

structure WF (d : AbrData) : Prop where
  a : d.slotA.WF
  b : d.slotB.WF

variable {d : AbrData}

theorem wf_normalize (d : AbrData) : d.normalize.WF := ⟨d.slotA.wf_slotNormalize, d.slotB.wf_slotNormalize⟩

theorem normalize_of_wf (h : d.WF) : d.normalize = d := by
  simp [normalize, AbrSlotData.slotNormalize_of_wf h.a, AbrSlotData.slotNormalize_of_wf h.b]

def policy (d : AbrData) (h : d.WF) : Policy where
  a := d.slotA.standing h.a
  b := d.slotB.standing h.b
  recovery := d.isOneShotRecovery

def Sees (d : AbrData) (p : Policy) : Prop := ∃ h : d.WF, d.policy h = p

theorem getActiveSlot_eq (h : d.WF) : d.getActiveSlot = (d.policy h).active := by
  simp only [getActiveSlot, AbrSlotData.getNormalizedPriority_eq h.a, AbrSlotData.getNormalizedPriority_eq h.b]
  rfl

theorem isMarkedSuccessful_eq (h : d.WF) (slot : SlotIndex) :
    d.isMarkedSuccessful slot = decide ((d.policy h).state slot = .successful) := by
  cases slot with
  | a => simp [isMarkedSuccessful, Policy.state, policy, AbrSlotData.standing,
      AbrSlotData.state_eq_successful_iff, Bool.beq_eq_decide_eq]
  | b => simp [isMarkedSuccessful, Policy.state, policy, AbrSlotData.standing,
      AbrSlotData.state_eq_successful_iff, Bool.beq_eq_decide_eq]
  | r => simp [isMarkedSuccessful, Policy.state]

def SameKind (d d' : AbrData) : Prop := d'.magic = d.magic ∧ d'.versionMajor = d.versionMajor

theorem bootSlot_a (h : d.slotA.state ≠ .unbootable) : d.bootSlot .a =
    .ok { d with slotA := d.slotA.booted, slotB := d.slotB.clearUnless .a .b } := by
  by_cases hs : d.slotA.successfulBoot = 1
  · simp [bootSlot, isMarkedSuccessful, hs, clearOthers, AbrSlotData.booted]
    rfl
  · have hpos := AbrSlotData.tries_ne_zero h hs
    simp [bootSlot, isMarkedSuccessful, hs, consumeTry, slotData, hpos, modifySlot, clearOthers, AbrSlotData.booted]

theorem bootSlot_b (h : d.slotB.state ≠ .unbootable) : d.bootSlot .b =
    .ok { d with slotA := d.slotA.clearUnless .b .a, slotB := d.slotB.booted } := by
  by_cases hs : d.slotB.successfulBoot = 1
  · simp [bootSlot, isMarkedSuccessful, hs, clearOthers, AbrSlotData.booted]
    rfl
  · have hpos := AbrSlotData.tries_ne_zero h hs
    simp [bootSlot, isMarkedSuccessful, hs, consumeTry, slotData, hpos, modifySlot, clearOthers, AbrSlotData.booted]

theorem bootSlot_spec (h : d.WF) (hrec : d.isOneShotRecovery = false) :
    ∃ d', d.bootSlot d.getActiveSlot = .ok d' ∧ d.SameKind d' ∧ d'.Sees (d.policy h).boot.2 := by
  have hrec' : (d.policy h).recovery = false := hrec
  have hne := (d.policy h).state_active_ne_unbootable
  rw [getActiveSlot_eq h]
  cases hact : (d.policy h).active with
  | r =>
    obtain ⟨ha, heqa⟩ := h.a.clearUnless (show SlotIndex.a ≠ .r by simp)
    obtain ⟨hb, heqb⟩ := h.b.clearUnless (show SlotIndex.b ≠ .r by simp)
    refine ⟨d.clearOthers .r, rfl, ⟨rfl, rfl⟩, ⟨ha, hb⟩, ?_⟩
    rw [Policy.boot_of_active_r hrec' hact]
    exact Policy.ext heqa heqb rfl
  | a =>
    have hst : d.slotA.state ≠ .unbootable := by
      rw [hact] at hne
      exact hne (by simp)
    obtain ⟨ha, heqa⟩ := h.a.booted hst
    obtain ⟨hb, heqb⟩ := h.b.clearUnless (show SlotIndex.b ≠ .a by simp)
    refine ⟨_, bootSlot_a hst, ⟨rfl, rfl⟩, ⟨ha, hb⟩, ?_⟩
    rw [Policy.boot_of_active_a hrec' hact]
    exact Policy.ext heqa heqb rfl
  | b =>
    have hst : d.slotB.state ≠ .unbootable := by
      rw [hact] at hne
      exact hne (by simp)
    obtain ⟨ha, heqa⟩ := h.a.clearUnless (show SlotIndex.a ≠ .b by simp)
    obtain ⟨hb, heqb⟩ := h.b.booted hst
    refine ⟨_, bootSlot_b hst, ⟨rfl, rfl⟩, ⟨ha, hb⟩, ?_⟩
    rw [Policy.boot_of_active_b hrec' hact]
    exact Policy.ext heqa heqb rfl

end AbrData

end Gbl.Abr
