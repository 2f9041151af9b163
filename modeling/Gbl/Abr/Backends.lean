import Gbl.Abr.CApi

/-!
# The two storage backends of the C interface

The operations look at a backend through `load_metadata` and `save_metadata`.
-/

namespace Gbl.Abr

open Lib Lib.Exec AbrData

/-! ## Backends that keep the fields -/

structure Faithful {σ : Type} [Backend σ] (view : σ → CustomMetadata → Prop) : Prop where
  read : ∀ {x c}, view x c → ∃ bytes d x', Backend.readAbrMetadata x = (.ok bytes, x') ∧
    parse bytes = .ok d ∧ d.toCustom = c ∧ view x' c
  write : ∀ {x c} {d : AbrData}, view x c → d.Genuine →
    ∃ x', Backend.writeAbrMetadata d.serialize x = (.ok (), x') ∧ view x' d.toCustom

def Yields {α : Type} (m : (σ : Type) → [Backend σ] → Exec Error σ α) (c : CustomMetadata)
    (r : Except Error α) (c' : CustomMetadata) : Prop :=
  ∀ (σ : Type) [Backend σ] (view : σ → CustomMetadata → Prop), Faithful view →
    ∀ x, view x c → ∃ x', m σ x = (Res.ofExcept r, x') ∧ view x' c'

def Determined {α : Type} (m : (σ : Type) → [Backend σ] → Exec Error σ α) : Prop :=
  ∀ c, ∃ r c', Yields m c r c'

def Answers {α : Type} (m : (σ : Type) → [Backend σ] → Exec Error σ α) : Prop :=
  ∀ c, ∃ a c', Yields m c (.ok a) c'

def CustomMetadata.normalize (c : CustomMetadata) : CustomMetadata :=
  ⟨c.aSlotData.slotNormalize, c.bSlotData.slotNormalize, c.oneShotFlags⟩

theorem AbrData.wf_withCustom (k : AbrData) (c : CustomMetadata) : (k.withCustom c.normalize).WF :=
  wf_normalize (k.withCustom c)

section Faithful

variable {σ : Type} [Backend σ] {view : σ → CustomMetadata → Prop} {x : σ} {c : CustomMetadata}

theorem Faithful.load (h : Faithful view) (hx : view x c) : ∃ (k : AbrData) (x' : σ), k.Genuine ∧
    loadMetadata x = (.ok (k.withCustom c.normalize, k.withCustom c), x') ∧ view x' c := by
  obtain ⟨bytes, d, x', hread, hparse, rfl, hx'⟩ := h.read hx
  have hdes : deserialize x = (.ok d, x') := by
    refine (bind_run_ok hread).trans ?_
    rw [hparse]
    rfl
  refine ⟨d, x', genuine_of_parse hparse, ?_, hx'⟩
  exact bind_run_ok (attempt_run_ok hdes)

theorem Faithful.save (h : Faithful view) (hx : view x c) {d : AbrData} (hd : d.Genuine) :
    ∃ x', saveMetadata d x = (.ok (), x') ∧ view x' d.toCustom :=
  h.write hx hd

theorem Faithful.saveIfChanged (h : Faithful view) (hx : view x c) {k : AbrData} (hk : k.Genuine)
    (c' : CustomMetadata) :
    ∃ x', saveMetadataIfChanged (k.withCustom c') (k.withCustom c) x = (.ok (), x') ∧ view x' c' := by
  unfold saveMetadataIfChanged
  by_cases hc : c' = c
  · subst hc
    rw [if_pos rfl]
    exact ⟨x, rfl, hx⟩
  · rw [if_neg fun he => hc ((withCustom_inj k).mp he)]
    exact h.save hx (hk.withCustom c')

end Faithful

/-! ## Edits of the fields -/

structure OnFields {α : Type} (edit : AbrData → Result (AbrData × α)) : Prop where
  alike : ∀ k c, edit (withCustom k c) =
    (edit (withCustom .default c)).map fun p => (k.withCustom p.1.toCustom, p.2)
  returns : ∀ d, (edit d).Returns

variable {slot : SlotIndex}

theorem onFields_markActive (h : slot ≠ .r) : OnFields (AbrData.markActive slot) := by
  cases slot with
  | a => exact ⟨fun _ _ => rfl, fun _ => trivial⟩
  | b => exact ⟨fun _ _ => rfl, fun _ => trivial⟩
  | r => exact absurd rfl h

theorem onFields_markUnbootable (h : slot ≠ .r) : OnFields (AbrData.markUnbootable slot) := by
  cases slot with
  | a => exact ⟨fun _ _ => rfl, fun _ => trivial⟩
  | b => exact ⟨fun _ _ => rfl, fun _ => trivial⟩
  | r => exact absurd rfl h

theorem onFields_markSuccessful (h : slot ≠ .r) : OnFields (AbrData.markSuccessful slot) := by
  cases slot with
  | a =>
    constructor
    · intro k c
      simp only [AbrData.markSuccessful, slotData, Res.ok_bind, withCustom]
      cases c.aSlotData.isSlotBootable <;> rfl
    · intro d
      simp only [AbrData.markSuccessful, slotData, Res.ok_bind]
      cases d.slotA.isSlotBootable <;> trivial
  | b =>
    constructor
    · intro k c
      simp only [AbrData.markSuccessful, slotData, Res.ok_bind, withCustom]
      cases c.bSlotData.isSlotBootable <;> rfl
    · intro d
      simp only [AbrData.markSuccessful, slotData, Res.ok_bind]
      cases d.slotB.isSlotBootable <;> trivial
  | r => exact absurd rfl h

theorem onFields_setOneShotRecovery (enable : Bool) : OnFields fun d => pure (d.setOneShotRecovery enable, ()) :=
  ⟨fun _ _ => rfl, fun _ => trivial⟩

theorem onFields_setOneShotBootloader (enable : Bool) : OnFields fun d => pure (d.setOneShotBootloader enable, ()) :=
  ⟨fun _ _ => rfl, fun _ => trivial⟩

theorem onFields_getAndClearOneShotFlag : OnFields fun d => pure ({ d with oneShotFlags := 0 }, d.oneShotFlags) :=
  ⟨fun _ _ => rfl, fun _ => trivial⟩

theorem AbrData.bootSlot_withCustom (slot : SlotIndex) (k : AbrData) (c : CustomMetadata) :
    (k.withCustom c).bootSlot slot = ((withCustom .default c).bootSlot slot).map fun d => k.withCustom d.toCustom := by
  have hmarked : (k.withCustom c).isMarkedSuccessful slot =
      (withCustom .default c).isMarkedSuccessful slot := by cases slot <;> rfl
  unfold bootSlot
  rw [hmarked]
  split
  · cases slot with
    | a =>
      simp only [consumeTry, slotData, Res.ok_bind, withCustom]
      split <;> rfl
    | b =>
      simp only [consumeTry, slotData, Res.ok_bind, withCustom]
      split <;> rfl
    | r => rfl
  · rfl

/-! ## Operations that the fields determine -/

section Determined

theorem determined_transact {α : Type} {edit : AbrData → Result (AbrData × α)} (hedit : OnFields edit) :
    Determined fun _ [Backend _] => transact edit := by
  intro c
  have halike := hedit.alike
  have hreturns := hedit.returns (withCustom .default c.normalize)
  rcases hbase : edit (withCustom .default c.normalize) with (e | _ | _) | ⟨d, a⟩
  · refine ⟨.error e, c, ?_⟩
    intro σ _ view hview x hx
    obtain ⟨k, x', -, hload, hx'⟩ := hview.load hx
    have hk : edit (k.withCustom c.normalize) = err e := by rw [halike, hbase]; rfl
    refine ⟨x', ?_, hx'⟩
    refine (bind_run_ok hload).trans (bind_run_error ?_)
    rw [lift_run, hk]
  · rw [hbase] at hreturns
    exact hreturns.elim
  · rw [hbase] at hreturns
    exact hreturns.elim
  · refine ⟨.ok a, d.toCustom, ?_⟩
    intro σ _ view hview x hx
    obtain ⟨k, x', hk, hload, hx'⟩ := hview.load hx
    obtain ⟨x'', hsave, hx''⟩ := hview.saveIfChanged hx' hk d.toCustom
    have hedit : edit (k.withCustom c.normalize) = .ok (k.withCustom d.toCustom, a) := by
      rw [halike, hbase]; rfl
    refine ⟨x'', ?_, hx''⟩
    refine (bind_run_ok hload).trans ?_
    refine (bind_run_ok (lift_run_ok hedit _)).trans ?_
    exact bind_run_ok hsave

theorem determined_setOneShotRecovery (enable : Bool) : Determined fun _ [Backend _] => setOneShotRecovery enable :=
  determined_transact (onFields_setOneShotRecovery enable)

theorem determined_setOneShotBootloader (enable : Bool) :
    Determined fun _ [Backend _] => setOneShotBootloader enable :=
  determined_transact (onFields_setOneShotBootloader enable)

theorem determined_getAndClearOneShotFlag : Determined fun _ [Backend _] => getAndClearOneShotFlag :=
  determined_transact onFields_getAndClearOneShotFlag

theorem determined_mark {edit : SlotIndex → AbrData → Result (AbrData × Unit)}
    (hedit : ∀ slot, slot ≠ .r → OnFields (edit slot)) (slot : SlotIndex) :
    Determined fun _ [Backend _] =>
      if slot = .r then Exec.lift (err .invalidInput) else transact (edit slot) := by
  by_cases hr : slot = .r
  · simp only [if_pos hr]
    exact fun c => ⟨.error .invalidInput, c, fun _ _ _ _ x hx => ⟨x, rfl, hx⟩⟩
  · simp only [if_neg hr]
    exact determined_transact (hedit slot hr)

theorem determined_load {α : Type} (f : CustomMetadata → α) {g : (σ : Type) → AbrData × AbrData → Exec Error σ α}
    (hg : ∀ σ k c orig, g σ (withCustom k c, orig) = pure (f c)) :
    Determined fun σ [Backend σ] => loadMetadata >>= g σ := by
  intro c
  refine ⟨.ok (f c.normalize), c, ?_⟩
  intro σ _ view hview x hx
  obtain ⟨k, x', -, hload, hx'⟩ := hview.load hx
  refine ⟨x', ?_, hx'⟩
  refine (bind_run_ok hload).trans ?_
  rw [hg]
  rfl

theorem determined_getSlotLastMarkedActive : Determined fun _ [Backend _] => getSlotLastMarkedActive :=
  determined_load (fun c => if c.aSlotData.priority < c.bSlotData.priority then .b else .a)
    fun _ _ _ _ => rfl

theorem determined_getSlotInfo (slot : SlotIndex) : Determined fun _ [Backend _] => getSlotInfo slot := by
  unfold getSlotInfo
  cases slot with
  | a =>
    apply determined_load fun c => SlotInfo.mk c.aSlotData.state ((withCustom .default c).isSlotActive .a)
    intros
    rfl
  | b =>
    apply determined_load fun c => SlotInfo.mk c.bSlotData.state ((withCustom .default c).isSlotActive .b)
    intros
    rfl
  | r =>
    apply determined_load fun c => SlotInfo.mk .successful ((withCustom .default c).isSlotActive .r)
    intros
    rfl

theorem bootActive_run {σ : Type} [Backend σ] {d d' orig : AbrData} {x x' : σ} {v : Except Error Unit}
    (hboot : d.bootSlot d.getActiveSlot = .ok d')
    (hsave : Exec.attempt (saveMetadataIfChanged d' orig) x = (.ok v, x')) :
    bootActive true d orig x = (.ok (d.getActiveSlot, d.isMarkedSuccessful d.getActiveSlot), x') := by
  have hlift : (Exec.lift (.ok d') : Exec Error σ AbrData) = pure d' := rfl
  simp only [bootActive, Exec.when, if_true, hboot, hlift, pure_bind, bind_assoc]
  exact bind_run_ok hsave

theorem answers_getBootSlot (update : Bool) : Answers fun _ [Backend _] => getBootSlot update := by
  intro c
  let base := withCustom .default c.normalize
  let slot := base.getActiveSlot
  cases update with
  | false =>
    refine ⟨(slot, base.isMarkedSuccessful slot), c, ?_⟩
    intro σ _ view hview x hx
    obtain ⟨k, x', -, hload, hx'⟩ := hview.load hx
    refine ⟨x', ?_, hx'⟩
    refine (bind_run_ok (attempt_run_ok hload)).trans ?_
    simp only [Bool.false_eq_true, and_false, if_false]
    rfl
  | true =>
    cases hrec : base.isOneShotRecovery with
    | true =>
      refine ⟨(.r, false), (base.setOneShotRecovery false).toCustom, ?_⟩
      intro σ _ view hview x hx
      obtain ⟨k, x', hk, hload, hx'⟩ := hview.load hx
      have hrec' : (k.withCustom c.normalize).isOneShotRecovery = true := hrec
      obtain ⟨x'', hsave, hx''⟩ := hview.save hx'
        (d := ((k.withCustom c.normalize).setOneShotRecovery false).updateCrc) hk
      refine ⟨x'', ?_, hx''⟩
      refine (bind_run_ok (attempt_run_ok hload)).trans ?_
      simp only [hrec', and_self, if_true]
      exact bind_run_ok (attempt_run_ok hsave)
    | false =>
      obtain ⟨d, hboot, -⟩ := bootSlot_spec (wf_withCustom .default c) hrec
      refine ⟨(slot, base.isMarkedSuccessful slot), d.toCustom, ?_⟩
      intro σ _ view hview x hx
      obtain ⟨k, x', hk, hload, hx'⟩ := hview.load hx
      obtain ⟨x'', hsave, hx''⟩ := hview.saveIfChanged hx' hk d.toCustom
      have hrec' : (k.withCustom c.normalize).isOneShotRecovery = false := hrec
      have hboot' : (k.withCustom c.normalize).bootSlot slot = .ok (k.withCustom d.toCustom) := by
        rw [bootSlot_withCustom, hboot]
        rfl
      refine ⟨x'', ?_, hx''⟩
      refine (bind_run_ok (attempt_run_ok hload)).trans ?_
      simp only [hrec', Bool.false_eq_true, false_and, if_false]
      exact bootActive_run hboot' (attempt_run_ok hsave)

theorem answers_pure {α : Type} (a : α) : Answers fun _ [Backend _] => pure a :=
  fun c => ⟨a, c, fun _ _ _ _ x hx => ⟨x, rfl, hx⟩⟩

theorem Determined.unpacked {α β : Type} {op : (σ : Type) → [Backend σ] → Exec Error σ α} (h : Determined op)
    (into : α → β) (val : β) (reply : UInt32 → β → Reply) :
    Answers fun σ [Backend σ] => Abr.unpacked into val (op σ) reply := by
  intro c
  obtain ⟨r, c', hop⟩ := h c
  refine ⟨reply (unpackResult into r val).1 (unpackResult into r val).2, c', ?_⟩
  intro σ _ view hview x hx
  obtain ⟨x', hrun, hx'⟩ := hop σ view hview x hx
  refine ⟨x', ?_, hx'⟩
  cases r with
  | ok a => exact bind_run_ok (attempt_run_ok hrun)
  | error e => exact bind_run_ok (attempt_run_err hrun)

theorem answers_onSlot (slotIndex : UInt32) (refused : Reply)
    {f : (σ : Type) → [Backend σ] → SlotIndex → Exec Error σ Reply}
    (hf : ∀ slot, Answers fun σ [Backend σ] => f σ slot) :
    Answers fun σ [Backend σ] => onSlot slotIndex refused (f σ) := by
  unfold onSlot
  cases SlotIndex.ofUInt slotIndex with
  | ok slot => exact hf slot
  | error e => exact answers_pure refused

theorem ApiCall.answers (call : ApiCall) : Answers fun _ [Backend _] => call.run := by
  cases call with
  | abrGetBootSlot update out =>
    intro c
    obtain ⟨⟨slot, successful⟩, c', hboot⟩ := answers_getBootSlot update c
    refine ⟨.bootSlot slot.toUInt (out.map fun _ => successful), c', ?_⟩
    intro σ _ view hview x hx
    obtain ⟨x', hrun, hx'⟩ := hboot σ view hview x hx
    exact ⟨x', bind_run_ok hrun, hx'⟩
  | abrGetSlotSuffix slot =>
    apply answers_onSlot
    intro slot
    cases slot <;> exact answers_pure _
  | abrMarkSlotActive slot =>
    apply answers_onSlot
    intro slot
    exact (determined_mark (fun _ => onFields_markActive) slot).unpacked _ _ _
  | abrGetSlotLastMarkedActive out => exact determined_getSlotLastMarkedActive.unpacked _ _ _
  | abrMarkSlotUnbootable slot =>
    apply answers_onSlot
    intro slot
    exact (determined_mark (fun _ => onFields_markUnbootable) slot).unpacked _ _ _
  | abrMarkSlotSuccessful slot =>
    apply answers_onSlot
    intro slot
    exact (determined_mark (fun _ => onFields_markSuccessful) slot).unpacked _ _ _
  | abrGetSlotInfo slot info =>
    apply answers_onSlot
    intro slot
    exact (determined_getSlotInfo slot).unpacked _ _ _
  | abrSetOneShotRecovery enable =>
    exact (determined_setOneShotRecovery enable).unpacked id () fun code _ => .code code
  | abrSetOneShotBootloader enable =>
    exact (determined_setOneShotBootloader enable).unpacked id () fun code _ => .code code
  | abrGetAndClearOneShotFlags flags =>
    exact determined_getAndClearOneShotFlag.unpacked _ _ _

theorem ApiCall.answers_all (calls : List ApiCall) : Answers fun _ [Backend _] => ApiCall.runAll calls := by
  induction calls with
  | nil => exact answers_pure []
  | cons call calls ih =>
    intro c
    obtain ⟨reply, c₁, hcall⟩ := call.answers c
    obtain ⟨replies, c₂, hcalls⟩ := ih c₁
    refine ⟨reply :: replies, c₂, ?_⟩
    intro σ _ view hview x hx
    obtain ⟨x₁, hrun₁, hx₁⟩ := hcall σ view hview x hx
    obtain ⟨x₂, hrun₂, hx₂⟩ := hcalls σ view hview x₁ hx₁
    exact ⟨x₂, (bind_run_ok hrun₁).trans (bind_run_ok hrun₂), hx₂⟩

end Determined

/-! ## The two pairs of callbacks -/

namespace AbrOps

variable {σ : Type}

structure StoresRecords (ops : AbrOps σ) (bytes : σ → Metadata) : Prop where
  read : ∃ f, ops.readAbrMetadata = some f ∧
    ∀ out s, (f out s).1 = (true, bytes s) ∧ bytes (f out s).2 = bytes s
  write : ∃ f, ops.writeAbrMetadata = some f ∧ ∀ data s, (f data s).1 = true ∧ bytes (f data s).2 = data

structure StoresFields (ops : AbrOps σ) (fields : σ → CustomMetadata) : Prop where
  noRead : ops.readAbrMetadata = none
  noWrite : ops.writeAbrMetadata = none
  read : ∃ f, ops.readAbrMetadataCustom = some f ∧
    ∀ out s, (f out s).1 = (true, fields s) ∧ fields (f out s).2 = fields s
  write : ∃ f, ops.writeAbrMetadataCustom = some f ∧
    ∀ data s, (f data s).1 = true ∧ fields (f data s).2 = data

def HoldsRecord (ops : AbrOps σ) (bytes : σ → Metadata) (x : AbrOpsSafe σ) (c : CustomMetadata) : Prop :=
  x.ops = ops ∧ ∃ d, parse (bytes x.context) = .ok d ∧ d.toCustom = c

def HoldsFields (ops : AbrOps σ) (fields : σ → CustomMetadata) (x : AbrOpsSafe σ) (c : CustomMetadata) : Prop :=
  x.ops = ops ∧ fields x.context = c

theorem StoresRecords.faithful {ops : AbrOps σ} {bytes : σ → Metadata} (h : ops.StoresRecords bytes) :
    Faithful (ops.HoldsRecord bytes) where
  read := by
    rintro ⟨ops', s⟩ c ⟨hops, d, hparse, hc⟩
    obtain rfl : ops' = ops := hops
    obtain ⟨f, hf, hread⟩ := h.read
    obtain ⟨hval, hkept⟩ := hread AbrOpsSafe.zeroMetadata s
    refine ⟨bytes s, d, ⟨_, (f AbrOpsSafe.zeroMetadata s).2⟩, ?_, hparse, hc, rfl, d, ?_, hc⟩
    · show AbrOpsSafe.readAbrMetadata _ = _
      simp only [AbrOpsSafe.readAbrMetadata, hf, hval, if_true]
    · exact hkept ▸ hparse
  write := by
    rintro ⟨ops', s⟩ c d ⟨hops, -⟩ hd
    obtain rfl : ops' = ops := hops
    obtain ⟨f, hf, hwrite⟩ := h.write
    obtain ⟨hval, hkept⟩ := hwrite d.serialize s
    refine ⟨⟨_, (f d.serialize s).2⟩, ?_, rfl, d.updateCrc, ?_, rfl⟩
    · show AbrOpsSafe.writeAbrMetadata _ _ = _
      simp only [AbrOpsSafe.writeAbrMetadata, hf, hval, if_true]
    · rw [hkept]
      exact parse_serialize hd

theorem StoresFields.faithful {ops : AbrOps σ} {fields : σ → CustomMetadata} (h : ops.StoresFields fields) :
    Faithful (ops.HoldsFields fields) where
  read := by
    rintro ⟨ops', s⟩ c ⟨hops, rfl⟩
    obtain rfl : ops' = ops := hops
    obtain ⟨f, hf, hread⟩ := h.read
    obtain ⟨hval, hkept⟩ := hread AbrData.default.toCustom s
    refine ⟨_, _, ⟨_, (f AbrData.default.toCustom s).2⟩, ?_,
      parse_serialize (genuine_default.withCustom (fields s)), rfl, rfl, hkept⟩
    show AbrOpsSafe.readAbrMetadata _ = _
    simp only [AbrOpsSafe.readAbrMetadata, h.noRead, hf, hval, if_true]
  write := by
    rintro ⟨ops', s⟩ c d ⟨hops, -⟩ hd
    obtain rfl : ops' = ops := hops
    obtain ⟨f, hf, hwrite⟩ := h.write
    obtain ⟨hval, hkept⟩ := hwrite d.toCustom s
    have hfields : d.updateCrc.toCustom = d.toCustom := rfl
    refine ⟨⟨_, (f d.toCustom s).2⟩, ?_, rfl, hkept⟩
    show AbrOpsSafe.writeAbrMetadata _ _ = _
    simp only [AbrOpsSafe.writeAbrMetadata, h.noWrite, hf, parse_serialize hd, hfields, hval, if_true]

end AbrOps

/-! ## Callbacks that fail -/

section Quiet

structure Quiet (σ : Type) [Backend σ] : Prop where
  read : ∀ x : σ, (Backend.readAbrMetadata x).1.Returns
  write : ∀ (x : σ) {d : AbrData}, d.Genuine → (Backend.writeAbrMetadata d.serialize x).1.Returns

theorem quiet_abrOpsSafe (σ : Type) : Quiet (AbrOpsSafe σ) where
  read := by
    intro x
    show (AbrOpsSafe.readAbrMetadata x).1.Returns
    unfold AbrOpsSafe.readAbrMetadata
    split
    · dsimp only
      split <;> trivial
    · dsimp only
      split <;> trivial
    · trivial
  write := by
    intro x d hd
    show (AbrOpsSafe.writeAbrMetadata d.serialize x).1.Returns
    unfold AbrOpsSafe.writeAbrMetadata
    rw [parse_serialize hd]
    split
    · dsimp only
      split <;> trivial
    · dsimp only
      split <;> trivial
    · trivial

variable {σ : Type}

def Responds {α : Type} (m : Exec Error σ α) : Prop := ∀ x, ∃ a x', m x = (.ok a, x')

variable {α : Type} {d : AbrData} {edit : AbrData → Result (AbrData × α)} {d' : AbrData}

theorem responds_pure (a : α) : Responds (pure a : Exec Error σ α) := fun x => ⟨a, x, rfl⟩

theorem responds_unpacked {β : Type} {op : Exec Error σ α} (h : ∀ x, (op x).1.Returns) (into : α → β)
    (val : β) (reply : UInt32 → β → Reply) : Responds (unpacked into val op reply) := by
  intro x
  obtain ⟨v, hrun⟩ := attempt_run_returns (h x)
  exact ⟨_, _, bind_run_ok hrun⟩

theorem responds_onSlot (slotIndex : UInt32) (refused : Reply) {f : SlotIndex → Exec Error σ Reply}
    (hf : ∀ slot, Responds (f slot)) : Responds (onSlot slotIndex refused f) := by
  unfold onSlot
  cases SlotIndex.ofUInt slotIndex with
  | ok slot => exact hf slot
  | error e => exact responds_pure refused

variable [Backend σ]

theorem Quiet.load (h : Quiet σ) (x : σ) : ∃ (r : Except Error AbrData) (x' : σ),
    loadMetadata x = (loaded r, x') ∧ ∀ d, r = .ok d → d.Genuine := by
  have hreturns := h.read x
  rcases hread : Backend.readAbrMetadata x with ⟨(e | _ | _) | bytes, x'⟩
  · have hdes : deserialize x = (err e, x') := bind_run_error hread
    exact ⟨.error e, x', bind_run_ok (attempt_run_err hdes), nofun⟩
  · rw [hread] at hreturns
    exact hreturns.elim
  · rw [hread] at hreturns
    exact hreturns.elim
  · have hdes : deserialize x = (Res.ofExcept (parse bytes), x') := bind_run_ok hread
    refine ⟨parse bytes, x', ?_, fun d => genuine_of_parse⟩
    cases hp : parse bytes with
    | error e =>
      rw [hp] at hdes
      exact bind_run_ok (attempt_run_err hdes)
    | ok d =>
      rw [hp] at hdes
      exact bind_run_ok (attempt_run_ok hdes)

theorem Quiet.saveIfChanged (h : Quiet σ) (hd : d.Genuine) (orig : AbrData) (x : σ) :
    (saveMetadataIfChanged d orig x).1.Returns := by
  unfold saveMetadataIfChanged
  split
  · trivial
  · exact h.write x hd

theorem OnFields.genuine (h : OnFields edit) {a : α} (hd : d.Genuine) (he : edit d = .ok (d', a)) :
    d'.Genuine := by
  have halike := h.alike d d.toCustom
  rw [withCustom_toCustom, he] at halike
  obtain ⟨p, -, hp⟩ := Res.map_eq_ok.mp halike.symm
  rw [← (Prod.mk.inj hp).1]
  exact hd.withCustom _

theorem Quiet.load_cases (h : Quiet σ) (x : σ) : (∃ e x', loadMetadata x = (err e, x')) ∨
      ∃ (d orig : AbrData) (x' : σ), loadMetadata x = (.ok (d, orig), x') ∧ d.Genuine ∧ d.WF := by
  obtain ⟨r, x', hload, hr⟩ := h.load x
  obtain ⟨e | ⟨d, orig⟩, hl⟩ := exists_loaded_eq r
  · rw [hl] at hload
    exact .inl ⟨e, x', hload⟩
  · obtain ⟨hd, hwf, -⟩ := loaded_eq_ok hr hl
    rw [hl] at hload
    exact .inr ⟨d, orig, x', hload, hd, hwf⟩

theorem Quiet.load_bind (h : Quiet σ) {f : AbrData × AbrData → Exec Error σ α}
    (hf : ∀ d orig x', AbrData.Genuine d → (f (d, orig) x').1.Returns) (x : σ) :
    ((loadMetadata >>= f) x).1.Returns := by
  obtain ⟨e, x', hload⟩ | ⟨d, orig, x', hload, hd, -⟩ := h.load_cases x
  · rw [bind_run_error hload]
    trivial
  · rw [bind_run_ok hload]
    exact hf d orig x' hd

theorem Quiet.transact (h : Quiet σ) (hedit : OnFields edit) (x : σ) : (transact edit x).1.Returns := by
  apply h.load_bind
  intro d orig x' hd
  apply bind_returns (hedit.returns d)
  rintro ⟨d', a⟩ s'' he
  apply bind_returns (h.saveIfChanged (hedit.genuine hd (Prod.mk.inj he).1) orig s'')
  intro _ _ _
  trivial

theorem AbrData.bootSlot_ok (h : d.WF) : ∃ d', d.bootSlot d.getActiveSlot = .ok d' := by
  have hne := (d.policy h).state_active_ne_unbootable
  rw [getActiveSlot_eq h]
  cases hact : (d.policy h).active with
  | r => exact ⟨_, rfl⟩
  | a =>
    rw [hact] at hne
    exact ⟨_, bootSlot_a (hne (by simp))⟩
  | b =>
    rw [hact] at hne
    exact ⟨_, bootSlot_b (hne (by simp))⟩

theorem AbrData.genuine_bootSlot {slot : SlotIndex} (hd : d.Genuine) (h : d.bootSlot slot = .ok d') :
    d'.Genuine := by
  have halike := bootSlot_withCustom slot d d.toCustom
  rw [withCustom_toCustom, h] at halike
  obtain ⟨_, -, rfl⟩ := Res.map_eq_ok.mp halike.symm
  exact hd.withCustom _

theorem Quiet.bootActive (h : Quiet σ) (hd : d.Genuine) (hwf : d.WF) (update : Bool) (orig : AbrData) (x : σ) :
    ∃ r x', bootActive update d orig x = (.ok r, x') := by
  cases update with
  | false => exact ⟨_, x, rfl⟩
  | true =>
    obtain ⟨d', hboot⟩ := bootSlot_ok hwf
    obtain ⟨v, hsave⟩ := attempt_run_returns (h.saveIfChanged (genuine_bootSlot hd hboot) orig x)
    exact ⟨_, _, bootActive_run hboot hsave⟩

theorem Quiet.getBootSlot (h : Quiet σ) (update : Bool) (x : σ) : ∃ r x', getBootSlot update x = (.ok r, x') := by
  obtain ⟨e, x', hload⟩ | ⟨d, orig, x', hload, hd, hwf⟩ := h.load_cases x
  · exact ⟨_, x', bind_run_ok (attempt_run_err hload)⟩
  · unfold Abr.getBootSlot
    rw [bind_run_ok (attempt_run_ok hload)]
    dsimp only
    split
    · -- A request for recovery that cannot be cleared is ignored.
      have hcleared : ((d.setOneShotRecovery false).updateCrc).Genuine := hd
      have hagain : ((d.setOneShotRecovery false).updateCrc.setOneShotRecovery true).Genuine := hd
      have hagainWf : ((d.setOneShotRecovery false).updateCrc.setOneShotRecovery true).WF := ⟨hwf.a, hwf.b⟩
      have hreturns : (saveMetadata (d.setOneShotRecovery false).updateCrc x').1.Returns := h.write x' hcleared
      obtain ⟨v, hsave⟩ := attempt_run_returns hreturns
      rw [bind_run_ok hsave]
      cases v with
      | ok u => exact ⟨_, _, rfl⟩
      | error e => exact h.bootActive hagain hagainWf update orig _
    · exact h.bootActive hd hwf update orig x'

theorem Quiet.mark (h : Quiet σ) {edit : SlotIndex → AbrData → Result (AbrData × Unit)}
    (hedit : ∀ slot, slot ≠ .r → OnFields (edit slot)) (slot : SlotIndex) (x : σ) :
    ((if slot = .r then Exec.lift (err .invalidInput) else Abr.transact (edit slot) :
      Exec Error σ Unit) x).1.Returns := by
  by_cases hr : slot = .r
  · rw [if_pos hr]
    trivial
  · rw [if_neg hr]
    exact h.transact (hedit slot hr) x

theorem Quiet.responds (h : Quiet σ) (call : ApiCall) : Responds (call.run : Exec Error σ Reply) := by
  cases call with
  | abrGetBootSlot update out =>
    intro x
    obtain ⟨r, x', hrun⟩ := h.getBootSlot update x
    exact ⟨_, x', bind_run_ok hrun⟩
  | abrGetSlotSuffix slot =>
    apply responds_onSlot
    intro slot
    cases slot <;> exact responds_pure _
  | abrMarkSlotActive slot =>
    apply responds_onSlot
    intro slot
    exact responds_unpacked (h.mark (fun _ => onFields_markActive) slot) _ _ _
  | abrGetSlotLastMarkedActive out =>
    apply responds_unpacked
    apply h.load_bind
    intro _ _ _ _
    trivial
  | abrMarkSlotUnbootable slot =>
    apply responds_onSlot
    intro slot
    exact responds_unpacked (h.mark (fun _ => onFields_markUnbootable) slot) _ _ _
  | abrMarkSlotSuccessful slot =>
    apply responds_onSlot
    intro slot
    exact responds_unpacked (h.mark (fun _ => onFields_markSuccessful) slot) _ _ _
  | abrGetSlotInfo slot info =>
    apply responds_onSlot
    intro slot
    apply responds_unpacked
    apply h.load_bind
    intro _ _ _ _
    cases slot <;> trivial
  | abrSetOneShotRecovery enable =>
    exact responds_unpacked (h.transact (onFields_setOneShotRecovery enable)) id () fun code _ => .code code
  | abrSetOneShotBootloader enable =>
    exact responds_unpacked (h.transact (onFields_setOneShotBootloader enable)) id () fun code _ => .code code
  | abrGetAndClearOneShotFlags flags =>
    apply responds_unpacked
    exact h.transact onFields_getAndClearOneShotFlag

theorem Quiet.responds_all (h : Quiet σ) (calls : List ApiCall) :
    Responds (ApiCall.runAll calls : Exec Error σ (List Reply)) := by
  induction calls with
  | nil => exact responds_pure []
  | cons call calls ih =>
    intro x
    obtain ⟨reply, x₁, hrun₁⟩ := h.responds call x
    obtain ⟨replies, x₂, hrun₂⟩ := ih x₁
    exact ⟨reply :: replies, x₂, (bind_run_ok hrun₁).trans (bind_run_ok hrun₂)⟩

end Quiet

/-! ## The equivalence -/

/-- **The two backends of the C interface are equivalent.** Started with the same slot data and flags, they give the
same replies to every sequence of calls and keep the same data. No call panics, even where callbacks fail. -/
theorem backends_equivalent {σ τ : Type} (records : AbrOps σ) (custom : AbrOps τ) (bytes : σ → Metadata)
    (fields : τ → CustomMetadata) (hrecords : records.StoresRecords bytes)
    (hcustom : custom.StoresFields fields) (s : σ) (t : τ) (d : AbrData) (hs : parse (bytes s) = .ok d)
    (ht : fields t = d.toCustom) (calls : List ApiCall) :
    (∃ replies s' t' d', ApiCall.runAll calls (AbrOpsSafe.mk records s) = (.ok replies, ⟨records, s'⟩) ∧
      ApiCall.runAll calls (AbrOpsSafe.mk custom t) = (.ok replies, ⟨custom, t'⟩) ∧
      parse (bytes s') = .ok d' ∧ fields t' = d'.toCustom) ∧
    ∀ (ops : AbrOps τ) (t : τ), ∃ replies x, ApiCall.runAll calls (AbrOpsSafe.mk ops t) = (.ok replies, x) := by
  constructor
  · obtain ⟨replies, c', hcalls⟩ := ApiCall.answers_all calls d.toCustom
    obtain ⟨⟨ops, s'⟩, hrun₁, hops, d', hd', hc'⟩ :=
      hcalls _ _ hrecords.faithful ⟨records, s⟩ ⟨rfl, d, hs, rfl⟩
    obtain ⟨⟨ops', t'⟩, hrun₂, hops', hfields⟩ := hcalls _ _ hcustom.faithful ⟨custom, t⟩ ⟨rfl, ht⟩
    obtain rfl : ops = records := hops
    obtain rfl : ops' = custom := hops'
    exact ⟨replies, s', t', d', hrun₁, hrun₂, hd', hfields.trans hc'.symm⟩
  · intro ops t
    exact (quiet_abrOpsSafe τ).responds_all calls ⟨ops, t⟩

def recordCell : AbrOps Metadata where
  readAbrMetadata := some fun _ s => ((true, s), s)
  writeAbrMetadata := some fun data _ => (true, data)
  readAbrMetadataCustom := none
  writeAbrMetadataCustom := none

def fieldsCell : AbrOps CustomMetadata where
  readAbrMetadata := none
  writeAbrMetadata := none
  readAbrMetadataCustom := some fun _ s => ((true, s), s)
  writeAbrMetadataCustom := some fun data _ => (true, data)

theorem storesRecords_recordCell : recordCell.StoresRecords id :=
  ⟨⟨_, rfl, fun _ _ => ⟨rfl, rfl⟩⟩, ⟨_, rfl, fun _ _ => ⟨rfl, rfl⟩⟩⟩

theorem storesFields_fieldsCell : fieldsCell.StoresFields id :=
  ⟨rfl, rfl, ⟨_, rfl, fun _ _ => ⟨rfl, rfl⟩⟩, ⟨_, rfl, fun _ _ => ⟨rfl, rfl⟩⟩⟩

theorem backends_equivalent_cells : ∃ replies s' t' d',
    ApiCall.runAll [.abrMarkSlotActive 1, .abrGetBootSlot true (some false)]
      (AbrOpsSafe.mk recordCell AbrData.default.serialize) = (.ok replies, ⟨recordCell, s'⟩) ∧
    ApiCall.runAll [.abrMarkSlotActive 1, .abrGetBootSlot true (some false)]
      (AbrOpsSafe.mk fieldsCell AbrData.default.toCustom) = (.ok replies, ⟨fieldsCell, t'⟩) ∧
    parse s' = .ok d' ∧ t' = d'.toCustom :=
  (backends_equivalent recordCell fieldsCell id id storesRecords_recordCell storesFields_fieldsCell _ _ _
    (parse_serialize genuine_default) rfl [.abrMarkSlotActive 1, .abrGetBootSlot true (some false)]).1

end Gbl.Abr
