import Gbl.Abr.Operations
import Gbl.Abr.Checksum
import Gbl.Slots.Calls

/-!
# The two A/B/R implementations on the same bytes

`libabr` and the Fuchsia manager of `libgbl` read the same record.
-/

namespace Gbl.Abr

open Lib

/-! ## What the library stores -/

namespace AbrData

structure Plain (d : AbrData) : Prop where
  a : d.slotA.successfulBoot ≤ 1
  b : d.slotB.successfulBoot ≤ 1
  flags : d.oneShotFlags ∈ [0, 1, 2, 3]

variable {d d' : AbrData}

variable {slot : SlotIndex} {u : Unit}

theorem plain_modifySlot (h : d.Plain) {f : AbrSlotData → AbrSlotData} (he : d.modifySlot slot f = .ok d')
    (hf : ∀ x : AbrSlotData, x.successfulBoot ≤ 1 → (f x).successfulBoot ≤ 1) : d'.Plain := by
  cases slot with
  | a => cases he; exact ⟨hf _ h.a, h.b, h.flags⟩
  | b => cases he; exact ⟨h.a, hf _ h.b, h.flags⟩
  | r => cases he

theorem plain_setOneShot (h : d.Plain) {bit : UInt8} (hbit : bit ∈ [1, 2]) (enable : Bool) :
    (d.setOneShot bit enable).Plain := by
  have hflags : ∀ flags ∈ [(0 : UInt8), 1, 2, 3], ∀ bit ∈ [(1 : UInt8), 2],
      (flags ||| bit) ∈ [(0 : UInt8), 1, 2, 3] ∧ (flags &&& ~~~ bit) ∈ [(0 : UInt8), 1, 2, 3] := by
    simp only [List.mem_cons, List.not_mem_nil, or_false, forall_eq_or_imp, forall_eq]
    decide
  have hd := hflags _ h.flags _ hbit
  refine ⟨h.a, h.b, ?_⟩
  cases enable with
  | true => exact hd.1
  | false => exact hd.2

theorem successfulBoot_clearUnless {x : AbrSlotData} (h : x.successfulBoot ≤ 1) (boot slot : SlotIndex) :
    (x.clearUnless boot slot).successfulBoot ≤ 1 := by
  unfold AbrSlotData.clearUnless
  split
  · exact (by decide : (0 : UInt8) ≤ 1)
  · exact h

theorem plain_clearOthers (h : d.Plain) (slot : SlotIndex) : (d.clearOthers slot).Plain :=
  ⟨successfulBoot_clearUnless h.a _ _, successfulBoot_clearUnless h.b _ _, h.flags⟩

theorem plain_bootSlot (h : d.Plain) (he : d.bootSlot slot = .ok d') : d'.Plain := by
  rw [bootSlot] at he
  split at he
  · obtain ⟨d₁, hconsume, hd'⟩ := Res.bind_eq_ok.mp he
    obtain ⟨x, -, hx⟩ := Res.bind_eq_ok.mp hconsume
    split at hx
    · cases hx
    · cases hd'
      exact plain_clearOthers (plain_modifySlot h hx fun _ hs => hs) slot
  · cases he
    exact plain_clearOthers h slot

theorem plain_markActive (h : d.Plain) (he : d.markActive slot = .ok (d', u)) : d'.Plain := by
  obtain ⟨d₁, h₁, hrest⟩ := Res.bind_eq_ok.mp he
  obtain ⟨other, -, hother⟩ := Res.bind_eq_ok.mp hrest
  obtain ⟨d₂, h₂, hpure⟩ := Res.bind_eq_ok.mp hother
  cases hpure
  have hfirst := plain_modifySlot h h₁ fun _ _ => (by decide : (0 : UInt8) ≤ 1)
  exact plain_modifySlot hfirst h₂ fun _ hs => hs

theorem plain_markUnbootable (h : d.Plain) (he : d.markUnbootable slot = .ok (d', u)) : d'.Plain := by
  obtain ⟨d₁, h₁, hpure⟩ := Res.bind_eq_ok.mp he
  cases hpure
  exact plain_modifySlot h h₁ fun _ _ => (by decide : (0 : UInt8) ≤ 1)

theorem plain_markSuccessful (h : d.Plain) (he : d.markSuccessful slot = .ok (d', u)) : d'.Plain := by
  obtain ⟨x, -, hx⟩ := Res.bind_eq_ok.mp he
  obtain ⟨v, -, hv⟩ := Res.bind_eq_ok.mp hx
  obtain ⟨d₁, h₁, hrest⟩ := Res.bind_eq_ok.mp hv
  obtain ⟨other, -, hother⟩ := Res.bind_eq_ok.mp hrest
  obtain ⟨d₂, h₂, hpure⟩ := Res.bind_eq_ok.mp hother
  cases hpure
  have hfirst := plain_modifySlot h h₁ fun _ _ => (by decide : (1 : UInt8) ≤ 1)
  refine plain_modifySlot hfirst h₂ fun x hs => ?_
  split
  · exact (by decide : (0 : UInt8) ≤ 1)
  · exact hs

theorem plain_edit (h : d.Plain) {op : Op} (he : op.edit d = .ok d') : d'.Plain := by
  cases op with
  | getBootSlot update =>
    cases update with
    | false => cases he; exact h
    | true =>
      simp only [Op.edit] at he
      split at he
      · cases he
        exact plain_setOneShot h (by decide) false
      · exact plain_bootSlot h he
  | markSlotActive slot =>
    obtain ⟨⟨d₁, u⟩, hm, rfl⟩ := Res.map_eq_ok.mp he
    exact plain_markActive h hm
  | getSlotLastMarkedActive => cases he; exact h
  | markSlotUnbootable slot =>
    obtain ⟨⟨d₁, u⟩, hm, rfl⟩ := Res.map_eq_ok.mp he
    exact plain_markUnbootable h hm
  | markSlotSuccessful slot =>
    obtain ⟨⟨d₁, u⟩, hm, rfl⟩ := Res.map_eq_ok.mp he
    exact plain_markSuccessful h hm
  | getSlotInfo slot => cases he; exact h
  | setOneShotRecovery enable => cases he; exact plain_setOneShot h (by decide) enable
  | setOneShotBootloader enable => cases he; exact plain_setOneShot h (by decide) enable
  | getAndClearOneShotFlag => cases he; exact ⟨h.a, h.b, (by decide : (0 : UInt8) ∈ [0, 1, 2, 3])⟩
  | getAndClearOneShotBootloader => cases he; exact plain_setOneShot h (by decide) false

end AbrData

def freshOps : Ops := ⟨AbrData.default.serialize, fun _ => none, []⟩

namespace Ops

def Holds (s : Ops) (d : AbrData) : Prop :=
  s.Working ∧ AbrData.parse s.content = .ok d ∧ d.WF ∧ d.Plain

variable {s : Ops} {d : AbrData}

theorem holds_freshOps : freshOps.Holds AbrData.default.updateCrc := by
  refine ⟨fun _ _ => rfl, AbrData.parse_serialize AbrData.genuine_default, ?_, ?_⟩
  · have hwf : AbrData.default.normalize.WF := AbrData.wf_normalize _
    exact ⟨hwf.a, hwf.b⟩
  · exact ⟨by decide, by decide, by decide⟩

theorem Holds.run (h : s.Holds d) (op : Op) : ∃ d', (op.run s).2.Holds d' := by
  obtain ⟨hw, hp, hwf, hplain⟩ := h
  obtain ⟨hw', ⟨hc, -⟩ | ⟨d₁, orig, d', crc, hl, he, hp'⟩⟩ := op.run_spec hw
  · exact ⟨d, hw', by rw [hc, hp], hwf, hplain⟩
  · have hsame : (d, d) = (d₁, orig) := Except.ok.inj ((AbrData.loaded_of_parse hp hwf).symm.trans hl)
    obtain ⟨rfl, -⟩ := Prod.mk.inj hsame
    have hedit := (op.edit_spec hwf he).1
    have hnew := AbrData.plain_edit hplain he
    exact ⟨_, hw', hp', ⟨hedit.wf.a, hedit.wf.b⟩, hnew.a, hnew.b, hnew.flags⟩

theorem Holds.runAll (h : s.Holds d) (ops : List Op) : ∃ d', (Op.runAll ops s).Holds d' := by
  induction ops generalizing s d with
  | nil => exact ⟨d, h⟩
  | cons op ops ih =>
    obtain ⟨d', h'⟩ := h.run op
    exact ih h'

theorem Holds.getBootSlot (h : s.Holds d) : ∃ good,
    (getBootSlot true s).1 = .ok (if d.isOneShotRecovery then .r else d.getActiveSlot, good) := by
  obtain ⟨hw, hp, hwf, -⟩ := h
  have hl := AbrData.loaded_of_parse hp hwf
  cases hrec : d.isOneShotRecovery with
  | true => exact ⟨false, by rw [getBootSlot_run_recovery hw hl hrec]; rfl⟩
  | false =>
    obtain ⟨d', hd', -⟩ := AbrData.bootSlot_spec hwf hrec
    exact ⟨_, by rw [getBootSlot_run_boot hw hl hrec hd']; rfl⟩

end Ops

end Gbl.Abr

namespace Gbl.Slots

open Lib

/-! ## The same bytes -/

namespace Fuchsia

def AbrSlotData.ofAbr (x : Abr.AbrSlotData) : AbrSlotData :=
  ⟨x.priority, x.triesRemaining, x.successfulBoot, x.reserved⟩

def AbrData.ofAbr (d : Abr.AbrData) : AbrData where
  magic := d.magic
  versionMajor := d.versionMajor
  versionMinor := d.versionMinor
  reserved := d.reserved
  slotData := #v[.ofAbr d.slotA, .ofAbr d.slotB]
  oneshotFlag := d.oneShotFlags
  reserved2 := d.reserved2
  crc32 := d.crc32

theorem enc_body_ofAbr (d : Abr.AbrData) :
    AbrData.bodyCodec.enc (AbrData.ofAbr d).body = Abr.AbrData.bodyCodec.enc d.body := by
  have hslot : ∀ x, AbrSlotData.codec.enc (.ofAbr x) = Abr.AbrSlotData.codec.enc x := fun _ => rfl
  have hslots : (AbrSlotData.codec.vector 2).enc #v[.ofAbr d.slotA, .ofAbr d.slotB] =
      Abr.AbrSlotData.codec.enc d.slotA ++ Abr.AbrSlotData.codec.enc d.slotB := by
    simp [Codec.vector, hslot]
  simp only [AbrData.bodyCodec, AbrData.body, AbrData.ofAbr, Abr.AbrData.bodyCodec, Abr.AbrData.body, Codec.pair]
  rw [← List.append_assoc (Abr.AbrSlotData.codec.enc d.slotA), ← hslots]

theorem enc_ofAbr (d : Abr.AbrData) : AbrData.codec.enc (AbrData.ofAbr d) = Abr.AbrData.codec.enc d := by
  have hbody := enc_body_ofAbr d
  show AbrData.bodyCodec.enc (AbrData.ofAbr d).body ++ Codec.u32.reversed.enc d.crc32 =
    Abr.AbrData.bodyCodec.enc d.body ++ Codec.u32.reversed.enc d.crc32
  rw [hbody]

theorem validate_of_parse {c : Abr.Metadata} {d : Abr.AbrData} (h : Abr.AbrData.parse c = .ok d) :
    (slotManager Crc32.crc32).bytes.validate c.val = .ok (AbrData.ofAbr d) := by
  obtain ⟨hdec, ⟨hmagic, hversion⟩, hcrc⟩ := Abr.AbrData.parse_eq_ok h
  have henc : Abr.AbrData.codec.enc d = c.val := by
    rw [← hdec]
    exact Abr.AbrData.codec.enc_dec c.val c.property
  have hbody : c.val.take 28 = AbrData.bodyCodec.enc (AbrData.ofAbr d).body := by
    rw [enc_body_ofAbr, ← henc]
    exact Abr.AbrData.take_bytes d
  have hcheck : (slotManager Crc32.crc32).bytes.check (AbrData.ofAbr d) = .ok () := by
    refine (check_eq_ok Crc32.crc32).mpr ⟨hmagic, hversion, ?_⟩
    rw [Abr.crc32_eq, hbody] at hcrc
    exact hcrc
  have hvalid := Manager.validate_persisted (M := manager Crc32.crc32) [] hcheck
  have hbytes : (manager Crc32.crc32).bytes.codec.enc (AbrData.ofAbr d) = c.val := (enc_ofAbr d).trans henc
  rwa [hbytes, List.drop_nil, List.append_nil] at hvalid

theorem load_of_parse {c : Abr.Metadata} {d : Abr.AbrData} (h : Abr.AbrData.parse c = .ok d) :
    (slotManager Crc32.crc32).load c.val = ⟨.clean, true, AbrData.ofAbr d⟩ := by
  simp only [Manager.load, SlotBlock.deserialize, validate_of_parse h]

/-! ## The same decision -/

theorem isBootable_ofAbr {c : Char} {x : Abr.AbrSlotData} (hwf : x.WF) (hplain : x.successfulBoot ≤ 1) :
    (toSlot c (.ofAbr x)).isBootable = x.isSlotBootable := by
  have hsucc : x.successfulBoot ≠ 0 ↔ x.successfulBoot = 1 := by grind
  have hprio : 0 < x.triesRemaining ∨ x.successfulBoot = 1 → 0 < x.priority := by
    have htries := hwf.tries_of_zero
    have hsuccessful := hwf.successful_of_zero
    grind
  unfold toSlot Slot.isBootable Abr.AbrSlotData.isSlotBootable AbrSlotData.ofAbr
  grind

theorem key_ofAbr_lt (x y : Abr.AbrSlotData) :
    (toSlot 'b' (.ofAbr y)).key < (toSlot 'a' (.ofAbr x)).key ↔ ¬ x.priority < y.priority := by
  have hrank : (toSlot 'b' (.ofAbr y)).rank < (toSlot 'a' (.ofAbr x)).rank :=
    (by decide : -('b'.toNat : Int) < -('a'.toNat : Int))
  have hpriority : ∀ c z, (toSlot c (.ofAbr z)).priority = z.priority.toNat := fun _ _ => rfl
  rw [Slot.key, Slot.key, Prod.Lex.toLex_lt_toLex, hpriority, hpriority, UInt8.lt_iff_toNat_lt]
  simp only [hrank, and_true]
  omega

theorem bestBootable_ofAbr {d : Abr.AbrData} (hwf : d.WF) (hplain : d.Plain) :
    bestBootable (slots (AbrData.ofAbr d)) = match d.getActiveSlot with
      | .a => some (toSlot 'a' (.ofAbr d.slotA))
      | .b => some (toSlot 'b' (.ofAbr d.slotB))
      | .r => none := by
  have hslots : slots (AbrData.ofAbr d) = [toSlot 'a' (.ofAbr d.slotA), toSlot 'b' (.ofAbr d.slotB)] := rfl
  have hpositive : ∀ x : Abr.AbrSlotData, x.isSlotBootable = true → 0 < x.priority := by
    intro x hx
    simp only [Abr.AbrSlotData.isSlotBootable, Bool.and_eq_true, decide_eq_true_eq] at hx
    exact hx.1
  rw [bestBootable, hslots, List.filter_cons, List.filter_cons, isBootable_ofAbr hwf.a hplain.a,
    isBootable_ofAbr hwf.b hplain.b]
  simp only [Abr.AbrData.getActiveSlot, Abr.AbrSlotData.getNormalizedPriority]
  by_cases ha : d.slotA.isSlotBootable = true <;> by_cases hb : d.slotB.isSlotBootable = true
  · have hkey := key_ofAbr_lt d.slotA d.slotB
    by_cases hlt : d.slotA.priority < d.slotB.priority
    · simp [maxByKey, ha, hb, hkey, hlt]
    · simp [maxByKey, ha, hb, hkey, hlt, hpositive _ ha]
  · simp [maxByKey, ha, hb, hpositive _ ha]
  · simp [maxByKey, ha, hb, hpositive _ hb]
  · simp [maxByKey, ha, hb]

end Fuchsia

def SameChoice : Abr.SlotIndex → BootTarget → Prop
  | .r, .recovery _ => True
  | .a, .normalBoot slot => slot.suffix = 'a'
  | .b, .normalBoot slot => slot.suffix = 'b'
  | _, _ => False

def OneShotBit (bit : UInt8) (s : Abr.Ops) : Prop :=
  (Abr.AbrData.codec.dec s.content).oneShotFlags &&& bit ≠ 0

structure Agree (s : Abr.Ops) : Prop where
  /-- The next boot is the same. -/
  boot : ∃ slot good target, (Abr.getBootSlot true s).1 = .ok (slot, good) ∧
    (Fuchsia.slotManager Crc32.crc32).target ((Fuchsia.slotManager Crc32.crc32).load s.content.val).data =
      .ok target ∧ SameChoice slot target
  /-- Where `libabr` has a one-shot, the manager has one. -/
  oneshot : OneShotBit Abr.oneShotBootloader s ∨ OneShotBit Abr.oneShotRecovery s →
    (Fuchsia.slotManager Crc32.crc32).getOneshotStatus
        ((Fuchsia.slotManager Crc32.crc32).load s.content.val).data = some .bootloader ∧
      OneShotBit Abr.oneShotBootloader s ∨
    (Fuchsia.slotManager Crc32.crc32).getOneshotStatus
        ((Fuchsia.slotManager Crc32.crc32).load s.content.val).data = some (.continueTo .dedicated) ∧
      OneShotBit Abr.oneShotRecovery s

variable {s : Abr.Ops} {d : Abr.AbrData}

theorem attemptTarget_ofAbr (hwf : d.WF) (hplain : d.Plain) (hflags : d.oneShotFlags ≠ 3) :
    ∃ target, Fuchsia.attemptTarget (.ofAbr d) = .ok target ∧
      SameChoice (if d.isOneShotRecovery then .r else d.getActiveSlot) target := by
  have hrecovery : d.isOneShotRecovery = true ↔
      (Fuchsia.AbrData.ofAbr d).oneshotFlag = Fuchsia.OneShotFlags.recovery := by
    have hbits : ∀ flags ∈ [(0 : UInt8), 1, 2, 3], flags ≠ 3 → ((flags &&& 1 != 0) = true ↔ flags = 1) := by
      simp only [List.mem_cons, List.not_mem_nil, or_false, forall_eq_or_imp, forall_eq]
      decide
    exact hbits _ hplain.flags hflags
  rw [Fuchsia.attemptTarget_eq]
  by_cases hrec : (Fuchsia.AbrData.ofAbr d).oneshotFlag = Fuchsia.OneShotFlags.recovery
  · rw [if_pos hrec, if_pos (hrecovery.mpr hrec)]
    exact ⟨_, rfl, trivial⟩
  · rw [if_neg hrec, if_neg fun h => hrec (hrecovery.mp h), Fuchsia.getBootTarget,
      Fuchsia.bestBootable_ofAbr hwf hplain]
    cases d.getActiveSlot with
    | a => exact ⟨_, rfl, rfl⟩
    | b => exact ⟨_, rfl, rfl⟩
    | r => exact ⟨_, rfl, trivial⟩

theorem toOneShot_of_bits : ∀ flags ∈ [(0 : UInt8), 1, 2, 3], flags ≠ 3 →
    (flags &&& Abr.oneShotBootloader ≠ 0 ∨ flags &&& Abr.oneShotRecovery ≠ 0) →
    Fuchsia.OneShotFlags.toOneShot flags = some .bootloader ∧ flags &&& Abr.oneShotBootloader ≠ 0 ∨
      Fuchsia.OneShotFlags.toOneShot flags = some (.continueTo .dedicated) ∧ flags &&& Abr.oneShotRecovery ≠ 0 := by
  simp only [List.mem_cons, List.not_mem_nil, or_false, forall_eq_or_imp, forall_eq]
  refine ⟨?_, ?_, ?_, ?_⟩ <;> decide

theorem agree_iff (h : s.Holds d) :
    Agree s ↔ ¬ (OneShotBit Abr.oneShotRecovery s ∧ OneShotBit Abr.oneShotBootloader s) := by
  obtain ⟨good, hboot⟩ := h.getBootSlot
  obtain ⟨hw, hp, hwf, hplain⟩ := h
  have hload : ((Fuchsia.slotManager Crc32.crc32).load s.content.val).data = .ofAbr d := by
    rw [Fuchsia.load_of_parse hp]
  have hbit : ∀ bit, OneShotBit bit s ↔ d.oneShotFlags &&& bit ≠ 0 := by
    intro bit
    rw [OneShotBit, (Abr.AbrData.parse_eq_ok hp).1]
  have hboth : (OneShotBit Abr.oneShotRecovery s ∧ OneShotBit Abr.oneShotBootloader s) ↔ d.oneShotFlags = 3 := by
    have hbits : ∀ flags ∈ [(0 : UInt8), 1, 2, 3],
        (flags &&& Abr.oneShotRecovery ≠ 0 ∧ flags &&& Abr.oneShotBootloader ≠ 0 ↔ flags = 3) := by
      simp only [List.mem_cons, List.not_mem_nil, or_false, forall_eq_or_imp, forall_eq]
      decide
    rw [hbit, hbit]
    exact hbits _ hplain.flags
  have hstatus : (Fuchsia.slotManager Crc32.crc32).getOneshotStatus (.ofAbr d) =
      Fuchsia.OneShotFlags.toOneShot d.oneShotFlags := rfl
  rw [hboth]
  constructor
  · intro hagree h3
    have hbits := hboth.mpr h3
    have hone := hagree.oneshot (.inl hbits.2)
    rw [hload, hstatus, h3] at hone
    rcases hone with hone | hone <;> exact absurd hone.1 (by decide)
  · intro hflags
    obtain ⟨target, htarget, hchoice⟩ := attemptTarget_ofAbr hwf hplain hflags
    refine ⟨⟨_, good, target, hboot, ?_, hchoice⟩, ?_⟩
    · rw [hload]
      exact htarget
    · rw [hload, hstatus]
      simp only [hbit]
      exact toOneShot_of_bits _ hplain.flags hflags

/-- The two A/B/R implementations agree about everything that `libabr` stores, starting from its default
record, except where it stores both one-shots. -/
theorem implementations_agree_iff (ops : List Abr.Op) :
    Agree (Abr.Op.runAll ops Abr.freshOps) ↔
      ¬ (OneShotBit Abr.oneShotRecovery (Abr.Op.runAll ops Abr.freshOps) ∧
        OneShotBit Abr.oneShotBootloader (Abr.Op.runAll ops Abr.freshOps)) := by
  obtain ⟨d, hholds⟩ := Abr.Ops.holds_freshOps.runAll ops
  exact agree_iff hholds

/-- Both one-shots are set, and the manager knows of none. -/
theorem both_oneshots_disagree :
    ¬ Agree (Abr.Op.runAll [.setOneShotRecovery true, .setOneShotBootloader true] Abr.freshOps) := by
  intro hagree
  have hbit : OneShotBit Abr.oneShotBootloader
      (Abr.Op.runAll [.setOneShotRecovery true, .setOneShotBootloader true] Abr.freshOps) := by
    unfold OneShotBit
    decide +kernel
  have hstatus : (Fuchsia.slotManager Crc32.crc32).getOneshotStatus ((Fuchsia.slotManager Crc32.crc32).load
      (Abr.Op.runAll [.setOneShotRecovery true, .setOneShotBootloader true] Abr.freshOps).content.val).data =
      none := by
    decide +kernel
  have hone := hagree.oneshot (.inl hbit)
  rw [hstatus] at hone
  rcases hone with hone | hone <;> exact absurd hone.1 (by decide)

end Gbl.Slots
