import Gbl.Abr.Backends
import Gbl.Abr.Faults
import Gbl.Slots.Agreement

/-!
# What `libabr` writes is accepted by `libgbl`

The two libraries read each other's records, and each checks a checksum that it computes in its own way.
-/

namespace Gbl.Abr

open Lib Lib.Exec AbrData

namespace Ops

def Adds (s s' : Ops) : Prop :=
  ∃ written, s'.writes = written ++ s.writes ∧ ∀ data ∈ written, ∃ d : AbrData, d.Genuine ∧ data = d.serialize

theorem Adds.of_eq {s s' : Ops} (h : s'.writes = s.writes) : s.Adds s' := ⟨[], h, nofun⟩

theorem Adds.trans {s s' s'' : Ops} (h : s.Adds s') (h' : s'.Adds s'') : s.Adds s'' := by
  obtain ⟨written, hw, hgenuine⟩ := h
  obtain ⟨written', hw', hgenuine'⟩ := h'
  refine ⟨written' ++ written, ?_, ?_⟩
  · rw [hw', hw, List.append_assoc]
  · intro data hdata
    rcases List.mem_append.mp hdata with hmem | hmem
    · exact hgenuine' data hmem
    · exact hgenuine data hmem

theorem adds_bind {α β : Type} {m : Exec Error Ops α} {f : α → Exec Error Ops β} {s : Ops}
    (hm : s.Adds (m s).2) (hf : ∀ a s', m s = (.ok a, s') → s'.Adds (f a s').2) :
    s.Adds ((m >>= f) s).2 := by
  rcases hrun : m s with ⟨e | a, s'⟩
  · rw [hrun] at hm
    rw [bind_run_error hrun]
    exact hm
  · rw [hrun] at hm
    rw [bind_run_ok hrun]
    exact hm.trans (hf a s' hrun)

theorem adds_save {d : AbrData} (hd : d.Genuine) (s : Ops) : s.Adds (saveMetadata d s).2 := by
  refine ⟨[d.serialize], ?_, ?_⟩
  · rw [saveMetadata, backend_write, writes_writeAbrMetadata]
    rfl
  · intro data hdata
    exact ⟨d, hd, List.mem_singleton.mp hdata⟩

theorem adds_saveIfChanged {d : AbrData} (hd : d.Genuine) (orig : AbrData) (s : Ops) :
    s.Adds (saveMetadataIfChanged d orig s).2 := by
  unfold saveMetadataIfChanged
  split
  · exact .of_eq rfl
  · exact adds_save hd s

theorem adds_load (s : Ops) : s.Adds (loadMetadata s).2 := by
  rw [loadMetadata_run]
  exact .of_eq (writes_called_read s)

theorem genuine_of_load {s s' : Ops} {d orig : AbrData} (h : loadMetadata s = (.ok (d, orig), s')) :
    d.Genuine := by
  rw [loadMetadata_run] at h
  exact (loaded_eq_ok (fun _ hr => genuine_of_parse (parse_of_record hr)) (Prod.mk.inj h).1).1

theorem adds_transact {α : Type} {edit : AbrData → Result (AbrData × α)} (hedit : OnFields edit) (s : Ops) :
    s.Adds (transact edit s).2 := by
  apply adds_bind (adds_load s)
  rintro ⟨d, orig⟩ s₁ hload
  apply adds_bind (.of_eq rfl)
  rintro ⟨d', a⟩ s₂ he
  have hd' := hedit.genuine (genuine_of_load hload) (Prod.mk.inj he).1
  apply adds_bind (adds_saveIfChanged hd' orig s₂)
  intro _ _ _
  exact .of_eq rfl

theorem adds_mark {edit : SlotIndex → AbrData → Result (AbrData × Unit)}
    (hedit : ∀ slot, slot ≠ .r → OnFields (edit slot)) (slot : SlotIndex) (s : Ops) :
    s.Adds ((if slot = .r then Exec.lift (err .invalidInput) else transact (edit slot) :
      Exec Error Ops Unit) s).2 := by
  by_cases hr : slot = .r
  · rw [if_pos hr]
    exact .of_eq rfl
  · rw [if_neg hr]
    exact adds_transact (hedit slot hr) s

theorem adds_bootActive {d : AbrData} (hd : d.Genuine) (update : Bool) (orig : AbrData) (s : Ops) :
    s.Adds (bootActive update d orig s).2 := by
  apply adds_bind
  · cases update with
    | false => exact .of_eq rfl
    | true =>
      apply adds_bind (.of_eq rfl)
      intro d' s' hboot
      have hd' := genuine_bootSlot hd (Prod.mk.inj hboot).1
      apply adds_bind
      · rw [attempt_snd]
        exact adds_saveIfChanged hd' orig s'
      · intro _ _ _
        exact .of_eq rfl
  · intro _ _ _
    exact .of_eq rfl

theorem adds_getBootSlot (update : Bool) (s : Ops) : s.Adds (getBootSlot update s).2 := by
  apply adds_bind
  · rw [attempt_snd]
    exact adds_load s
  · intro r s' hload
    cases r with
    | error e => exact .of_eq rfl
    | ok p =>
      have hd : p.1.Genuine := genuine_of_load (attempt_run_eq_ok hload)
      dsimp only
      split
      · have hcleared : (p.1.setOneShotRecovery false).updateCrc.Genuine := hd
        have hagain : ((p.1.setOneShotRecovery false).updateCrc.setOneShotRecovery true).Genuine := hd
        apply adds_bind
        · rw [attempt_snd]
          exact adds_save hcleared s'
        · intro r' s'' _
          cases r' with
          | ok u => exact .of_eq rfl
          | error e => exact adds_bootActive hagain update p.2 s''
      · exact adds_bootActive hd update p.2 s'

end Ops

theorem Op.adds_run (op : Op) (s : Ops) : s.Adds (op.run s).2 := by
  cases op with
  | getBootSlot update =>
    rw [run, ignore_snd]
    exact Ops.adds_getBootSlot update s
  | markSlotActive slot => exact Ops.adds_mark (fun _ => onFields_markActive) slot s
  | getSlotLastMarkedActive =>
    rw [run, ignore_snd, Abr.getSlotLastMarkedActive, bind_snd_of_const (fun _ _ => rfl)]
    exact Ops.adds_load s
  | markSlotUnbootable slot => exact Ops.adds_mark (fun _ => onFields_markUnbootable) slot s
  | markSlotSuccessful slot => exact Ops.adds_mark (fun _ => onFields_markSuccessful) slot s
  | getSlotInfo slot =>
    rw [run, ignore_snd, Abr.getSlotInfo, bind_snd_of_const (fun _ _ => by cases slot <;> rfl)]
    exact Ops.adds_load s
  | setOneShotRecovery enable => exact Ops.adds_transact (onFields_setOneShotRecovery enable) s
  | setOneShotBootloader enable => exact Ops.adds_transact (onFields_setOneShotBootloader enable) s
  | getAndClearOneShotFlag =>
    rw [run, ignore_snd]
    exact Ops.adds_transact onFields_getAndClearOneShotFlag s
  | getAndClearOneShotBootloader =>
    rw [run, ignore_snd]
    refine Ops.adds_transact ?_ s
    exact ⟨fun _ _ => rfl, fun _ => trivial⟩

theorem Op.adds_runAll (ops : List Op) (s : Ops) : s.Adds (Op.runAll ops s) := by
  induction ops generalizing s with
  | nil => exact .of_eq rfl
  | cons op ops ih => exact (op.adds_run s).trans (ih _)

end Gbl.Abr

namespace Gbl.Slots.Fuchsia

open Lib

theorem validate_serialize {d : Abr.AbrData} (hd : d.Genuine) :
    (AbrData.metadataBytes Crc32.crc32).validate d.serialize.val = .ok (AbrData.ofAbr d.updateCrc) :=
  validate_of_parse (Abr.AbrData.parse_serialize hd)

/-- **The checksum of `libabr` is the standard CRC-32**, so with a crate that computes that one, `libgbl`
accepts every record that `libabr` writes: on any storage, whatever it holds and however it fails, and in
any sequence of operations. -/
theorem crc32_standard :
    (∀ data, Abr.crc32 data = Crc32.crc32 data) ∧
    ∀ (s : Abr.Ops) (ops : List Abr.Op), ∃ written, (Abr.Op.runAll ops s).writes = written ++ s.writes ∧
      ∀ data ∈ written, ∃ d : Abr.AbrData, data = d.serialize ∧
        (AbrData.metadataBytes Crc32.crc32).validate data.val = .ok (AbrData.ofAbr d.updateCrc) := by
  refine ⟨Abr.crc32_eq, ?_⟩
  intro s ops
  obtain ⟨written, hwritten, hgenuine⟩ := Abr.Op.adds_runAll ops s
  refine ⟨written, hwritten, ?_⟩
  intro data hdata
  obtain ⟨d, hd, rfl⟩ := hgenuine data hdata
  exact ⟨d, rfl, validate_serialize hd⟩

end Gbl.Slots.Fuchsia
