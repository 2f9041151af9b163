import Gbl.Slots.Boot
import Gbl.Slots.Android
import Gbl.Slots.Fuchsia
import Gbl.Lib.Crc32

/-!
# The two managers fall back in bounded time

Both managers number their slots with suffixes and count a boot attempt in the record of one slot.
-/

namespace Gbl.Slots

open Lib Lib.Exec

/-! ## Slots with their suffixes -/

section Suffixed

variable {β : Type} {toSlot : Char → β → Slot}

def suffixed (toSlot : Char → β → Slot) (l : List β) (nb : Nat) : List Slot :=
  ((lowerAsciiSuffixes.zip l).take nb).map fun p => toSlot p.1 p.2

theorem nodup_lowerAsciiSuffixes : lowerAsciiSuffixes.Nodup := by decide +kernel

theorem map_fst_zip_sublist {α : Type} (as : List α) (bs : List β) : ((as.zip bs).map Prod.fst).Sublist as := by
  induction as generalizing bs with
  | nil => simp
  | cons a as ih =>
    cases bs with
    | nil => simp
    | cons b bs => simpa using ih bs

theorem proper_suffixed (hsuffix : ∀ c x, (toSlot c x).suffix = c) (hsound : ∀ c x, (toSlot c x).Sound)
    (l : List β) (nb : Nat) : Proper (suffixed toSlot l nb) where
  nodup := by
    have hmap : (suffixed toSlot l nb).map Slot.suffix = ((lowerAsciiSuffixes.zip l).map Prod.fst).take nb := by
      simp [suffixed, hsuffix, Function.comp_def, List.map_take]
    rw [hmap]
    exact ((List.take_sublist ..).trans (map_fst_zip_sublist ..)).nodup nodup_lowerAsciiSuffixes
  sound s hs := by
    obtain ⟨p, -, rfl⟩ := List.mem_map.mp hs
    exact hsound p.1 p.2

theorem getElem_suffixed {l : List β} {nb idx : Nat} (hidx : idx < (suffixed toSlot l nb).length) :
    ∃ (h : idx < l.length) (h' : idx < lowerAsciiSuffixes.length),
      (suffixed toSlot l nb)[idx] = toSlot lowerAsciiSuffixes[idx] l[idx] := by
  have hlen : idx < nb ∧ idx < lowerAsciiSuffixes.length ∧ idx < l.length := by
    simpa [suffixed] using hidx
  exact ⟨hlen.2.2, hlen.2.1, by simp [suffixed]⟩

theorem suffixed_set (l : List β) (nb : Nat) {idx : Nat} (x : β) (h : idx < lowerAsciiSuffixes.length) :
    suffixed toSlot (l.set idx x) nb = (suffixed toSlot l nb).set idx (toSlot lowerAsciiSuffixes[idx] x) := by
  refine List.ext_getElem (by simp [suffixed]) fun n hn hset => ?_
  simp only [suffixed, List.getElem_set, List.getElem_map, List.getElem_take, List.getElem_zip]
  split <;> simp_all

end Suffixed

section Best

variable {slots : List Slot}

variable {slot : Slot} {α : Type} {target : Slot}

theorem mem_of_bestBootable (h : bestBootable slots = some slot) : slot ∈ slots ∧ slot.isBootable = true := by
  unfold bestBootable at h
  cases hl : slots.filter Slot.isBootable with
  | nil =>
    rw [hl] at h
    cases h
  | cons s rest =>
    rw [hl] at h
    obtain ⟨hmem, -⟩ := foldl_max_spec Slot.key rest s
    rw [Option.some.inj h, ← hl] at hmem
    exact List.mem_filter.mp hmem

theorem use_of_successful (hnext : (ranking slots).next = some slot.option)
    (h : slot.bootability = .successful) : (ranking slots).use = ranking slots := by
  obtain ⟨k, n, hleft, -⟩ | ⟨-, -, huse⟩ := Options.use_cases (ranking slots)
  · have hoption : slot.option = (k, .left (n + 1)) := Option.some.inj (hnext.symm.trans hleft)
    have huse : slot.bootability.usability = .left (n + 1) := congrArg Prod.snd hoption
    rw [h] at huse
    cases huse
  · exact huse

theorem attemptSlot_run {slots : α → List Slot} (decrementTries : Nat → α → Result α) {b : SlotBlock α}
    (hproper : Proper (slots b.data)) (hbest : bestBootable (slots b.data) = some target) :
    target.bootability = .successful ∧
        SlotBlock.attemptSlot slots decrementTries b.data target b = SlotBlock.takeBootToken b ∨
      ∃ idx tries, ∃ h : idx < (slots b.data).length, (slots b.data)[idx] = target ∧
        target.bootability = .retriable tries ∧ ∀ d', decrementTries idx b.data = .ok d' →
          SlotBlock.attemptSlot slots decrementTries b.data target b =
            SlotBlock.takeBootToken ⟨.dirty, b.bootToken, d'⟩ := by
  obtain ⟨hmem, hbootable⟩ := mem_of_bestBootable hbest
  obtain ⟨idx, hidx, hget, hfind⟩ := findSuffix_eq hproper.nodup hmem
  have hfound : (Exec.lift (findSuffix target.suffix (slots b.data)) : Exec Error (SlotBlock α) _) b =
      (.ok (idx, target), b) := by
    rw [hfind]
    rfl
  have hrun := SlotBlock.attemptSlot_found decrementTries hfound
  cases hb : target.bootability with
  | unbootable reason =>
    simp [Slot.isBootable, hb] at hbootable
  | successful =>
    rw [hb] at hrun
    exact .inl ⟨rfl, hrun⟩
  | retriable tries =>
    rw [hb] at hrun
    refine .inr ⟨idx, tries, hidx, hget, rfl, fun d' hdec => hrun.trans ?_⟩
    exact bind_run_ok (lift_run_ok hdec b)

theorem attemptSlot_best {slots : α → List Slot} {decrementTries : Nat → α → Result α} {Inv : α → Prop}
    {d : α} (cache : CacheStatus) (hinv : Inv d) (hproper : Proper (slots d))
    (hbest : bestBootable (slots d) = some target)
    (hdec : ∀ idx, ∀ h : idx < (slots d).length, ∀ tries, (slots d)[idx].bootability = .retriable tries →
      ∃ d' t, decrementTries idx d = .ok d' ∧ Inv d' ∧ slots d' = (slots d).set idx t ∧
        Attempted (slots d)[idx].suffix (slots d)[idx] t) :
    ∃ d' cache', SlotBlock.attemptSlot slots decrementTries d target ⟨cache, true, d⟩ = (.ok (), ⟨cache', false, d'⟩) ∧
      (d' = d ∧ cache' = cache ∨ cache' = .dirty) ∧ Inv d' ∧
      ranking (slots d') = (ranking (slots d)).use := by
  have hnext : (ranking (slots d)).next = some target.option := by
    rw [← bestBootable_eq hproper, hbest]
    rfl
  obtain ⟨hb, hrun⟩ | ⟨idx, tries, hidx, hget, hb, hrun⟩ :=
    attemptSlot_run decrementTries (b := ⟨cache, true, d⟩) hproper hbest
  · exact ⟨d, cache, hrun, .inl ⟨rfl, rfl⟩, hinv, (use_of_successful hnext hb).symm⟩
  · dsimp only at hidx hget hrun
    obtain ⟨d', t, hdec, hinv', hslots, hatt⟩ := hdec idx hidx tries (by rw [hget, hb])
    refine ⟨d', .dirty, hrun d' hdec, .inr rfl, hinv', ?_⟩
    rw [hslots]
    exact ranking_set hproper hidx (by rw [hnext, hget]) hatt

end Best

theorem usability_eq (successful : Prop) [Decidable successful] (tries : UInt8) (reason : UnbootableReason) :
    (if successful then .successful else if 0 < tries then .retriable tries.toNat
      else .unbootable reason : Bootability).usability =
      if successful then .good else .left tries.toNat := by
  by_cases hs : successful
  · simp [hs, Bootability.usability]
  · by_cases ht : 0 < tries
    · simp [hs, ht, Bootability.usability]
    · have hzero : tries = 0 := by grind
      simp [hs, hzero, Bootability.usability]

theorem ne_retriable_zero (successful : Prop) [Decidable successful] (tries : UInt8) (reason : UnbootableReason) :
    (if successful then .successful else if 0 < tries then .retriable tries.toNat
      else .unbootable reason : Bootability) ≠ .retriable 0 := by
  split
  · simp
  · split
    · next h => simpa using (UInt8.lt_iff_toNat_lt.mp h).ne'
    · simp

theorem spend_tries {tries : UInt8} (h : tries ≠ 0) :
    Usability.left (tries - 1).toNat = (Usability.left tries.toNat).spend := by
  have hle : 1 ≤ tries := by grind
  rw [UInt8.toNat_sub_of_le _ _ hle]
  rfl

/-! ## The Android manager -/

namespace Android

variable (crc32 : List UInt8 → UInt32)

def manager : Manager BootloaderControl where
  bytes := BootloaderControl.metadataBytes crc32
  slots := slots
  target := getBootTarget
  markBootAttempt := markBootAttempt

theorem slots_eq (d : BootloaderControl) :
    slots d = suffixed toSlot d.slotMetadata.toList d.controlBits.nbSlots.toNat := by
  refine slotsIter_eq (fun n => ?_) ?_
  · rw [getSlotByNumber]
    split <;> simp_all
  · simp only [List.length_take, List.length_zip, Vector.length_toList]
    omega

theorem usability_toSlot (c : Char) (m : SlotMetaData) :
    (toSlot c m).bootability.usability = if m.successful then .good else .left m.tries.toNat :=
  usability_eq _ _ _

theorem sound_toSlot (c : Char) (m : SlotMetaData) : (toSlot c m).Sound := ne_retriable_zero _ _ _

theorem proper_slots (d : BootloaderControl) : Proper (slots d) := by
  rw [slots_eq]
  exact proper_suffixed (fun _ _ => rfl) sound_toSlot _ _

/-! ### A boot attempt in the bit fields -/

namespace SlotMetaData

open BitField

theorem priorityMask_eq : priorityMask = mask 16 4 := by decide
theorem triesMask_eq : triesMask = mask 16 3 := by decide
theorem successfulMask_eq : successfulMask = mask 16 1 := by decide

variable (m : SlotMetaData) (n : UInt8)

theorem priority_setTries : (setTries n m).priority = m.priority := by
  simp only [priority, setTries, getField, setField, priorityMask_eq, triesMask_eq,
    get_set_of_disjoint m _ (o := triesOffset) (k := 3) (p := priorityOffset) (l := 4) (by decide)]

theorem successful_setTries : (setTries n m).successful = m.successful := by
  simp only [successful, setTries, getField, setField, successfulMask_eq, triesMask_eq,
    get_set_of_disjoint m _ (o := triesOffset) (k := 3) (p := successfulOffset) (l := 1) (by decide)]

theorem tries_eq : m.tries = UInt8.ofNat (get m triesOffset (mask 16 3)).toNat := by
  have hlt : (get m triesOffset (mask 16 3)).toNat < 256 := by
    rw [BitField.get, toNat_and_mask _ (by decide)]
    omega
  simp only [tries, getField, triesMask_eq, if_pos hlt]

theorem tries_le : m.tries ≤ 7 := by
  rw [tries_eq, BitField.get, UInt8.le_iff_toNat_le, UInt8.toNat_ofNat', toNat_and_mask _ (by decide)]
  simp only [UInt8.reduceToNat]
  omega

theorem tries_setTries (h : n ≤ 7) : (setTries n m).tries = n := by
  have hn : n.toNat ≤ 7 := UInt8.le_iff_toNat_le.mp h
  rw [tries_eq, setTries, setField, triesMask_eq, get_set_self _ _ (by decide), ← UInt8.toNat_inj,
    UInt8.toNat_ofNat', toNat_and_mask _ (by decide), BitVec.toNat_ofNat]
  omega

end SlotMetaData

variable {tries : Nat} {d : BootloaderControl} {idx : Nat}

theorem attempted_toSlot {c : Char} {m : SlotMetaData} (h : (toSlot c m).bootability = .retriable tries) :
    m.tries ≠ 0 ∧ Attempted c (toSlot c m) (toSlot c (SlotMetaData.setTries (m.tries - 1) m)) := by
  have hs : m.successful = false ∧ m.tries ≠ 0 := by
    unfold toSlot at h
    grind
  have hle : m.tries - 1 ≤ 7 := by
    have := m.tries_le
    grind
  refine ⟨hs.2, rfl, ?_, ?_⟩
  · simp only [toSlot, SlotMetaData.priority_setTries]
  · have hold : (toSlot c m).option = (c, .left m.tries.toNat) := by
      rw [Slot.option, usability_toSlot, hs.1]
      rfl
    have hnew : (toSlot c (SlotMetaData.setTries (m.tries - 1) m)).option = (c, .left (m.tries - 1).toNat) := by
      rw [Slot.option, usability_toSlot, SlotMetaData.successful_setTries, SlotMetaData.tries_setTries _ _ hle, hs.1]
      rfl
    rw [hnew, hold, spend_tries hs.2]
    exact (if_pos rfl).symm

theorem getElem_slots (hidx : idx < (slots d).length) :
    ∃ h : idx < 4, (slots d)[idx] = toSlot (lowerAsciiSuffixes.get ⟨idx, h.trans (by decide)⟩)
      d.slotMetadata[idx] := by
  simp only [slots_eq] at hidx ⊢
  obtain ⟨h, _, hget⟩ := getElem_suffixed hidx
  exact ⟨by simpa using h, by simpa using hget⟩

theorem decrementTries_spec (hidx : idx < (slots d).length) (h : (slots d)[idx].bootability = .retriable tries) :
    ∃ d' t, decrementTries idx d = .ok d' ∧ d'.magic = d.magic ∧ d'.version = d.version ∧
      slots d' = (slots d).set idx t ∧ Attempted (slots d)[idx].suffix (slots d)[idx] t := by
  obtain ⟨h4, hget⟩ := getElem_slots hidx
  rw [hget] at h ⊢
  obtain ⟨htries, hatt⟩ := attempted_toSlot h
  have hdec : decrementTries idx d = .ok { d with
      slotMetadata := d.slotMetadata.set idx
        (SlotMetaData.setTries (d.slotMetadata[idx].tries - 1) d.slotMetadata[idx]) } := by
    rw [decrementTries, dif_pos h4, if_neg htries, modifySlot, dif_pos h4]
  refine ⟨_, _, hdec, rfl, rfl, ?_, hatt⟩
  rw [slots_eq, slots_eq, Vector.toList_set]
  exact suffixed_set _ _ _ _

structure Described (d : BootloaderControl) : Prop where
  magic : d.magic = bootCtrlMagic
  version : d.version ≤ bootCtrlVersion
  slots : Android.slots d ≠ []

theorem getSlotLastSetActive_spec {slots : List Slot} (h : slots ≠ []) :
    ∃ slot ∈ slots, getSlotLastSetActive slots = .ok slot := by
  cases slots with
  | nil => exact absurd rfl h
  | cons s rest => exact ⟨_, (foldl_max_spec Slot.key rest s).1, rfl⟩

theorem markBootAttempt_spec (cache : CacheStatus) (h : Described d) :
    ∃ target d' cache', getBootTarget d = .ok target ∧
      markBootAttempt ⟨cache, true, d⟩ = (.ok (), ⟨cache', false, d'⟩) ∧
      (d' = d ∧ cache' = cache ∨ cache' = .dirty) ∧ Described d' ∧
      target.Matches (ranking (slots d)).next ∧ ranking (slots d') = (ranking (slots d)).use := by
  obtain ⟨last, hlast, hactive⟩ := getSlotLastSetActive_spec h.slots
  have hnext := bestBootable_eq (proper_slots d)
  cases hbest : bestBootable (slots d) with
  | none =>
    rw [hbest] at hnext
    have htarget : getBootTarget d = .ok (.recovery (.slotted last)) := by
      simp [getBootTarget, hactive, hbest]
    obtain ⟨idx, -, -, hfind⟩ := findSuffix_eq (proper_slots d).nodup hlast
    refine ⟨_, d, cache, htarget, ?_, .inl ⟨rfl, rfl⟩, h, hnext.symm, (Options.use_of_next_none hnext.symm).symm⟩
    simp only [markBootAttempt, bind_run_ok (get_run _), bind_run_ok (lift_run_ok htarget _),
      bind_run_ok (lift_run_ok hfind _)]
    rfl
  | some slot =>
    rw [hbest] at hnext
    have htarget : getBootTarget d = .ok (.normalBoot slot) := by
      simp [getBootTarget, hactive, hbest]
    have hrun :
      markBootAttempt ⟨cache, true, d⟩ = SlotBlock.attemptSlot slots decrementTries d slot ⟨cache, true, d⟩ := by
      simp only [markBootAttempt, bind_run_ok (get_run _), bind_run_ok (lift_run_ok htarget _)]
    obtain ⟨d', cache', hatt, hkept, hinv, hrank⟩ := attemptSlot_best cache h (proper_slots d) hbest (by
      intro idx hidx tries hb
      obtain ⟨d', t, hdec, hmagic, hversion, hslots, hatt⟩ := decrementTries_spec hidx hb
      refine ⟨d', t, hdec, ⟨hmagic.trans h.magic, hversion ▸ h.version, ?_⟩, hslots, hatt⟩
      rw [hslots]
      simpa using h.slots)
    exact ⟨_, d', cache', htarget, hrun.trans hatt, hkept, hinv, hnext.symm, hrank⟩

theorem check_eq_ok : (BootloaderControl.metadataBytes crc32).check d = .ok () ↔
    d.magic = bootCtrlMagic ∧ d.version ≤ bootCtrlVersion ∧ d.crc32 = d.calculateCrc32 crc32 := by
  simp [BootloaderControl.metadataBytes, Res.bind_eq_ok]

theorem lawful : (manager crc32).Lawful Described where
  proper d _ := proper_slots d
  mark _ cache h := markBootAttempt_spec cache h
  prepare _ h := ⟨(check_eq_ok crc32).mpr ⟨h.magic, h.version, rfl⟩, ⟨h.magic, h.version, h.slots⟩, rfl⟩

theorem described_load {content : List UInt8} (h : slots ((manager crc32).load content).data ≠ []) :
    Described ((manager crc32).load content).data := by
  rcases Manager.load_data (M := manager crc32) content with hcheck | hdefault
  · obtain ⟨hmagic, hversion, -⟩ := (check_eq_ok crc32).mp hcheck
    exact ⟨hmagic, hversion, h⟩
  · refine ⟨?_, ?_, h⟩
    · rw [hdefault]
      rfl
    · rw [hdefault]
      exact UInt8.le_refl bootCtrlVersion

end Android

/-! ## The Fuchsia manager -/

namespace Fuchsia

variable (crc32 : List UInt8 → UInt32)

def manager : Manager AbrData where
  bytes := AbrData.metadataBytes crc32
  slots := slots
  target := attemptTarget
  markBootAttempt := markBootAttempt

theorem slots_eq (d : AbrData) : slots d = suffixed toSlot d.slotData.toList 2 := by
  have hzip : (lowerAsciiSuffixes.zip d.slotData.toList).length ≤ 2 := by simp
  rw [suffixed, List.take_of_length_le hzip]
  refine slotsIter_eq (fun n => ?_) (hzip.trans (by decide))
  rw [getSlotByNumber]
  split <;> simp_all

theorem usability_toSlot (c : Char) (x : AbrSlotData) :
    (toSlot c x).bootability.usability = if x.successful ≠ 0 then .good else .left x.tries.toNat :=
  usability_eq _ _ _

theorem sound_toSlot (c : Char) (x : AbrSlotData) : (toSlot c x).Sound := ne_retriable_zero _ _ _

theorem proper_slots (d : AbrData) : Proper (slots d) := by
  rw [slots_eq]
  exact proper_suffixed (fun _ _ => rfl) sound_toSlot _ _

def tried (x : AbrSlotData) : AbrSlotData :=
  let x := { x with tries := x.tries - 1 }
  if x.tries = 0 then { x with unbootableReason := UnbootableReason.noMoreTries.toU8 } else x

theorem tried_fields (x : AbrSlotData) :
    (tried x).priority = x.priority ∧ (tried x).successful = x.successful ∧ (tried x).tries = x.tries - 1 := by
  by_cases h : x.tries - 1 = 0 <;> simp [tried, h]

variable {tries : Nat} {d : AbrData} {idx : Nat}

theorem attempted_toSlot {c : Char} {x : AbrSlotData} (h : (toSlot c x).bootability = .retriable tries) :
    x.tries ≠ 0 ∧ Attempted c (toSlot c x) (toSlot c (tried x)) := by
  have hs : x.successful = 0 ∧ x.tries ≠ 0 := by
    unfold toSlot at h
    grind
  obtain ⟨hpriority, hsuccess, htries⟩ := tried_fields x
  refine ⟨hs.2, rfl, ?_, ?_⟩
  · simp only [toSlot, hpriority]
  · have hold : (toSlot c x).option = (c, .left x.tries.toNat) := by
      rw [Slot.option, usability_toSlot, hs.1]
      rfl
    have hnew : (toSlot c (tried x)).option = (c, .left (x.tries - 1).toNat) := by
      rw [Slot.option, usability_toSlot, hsuccess, htries, hs.1]
      rfl
    rw [hnew, hold, spend_tries hs.2]
    exact (if_pos rfl).symm

theorem getElem_slots (hidx : idx < (slots d).length) :
    ∃ h : idx < 2, (slots d)[idx] = toSlot (lowerAsciiSuffixes.get ⟨idx, h.trans (by decide)⟩) d.slotData[idx] := by
  simp only [slots_eq] at hidx ⊢
  obtain ⟨h, _, hget⟩ := getElem_suffixed hidx
  exact ⟨by simpa using h, by simpa using hget⟩

theorem decrementTries_spec (hidx : idx < (slots d).length) (h : (slots d)[idx].bootability = .retriable tries) :
    ∃ d' t, decrementTries idx d = .ok d' ∧ d'.magic = d.magic ∧ d'.versionMajor = d.versionMajor ∧
      d'.oneshotFlag = d.oneshotFlag ∧
      slots d' = (slots d).set idx t ∧ Attempted (slots d)[idx].suffix (slots d)[idx] t := by
  obtain ⟨h2, hget⟩ := getElem_slots hidx
  rw [hget] at h ⊢
  obtain ⟨htries, hatt⟩ := attempted_toSlot h
  have hdec : decrementTries idx d = .ok { d with
      slotData := d.slotData.set idx (tried d.slotData[idx]) } := by
    rw [decrementTries, dif_pos h2]
    exact if_neg htries
  refine ⟨_, _, hdec, rfl, rfl, rfl, ?_, hatt⟩
  rw [slots_eq, slots_eq, Vector.toList_set]
  exact suffixed_set _ _ _ _

structure Described (d : AbrData) : Prop where
  magic : d.magic = abrMagic
  version : d.versionMajor ≤ abrVersionMajor
  oneshot : getOneshotStatus d = none

theorem markBootAttempt_spec (cache : CacheStatus) (h : Described d) :
    ∃ target d' cache', attemptTarget d = .ok target ∧
      markBootAttempt ⟨cache, true, d⟩ = (.ok (), ⟨cache', false, d'⟩) ∧
      (d' = d ∧ cache' = cache ∨ cache' = .dirty) ∧ Described d' ∧
      target.Matches (ranking (slots d)).next ∧ ranking (slots d') = (ranking (slots d)).use := by
  have hnext := bestBootable_eq (proper_slots d)
  cases hbest : bestBootable (slots d) with
  | none =>
    rw [hbest] at hnext
    have htarget : attemptTarget d = .ok (.recovery .dedicated) := by
      simp [attemptTarget, h.oneshot, getBootTarget, hbest]
    refine ⟨_, d, cache, htarget, ?_, .inl ⟨rfl, rfl⟩, h, hnext.symm, (Options.use_of_next_none hnext.symm).symm⟩
    simp only [markBootAttempt, bind_run_ok (get_run _), bind_run_ok (lift_run_ok htarget _)]
    rfl
  | some slot =>
    rw [hbest] at hnext
    have htarget : attemptTarget d = .ok (.normalBoot slot) := by
      simp [attemptTarget, h.oneshot, getBootTarget, hbest]
    have hrun : markBootAttempt ⟨cache, true, d⟩ =
        SlotBlock.attemptSlot slots decrementTries d slot ⟨cache, true, d⟩ := by
      simp only [markBootAttempt, bind_run_ok (get_run _), bind_run_ok (lift_run_ok htarget _)]
    obtain ⟨d', cache', hatt, hkept, hinv, hrank⟩ := attemptSlot_best cache h (proper_slots d) hbest (by
      intro idx hidx tries hb
      obtain ⟨d', t, hdec, hmagic, hversion, hflag, hslots, hatt⟩ := decrementTries_spec hidx hb
      have hone : getOneshotStatus d' = none := by rw [getOneshotStatus, hflag, ← getOneshotStatus, h.oneshot]
      exact ⟨d', t, hdec, ⟨hmagic.trans h.magic, hversion ▸ h.version, hone⟩, hslots, hatt⟩)
    exact ⟨_, d', cache', htarget, hrun.trans hatt, hkept, hinv, hnext.symm, hrank⟩

theorem check_eq_ok : (AbrData.metadataBytes crc32).check d = .ok () ↔
    d.magic = abrMagic ∧ d.versionMajor ≤ abrVersionMajor ∧ d.crc32 = d.calculateCrc32 crc32 := by
  simp [AbrData.metadataBytes, Res.bind_eq_ok]

theorem lawful : (manager crc32).Lawful Described where
  proper d _ := proper_slots d
  mark _ cache h := markBootAttempt_spec cache h
  prepare _ h := ⟨(check_eq_ok crc32).mpr ⟨h.magic, h.version, rfl⟩, ⟨h.magic, h.version, h.oneshot⟩, rfl⟩

theorem described_load {content : List UInt8} (h : getOneshotStatus ((manager crc32).load content).data = none) :
    Described ((manager crc32).load content).data := by
  rcases Manager.load_data (M := manager crc32) content with hcheck | hdefault
  · obtain ⟨hmagic, hversion, -⟩ := (check_eq_ok crc32).mp hcheck
    exact ⟨hmagic, hversion, h⟩
  · refine ⟨?_, ?_, h⟩
    · rw [hdefault]
      rfl
    · rw [hdefault]
      exact UInt8.le_refl abrVersionMajor

end Fuchsia

/-- **The managers fall back in bounded time.** From any stored bytes that describe a slot and from any
stored bytes without a one-shot, respectively. -/
theorem managers_fall_back (crc32 : List UInt8 → UInt32) (content : List UInt8) :
    (Android.slots ((Android.manager crc32).load content).data ≠ [] →
      (Android.manager crc32).FallsBack content) ∧
    (Fuchsia.getOneshotStatus ((Fuchsia.manager crc32).load content).data = none →
      (Fuchsia.manager crc32).FallsBack content) :=
  ⟨fun h => Manager.fallsBack (Android.lawful crc32) (Android.described_load crc32 h),
    fun h => Manager.fallsBack (Fuchsia.lawful crc32) (Fuchsia.described_load crc32 h)⟩

/-- Thirty-two bytes that neither manager accepts, under the CRC-32 that both use. -/
def staleBytes : List UInt8 := List.replicate 32 0x5a

theorem managers_fall_back_stale : ((Android.manager Lib.Crc32.crc32).FallsBack staleBytes ∧
      (Android.manager Lib.Crc32.crc32).bytes.validate staleBytes = err .badMagic) ∧
    (Fuchsia.manager Lib.Crc32.crc32).FallsBack staleBytes ∧
      (Fuchsia.manager Lib.Crc32.crc32).bytes.validate staleBytes = err .badMagic :=
  ⟨⟨(managers_fall_back _ staleBytes).1 (by decide +kernel), by decide +kernel⟩,
    (managers_fall_back _ staleBytes).2 (by decide +kernel), by decide +kernel⟩

end Gbl.Slots
