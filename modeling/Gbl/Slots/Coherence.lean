import Gbl.Slots.Calls

/-!
# The metadata cache and the storage behind it

A block is loaded from storage, used, and written back; the closure given to `write_back` stores the bytes as they
are. A device is a block with its storage.
-/

namespace Gbl.Slots

open Lib

/-! ## A device -/

structure Storage where
  content : List UInt8
  writes : Nat

def Storage.store (bytes : List UInt8) : Exec Error Storage (List UInt8) := do
  Exec.modify fun s => ⟨bytes ++ s.content.drop bytes.length, s.writes + 1⟩
  pure bytes

structure Device (α : Type) where
  block : SlotBlock α
  storage : Storage
  /-- Invalid bytes were loaded or the metadata was modified, and nothing was written since. The code has no
  such record. -/
  touched : Bool

inductive Action where
  | call (c : Call)
  | writeBack
  /-- The metadata is written back and then loaded anew. -/
  | reload

namespace SlotManager

variable {α : Type} (M : SlotManager α)

def startFrom (storage : Storage) : Device α where
  block := M.load storage.content
  storage
  touched :=
    match M.bytes.validate storage.content with
    | .ok _ => false
    | .error _ => true

def start (content : List UInt8) : Device α := M.startFrom ⟨content, 0⟩

def writeBack (d : Device α) : Device α :=
  let s := (SlotBlock.syncToDisk M.bytes Storage.store (d.block, d.storage)).2
  ⟨s.1, s.2, false⟩

def act (d : Device α) : Action → Device α
  | .call c => { d with
      block := (M.call c d.block).2
      touched := d.touched || M.modifies c d.block.data }
  | .writeBack => M.writeBack d
  | .reload => M.startFrom (M.writeBack d).storage

def run (actions : List Action) (d : Device α) : Device α := actions.foldl M.act d

structure Coherent (d : Device α) : Prop where
  /-- Clean metadata is that in storage. -/
  clean : d.block.cacheStatus = .clean →
    M.bytes.codec.enc d.block.data = d.storage.content.take M.bytes.codec.width
  /-- Writing back succeeds. -/
  returns : (SlotBlock.syncToDisk M.bytes Storage.store (d.block, d.storage)).1 = .ok ()
  /-- What is in storage then is valid and means what the block says. -/
  stored : ∃ stored, M.bytes.validate (M.writeBack d).storage.content = .ok stored ∧
    M.slots stored = M.slots (M.writeBack d).block.data ∧
    M.getBootTarget stored = M.getBootTarget (M.writeBack d).block.data ∧
    M.getOneshotStatus stored = M.getOneshotStatus (M.writeBack d).block.data
  /-- Writing back does not change what the block says. -/
  same : M.slots (M.writeBack d).block.data = M.slots d.block.data ∧
    M.getBootTarget (M.writeBack d).block.data = M.getBootTarget d.block.data ∧
    M.getOneshotStatus (M.writeBack d).block.data = M.getOneshotStatus d.block.data
  /-- The closure is called if and only if the device was touched. -/
  writes : (M.writeBack d).storage.writes = d.storage.writes + if d.touched then 1 else 0

/-! ## What holds in every run -/

variable {M} {Inv : α → Prop} {d : Device α}

theorem syncToDisk_store_clean (h : d.block.cacheStatus = .clean) :
    SlotBlock.syncToDisk M.bytes Storage.store (d.block, d.storage) = (.ok (), d.block, d.storage) :=
  Manager.syncToDisk_clean (M := M.toManager) h

def prepared (M : SlotManager α) (d : Device α) : SlotBlock α :=
  ⟨.clean, d.block.bootToken, M.bytes.prepareForSync d.block.data⟩

theorem syncToDisk_store_dirty (h : d.block.cacheStatus ≠ .clean) :
    SlotBlock.syncToDisk M.bytes Storage.store (d.block, d.storage) = (.ok (), M.prepared d,
      ⟨M.bytes.codec.enc (M.bytes.prepareForSync d.block.data) ++ d.storage.content.drop
        (M.bytes.codec.enc (M.bytes.prepareForSync d.block.data)).length, d.storage.writes + 1⟩) := by
  refine (Manager.syncToDisk_dirty (M := M.toManager) h rfl).trans ?_
  rw [M.bytes.codec.dec_enc]
  rfl

structure Sound (M : SlotManager α) (Inv : α → Prop) (d : Device α) : Prop where
  inv : Inv d.block.data
  clean : d.block.cacheStatus = .clean → M.bytes.validate d.storage.content = .ok d.block.data

theorem sound_startFrom (hM : M.Lawful Inv) (storage : Storage) : M.Sound Inv (M.startFrom storage) := by
  have hload : (M.startFrom storage).block = M.load storage.content := rfl
  unfold Manager.load SlotBlock.deserialize at hload
  cases hv : M.bytes.validate storage.content with
  | error e =>
    rw [hv] at hload
    constructor
    · rw [hload]
      exact hM.default
    · intro hclean
      rw [hload] at hclean
      cases hclean
  | ok data =>
    rw [hv] at hload
    constructor
    · rw [hload]
      exact hM.checked data (Manager.check_of_validate (M := M.toManager) hv).1
    · intro _
      rw [hload]
      exact hv

theorem validate_writeBack (hM : M.Lawful Inv) (h : M.Sound Inv d) :
    M.bytes.validate (M.writeBack d).storage.content = .ok (M.writeBack d).block.data := by
  by_cases hclean : d.block.cacheStatus = .clean
  · rw [writeBack, syncToDisk_store_clean hclean]
    exact h.clean hclean
  · rw [writeBack, syncToDisk_store_dirty hclean]
    exact Manager.validate_persisted (M := M.toManager) _ (hM.prepare _ h.inv)

theorem writeBack_same (hM : M.Lawful Inv) (d : Device α) : M.slots (M.writeBack d).block.data = M.slots d.block.data ∧
    M.getBootTarget (M.writeBack d).block.data = M.getBootTarget d.block.data ∧
    M.getOneshotStatus (M.writeBack d).block.data = M.getOneshotStatus d.block.data := by
  by_cases hclean : d.block.cacheStatus = .clean
  · rw [writeBack, syncToDisk_store_clean hclean]
    exact ⟨rfl, rfl, rfl⟩
  · rw [writeBack, syncToDisk_store_dirty hclean]
    exact ⟨hM.slots _, hM.bootTarget _, hM.oneshotStatus _⟩

theorem sound_writeBack (hM : M.Lawful Inv) (h : M.Sound Inv d) : M.Sound Inv (M.writeBack d) where
  inv := hM.checked _ (Manager.check_of_validate (M := M.toManager) (validate_writeBack hM h)).1
  clean _ := validate_writeBack hM h

theorem Did.inv {c : Call} {b b' : SlotBlock α} {r : Result Unit} (h : M.Did Inv c b r b')
    (hinv : Inv b.data) : Inv b'.data := by
  cases h with
  | nothing => exact hinv
  | token => exact hinv
  | edited _ _ hd => exact hd.inv hinv
  | tried _ _ hd => exact hd.inv hinv

theorem sound_call (hM : M.Lawful Inv) (h : M.Sound Inv d) (c : Call) : M.Sound Inv (M.act d (.call c)) := by
  have hdid := hM.did c d.block
  refine ⟨hdid.inv h.inv, ?_⟩
  simp only [act]
  generalize (M.call c d.block).1 = r, (M.call c d.block).2 = b at hdid ⊢
  cases hdid with
  | nothing => exact h.clean
  | token => exact h.clean
  | edited => exact nofun
  | tried => exact nofun

theorem sound_act (hM : M.Lawful Inv) (h : M.Sound Inv d) (a : Action) : M.Sound Inv (M.act d a) := by
  cases a with
  | call c => exact sound_call hM h c
  | writeBack => exact sound_writeBack hM h
  | reload => exact sound_startFrom hM _

theorem sound_run (hM : M.Lawful Inv) (h : M.Sound Inv d) (actions : List Action) : M.Sound Inv (M.run actions d) := by
  induction actions generalizing d with
  | nil => exact h
  | cons a rest ih => exact ih (sound_act hM h a)

def Tracked (d : Device α) : Prop := d.touched = true ↔ d.block.cacheStatus ≠ .clean

theorem tracked_startFrom (storage : Storage) : Tracked (M.startFrom storage) := by
  unfold Tracked startFrom Manager.load SlotBlock.deserialize
  cases hv : M.bytes.validate storage.content with
  | error e => simp
  | ok data => simp

theorem tracked_writeBack (d : Device α) : Tracked (M.writeBack d) := by
  by_cases hclean : d.block.cacheStatus = .clean
  · rw [writeBack, syncToDisk_store_clean hclean]
    simp [Tracked, hclean]
  · rw [writeBack, syncToDisk_store_dirty hclean]
    simp [Tracked, prepared]

theorem tracked_act (hM : M.Lawful Inv) (h : Tracked d) (a : Action) : Tracked (M.act d a) := by
  cases a with
  | call c =>
    have hdid := hM.did c d.block
    simp only [act]
    generalize (M.call c d.block).1 = r, (M.call c d.block).2 = b at hdid ⊢
    cases hdid with
    | nothing hmod => simpa [Tracked, hmod] using h
    | token hmod => simpa [Tracked, hmod] using h
    | edited hmod => simp [Tracked, hmod]
    | tried hmod => simp [Tracked, hmod]
  | writeBack => exact tracked_writeBack d
  | reload => exact tracked_startFrom _

theorem tracked_run (hM : M.Lawful Inv) (h : Tracked d) (actions : List Action) : Tracked (M.run actions d) := by
  induction actions generalizing d with
  | nil => exact h
  | cons a rest ih => exact ih (tracked_act hM h a)

theorem Sound.coherent (hM : M.Lawful Inv) (h : M.Sound Inv d) (ht : Tracked d) : M.Coherent d where
  clean hclean := (Manager.check_of_validate (M := M.toManager) (h.clean hclean)).2
  returns := by
    by_cases hclean : d.block.cacheStatus = .clean
    · rw [syncToDisk_store_clean hclean]
    · rw [syncToDisk_store_dirty hclean]
  stored := ⟨_, validate_writeBack hM h, rfl, rfl, rfl⟩
  same := writeBack_same hM d
  writes := by
    by_cases hclean : d.block.cacheStatus = .clean
    · have htouched : ¬ d.touched = true := fun h => ht.mp h hclean
      rw [if_neg htouched, writeBack, syncToDisk_store_clean hclean]
      rfl
    · rw [if_pos (ht.mpr hclean), writeBack, syncToDisk_store_dirty hclean]

theorem coherent_run (hM : M.Lawful Inv) (content : List UInt8) (actions : List Action) :
    M.Coherent (M.run actions (M.start content)) :=
  (sound_run hM (sound_startFrom hM _) actions).coherent hM (tracked_run hM (tracked_startFrom _) actions)

end SlotManager

/-- The metadata cache is coherent with storage, whatever is loaded and whatever is done then. -/
theorem metadata_cache_is_coherent (crc32 : List UInt8 → UInt32) (content : List UInt8)
    (actions : List Action) :
    (Android.slotManager crc32).Coherent
      ((Android.slotManager crc32).run actions ((Android.slotManager crc32).start content)) ∧
    (Fuchsia.slotManager crc32).Coherent
      ((Fuchsia.slotManager crc32).run actions ((Fuchsia.slotManager crc32).start content)) :=
  ⟨SlotManager.coherent_run (Android.slotManager_lawful crc32) content actions,
    SlotManager.coherent_run (Fuchsia.slotManager_lawful crc32) content actions⟩

/-! ## The slot last set active -/

theorem getSlotLastSetActive_congr {l l' : List Slot} (h : l'.map Slot.key = l.map Slot.key) {s : Slot}
    (hs : getSlotLastSetActive l = .ok s) : ∃ s', getSlotLastSetActive l' = .ok s' ∧ s'.suffix = s.suffix := by
  unfold getSlotLastSetActive at hs ⊢
  cases hl : maxByKey Slot.key l with
  | none =>
    rw [hl] at hs
    cases hs
  | some t =>
    rw [hl] at hs
    have hts : t = s := Except.ok.inj hs
    have hmap : (maxByKey Slot.key l').map Slot.key = some s.key := by
      rw [map_maxByKey, h, ← map_maxByKey, hl, hts]
      rfl
    obtain ⟨s', hs', hkey⟩ := Option.map_eq_some_iff.mp hmap
    rw [hs']
    exact ⟨s', rfl, Slot.suffix_eq_of_key hkey⟩

theorem best_of_above {l : List Slot} {s : Slot} (hs : s ∈ l) (hboot : s.isBootable = true)
    (habove : ∀ t ∈ l, t = s ∨ t.priority < s.priority) :
    bestBootable l = some s ∧ getSlotLastSetActive l = .ok s := by
  have hkey : ∀ t ∈ l, t = s ∨ t.key < s.key := by
    intro t ht
    exact (habove t ht).imp_right fun hlt => Prod.Lex.toLex_lt_toLex.mpr (.inl hlt)
  constructor
  · refine maxByKey_eq_some (List.mem_filter.mpr ⟨hs, hboot⟩) fun t ht => ?_
    exact hkey t (List.mem_filter.mp ht).1
  · rw [getSlotLastSetActive, maxByKey_eq_some hs hkey]

namespace SlotManager

variable {α : Type} (M : SlotManager α)

def Loadable (b : SlotBlock α) : Prop := ∃ content actions, (M.run actions (M.start content)).block = b

structure SetsActive (others : Char → α → α → Prop) (b : SlotBlock α) (suffix : Char) : Prop where
  accepted : (M.setActiveSlot suffix b).1 = .ok () ↔ ∃ s ∈ M.slots b.data, s.suffix = suffix
  target : (M.setActiveSlot suffix b).1 = .ok () → ∃ slot,
    M.getBootTarget (M.setActiveSlot suffix b).2.data = .ok (.normalBoot slot) ∧
      slot.suffix = suffix ∧ slot.bootability = .retriable 7
  others : (M.setActiveSlot suffix b).1 = .ok () → others suffix b.data (M.setActiveSlot suffix b).2.data
  /-- Only metadata that could have been loaded can be loaded anew. -/
  remembered : (M.setActiveSlot suffix b).1 = .ok () → ∀ storage touched actions,
    (∀ s, .call (.setActiveSlot s) ∉ actions) → (M.Loadable b ∨ .reload ∉ actions) →
    ∃ slot, getSlotLastSetActive
      (M.slots (M.run actions ⟨(M.setActiveSlot suffix b).2, storage, touched⟩).block.data) = .ok slot ∧
      slot.suffix = suffix

variable {M} {Inv : α → Prop} {d : Device α}

theorem keys_act (hM : M.Lawful Inv) {a : Action} (ha : ∀ s, a ≠ .call (.setActiveSlot s))
    (h : M.Sound Inv d ∨ a ≠ .reload) :
    (M.slots (M.act d a).block.data).map Slot.key = (M.slots d.block.data).map Slot.key := by
  cases a with
  | call c =>
    have hdid := hM.did c d.block
    have hc : ∀ s, c ≠ .setActiveSlot s := fun s heq => ha s (congrArg Action.call heq)
    simp only [act]
    generalize (M.call c d.block).1 = r, (M.call c d.block).2 = b at hdid ⊢
    cases hdid with
    | nothing => rfl
    | token => rfl
    | edited _ _ hd => exact hd.keys hc
    | tried _ _ hd => exact hd.keys hc
  | writeBack =>
    have hsame : M.slots (M.writeBack d).block.data = M.slots d.block.data := (writeBack_same hM d).1
    exact congrArg (List.map Slot.key) hsame
  | reload =>
    rcases h with h | h
    · have hload : (M.startFrom (M.writeBack d).storage).block.data = (M.writeBack d).block.data := by
        simp only [startFrom, Manager.load, SlotBlock.deserialize, validate_writeBack hM h]
      have hsame : M.slots (M.writeBack d).block.data = M.slots d.block.data := (writeBack_same hM d).1
      rw [act, hload, hsame]
    · exact absurd rfl h

theorem keys_run (hM : M.Lawful Inv) {actions : List Action}
    (hactions : ∀ s, .call (.setActiveSlot s) ∉ actions) (h : M.Sound Inv d ∨ .reload ∉ actions) :
    (M.slots (M.run actions d).block.data).map Slot.key = (M.slots d.block.data).map Slot.key := by
  induction actions generalizing d with
  | nil => rfl
  | cons a rest ih =>
    have ha : ∀ s, a ≠ .call (.setActiveSlot s) := fun s heq => hactions s (by simp [heq])
    have hrest : ∀ s, .call (.setActiveSlot s) ∉ rest := fun s hmem =>
      hactions s (List.mem_cons_of_mem a hmem)
    have hstep : (M.slots (M.act d a).block.data).map Slot.key = (M.slots d.block.data).map Slot.key :=
      keys_act hM ha (h.imp_right fun hno heq => hno (by simp [heq]))
    have hnext : M.Sound Inv (M.act d a) ∨ .reload ∉ rest :=
      h.imp (fun h => sound_act hM h a) fun hno hmem => hno (List.mem_cons_of_mem a hmem)
    exact (ih hrest hnext).trans hstep

theorem setsActive {others : Char → α → α → Prop} (activate : Nat → Char → α → α) (hM : M.Lawful Inv)
    (hrun : M.setActiveSlot = SlotBlock.setActive M.slots activate) (hproper : ∀ d, Proper (M.slots d))
    (hactivate : ∀ d idx, ∀ h : idx < (M.slots d).length,
      ∃ s ∈ M.slots (activate idx (M.slots d)[idx].suffix d), s.suffix = (M.slots d)[idx].suffix ∧
        s.bootability = .retriable 7 ∧
        ∀ t ∈ M.slots (activate idx (M.slots d)[idx].suffix d), t = s ∨ t.priority < s.priority)
    (htarget : ∀ d s, bestBootable (M.slots d) = some s → getSlotLastSetActive (M.slots d) = .ok s →
      M.getBootTarget d = .ok (.normalBoot s))
    (hothers : ∀ d idx, ∀ h : idx < (M.slots d).length,
      others (M.slots d)[idx].suffix d (activate idx (M.slots d)[idx].suffix d))
    (b : SlotBlock α) (suffix : Char) : M.SetsActive others b suffix := by
  obtain ⟨idx, hidx, rfl, hset⟩ | ⟨hno, hset⟩ := setActive_run activate b (hproper b.data).nodup suffix
  · rw [← hrun] at hset
    obtain ⟨s, hs, hsuffix, hboot, habove⟩ := hactivate b.data idx hidx
    have hbest := best_of_above hs (by simp [Slot.isBootable, hboot]) habove
    constructor
    · rw [hset]
      exact iff_of_true rfl ⟨_, List.getElem_mem hidx, rfl⟩
    · intro _
      rw [hset]
      exact ⟨s, htarget _ s hbest.1 hbest.2, hsuffix, hboot⟩
    · intro _
      rw [hset]
      exact hothers b.data idx hidx
    · intro _ storage touched actions hactions hload
      have hsound : M.Sound Inv ⟨(M.setActiveSlot (M.slots b.data)[idx].suffix b).2, storage, touched⟩ ∨
          .reload ∉ actions := by
        refine hload.imp_left ?_
        rintro ⟨content, before, hb⟩
        have hinv := (sound_run hM (sound_startFrom hM ⟨content, 0⟩) before).inv
        have hinv' := (hM.did (.setActiveSlot (M.slots b.data)[idx].suffix) b).inv (hb ▸ hinv)
        refine ⟨hinv', ?_⟩
        rw [hset]
        rintro ⟨⟩
      have hkeys := keys_run hM hactions hsound
      rw [hset] at hkeys ⊢
      obtain ⟨s', hs', heq⟩ := getSlotLastSetActive_congr hkeys hbest.2
      exact ⟨s', hs', heq.trans hsuffix⟩
  · rw [← hrun] at hset
    have hrefused : ¬ (M.setActiveSlot suffix b).1 = .ok () := by
      rw [hset]
      exact Res.error_ne_ok
    refine ⟨iff_of_false hrefused ?_, fun h => absurd h hrefused, fun h => absurd h hrefused,
      fun h => absurd h hrefused⟩
    rintro ⟨s, hs, heq⟩
    exact hno s hs heq

end SlotManager

theorem suffixed_activate {β : Type} {toSlot : Char → β → Slot} {fresh : β} {lower : β → β}
    (hsuffix : ∀ c x, (toSlot c x).suffix = c)
    (hlower : ∀ c c' x, (toSlot c (lower x)).priority < (toSlot c' fresh).priority) {l : List β}
    {nb idx : Nat} (hidx : idx < (suffixed toSlot l nb).length) :
    ∃ s ∈ suffixed toSlot (l.mapIdx fun i x => if i = idx then fresh else lower x) nb,
      s.suffix = (suffixed toSlot l nb)[idx].suffix ∧ s = toSlot s.suffix fresh ∧
      ∀ t ∈ suffixed toSlot (l.mapIdx fun i x => if i = idx then fresh else lower x) nb,
        t = s ∨ t.priority < s.priority := by
  have hlen : (suffixed toSlot (l.mapIdx fun i x => if i = idx then fresh else lower x) nb).length =
      (suffixed toSlot l nb).length := by
    simp [suffixed]
  have hidx' := hlen ▸ hidx
  obtain ⟨h, hc, hget⟩ := getElem_suffixed hidx
  obtain ⟨h', _, hget'⟩ := getElem_suffixed hidx'
  have hfresh : (suffixed toSlot (l.mapIdx fun i x => if i = idx then fresh else lower x) nb)[idx] =
      toSlot lowerAsciiSuffixes[idx] fresh := by
    rw [hget', List.getElem_mapIdx, if_pos rfl]
  refine ⟨_, List.getElem_mem hidx', ?_, ?_, fun t ht => ?_⟩
  · rw [hget, hfresh, hsuffix, hsuffix]
  · rw [hfresh, hsuffix]
  · obtain ⟨i, hi, rfl⟩ := List.getElem_of_mem ht
    by_cases heq : i = idx
    · subst heq
      exact .inl rfl
    · right
      obtain ⟨hl, hci, hgeti⟩ := getElem_suffixed hi
      rw [hgeti, hfresh, List.getElem_mapIdx, if_neg heq]
      exact hlower _ _ _

/-! ### The Android manager -/

namespace Android

theorem priority_setPriority_default (m : SlotMetaData) :
    (SlotMetaData.setPriority (defaultPriority - 1) m).priority = 6 := by
  simp only [SlotMetaData.priority, SlotMetaData.setPriority, getField, setField,
    SlotMetaData.priorityMask_eq, BitField.get_set_self m _ (o := SlotMetaData.priorityOffset) (k := 4) (by decide)]
  decide

def OthersKept (suffix : Char) (d d' : BootloaderControl) : Prop :=
  ∀ i : Fin 4, lowerAsciiSuffixes[i.val]? ≠ some suffix → ∀ priority,
    SlotMetaData.setPriority priority d'.slotMetadata[i] = SlotMetaData.setPriority priority d.slotMetadata[i]

theorem slots_activate (d : BootloaderControl) (idx : Nat) (suffix : Char) :
    slots (activate idx suffix d) = suffixed toSlot (d.slotMetadata.toList.mapIdx fun i m =>
      if i = idx then defaultSlot else SlotMetaData.setPriority (defaultPriority - 1) m)
      d.controlBits.nbSlots.toNat := by
  rw [slots_eq, activate, Vector.toList_mapIdx]

theorem othersKept_activate {d : BootloaderControl} {idx : Nat} (hidx : idx < (slots d).length) :
    OthersKept (slots d)[idx].suffix d (activate idx (slots d)[idx].suffix d) := by
  obtain ⟨h4, hget⟩ := getElem_slots hidx
  intro i hi priority
  have hne : i.val ≠ idx := by
    intro heq
    refine hi ?_
    rw [hget, heq, List.getElem?_eq_getElem (h4.trans (by decide))]
    rfl
  have hmeta : (activate idx (slots d)[idx].suffix d).slotMetadata[i] =
      SlotMetaData.setPriority (defaultPriority - 1) d.slotMetadata[i] := by
    simp [activate, hne]
  rw [hmeta]
  simp only [SlotMetaData.setPriority, setField, SlotMetaData.priorityMask_eq, BitField.set_set_self]

theorem activate_spec {d : BootloaderControl} {idx : Nat} (hidx : idx < (slots d).length) :
    ∃ s ∈ slots (activate idx (slots d)[idx].suffix d), s.suffix = (slots d)[idx].suffix ∧
      s.bootability = .retriable 7 ∧
      ∀ t ∈ slots (activate idx (slots d)[idx].suffix d), t = s ∨ t.priority < s.priority := by
  have hlower : ∀ c c' m, (toSlot c (SlotMetaData.setPriority (defaultPriority - 1) m)).priority <
      (toSlot c' defaultSlot).priority := by
    intro c c' m
    simp only [toSlot, priority_setPriority_default]
    decide
  simp only [slots_eq d] at hidx
  obtain ⟨s, hs, hsuffix, hfresh, habove⟩ := suffixed_activate (fun _ _ => rfl) hlower hidx
  rw [slots_activate]
  simp only [slots_eq d]
  refine ⟨s, hs, hsuffix, ?_, habove⟩
  rw [hfresh]
  rfl

theorem setsActive (crc32 : List UInt8 → UInt32) (b : SlotBlock BootloaderControl) (suffix : Char) :
    (slotManager crc32).SetsActive OthersKept b suffix := by
  refine SlotManager.setsActive activate (slotManager_lawful crc32) rfl proper_slots
    (fun d idx hidx => activate_spec hidx) ?_ (fun d idx hidx => othersKept_activate hidx) b suffix
  intro d s hbest hactive
  replace hbest : bestBootable (slots d) = some s := hbest
  replace hactive : getSlotLastSetActive (slots d) = .ok s := hactive
  show getBootTarget d = .ok (.normalBoot s)
  rw [getBootTarget, hactive, hbest]
  rfl

end Android

/-! ### The Fuchsia manager -/

namespace Fuchsia

def OthersKept (suffix : Char) (d d' : AbrData) : Prop :=
  ∀ i : Fin 2, lowerAsciiSuffixes[i.val]? ≠ some suffix → ∀ priority,
    { d'.slotData[i] with priority } = { d.slotData[i] with priority }

theorem slots_activate (d : AbrData) (idx : Nat) (suffix : Char) :
    slots (activate idx suffix d) = suffixed toSlot (d.slotData.toList.mapIdx fun i x =>
      if i = idx then AbrSlotData.default else { x with priority := defaultPriority - 1 }) 2 := by
  rw [slots_eq, activate, Vector.toList_mapIdx]

theorem othersKept_activate {d : AbrData} {idx : Nat} (hidx : idx < (slots d).length) :
    OthersKept (slots d)[idx].suffix d (activate idx (slots d)[idx].suffix d) := by
  obtain ⟨h2, hget⟩ := getElem_slots hidx
  intro i hi priority
  have hne : i.val ≠ idx := by
    intro heq
    refine hi ?_
    rw [hget, heq, List.getElem?_eq_getElem (h2.trans (by decide))]
    rfl
  simp [activate, hne]

theorem activate_spec {d : AbrData} {idx : Nat} (hidx : idx < (slots d).length) :
    ∃ s ∈ slots (activate idx (slots d)[idx].suffix d), s.suffix = (slots d)[idx].suffix ∧
      s.bootability = .retriable 7 ∧
      ∀ t ∈ slots (activate idx (slots d)[idx].suffix d), t = s ∨ t.priority < s.priority := by
  have hlower : ∀ c c' (x : AbrSlotData), (toSlot c { x with priority := defaultPriority - 1 }).priority <
      (toSlot c' AbrSlotData.default).priority := by
    intro c c' x
    simp only [toSlot]
    decide
  simp only [slots_eq d] at hidx
  obtain ⟨s, hs, hsuffix, hfresh, habove⟩ := suffixed_activate (fun _ _ => rfl) hlower hidx
  rw [slots_activate]
  simp only [slots_eq d]
  refine ⟨s, hs, hsuffix, ?_, habove⟩
  rw [hfresh]
  rfl

theorem setsActive (crc32 : List UInt8 → UInt32) (b : SlotBlock AbrData) (suffix : Char) :
    (slotManager crc32).SetsActive OthersKept b suffix := by
  refine SlotManager.setsActive activate (slotManager_lawful crc32) rfl proper_slots
    (fun d idx hidx => activate_spec hidx) ?_ (fun d idx hidx => othersKept_activate hidx) b suffix
  intro d s hbest _
  replace hbest : bestBootable (slots d) = some s := hbest
  show getBootTarget d = .ok (.normalBoot s)
  rw [getBootTarget, hbest]

end Fuchsia

/-- Setting the active slot takes effect and is remembered, for all metadata and all suffixes. -/
theorem set_active_is_remembered (crc32 : List UInt8 → UInt32) (suffix : Char) :
    (∀ b, (Android.slotManager crc32).SetsActive Android.OthersKept b suffix) ∧
    ∀ b, (Fuchsia.slotManager crc32).SetsActive Fuchsia.OthersKept b suffix :=
  ⟨fun b => Android.setsActive crc32 b suffix, fun b => Fuchsia.setsActive crc32 b suffix⟩

end Gbl.Slots
