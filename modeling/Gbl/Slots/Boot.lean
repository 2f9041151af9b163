import Gbl.Slots.Ranking
import Gbl.Lib.Run

/-!
# Boots through the stored metadata

A boot loads the metadata block with a fresh boot token, marks the boot attempt and writes the block back.
-/

namespace Gbl.Slots

open Lib Lib.Exec

structure Manager (α : Type) where
  bytes : MetadataBytes α
  /-- `slots_iter`. -/
  slots : α → List Slot
  /-- What `mark_boot_attempt` is going to boot. -/
  target : α → Result BootTarget
  markBootAttempt : Exec Error (SlotBlock α) Unit

def persist (bytes : List UInt8) : Exec Error (List UInt8) (List UInt8) := do
  Exec.modify fun content => bytes ++ content.drop bytes.length
  pure bytes

def BootTarget.Matches : BootTarget → Option (Char × Usability) → Prop
  | .normalBoot slot, o => o = some slot.option
  | .recovery _, o => o = none

namespace Manager

variable {α : Type} (M : Manager α)

def load (content : List UInt8) : SlotBlock α := SlotBlock.deserialize M.bytes content

def bootLoaded : Exec Error (SlotBlock α × List UInt8) BootTarget := do
  let s ← Exec.get
  let target ← Exec.lift (M.target s.1.data)
  Exec.zoom (fun s => s.1) (fun s b => (b, s.2)) M.markBootAttempt
  SlotBlock.syncToDisk M.bytes persist
  pure target

def boot : Exec Error (List UInt8) BootTarget :=
  Exec.zoom (fun content => (M.load content, content)) (fun _ s => s.2) M.bootLoaded

structure Lawful (Inv : α → Prop) : Prop where
  proper : ∀ d, Inv d → Proper (M.slots d)
  /-- Marking returns the token and takes the best option. -/
  mark : ∀ d cache, Inv d → ∃ target d' cache', M.target d = .ok target ∧
    M.markBootAttempt ⟨cache, true, d⟩ = (.ok (), ⟨cache', false, d'⟩) ∧
    (d' = d ∧ cache' = cache ∨ cache' = .dirty) ∧ Inv d' ∧
    target.Matches (ranking (M.slots d)).next ∧ ranking (M.slots d') = (ranking (M.slots d)).use
  /-- What is written back is valid and describes the same slots. -/
  prepare : ∀ d, Inv d → M.bytes.check (M.bytes.prepareForSync d) = .ok () ∧
    Inv (M.bytes.prepareForSync d) ∧ M.slots (M.bytes.prepareForSync d) = M.slots d

variable {M} {Inv : α → Prop}

theorem load_eq (content : List UInt8) :
    M.load content = ⟨(M.load content).cacheStatus, true, (M.load content).data⟩ := by
  unfold load SlotBlock.deserialize
  split <;> rfl

variable {content : List UInt8} {d : α} {σ : Type} {persist : List UInt8 → Exec Error σ (List UInt8)}
  {b : SlotBlock α} {t : σ}

theorem check_of_validate (h : M.bytes.validate content = .ok d) :
    M.bytes.check d = .ok () ∧ M.bytes.codec.enc d = content.take M.bytes.codec.width := by
  unfold MetadataBytes.validate at h
  split at h
  · cases h
  · rename_i hlen
    obtain ⟨u, hcheck, hdata⟩ := Res.bind_eq_ok.mp h
    rw [← Except.ok.inj hdata]
    refine ⟨hcheck, M.bytes.codec.enc_dec _ ?_⟩
    rw [List.length_take]
    omega

theorem load_data (content : List UInt8) :
    M.bytes.check (M.load content).data = .ok () ∨ (M.load content).data = M.bytes.default := by
  unfold load SlotBlock.deserialize
  cases hv : M.bytes.validate content with
  | error e => exact .inr rfl
  | ok data => exact .inl (check_of_validate hv).1

theorem validate_persisted (content : List UInt8) (h : M.bytes.check d = .ok ()) :
    M.bytes.validate (M.bytes.codec.enc d ++ content.drop (M.bytes.codec.enc d).length) = .ok d := by
  have hlen := M.bytes.codec.length_enc d
  unfold MetadataBytes.validate
  rw [if_neg (by rw [List.length_append, hlen]; omega), List.take_left' hlen, M.bytes.codec.dec_enc]
  simp only [h]
  rfl

theorem load_persisted (content : List UInt8) (h : M.bytes.check d = .ok ()) :
    M.load (M.bytes.codec.enc d ++ content.drop (M.bytes.codec.enc d).length) = ⟨.clean, true, d⟩ := by
  simp only [load, SlotBlock.deserialize, validate_persisted content h]

theorem syncToDisk_clean (h : b.cacheStatus = .clean) :
    SlotBlock.syncToDisk M.bytes persist (b, t) = (.ok (), b, t) := by
  refine (bind_run_ok (get_run _)).trans ?_
  rw [if_pos h]
  rfl

theorem syncToDisk_dirty {t' : σ} {bytes : List UInt8} (h : b.cacheStatus ≠ .clean)
    (hp : persist (M.bytes.codec.enc (M.bytes.prepareForSync b.data)) t = (.ok bytes, t')) :
    SlotBlock.syncToDisk M.bytes persist (b, t) =
      (.ok (), { b with cacheStatus := .clean, data := M.bytes.codec.dec bytes }, t') := by
  refine (bind_run_ok (get_run _)).trans ?_
  rw [if_neg h]
  refine (bind_run_ok (modify_run _ _)).trans ?_
  refine (bind_run_ok (get_run _)).trans ?_
  have hzoom : Exec.zoom (fun s : SlotBlock α × σ => s.2) (fun s t => (s.1, t))
      (persist (M.bytes.codec.enc (M.bytes.prepareForSync b.data)))
      ({ b with data := M.bytes.prepareForSync b.data }, t) =
      (.ok bytes, { b with data := M.bytes.prepareForSync b.data }, t') := by
    simp only [Exec.zoom, hp]
  exact (bind_run_ok (attempt_run_ok hzoom)).trans rfl

theorem bootToken_syncToDisk (persist : List UInt8 → Exec Error σ (List UInt8)) (s : SlotBlock α × σ) :
    (SlotBlock.syncToDisk M.bytes persist s).2.1.bootToken = s.1.bootToken := by
  have hkeeps : Keeps (fun s' : SlotBlock α × σ => s'.1.bootToken = s.1.bootToken)
      (SlotBlock.syncToDisk M.bytes persist) := by
    refine keeps_bind keeps_get fun s' => ?_
    split
    · exact keeps_pure _
    · refine keeps_bind (keeps_modify fun _ h => h) fun _ => ?_
      refine keeps_bind keeps_get fun _ => ?_
      refine keeps_bind (keeps_attempt (keeps_zoom fun _ _ h => h)) fun res => ?_
      cases res with
      | ok bytes => exact keeps_modify fun _ h => h
      | error e => exact keeps_lift _
  exact hkeeps s rfl

theorem boot_eq {target : BootTarget} (ht : M.target (M.load content).data = .ok target)
    (hm : M.markBootAttempt (M.load content) = (.ok (), b)) :
    M.boot content = (.ok target, if b.cacheStatus = .clean then content
      else M.bytes.codec.enc (M.bytes.prepareForSync b.data) ++
        content.drop (M.bytes.codec.enc (M.bytes.prepareForSync b.data)).length) := by
  have hmark : Exec.zoom (fun s : SlotBlock α × List UInt8 => s.1) (fun s b => (b, s.2))
      M.markBootAttempt (M.load content, content) = (.ok (), b, content) := by
    simp only [Exec.zoom, hm]
  have htarget : (Exec.lift (M.target (M.load content).data) : Exec Error (SlotBlock α × List UInt8) _)
      (M.load content, content) = (.ok target, M.load content, content) := by
    rw [lift_run, ht]
  have hrun : M.bootLoaded (M.load content, content) = (do
      SlotBlock.syncToDisk M.bytes persist
      pure target) (b, content) := by
    refine (bind_run_ok (get_run _)).trans ?_
    exact (bind_run_ok htarget).trans (bind_run_ok hmark)
  simp only [boot, Exec.zoom, hrun]
  by_cases hc : b.cacheStatus = .clean
  · rw [bind_run_ok (syncToDisk_clean hc), if_pos hc]
    rfl
  · rw [bind_run_ok (syncToDisk_dirty hc rfl), if_neg hc]
    rfl

theorem boot_spec (hM : M.Lawful Inv) (h : Inv (M.load content).data) : ∃ target, (M.boot content).1 = .ok target ∧
      target.Matches (ranking (M.slots (M.load content).data)).next ∧
      Inv (M.load (M.boot content).2).data ∧
      ranking (M.slots (M.load (M.boot content).2).data) = (ranking (M.slots (M.load content).data)).use := by
  obtain ⟨target, d', cache', ht, hm, hkept, hinv, hmatch, hrank⟩ :=
    hM.mark (M.load content).data (M.load content).cacheStatus h
  rw [← load_eq] at hm
  rw [boot_eq ht hm]
  refine ⟨target, rfl, hmatch, ?_⟩
  by_cases hc : cache' = .clean
  · -- nothing was changed, so the bytes are the same
    obtain ⟨rfl, -⟩ : d' = (M.load content).data ∧ cache' = (M.load content).cacheStatus := by
      rcases hkept with hkept | hdirty
      · exact hkept
      · exact absurd (hc.symm.trans hdirty) (by simp)
    simp only [hc, if_true]
    exact ⟨h, hrank⟩
  · obtain ⟨hcheck, hinv', hslots⟩ := hM.prepare d' hinv
    simp only [hc, if_false]
    rw [load_persisted content hcheck]
    exact ⟨hinv', by rw [hslots]; exact hrank⟩

theorem boot_nth (hM : M.Lawful Inv) (h : Inv (M.load content).data) (n : Nat) :
    ∃ target, M.boot.nth n content = .ok target ∧
      target.Matches (Options.next (Options.use^[n] (ranking (M.slots (M.load content).data)))) := by
  induction n generalizing content with
  | zero =>
    obtain ⟨target, hout, hmatch, -⟩ := boot_spec hM h
    exact ⟨target, hout, hmatch⟩
  | succ n ih =>
    obtain ⟨-, -, -, hinv, hrank⟩ := boot_spec hM h
    obtain ⟨target, hout, hmatch⟩ := ih hinv
    rw [hrank] at hmatch
    exact ⟨target, hout, hmatch⟩

def FallsBack (M : Manager α) (content : List UInt8) : Prop :=
  let slots := M.slots (M.load content).data
  let plan := (ranking slots).attempts
  plan.length ≤ totalTries slots ∧
  ∀ n, ∃ target, M.boot.nth n content = .ok target ∧
    (∀ h : n < plan.length, ∃ slot tries, target = .normalBoot slot ∧ slot.suffix = plan[n] ∧
      slot.bootability = .retriable tries) ∧
    (plan.length ≤ n → match (ranking slots).settled with
      | some suffix => ∃ slot, target = .normalBoot slot ∧ slot.suffix = suffix ∧
          slot.bootability = .successful
      | none => (∀ s ∈ slots, s.bootability ≠ .successful) ∧ ∃ r, target = .recovery r)

theorem fallsBack (hM : M.Lawful Inv) (h : Inv (M.load content).data) : M.FallsBack content := by
  refine ⟨length_attempts_ranking_le _, fun n => ?_⟩
  obtain ⟨target, hout, hmatch⟩ := boot_nth hM h n
  obtain ⟨htry, hdone⟩ := Options.next_use (ranking (M.slots (M.load content).data)) n
  refine ⟨target, hout, fun hn => ?_, fun hn => ?_⟩
  · obtain ⟨m, hnext⟩ := htry hn
    rw [hnext] at hmatch
    cases target with
    | recovery r => cases hmatch
    | normalBoot slot =>
      obtain ⟨hsuffix, huse⟩ := Prod.mk.inj (Option.some.inj hmatch)
      exact ⟨slot, m + 1, rfl, hsuffix.symm, Bootability.eq_retriable huse.symm⟩
  · rw [hdone hn] at hmatch
    split
    · next suffix hset =>
      rw [hset] at hmatch
      cases target with
      | recovery r => cases hmatch
      | normalBoot slot =>
        obtain ⟨hsuffix, huse⟩ := Prod.mk.inj (Option.some.inj hmatch)
        exact ⟨slot, rfl, hsuffix.symm, Bootability.eq_successful huse.symm⟩
    · next hset =>
      rw [hset] at hmatch
      cases target with
      | recovery r => exact ⟨(settled_ranking_eq_none_iff _).mp hset, r, rfl⟩
      | normalBoot slot => cases hmatch

end Manager

/-! ## Slots by number -/

variable {β : Type} {get : Nat → Result Slot} {l : List β} {f : β → Slot} {slots : List Slot} {idx : Nat}

theorem slotsFrom_eq (hget : ∀ n, get n = match l[n]? with
      | some x => .ok (f x)
      | none => err (.badIndex n)) (fuel count : Nat) :
    slotsFrom get fuel count = ((l.drop count).take fuel).map f := by
  induction fuel generalizing count with
  | zero => rfl
  | succ fuel ih =>
    rw [slotsFrom, hget]
    cases hl : l[count]? with
    | none =>
      have hlen : l.length ≤ count := List.getElem?_eq_none_iff.mp hl
      simp [List.drop_eq_nil_of_le hlen]
    | some x =>
      obtain ⟨hlt, rfl⟩ := List.getElem?_eq_some_iff.mp hl
      simp only [ih]
      rw [List.drop_eq_getElem_cons hlt, List.take_succ_cons, List.map_cons]

theorem slotsIter_eq (hget : ∀ n, get n = match l[n]? with
      | some x => .ok (f x)
      | none => err (.badIndex n)) (hlen : l.length ≤ 26) : slotsIter get = l.map f := by
  rw [slotsIter, slotsFrom_eq hget, List.drop_zero]
  exact congrArg (List.map f) (List.take_of_length_le hlen)

theorem findSuffix_eq {slot : Slot} (hn : (slots.map Slot.suffix).Nodup) (hmem : slot ∈ slots) :
    ∃ idx, ∃ h : idx < slots.length, slots[idx] = slot ∧ findSuffix slot.suffix slots = .ok (idx, slot) := by
  unfold findSuffix
  cases hf : slots.zipIdx.find? fun p => p.1.suffix == slot.suffix with
  | none =>
    obtain ⟨idx, hidx, rfl⟩ := List.getElem_of_mem hmem
    have hno := List.find?_eq_none.mp hf (slots[idx], idx) (by simp [List.mk_mem_zipIdx_iff_getElem?])
    exact absurd hno (by simp)
  | some p =>
    obtain ⟨found, idx⟩ := p
    have hsuffix : found.suffix = slot.suffix := by simpa using List.find?_some hf
    obtain ⟨hidx, hget⟩ := List.getElem?_eq_some_iff.mp
      (List.mk_mem_zipIdx_iff_getElem?.mp (List.mem_of_find?_eq_some hf))
    have hfound : found = slot := List.inj_on_of_nodup_map hn (hget ▸ List.getElem_mem hidx) hmem hsuffix
    exact ⟨idx, hidx, hget.trans hfound, by rw [hfound]⟩

theorem set_eq_map (hn : (slots.map Slot.suffix).Nodup) (h : idx < slots.length) (t : Slot) :
    slots.set idx t = slots.map fun s => if s.suffix = slots[idx].suffix then t else s := by
  refine List.ext_getElem (by simp) fun n hn' hmap => ?_
  have hlt : n < slots.length := by simpa using hmap
  rw [List.getElem_set, List.getElem_map]
  by_cases heq : idx = n
  · simp [heq]
  · have hne : slots[n].suffix ≠ slots[idx].suffix := by
      intro hsame
      have hslot : slots[n] = slots[idx] :=
        List.inj_on_of_nodup_map hn (List.getElem_mem hlt) (List.getElem_mem h) hsame
      exact heq ((hn.of_map Slot.suffix).getElem_inj_iff.mp hslot).symm
    rw [if_neg heq, if_neg hne]
theorem ranking_set (h : Proper slots) (hidx : idx < slots.length) {t : Slot}
    (hnext : (ranking slots).next = some slots[idx].option) (ht : Attempted slots[idx].suffix slots[idx] t) :
    ranking (slots.set idx t) = (ranking slots).use := by
  rw [set_eq_map h.nodup hidx, Options.use_eq_map (nodup_ranking h) hnext]
  refine ranking_map fun s hs => ?_
  by_cases heq : s.suffix = slots[idx].suffix
  · have hsame : s = slots[idx] := List.inj_on_of_nodup_map h.nodup hs (List.getElem_mem hidx) heq
    rw [if_pos heq, hsame]
    exact ht
  · rw [if_neg heq]
    exact ⟨rfl, rfl, (if_neg heq).symm⟩

end Gbl.Slots
