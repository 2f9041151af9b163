import Gbl.Efi.MemoryAttributes

/-!
# What the memory attributes item says about a region

For each runtime region of the memory map the item is to have the table's items that lie in it, and descriptors for
the rest, so that together they make up the region.
-/

namespace Gbl.Efi

open Lib Lib.Exec

variable {desc item : EfiMemoryDescriptor} {items table descs : List EfiMemoryDescriptor} {base : Nat}

/-! ## What is to be written for a region -/

def EfiMemoryDescriptor.Inside (it desc : EfiMemoryDescriptor) : Prop :=
  desc.physicalStart ≤ it.physicalStart ∧ it.physicalStart < desc.stop ∧ it.stop ≤ desc.stop

structure Described (table : List EfiMemoryDescriptor) (desc : EfiMemoryDescriptor)
    (w : List EfiMemoryDescriptor) : Prop where
  consecutive : Extent.Tiles desc.physicalStart (w.map EfiMemoryDescriptor.extent) desc.stop
  disjoint : (w.map EfiMemoryDescriptor.extent).Pairwise Extent.Disjoint
  union : ∀ a, (∃ e ∈ w.map EfiMemoryDescriptor.extent, a ∈ e) ↔ a ∈ desc.extent
  verbatim : ∀ it ∈ table, it.Inside desc → it ∈ w
  uncovered : ∀ e ∈ w, ∀ a ∈ e.extent, (∀ it ∈ table, a ∉ it.extent) → e.attributes = emaRuntime

theorem mem_written {e : EfiMemoryDescriptor} (h : e ∈ written desc items base) :
    e ∈ items ∨ e.attributes = emaRuntime := by
  induction items generalizing base with
  | nil =>
    rw [written] at h
    split at h
    · cases h
    · exact .inr (by rw [List.mem_singleton.1 h]; rfl)
  | cons item items ih =>
    by_cases hgap : base < item.physicalStart
    · rw [written_gap hgap] at h
      rcases List.mem_cons.1 h with rfl | h
      · exact .inr rfl
      · exact (ih h).imp_left (List.mem_cons_of_mem _)
    · rw [written_item hgap] at h
      rcases List.mem_cons.1 h with rfl | h
      · exact .inl List.mem_cons_self
      · exact (ih h).imp_left (List.mem_cons_of_mem _)

structure Ahead (desc : EfiMemoryDescriptor) (items : List EfiMemoryDescriptor) (base : Nat) : Prop where
  inOrder : InOrder items
  aligned : ∀ it ∈ items, pageSize ∣ it.physicalStart
  from_base : ∀ it ∈ items, base ≤ it.physicalStart
  before_stop : ∀ it ∈ items, it.physicalStart < desc.stop

theorem Ahead.tail (h : Ahead desc (item :: items) base) : Ahead desc items item.stop where
  inOrder := h.inOrder.of_cons
  aligned := fun it hit => h.aligned it (List.mem_cons_of_mem _ hit)
  from_base := (List.pairwise_cons.1 h.inOrder).1
  before_stop := fun it hit => h.before_stop it (List.mem_cons_of_mem _ hit)

theorem Ahead.of_le {base' : Nat} (h : Ahead desc items base) (hle : base' ≤ base) : Ahead desc items base' :=
  { h with from_base := fun it hit => hle.trans (h.from_base it hit) }

theorem Ahead.tail_start (h : Ahead desc (item :: items) base) : Ahead desc items item.physicalStart :=
  h.tail.of_le (Nat.le_add_right ..)

theorem Ahead.start_eq (h : Ahead desc (item :: items) base) (hgap : ¬ base < item.physicalStart) :
    item.physicalStart = base :=
  Nat.le_antisymm (Nat.not_lt.1 hgap) (h.from_base item List.mem_cons_self)

theorem le_start_of_mem_written (h : Ahead desc items base) {e : EfiMemoryDescriptor}
    (he : e ∈ written desc items base) : base ≤ e.physicalStart := by
  induction items generalizing base with
  | nil =>
    rw [written] at he
    split at he
    · cases he
    · rw [List.mem_singleton.1 he]
      rfl
  | cons item items ih =>
    by_cases hgap : base < item.physicalStart
    · rw [written_gap hgap] at he
      rcases List.mem_cons.1 he with rfl | he
      · exact Nat.le_refl _
      · exact (Nat.le_of_lt hgap).trans (ih h.tail_start he)
    · rw [written_item hgap] at he
      have hstart := h.start_eq hgap
      rcases List.mem_cons.1 he with rfl | he
      · exact Nat.le_of_eq hstart.symm
      · rw [← hstart] at he
        exact (h.from_base item List.mem_cons_self).trans ((Nat.le_add_right ..).trans (ih h.tail he))

theorem eq_base_of_tiles {lo : Nat} (h : Ahead desc items base) (hlt : base < desc.stop)
    (htiles : Extent.Tiles lo ((written desc items base).map EfiMemoryDescriptor.extent) desc.stop) :
    lo = base := by
  cases items with
  | nil =>
    rw [written, if_neg (Nat.ne_of_lt hlt)] at htiles
    exact htiles.1.symm
  | cons item items =>
    by_cases hgap : base < item.physicalStart
    · rw [written_gap hgap] at htiles
      exact htiles.1.symm
    · rw [written_item hgap] at htiles
      exact htiles.1.symm.trans (h.start_eq hgap)

theorem mem_written_of_start_eq (h : Ahead desc items base) {it : EfiMemoryDescriptor} (hit : it ∈ items)
    (hstart : it.physicalStart = base) : it ∈ written desc items base := by
  induction items with
  | nil => cases hit
  | cons item items ih =>
    by_cases hgap : base < item.physicalStart
    · -- Then all items start behind the cursor.
      rcases List.mem_cons.1 hit with rfl | hit
      · omega
      · have := h.tail_start.from_base it hit
        omega
    · rw [written_item hgap]
      rcases List.mem_cons.1 hit with rfl | hit
      · exact List.mem_cons_self
      · -- The items before it at the cursor are empty.
        have hle := h.tail.from_base it hit
        have hbase := h.start_eq hgap
        rw [EfiMemoryDescriptor.stop] at hle
        have hempty : base + item.len = base := by omega
        rw [hempty]
        exact List.mem_cons_of_mem _ (ih (h.tail_start.of_le (Nat.le_of_eq hbase.symm)) hit)

theorem generated_pages_pos {memoryType size : Nat} (hdvd : pageSize ∣ size) (hpos : 0 < size) :
    (generated memoryType base size).numberOfPages ≠ 0 := by
  obtain ⟨k, rfl⟩ := hdvd
  have hk : (generated memoryType base (pageSize * k)).numberOfPages = k := Nat.mul_div_cancel_left k (by decide)
  rw [hk]
  rintro rfl
  exact absurd hpos (Nat.lt_irrefl _)

theorem mem_written_of_empty (h : Ahead desc items base) (hle : base ≤ desc.stop) (hfits : Fits desc items base)
    (hbase : pageSize ∣ base) (hstop : pageSize ∣ desc.stop) {e : EfiMemoryDescriptor}
    (he : e ∈ written desc items base) (hempty : e.numberOfPages = 0) : e ∈ items := by
  induction items generalizing base with
  | nil =>
    rw [written] at he
    split at he
    · cases he
    · rw [List.mem_singleton.1 he] at hempty
      exact absurd hempty (generated_pages_pos (Nat.dvd_sub hstop hbase) (by omega))
  | cons item items ih =>
    by_cases hgap : base < item.physicalStart
    · rw [written_gap hgap] at he
      have haligned := h.aligned item List.mem_cons_self
      rcases List.mem_cons.1 he with rfl | he
      · exact absurd hempty (generated_pages_pos (Nat.dvd_sub haligned hbase) (by omega))
      · have hnext := Nat.le_of_lt (h.before_stop item List.mem_cons_self)
        exact List.mem_cons_of_mem _ (ih h.tail_start hnext ((fits_gap hgap).1 hfits) haligned he)
    · rw [written_item hgap] at he
      obtain ⟨hend, hrest⟩ := (fits_item hgap).1 hfits
      have htail : Ahead desc items (base + item.len) := by
        rw [← h.start_eq hgap]
        exact h.tail
      rcases List.mem_cons.1 he with rfl | he
      · exact List.mem_cons_self
      · exact List.mem_cons_of_mem _ (ih htail hend hrest ((Nat.dvd_add_right hbase).2 (Nat.dvd_mul_left ..)) he)

def Recovered (desc item : EfiMemoryDescriptor) : List EfiMemoryDescriptor → Prop
  | [] => item = generated desc.memoryType item.physicalStart (desc.stop - item.physicalStart)
  | next :: items => item ∈ next :: items ∨ item.physicalStart < next.physicalStart ∧
      item = generated next.memoryType item.physicalStart (next.physicalStart - item.physicalStart)

def Laid (desc : EfiMemoryDescriptor) : List EfiMemoryDescriptor → Nat → Prop
  | [], _ => True
  | item :: items, base =>
    if base < item.physicalStart then
      pageSize ∣ item.physicalStart - base ∧ (item.stop ≤ desc.stop → Recovered desc item items) ∧
        Laid desc items item.physicalStart
    else Laid desc items (base + item.len)

theorem laid_gap (h : base < item.physicalStart) : Laid desc (item :: items) base ↔
    pageSize ∣ item.physicalStart - base ∧ (item.stop ≤ desc.stop → Recovered desc item items) ∧
      Laid desc items item.physicalStart := by
  rw [Laid, if_pos h]

theorem laid_item (h : ¬ base < item.physicalStart) :
    Laid desc (item :: items) base ↔ Laid desc items (base + item.len) := by
  rw [Laid, if_neg h]

theorem recovered_of_mem (h : Ahead desc (item :: items) base) (hfits : Fits desc items item.physicalStart)
    (hstop : pageSize ∣ desc.stop) (hmem : item ∈ written desc items item.physicalStart) :
    Recovered desc item items := by
  have hlt := h.before_stop item List.mem_cons_self
  have haligned := h.aligned item List.mem_cons_self
  cases items with
  | nil =>
    rw [written, if_neg (Nat.ne_of_lt hlt)] at hmem
    exact List.mem_singleton.1 hmem
  | cons next items =>
    by_cases hgap : item.physicalStart < next.physicalStart
    · rw [written_gap hgap] at hmem
      rcases List.mem_cons.1 hmem with heq | hmem
      · exact .inr ⟨hgap, heq⟩
      · have := le_start_of_mem_written h.tail_start.tail_start hmem
        omega
    · -- The next item starts at the same address, so that this one is empty.
      have hle := h.tail.from_base next List.mem_cons_self
      have hempty : item.numberOfPages = 0 := by
        simp only [EfiMemoryDescriptor.stop, EfiMemoryDescriptor.len, pageSize] at hle
        omega
      exact .inl (mem_written_of_empty h.tail_start (Nat.le_of_lt hlt) hfits haligned hstop hmem hempty)

theorem mem_of_recovered (hlt : item.physicalStart < desc.stop) (h : Recovered desc item items)
    (hitems : item ∈ items → item ∈ written desc items item.physicalStart) :
    item ∈ written desc items item.physicalStart := by
  cases items with
  | nil =>
    rw [written, if_neg (Nat.ne_of_lt hlt)]
    exact List.mem_singleton.2 h
  | cons next items =>
    rcases h with hmem | ⟨hgap, heq⟩
    · exact hitems hmem
    · rw [written_gap hgap]
      exact List.mem_cons.2 (.inl heq)

def Complete (desc : EfiMemoryDescriptor) (items : List EfiMemoryDescriptor) (base : Nat) : Prop :=
  Extent.Tiles base ((written desc items base).map EfiMemoryDescriptor.extent) desc.stop ∧
    ∀ it ∈ items, it.stop ≤ desc.stop → it ∈ written desc items base

theorem complete_nil (hle : base ≤ desc.stop) (hdvd : pageSize ∣ desc.stop - base) : Complete desc [] base := by
  refine ⟨?_, nofun⟩
  rw [written]
  split
  · next heq => exact heq
  · refine ⟨rfl, ?_⟩
    show base + (desc.stop - base) / pageSize * pageSize = desc.stop
    rw [Nat.div_mul_cancel hdvd]
    omega

theorem complete_gap (h : Ahead desc (item :: items) base) (hfits : Fits desc items item.physicalStart)
    (hdvd : pageSize ∣ desc.stop - base) (hgap : base < item.physicalStart) :
    Complete desc (item :: items) base ↔ pageSize ∣ item.physicalStart - base ∧
      (item.stop ≤ desc.stop → Recovered desc item items) ∧ Complete desc items item.physicalStart := by
  have hlt := h.before_stop item List.mem_cons_self
  -- The descriptor for the gap is none of the items.
  have hother : ∀ it, item.physicalStart ≤ it.physicalStart →
      (it ∈ written desc (item :: items) base ↔ it ∈ written desc items item.physicalStart) := by
    intro it hit
    rw [written_gap hgap, List.mem_cons, or_iff_right]
    rintro rfl
    exact absurd hgap (Nat.not_lt.2 hit)
  have hlater := h.tail_start.from_base
  have htiles : Extent.Tiles base ((written desc (item :: items) base).map EfiMemoryDescriptor.extent) desc.stop ↔
      Extent.Tiles (base + (item.physicalStart - base) / pageSize * pageSize)
        ((written desc items item.physicalStart).map EfiMemoryDescriptor.extent) desc.stop := by
    rw [written_gap hgap]
    exact and_iff_right rfl
  constructor
  · intro ⟨htile, hverb⟩
    rw [htiles] at htile
    have hbase := eq_base_of_tiles h.tail_start hlt htile
    have hgapdvd : pageSize ∣ item.physicalStart - base := ⟨(item.physicalStart - base) / pageSize, by
      rw [Nat.mul_comm]
      omega⟩
    have hstop : pageSize ∣ desc.stop := by
      have hsum := (Nat.dvd_add_right (Nat.dvd_sub hdvd hgapdvd)).2 (h.aligned item List.mem_cons_self)
      rwa [show desc.stop - base - (item.physicalStart - base) + item.physicalStart = desc.stop by omega] at hsum
    rw [hbase] at htile
    refine ⟨hgapdvd, fun hend => ?_, htile, fun it hit hend => ?_⟩
    · have hmem := (hother item (Nat.le_refl _)).1 (hverb item List.mem_cons_self hend)
      exact recovered_of_mem h hfits hstop hmem
    · exact (hother it (hlater it hit)).1 (hverb it (List.mem_cons_of_mem _ hit) hend)
  · intro ⟨hgapdvd, hrec, htile, hverb⟩
    constructor
    · rw [htiles, Nat.div_mul_cancel hgapdvd]
      rwa [show base + (item.physicalStart - base) = item.physicalStart by omega]
    · intro it hit hend
      rcases List.mem_cons.1 hit with rfl | hit
      · rw [hother it (Nat.le_refl _)]
        exact mem_of_recovered hlt (hrec hend) fun hmem => hverb it hmem hend
      · rw [hother it (hlater it hit)]
        exact hverb it hit hend

theorem complete_item (h : Ahead desc (item :: items) base) (hgap : ¬ base < item.physicalStart) :
    Complete desc (item :: items) base ↔ Complete desc items (base + item.len) := by
  have hstart := h.start_eq hgap
  have htail : Ahead desc items (base + item.len) := by
    rw [← hstart]
    exact h.tail
  unfold Complete
  rw [written_item hgap]
  refine and_congr ?_ ?_
  · rw [List.map_cons, ← hstart]
    exact and_iff_right rfl
  · constructor
    · intro hverb it hit hend
      rcases List.mem_cons.1 (hverb it (List.mem_cons_of_mem _ hit) hend) with rfl | hmem
      · -- The item is listed twice, and empty.
        have hle := h.tail.from_base it hit
        rw [EfiMemoryDescriptor.stop] at hle
        exact mem_written_of_start_eq htail hit (by omega)
      · exact hmem
    · intro hverb it hit hend
      rcases List.mem_cons.1 hit with rfl | hit
      · exact List.mem_cons_self
      · exact List.mem_cons_of_mem _ (hverb it hit hend)

theorem complete_iff_laid (h : Ahead desc items base) (hle : base ≤ desc.stop) (hfits : Fits desc items base)
    (hdvd : pageSize ∣ desc.stop - base) : Complete desc items base ↔ Laid desc items base := by
  induction items generalizing base with
  | nil => exact iff_of_true (complete_nil hle hdvd) trivial
  | cons item items ih =>
    have hlt := Nat.le_of_lt (h.before_stop item List.mem_cons_self)
    by_cases hgap : base < item.physicalStart
    · rw [fits_gap hgap] at hfits
      rw [complete_gap h hfits hdvd hgap, laid_gap hgap]
      refine and_congr_right fun hgapdvd => and_congr_right fun _ => ih h.tail_start hlt hfits ?_
      rw [show desc.stop - item.physicalStart = desc.stop - base - (item.physicalStart - base) by omega]
      exact Nat.dvd_sub hdvd hgapdvd
    · obtain ⟨hend, hrest⟩ := (fits_item hgap).1 hfits
      rw [complete_item h hgap, laid_item hgap]
      refine ih ?_ hend hrest ?_
      · rw [← h.start_eq hgap]
        exact h.tail
      · rw [← Nat.sub_sub]
        exact Nat.dvd_sub hdvd (Nat.dvd_mul_left ..)

theorem described_iff (h : InOrder table) (haligned : ∀ it ∈ table, pageSize ∣ it.physicalStart)
    (hquiet : NoOverflow table desc) :
    Described table desc (written desc (tableIn table desc) desc.physicalStart) ↔
      Laid desc (tableIn table desc) desc.physicalStart := by
  have hahead : Ahead desc (tableIn table desc) desc.physicalStart := {
    inOrder := List.Pairwise.filter _ h
    aligned := fun it hit => haligned it (mem_tableIn.1 hit).1
    from_base := fun it hit => (mem_tableIn.1 hit).2.1
    before_stop := fun it hit => (mem_tableIn.1 hit).2.2 }
  have hdvd : pageSize ∣ desc.stop - desc.physicalStart := by
    rw [EfiMemoryDescriptor.stop, Nat.add_sub_cancel_left]
    exact Nat.dvd_mul_left ..
  rw [← complete_iff_laid hahead (Nat.le_add_right ..) hquiet.2 hdvd]
  constructor
  · intro hdesc
    refine ⟨hdesc.consecutive, fun it hit hend => ?_⟩
    obtain ⟨hmem, hlo, hhi⟩ := mem_tableIn.1 hit
    exact hdesc.verbatim it hmem ⟨hlo, hhi, hend⟩
  · rintro ⟨htile, hverb⟩
    refine ⟨htile, htile.pairwise_disjoint, fun a => htile.mem_iff, ?_, ?_⟩
    · rintro it hit ⟨hlo, hhi, hend⟩
      exact hverb it (mem_tableIn.2 ⟨hit, hlo, hhi⟩) hend
    · intro e he a ha hnone
      refine (mem_written he).resolve_left fun hin => ?_
      exact hnone e (mem_tableIn.1 hin).1 ha

/-! ## The item -/

def Covers (table descs : List EfiMemoryDescriptor) (parts : List (List EfiMemoryDescriptor)) : Prop :=
  List.Forall₂ (fun desc w => (desc.Runtime → Described table desc w) ∧ (¬ desc.Runtime → w = [])) descs parts

def WellLaid (table descs : List EfiMemoryDescriptor) : Prop :=
  ∀ desc ∈ descs, desc.Runtime → Laid desc (tableIn table desc) desc.physicalStart

theorem Quiet.noOverflow (hquiet : Quiet table descs) (hsize : ∀ desc ∈ descs, desc.Runtime → desc.Sizable) :
    ∀ desc ∈ descs, desc.Runtime → NoOverflow table desc := by
  induction descs with
  | nil => exact nofun
  | cons desc descs ih =>
    obtain ⟨hfirst, hrest⟩ := List.forall_mem_cons.1 hsize
    exact List.forall_mem_cons.2 ⟨fun hrun => hquiet.1 hrun (hfirst hrun), ih (hquiet.2 hfirst) hrest⟩

theorem covers_iff (h : InOrder table) (haligned : ∀ it ∈ table, pageSize ∣ it.physicalStart)
    (hquiet : ∀ desc ∈ descs, desc.Runtime → NoOverflow table desc) :
    Covers table descs (descs.map (part table)) ↔ WellLaid table descs := by
  unfold Covers WellLaid
  rw [List.forall₂_map_right_iff, List.forall₂_same]
  refine forall₂_congr fun desc hdesc => ?_
  by_cases hrun : desc.Runtime
  · rw [part, if_pos hrun]
    simp only [hrun, forall_const, not_true_eq_false, false_implies, and_true]
    exact described_iff h haligned (hquiet desc hdesc hrun)
  · rw [part, if_neg hrun]
    simp [hrun]

def CarefulTable (table descs : List EfiMemoryDescriptor) : Prop :=
  Quiet table descs ∧ ((∀ desc ∈ descs, desc.Runtime → desc.Sizable) → WellLaid table descs)

theorem covers_of_careful (h : InOrder table) (haligned : ∀ it ∈ table, pageSize ∣ it.physicalStart)
    (hcare : CarefulTable table descs) {room tail : Nat} {parts : List (List EfiMemoryDescriptor)}
    (hok : describeAll table descs room = (.ok parts, tail)) : Covers table descs parts := by
  obtain ⟨hsize, rfl⟩ := describeAll_eq_ok h hok hcare.1
  exact (covers_iff h haligned (hcare.1.noOverflow hsize)).2 (hcare.2 hsize)

theorem generate_eq_ok {m : EfiMemoryMap} {t : EfiMemoryAttributesTable} {z : ZbiContainer}
    {item : AttributesItem} (h : generateEfiMemoryAttributesTableItem m t z = .ok item) :
    (∃ room tail, describeAll t.items m.descriptors room = (.ok item.parts, tail)) ∧
      item.numberOfEntries = item.parts.flatten.length := by
  unfold generateEfiMemoryAttributesTableItem at h
  split at h
  · cases h
  · next provided _ =>
    split at h
    · cases h
    · next hheader =>
      split at h
      · cases h
      · next parts tail hrun =>
        have hall := mapErr_run_eq_ok hrun
        have hroom := describeAll_room hall
        -- The header is smaller than a descriptor, and does not count.
        have hcount : (provided - tail) / descriptorBytes = parts.flatten.length := by
          rw [need] at hroom
          rw [show provided - tail = headerBytes + descriptorBytes * parts.flatten.length by omega]
          simp only [headerBytes, descriptorBytes]
          omega
        simp only at h
        split at h
        · cases h
        · split at h
          · cases h
          · cases h
            exact ⟨⟨_, _, hall⟩, hcount⟩

/-- On a table in order, at page boundaries, the loop overflows nowhere and leaves every runtime region
described exactly if no sum or difference is out of range and every item starts where the one before
it ended, or looks like a made-up one. What the item counts is right in any case. -/
theorem attributes_item_covers_iff (m : EfiMemoryMap) (t : EfiMemoryAttributesTable)
    (horder : InOrder t.items) (haligned : ∀ it ∈ t.items, pageSize ∣ it.physicalStart) :
    (((∀ room, (describeAll t.items m.descriptors room).1 ≠ panic) ∧
        ∀ room parts tail, describeAll t.items m.descriptors room = (.ok parts, tail) →
          Covers t.items m.descriptors parts) ↔
      CarefulTable t.items m.descriptors) ∧
    ∀ z item, generateEfiMemoryAttributesTableItem m t z = .ok item →
      item.numberOfEntries = item.parts.flatten.length ∧
      (CarefulTable t.items m.descriptors → Covers t.items m.descriptors item.parts) := by
  constructor
  · constructor
    · intro ⟨hno, hcover⟩
      have hquiet := (not_panic_iff horder).1 hno
      refine ⟨hquiet, fun hsize => ?_⟩
      obtain ⟨room, tail, hok⟩ := describeAll_ok horder hquiet hsize
      exact (covers_iff horder haligned (hquiet.noOverflow hsize)).1 (hcover room _ tail hok)
    · intro hcare
      refine ⟨(not_panic_iff horder).2 hcare.1, fun room parts tail hok => ?_⟩
      exact covers_of_careful horder haligned hcare hok
  · intro z item hok
    obtain ⟨⟨room, tail, hall⟩, hcount⟩ := generate_eq_ok hok
    exact ⟨hcount, fun hcare => covers_of_careful horder haligned hcare hall⟩

/-! ## A region of three pages with one item -/

namespace ThreePages

def region : EfiMemoryDescriptor := ⟨5, 0x1000, 0, 3, emaRuntime⟩

def readOnly (start : Nat) : EfiMemoryDescriptor := ⟨5, start, 0, 1, emaRuntime + 0x20000⟩

def memoryMap : EfiMemoryMap := ⟨region.encode, 40, by decide, by decide⟩

def attributesTable (start : Nat) : EfiMemoryAttributesTable := ⟨40, (readOnly start).encode, by decide⟩

def container : ZbiContainer := ⟨.ok 4096, fun _ => .ok ()⟩

end ThreePages

open ThreePages

def twoItems : EfiMemoryAttributesTable :=
  ⟨40, (readOnly 0x1000).encode ++ (readOnly 0x2000).encode, by decide⟩

/-- The first two pages are read-only: they are described as such, and the one behind them is made up. -/
theorem attributes_item_covers_first :
    (InOrder twoItems.items ∧ ∀ it ∈ twoItems.items, pageSize ∣ it.physicalStart) ∧
    CarefulTable twoItems.items memoryMap.descriptors ∧
    generateEfiMemoryAttributesTableItem memoryMap twoItems container =
      .ok ⟨1, 3, 40, 0, [[readOnly 0x1000, readOnly 0x2000, ⟨5, 0x3000, 0, 1, emaRuntime⟩]]⟩ ∧
    Covers twoItems.items memoryMap.descriptors
      [[readOnly 0x1000, readOnly 0x2000, ⟨5, 0x3000, 0, 1, emaRuntime⟩]] := by
  have htable : twoItems.items = [readOnly 0x1000, readOnly 0x2000] := by decide
  have hmap : memoryMap.descriptors = [region] := by decide
  have horder : InOrder twoItems.items := by
    rw [htable]
    exact List.pairwise_pair.2 (by decide)
  have haligned : ∀ it ∈ twoItems.items, pageSize ∣ it.physicalStart := by
    rw [htable]
    decide
  have hcare : CarefulTable twoItems.items memoryMap.descriptors := by
    have hin : tableIn [readOnly 0x1000, readOnly 0x2000] region = [readOnly 0x1000, readOnly 0x2000] := by decide
    rw [htable, hmap]
    refine ⟨⟨fun _ _ => ⟨fun _ => by decide, ?_⟩, fun _ => trivial⟩, fun _ => ?_⟩
    · rw [hin]
      exact (fits_item (by decide)).2 ⟨by decide, (fits_item (by decide)).2 ⟨by decide, trivial⟩⟩
    · refine List.forall_mem_singleton.2 fun _ => ?_
      rw [hin]
      exact (laid_item (by decide)).2 ((laid_item (by decide)).2 trivial)
  have hok : generateEfiMemoryAttributesTableItem memoryMap twoItems container =
      .ok ⟨1, 3, 40, 0, [[readOnly 0x1000, readOnly 0x2000, ⟨5, 0x3000, 0, 1, emaRuntime⟩]]⟩ := by decide
  exact ⟨⟨horder, haligned⟩, hcare, hok,
    ((attributes_item_covers_iff memoryMap twoItems horder haligned).2 container _ hok).2 hcare⟩

/-- The page in the middle is read-only, and is lost: both descriptors that are written for the region
have the runtime attribute only. -/
theorem attributes_item_loses_page :
    InOrder (attributesTable 0x2000).items ∧
      (∀ it ∈ (attributesTable 0x2000).items, pageSize ∣ it.physicalStart) ∧
      (∀ it ∈ (attributesTable 0x2000).items, ∃ d ∈ memoryMap.descriptors, it.extent.Within d.extent) ∧
      ∃ item, generateEfiMemoryAttributesTableItem memoryMap (attributesTable 0x2000) container = .ok item ∧
        item.parts = [[⟨5, 0x1000, 0, 1, emaRuntime⟩, ⟨5, 0x2000, 0, 2, emaRuntime⟩]] ∧
        ¬ Covers (attributesTable 0x2000).items memoryMap.descriptors item.parts := by
  have htable : (attributesTable 0x2000).items = [readOnly 0x2000] := by decide
  have hmap : memoryMap.descriptors = [region] := by decide
  have hok : generateEfiMemoryAttributesTableItem memoryMap (attributesTable 0x2000) container =
      .ok ⟨1, 2, 40, 0, [[⟨5, 0x1000, 0, 1, emaRuntime⟩, ⟨5, 0x2000, 0, 2, emaRuntime⟩]]⟩ := by decide
  rw [htable, hmap]
  refine ⟨?_, ?_, ?_, _, hok, rfl, ?_⟩
  · exact List.pairwise_singleton _ _
  · decide
  · decide
  · intro hcover
    cases hcover with
    | cons hfirst _ =>
      have hin := (hfirst.1 (by decide)).verbatim (readOnly 0x2000) (by decide) ⟨by decide, by decide, by decide⟩
      revert hin
      decide

end Gbl.Efi
