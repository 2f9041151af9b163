import Gbl.Lib.Bytes

/-!
# Ranges of addresses

A range is given by its start and its length. Two ranges are disjoint if they have no address in
common, so an empty range is disjoint from every other, wherever it starts.
-/

namespace Gbl.Lib

/-- The addresses from `start` on, `len` of them. -/
structure Extent where
  start : Nat
  len : Nat
  deriving DecidableEq, Repr

namespace Extent

variable {a b c : Extent} {i : Nat}

/-- The first address behind the range. -/
def stop (e : Extent) : Nat := e.start + e.len

instance : Membership Nat Extent := ⟨fun e i => e.start ≤ i ∧ i < e.stop⟩

theorem mem_def : i ∈ a ↔ a.start ≤ i ∧ i < a.start + a.len := Iff.rfl

/-- No address in common. -/
def Disjoint (a b : Extent) : Prop := ∀ i, i ∈ a → i ∉ b

/-- All of `a` is in `b`; an empty range, too, has its place. -/
def Within (a b : Extent) : Prop := b.start ≤ a.start ∧ a.stop ≤ b.stop

instance : Decidable (a.Within b) := inferInstanceAs (Decidable (_ ∧ _))

theorem Disjoint.symm (h : a.Disjoint b) : b.Disjoint a := fun i hb ha => h i ha hb

theorem Within.mem (h : a.Within b) (hi : i ∈ a) : i ∈ b := ⟨h.1.trans hi.1, hi.2.trans_le h.2⟩

theorem Disjoint.mono {a' b' : Extent} (h : a.Disjoint b) (ha : a'.Within a) (hb : b'.Within b) :
    a'.Disjoint b' := fun i hia hib => h i (ha.mem hia) (hb.mem hib)

theorem disjoint_iff : a.Disjoint b ↔ a.len = 0 ∨ b.len = 0 ∨ a.stop ≤ b.start ∨ b.stop ≤ a.start := by
  constructor
  · intro h
    by_contra hno
    simp only [not_or, stop] at hno
    obtain ⟨ha, hb, hab, hba⟩ := hno
    -- The later of the two starts is in both.
    have hin : max a.start b.start ∈ a := ⟨Nat.le_max_left .., by simp only [stop]; omega⟩
    exact h _ hin ⟨Nat.le_max_right .., by simp only [stop]; omega⟩
  · intro h i hia hib
    rw [mem_def] at hia hib
    simp only [stop] at h
    omega

instance : Decidable (a.Disjoint b) := decidable_of_iff _ disjoint_iff.symm

/-! ## Ranges back to back -/

/-- The ranges follow each other without a gap, from `lo` up to `hi`. -/
def Tiles : Nat → List Extent → Nat → Prop
  | lo, [], hi => lo = hi
  | lo, e :: es, hi => e.start = lo ∧ Tiles e.stop es hi

variable {lo hi : Nat} {es : List Extent}

theorem Tiles.le (h : Tiles lo es hi) : lo ≤ hi := by
  induction es generalizing lo with
  | nil => exact Nat.le_of_eq h
  | cons e es ih =>
    obtain ⟨rfl, htail⟩ := h
    exact (Nat.le_add_right ..).trans (ih htail)

theorem Tiles.mem_iff (h : Tiles lo es hi) : (∃ e ∈ es, i ∈ e) ↔ lo ≤ i ∧ i < hi := by
  induction es generalizing lo with
  | nil =>
    obtain rfl : lo = hi := h
    exact iff_of_false (by simp) (by omega)
  | cons e es ih =>
    obtain ⟨rfl, htail⟩ := h
    have hle := htail.le
    rw [List.exists_mem_cons_iff, ih htail, mem_def]
    simp only [stop] at hle ⊢
    omega

theorem Tiles.pairwise_disjoint (h : Tiles lo es hi) : es.Pairwise Extent.Disjoint := by
  induction es generalizing lo with
  | nil => exact .nil
  | cons e es ih =>
    obtain ⟨rfl, htail⟩ := h
    refine .cons ?_ (ih htail)
    intro e' he' i hi hi'
    have hlater := (htail.mem_iff.1 ⟨e', he', hi'⟩).1
    exact absurd hi.2 (Nat.not_lt.2 hlater)

end Extent
end Gbl.Lib
