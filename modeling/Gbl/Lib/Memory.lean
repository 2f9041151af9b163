import Gbl.Lib.Exec
import Gbl.Lib.Extent

/-!
# Buffers in a memory

A buffer is a range of addresses of one memory.
-/

namespace Gbl.Lib

theorem take_drop_slice (c : Content) {off k n : Nat} (h : off + k ≤ n) :
    ((slice c 0 n).drop off).take k = slice c off k := by
  rw [drop_slice c 0 (by omega), take_slice c _ (by omega), Nat.zero_add]

namespace Extent

variable {a b e : Extent} {m m' m'' : Content}

/-- The bytes of the range. -/
def read (e : Extent) (m : Content) : List UInt8 := slice m e.start e.len

/-- The first `n` addresses. -/
def take (e : Extent) (n : Nat) : Extent := ⟨e.start, n⟩

/-- The addresses behind the first `n`. -/
def drop (e : Extent) (n : Nat) : Extent := ⟨e.start + n, e.len - n⟩

/-- The part at `r`, which counts from the start of the range. -/
def sub (e r : Extent) : Extent := ⟨e.start + r.start, r.len⟩

@[simp] theorem length_read (e : Extent) (m : Content) : (e.read m).length = e.len := length_slice ..

theorem read_append (h : a.stop = b.start) (m : Content) :
    (⟨a.start, a.len + b.len⟩ : Extent).read m = a.read m ++ b.read m := by
  unfold read
  rw [slice_add, ← h]
  rfl

theorem take_read {n : Nat} (h : n ≤ e.len) (m : Content) : (e.read m).take n = (e.take n).read m :=
  take_slice m e.start h

theorem read_take_append {k n : Nat} (h : k ≤ n) (m : Content) :
    (e.take n).read m = (e.take k).read m ++ (⟨e.start + k, n - k⟩ : Extent).read m := by
  rw [← read_append rfl]
  exact congrArg (read · m) (by simp only [take, mk.injEq, true_and]; omega)

theorem read_sub {r : Extent} (h : r.stop ≤ e.len) (m : Content) :
    (e.sub r).read m = ((e.read m).drop r.start).take r.len := by
  have hle : r.start + r.len ≤ e.len := h
  unfold read sub
  rw [drop_slice m e.start (by omega), take_slice m _ (by omega)]

theorem Within.trans {c : Extent} (h : a.Within b) (h' : b.Within c) : a.Within c :=
  ⟨Nat.le_trans h'.1 h.1, Nat.le_trans h.2 h'.2⟩

theorem take_within {n : Nat} (h : n ≤ e.len) : (e.take n).Within e := ⟨Nat.le_refl _, Nat.add_le_add_left h _⟩

theorem drop_within {n : Nat} (h : n ≤ e.len) : (e.drop n).Within e := by
  refine ⟨Nat.le_add_right .., ?_⟩
  simp only [drop, stop]
  omega

theorem disjoint_of_le (h : a.stop ≤ b.start) : a.Disjoint b := disjoint_iff.2 (.inr (.inr (.inl h)))

/-! ## What a change leaves alone -/

/-- Outside the range the two memories agree. -/
def Changes (e : Extent) (m m' : Content) : Prop := ∀ i, i ∉ e → m' i = m i

theorem Changes.refl (e : Extent) (m : Content) : e.Changes m m := fun _ _ => rfl

theorem Changes.trans (h : e.Changes m m') (h' : e.Changes m' m'') : e.Changes m m'' :=
  fun i hi => (h' i hi).trans (h i hi)

theorem Changes.mono (h : a.Changes m m') (hw : a.Within b) : b.Changes m m' :=
  fun i hi => h i fun ha => hi (hw.mem ha)

theorem Changes.read_eq (h : e.Changes m m') (hd : a.Disjoint e) : a.read m' = a.read m :=
  slice_congr fun i hlo hhi => h i (hd i ⟨hlo, hhi⟩)

theorem changes_store (m : Content) (off : Nat) (d : List UInt8) :
    (⟨off, d.length⟩ : Extent).Changes m (store m off d) := fun _ hi => store_apply_of_not_mem m hi

theorem read_store (m : Content) {d : List UInt8} (h : d.length = e.len) : e.read (store m e.start d) = d := by
  unfold read
  rw [← h, slice_store]

end Extent

/-! ## Code that works on a memory -/

namespace Exec

variable {ε α : Type} {m m' : Content} {e : Extent}

/-- The bytes of a buffer. -/
def readAt (e : Extent) : Exec ε Content (List UInt8) := fun m => (.ok (e.read m), m)

/-- Code that is given a buffer, and nothing else of the memory. -/
def focus (e : Extent) (f : Exec ε (List UInt8) α) : Exec ε Content α :=
  zoom e.read (fun m d => store m e.start d) f

/-- `clone_from_slice`: the lengths must agree. -/
def cloneFromSlice (e : Extent) (d : List UInt8) : Exec ε Content Unit := do
  assert (decide (d.length = e.len))
  modify fun m => store m e.start d

def copyWithin (e src : Extent) (dest : Nat) : Exec ε Content Unit := do
  assert (decide (src.stop ≤ e.len ∧ dest + src.len ≤ e.len))
  modify fun m => store m (e.start + dest) ((e.sub src).read m)

variable {d : List UInt8} {f : Exec ε (List UInt8) α} {src : Extent} {dest : Nat}

theorem readAt_eq_ok : (readAt e : Exec ε Content (List UInt8)) m = (.ok d, m') ↔ d = e.read m ∧ m = m' := by
  unfold readAt
  rw [Prod.mk.injEq, Except.ok.injEq]
  exact and_congr_left fun _ => eq_comm

theorem focus_run {r : Res ε α} (h : f (e.read m) = (r, d)) : focus e f m = (r, store m e.start d) := by
  show ((f (e.read m)).1, store m e.start (f (e.read m)).2) = _
  rw [h]

theorem focus_inv {a : α} (h : focus e f m = (.ok a, m')) :
    ∃ d, f (e.read m) = (.ok a, d) ∧ m' = store m e.start d := by
  rcases hf : f (e.read m) with ⟨r, d⟩
  rw [focus_run hf] at h
  cases h
  exact ⟨d, rfl, rfl⟩

theorem cloneFromSlice_eq_ok :
    (cloneFromSlice e d : Exec ε Content Unit) m = (.ok (), m') ↔ d.length = e.len ∧ m' = store m e.start d := by
  unfold cloneFromSlice
  by_cases h : d.length = e.len
  · rw [assert_bind_run_true (decide_eq_true h), modify_run, Prod.mk.injEq]
    simp only [h, true_and]
    exact eq_comm
  · rw [assert_bind_run_false (decide_eq_false h)]
    exact iff_of_false nofun fun h' => h h'.1

theorem copyWithin_eq_ok : (copyWithin e src dest : Exec ε Content Unit) m = (.ok (), m') ↔
      (src.stop ≤ e.len ∧ dest + src.len ≤ e.len) ∧ m' = store m (e.start + dest) ((e.sub src).read m) := by
  unfold copyWithin
  by_cases h : src.stop ≤ e.len ∧ dest + src.len ≤ e.len
  · rw [assert_bind_run_true (decide_eq_true h), modify_run, Prod.mk.injEq]
    simp only [h, true_and, and_self]
    exact eq_comm
  · rw [assert_bind_run_false (decide_eq_false h)]
    exact iff_of_false nofun fun h' => h h'.1

theorem cloneFromSlice_run (h : d.length = e.len) (m : Content) :
    (cloneFromSlice e d : Exec ε Content Unit) m = (.ok (), store m e.start d) := cloneFromSlice_eq_ok.2 ⟨h, rfl⟩

theorem copyWithin_run (hsrc : src.stop ≤ e.len) (hdest : dest + src.len ≤ e.len) (m : Content) :
    (copyWithin e src dest : Exec ε Content Unit) m = (.ok (), store m (e.start + dest) ((e.sub src).read m)) :=
  copyWithin_eq_ok.2 ⟨⟨hsrc, hdest⟩, rfl⟩

end Exec
end Gbl.Lib
