import Gbl.Lib.Bytes

/-!
# Many stores

The effect of a list of stores, one after the other, and what can be said where some of them were cut
short: only bytes in the ranges of the stores have changed.
-/

namespace Gbl.Lib

/-- The stores, in order; their offsets count from `base`. -/
def storeAll (base : Nat) : List (Nat × List UInt8) → Content → Content
  | [], c => c
  | r :: rs, c => storeAll base rs (store c (base + r.1) r.2)

/-- Only bytes in the given ranges, counted from `base`, differ. -/
def Touched (base : Nat) (ranges : List (Nat × Nat)) (c c' : Content) : Prop :=
  ∀ i, c' i ≠ c i → ∃ r ∈ ranges, base + r.1 ≤ i ∧ i < base + r.1 + r.2

variable {base off : Nat} {c c' c'' : Content} {d : List UInt8} {rs rs' : List (Nat × List UInt8)}
  {ranges ranges' : List (Nat × Nat)}

@[simp] theorem storeAll_nil (base : Nat) (c : Content) : storeAll base [] c = c := rfl

@[simp] theorem storeAll_cons (base : Nat) (r : Nat × List UInt8) (rs : List (Nat × List UInt8))
    (c : Content) : storeAll base (r :: rs) c = storeAll base rs (store c (base + r.1) r.2) := rfl

theorem storeAll_append (base : Nat) (rs rs' : List (Nat × List UInt8)) (c : Content) :
    storeAll base (rs ++ rs') c = storeAll base rs' (storeAll base rs c) := by
  induction rs generalizing c with
  | nil => rfl
  | cons r rs ih => exact ih _

theorem store_storeAll_comm (h : ∀ r ∈ rs, off + d.length ≤ r.1) (c : Content) :
    storeAll base rs (store c (base + off) d) = store (storeAll base rs c) (base + off) d := by
  induction rs generalizing c with
  | nil => rfl
  | cons r rs ih =>
    have hr := h r (List.mem_cons_self ..)
    rw [storeAll_cons, storeAll_cons, store_comm c (by omega)]
    exact ih (fun r' hr' => h r' (List.mem_cons_of_mem _ hr')) _

theorem storeAll_congr {i : Nat} (h : c i = c' i) : storeAll base rs c i = storeAll base rs c' i := by
  induction rs generalizing c c' with
  | nil => exact h
  | cons r rs ih =>
    refine ih ?_
    by_cases hi : base + r.1 ≤ i ∧ i < base + r.1 + r.2.length
    · rw [store_apply_of_mem c hi, store_apply_of_mem c' hi]
    · rw [store_apply_of_not_mem c hi, store_apply_of_not_mem c' hi, h]

theorem storeAll_apply_eq {i : Nat} (h : ∃ r ∈ rs, base + r.1 ≤ i ∧ i < base + r.1 + r.2.length) (c c' : Content) :
    storeAll base rs c i = storeAll base rs c' i := by
  induction rs generalizing c c' with
  | nil =>
    obtain ⟨r, hr, -⟩ := h
    cases hr
  | cons r rs ih =>
    obtain ⟨r', hr', hi⟩ := h
    rcases List.mem_cons.mp hr' with rfl | hr'
    · rw [storeAll_cons, storeAll_cons]
      refine storeAll_congr ?_
      rw [store_apply_of_mem c hi, store_apply_of_mem c' hi]
    · exact ih ⟨r', hr', hi⟩ _ _

theorem storeAll_replicate_apply (v : UInt8) (ranges : List (Nat × Nat)) (c : Content) (i : Nat) :
    storeAll base (ranges.map fun r => (r.1, List.replicate r.2 v)) c i =
      if ∃ r ∈ ranges, base + r.1 ≤ i ∧ i < base + r.1 + r.2 then v else c i := by
  induction ranges generalizing c with
  | nil => simp
  | cons r rs ih =>
    rw [List.map_cons, storeAll_cons, ih]
    by_cases hrest : ∃ r ∈ rs, base + r.1 ≤ i ∧ i < base + r.1 + r.2
    · obtain ⟨r', hr', hin⟩ := hrest
      rw [if_pos ⟨r', hr', hin⟩, if_pos ⟨r', List.mem_cons_of_mem r hr', hin⟩]
    · rw [if_neg hrest]
      by_cases hr : base + r.1 ≤ i ∧ i < base + r.1 + r.2
      · rw [if_pos ⟨r, List.mem_cons_self .., hr⟩, store_apply_of_mem c (by simpa using hr)]
        rw [List.getElem?_replicate, if_pos (by omega)]
        rfl
      · rw [store_apply_of_not_mem c (by simpa using hr), if_neg]
        rintro ⟨r', hr', hin⟩
        rcases List.mem_cons.mp hr' with rfl | hr'
        · exact hr hin
        · exact hrest ⟨r', hr', hin⟩

theorem Touched.refl (base : Nat) (ranges : List (Nat × Nat)) (c : Content) : Touched base ranges c c :=
  fun _ h => absurd rfl h

theorem Touched.trans (h : Touched base ranges c c') (h' : Touched base ranges' c' c'') :
    Touched base (ranges ++ ranges') c c'' := by
  intro i hi
  by_cases hmid : c' i = c i
  · obtain ⟨r, hr, hin⟩ := h' i (by rwa [hmid])
    exact ⟨r, List.mem_append_right _ hr, hin⟩
  · obtain ⟨r, hr, hin⟩ := h i hmid
    exact ⟨r, List.mem_append_left _ hr, hin⟩

theorem Touched.mono (h : Touched base ranges c c') (hsub : ∀ r ∈ ranges, r ∈ ranges') :
    Touched base ranges' c c' := by
  intro i hi
  obtain ⟨r, hr, hin⟩ := h i hi
  exact ⟨r, hsub r hr, hin⟩

theorem Touched.of_torn {len : Nat} (h : Torn c (base + off) d c') (hlen : d.length ≤ len) :
    Touched base [(off, len)] c c' := by
  intro i hi
  by_contra hno
  refine hi (h.eq_of_not_mem fun hin => hno ⟨_, List.mem_cons_self .., ?_⟩)
  dsimp only
  omega

end Gbl.Lib
