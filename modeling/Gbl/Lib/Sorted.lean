import Mathlib

/-!
# Checking neighbours in a sorted list

Intervals sorted by their lower ends are disjoint if each ends before the next begins: it is enough to look at
neighbours.
-/

namespace Gbl.Lib

variable {α κ : Type} [LinearOrder κ]

theorem pairwise_of_sorted_of_chain {lo hi : α → κ} {l : List α}
    (hsorted : l.Pairwise fun a b => lo a ≤ lo b) (hchain : l.IsChain fun a b => hi a < lo b) :
    l.Pairwise fun a b => hi a < lo b := by
  induction l with
  | nil => exact List.Pairwise.nil
  | cons a l ih =>
    have htail := ih hsorted.of_cons hchain.of_cons
    refine List.Pairwise.cons ?_ htail
    intro b hb
    cases l with
    | nil => cases hb
    | cons a' l' =>
      -- the successor of `a` begins behind the end of `a`, and no later element begins before it
      have hnext : hi a < lo a' := (List.isChain_cons_cons.mp hchain).1
      rcases List.mem_cons.mp hb with rfl | hb'
      · exact hnext
      · exact hnext.trans_le (List.rel_of_pairwise_cons hsorted.of_cons hb')

theorem key_lt_of_mem_take {key : α → κ} {l : List α} {b : κ} {n : Nat}
    (hsorted : l.Pairwise fun a b => key a ≤ key b) (hcount : n ≤ l.countP fun a => decide (key a < b)) :
    ∀ a ∈ l.take n, key a < b := by
  induction l generalizing n with
  | nil => simp
  | cons a l ih =>
    cases n with
    | zero => simp
    | succ n =>
      have htail := List.pairwise_cons.1 hsorted
      by_cases ha : key a < b
      · rw [List.countP_cons_of_pos (by simpa using ha)] at hcount
        intro x hx
        rcases List.mem_cons.1 hx with rfl | hx
        · exact ha
        · exact ih htail.2 (by omega) x hx
      · -- nothing comes before `a`, so nothing has a key below the bound
        have hnone : (a :: l).countP (fun a => decide (key a < b)) = 0 := by
          rw [List.countP_eq_zero]
          intro x hx
          rcases List.mem_cons.1 hx with rfl | hx
          · simpa using ha
          · simpa using (not_lt.1 ha).trans (htail.1 x hx)
        omega

theorem exists_key_le_of_mem_take {key : Nat → κ} {l : List Nat} {n x : Nat}
    (hsorted : l.Pairwise fun a b => key a ≤ key b) (hall : ∀ r < n, r ∈ l) (hx : x ∈ l.take n) :
    ∃ r < n, key x ≤ key r := by
  by_cases hlt : x < n
  · exact ⟨x, hlt, le_refl _⟩
  · have hmiss : ∃ r < n, r ∉ l.take n := by
      by_contra hno
      push Not at hno
      have hsub : List.range n ⊆ l.take n := fun r hr => hno r (List.mem_range.1 hr)
      have hperm := (List.subperm_of_subset List.nodup_range hsub).perm_of_length_le
        (by simp only [List.length_take, List.length_range]; omega)
      exact hlt (List.mem_range.1 (hperm.mem_iff.2 hx))
    obtain ⟨r, hr, hmiss⟩ := hmiss
    have hdrop : r ∈ l.drop n := by
      have hmem := hall r hr
      rw [← List.take_append_drop n l, List.mem_append] at hmem
      exact hmem.resolve_left hmiss
    rw [← List.take_append_drop n l] at hsorted
    exact ⟨r, hr, (List.pairwise_append.1 hsorted).2.2 x hx r hdrop⟩

def rankIn [DecidableEq α] (key : α → κ) (l : List α) (a : α) : Nat :=
  l.countP fun b => decide (b ≠ a ∧ key b ≤ key a)

theorem mem_take_of_rankIn_lt [DecidableEq α] {key : α → κ} {l m : List α} {a : α} {n : Nat}
    (hperm : m.Perm l) (hsorted : m.Pairwise fun a b => key a ≤ key b) (ha : a ∈ l) (hrank : rankIn key l a < n) :
    a ∈ m.take n := by
  by_contra hno
  have ham : a ∈ m.drop n := by
    have hmem : a ∈ m.take n ++ m.drop n := by
      rw [List.take_append_drop]; exact hperm.mem_iff.mpr ha
    exact (List.mem_append.mp hmem).resolve_left hno
  have hn : n ≤ m.length := by
    by_contra hlt
    rw [List.drop_of_length_le (by omega)] at ham
    cases ham
  -- all the first `n` elements come before `a`, so they count towards its rank
  have hall : ∀ b ∈ m.take n, decide (b ≠ a ∧ key b ≤ key a) = true := by
    intro b hb
    have hsplit := hsorted
    rw [← List.take_append_drop n m] at hsplit
    have hle := (List.pairwise_append.mp hsplit).2.2 b hb a ham
    have hne : b ≠ a := fun h => hno (h ▸ hb)
    exact decide_eq_true ⟨hne, hle⟩
  have hcount : n ≤ m.countP fun b => decide (b ≠ a ∧ key b ≤ key a) := by
    calc n = (m.take n).length := by rw [List.length_take, Nat.min_eq_left hn]
      _ = (m.take n).countP _ := (List.countP_eq_length.mpr hall).symm
      _ ≤ m.countP _ := (List.take_sublist n m).countP_le
  rw [hperm.countP_eq] at hcount
  exact absurd hrank (Nat.not_lt.mpr hcount)

end Gbl.Lib
