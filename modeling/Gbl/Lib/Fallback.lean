import Mathlib

/-!
# Falling back along a list of options

Something that must be done can be done in several ways, in order of preference. A way that is known to be good may be
taken any number of times, every other one only so often.
-/

namespace Gbl.Lib

/-- How often an option may still be taken. -/
inductive Usability where
  | good
  | left (n : Nat)
  deriving DecidableEq, Repr

namespace Usability

/-- After it was taken once. -/
def spend : Usability → Usability
  | good => good
  | left n => left (n - 1)

/-- It may be taken. -/
def usable : Usability → Bool
  | good => true
  | left n => 0 < n

/-- The counter of an option that is not known to be good. -/
def counter : Usability → Nat
  | good => 0
  | left n => n

end Usability

/-- Options by name, in order of preference. -/
abbrev Options (κ : Type) := List (κ × Usability)

namespace Options

variable {κ : Type}

/-- The first option that may be taken. -/
def next : Options κ → Option (κ × Usability)
  | [] => none
  | (k, u) :: rest => if u.usable then some (k, u) else next rest

/-- The options after the first usable one was taken. -/
def use : Options κ → Options κ
  | [] => []
  | (k, u) :: rest => if u.usable then (k, u.spend) :: rest else (k, u) :: use rest

/-- What is taken until an option is good. -/
def attempts : Options κ → List κ
  | [] => []
  | (_, .good) :: _ => []
  | (k, .left n) :: rest => List.replicate n k ++ attempts rest

/-- The first good option. -/
def settled : Options κ → Option κ
  | [] => none
  | (k, .good) :: _ => some k
  | (_, .left _) :: rest => settled rest

theorem use_cases (l : Options κ) : (∃ k n, next l = some (k, .left (n + 1)) ∧ attempts l = k :: attempts (use l) ∧
        settled (use l) = settled l) ∨
      (next l = (settled l).map (·, .good) ∧ attempts l = [] ∧ use l = l) := by
  induction l with
  | nil => exact Or.inr ⟨rfl, rfl, rfl⟩
  | cons o rest ih =>
    obtain ⟨k, _ | n⟩ := o
    · exact Or.inr ⟨rfl, rfl, rfl⟩
    · cases n with
      | zero => simpa [next, use, attempts, settled, Usability.usable] using ih
      | succ n =>
        refine Or.inl ⟨k, n, rfl, ?_, rfl⟩
        simp [use, attempts, Usability.usable, Usability.spend, List.replicate_succ]

theorem next_use (l : Options κ) (n : Nat) :
    (∀ h : n < (attempts l).length, ∃ m, next (use^[n] l) = some ((attempts l)[n], .left (m + 1))) ∧
      ((attempts l).length ≤ n → next (use^[n] l) = (settled l).map (·, .good)) := by
  induction n generalizing l with
  | zero =>
    obtain ⟨k, m, hnext, hatt, -⟩ | ⟨hnext, hatt, -⟩ := use_cases l
    · simp [hnext, hatt]
    · simp [hnext, hatt]
  | succ n ih =>
    rw [Function.iterate_succ_apply]
    obtain ⟨k, m, -, hatt, hset⟩ | ⟨-, hatt, huse⟩ := use_cases l
    · simpa [hatt, hset] using ih (use l)
    · simpa [huse, hatt] using ih l

theorem length_attempts_le (l : Options κ) : (attempts l).length ≤ (l.map fun o => o.2.counter).sum := by
  induction l with
  | nil => simp [attempts]
  | cons o rest ih =>
    obtain ⟨k, _ | n⟩ := o
    · simp [attempts]
    · have hcount : (k, Usability.left n).2.counter = n := rfl
      rw [attempts, List.length_append, List.length_replicate, List.map_cons, List.sum_cons, hcount]
      exact Nat.add_le_add_left ih n

theorem use_of_next_none {l : Options κ} (h : next l = none) : use l = l := by
  obtain ⟨k, n, hnext, -⟩ | ⟨-, -, huse⟩ := use_cases l
  · rw [hnext] at h
    cases h
  · exact huse

theorem settled_eq_none_iff (l : Options κ) : settled l = none ↔ ∀ o ∈ l, o.2 ≠ .good := by
  induction l with
  | nil => simp [settled]
  | cons o rest ih =>
    obtain ⟨k, _ | n⟩ := o
    · simp [settled]
    · simp [settled, ih]

theorem mem_of_next {l : Options κ} {o : κ × Usability} (h : next l = some o) : o ∈ l := by
  induction l with
  | nil => cases h
  | cons o' rest ih =>
    obtain ⟨k', u⟩ := o'
    simp only [next] at h
    split at h
    · rw [← Option.some.inj h]
      exact List.mem_cons_self ..
    · exact List.mem_cons_of_mem _ (ih h)

section Names

variable [DecidableEq κ]

/-- One attempt at the option `k`. -/
def spendAt (k : κ) (o : κ × Usability) : κ × Usability := if o.1 = k then (o.1, o.2.spend) else o

theorem map_spendAt_of_not_mem {l : Options κ} {k : κ} (h : k ∉ l.map Prod.fst) : l.map (spendAt k) = l := by
  calc l.map (spendAt k) = l.map id := by
        refine List.map_congr_left fun o ho => ?_
        have hne : o.1 ≠ k := fun heq => h (heq ▸ List.mem_map_of_mem ho)
        exact if_neg hne
    _ = l := List.map_id l

theorem use_eq_map {l : Options κ} (hn : (l.map Prod.fst).Nodup) {k : κ} {u : Usability}
    (h : next l = some (k, u)) : use l = l.map (spendAt k) := by
  induction l with
  | nil => rfl
  | cons o rest ih =>
    obtain ⟨k', u'⟩ := o
    rw [List.map_cons, List.nodup_cons] at hn
    simp only [next] at h
    split at h
    · next hu =>
      obtain ⟨rfl, rfl⟩ := Prod.mk.inj (Option.some.inj h)
      simp [use, hu, spendAt, map_spendAt_of_not_mem hn.1]
    · next hu =>
      have hne : k' ≠ k := by
        rintro rfl
        exact hn.1 (List.mem_map.mpr ⟨_, mem_of_next h, rfl⟩)
      simp [use, hu, spendAt, hne, ih hn.2 h]

end Names

end Options

/-! ## The best option -/

section Best

variable {α κ : Type} [LinearOrder κ]

def maxByKey (key : α → κ) : List α → Option α
  | [] => none
  | a :: l => some (l.foldl (fun best x => if key x < key best then best else x) a)

theorem foldl_max_spec (key : α → κ) (l : List α) (a : α) :
    (l.foldl (fun best x => if key x < key best then best else x) a) ∈ a :: l ∧
      ∀ x ∈ a :: l, key x ≤ key (l.foldl (fun best x => if key x < key best then best else x) a) := by
  induction l generalizing a with
  | nil => simp
  | cons b l ih =>
    obtain ⟨hmem, hmax⟩ := ih (if key b < key a then a else b)
    rw [List.foldl_cons]
    by_cases hlt : key b < key a
    · rw [if_pos hlt] at hmem hmax ⊢
      refine ⟨by grind, fun x hx => ?_⟩
      rcases List.mem_cons.mp hx with rfl | hx
      · exact hmax x (List.mem_cons_self ..)
      · rcases List.mem_cons.mp hx with rfl | hx
        · exact hlt.le.trans (hmax a (List.mem_cons_self ..))
        · exact hmax x (List.mem_cons_of_mem a hx)
    · rw [if_neg hlt] at hmem hmax ⊢
      refine ⟨by grind, fun x hx => ?_⟩
      rcases List.mem_cons.mp hx with rfl | hx
      · exact (not_lt.mp hlt).trans (hmax b (List.mem_cons_self ..))
      · exact hmax x hx

theorem maxByKey_eq_some {key : α → κ} {l : List α} {a : α} (ha : a ∈ l)
    (hmax : ∀ b ∈ l, b = a ∨ key b < key a) : maxByKey key l = some a := by
  cases l with
  | nil => cases ha
  | cons b l =>
    obtain ⟨hmem, hge⟩ := foldl_max_spec key l b
    rcases hmax _ hmem with heq | hlt
    · exact congrArg some heq
    · exact absurd (hge a ha) (not_le.mpr hlt)

theorem map_maxByKey (key : α → κ) (l : List α) : (maxByKey key l).map key = maxByKey id (l.map key) := by
  cases l with
  | nil => rfl
  | cons a l =>
    refine congrArg some ?_
    show key (l.foldl _ a) = (l.map key).foldl _ (key a)
    induction l generalizing a with
    | nil => rfl
    | cons b l ih =>
      rw [List.map_cons, List.foldl_cons, List.foldl_cons, ih]
      congr 1
      simp only [id]
      split <;> rfl

theorem maxByKey_eq_head? {key : α → κ} {l sorted : List α} (hperm : sorted.Perm l)
    (hsorted : sorted.Pairwise fun a b => key b ≤ key a)
    (hinj : ∀ a ∈ l, ∀ b ∈ l, key a = key b → a = b) : maxByKey key l = sorted.head? := by
  cases l with
  | nil =>
    rw [hperm.eq_nil]
    rfl
  | cons a l =>
    obtain ⟨hmem, hmax⟩ := foldl_max_spec key l a
    cases sorted with
    | nil => exact absurd hperm.symm.eq_nil (List.cons_ne_nil a l)
    | cons b sorted =>
      have hb : b ∈ a :: l := hperm.mem_iff.mp (List.mem_cons_self ..)
      -- the maximum is somewhere in the sorted list, so its key does not exceed that of the head
      have hle : key (l.foldl (fun best x => if key x < key best then best else x) a) ≤ key b := by
        rcases List.mem_cons.mp (hperm.mem_iff.mpr hmem) with heq | htail
        · rw [heq]
        · exact (List.pairwise_cons.mp hsorted).1 _ htail
      exact congrArg some (hinj _ hmem _ hb (le_antisymm hle (hmax b hb)))

end Best

end Gbl.Lib
