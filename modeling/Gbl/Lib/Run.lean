import Gbl.Lib.Exec

/-!
# Running the same code again and again

A device that reboots runs the same code each time, on the state that the last run left behind. This module is about
such runs: what the `n`-th of them returns.
-/

namespace Gbl.Lib.Exec

variable {ε σ α : Type}

/-- The state after `n` runs, whatever they returned. -/
def after (m : Exec ε σ α) : Nat → σ → σ
  | 0, s => s
  | n + 1, s => after m n (m s).2

/-- What the run after `n` others returns. -/
def nth (m : Exec ε σ α) (n : Nat) (s : σ) : Res ε α := (m (m.after n s)).1

variable {m : Exec ε σ α}

@[simp] theorem nth_zero (s : σ) : m.nth 0 s = (m s).1 := rfl

@[simp] theorem nth_succ (n : Nat) (s : σ) : m.nth (n + 1) s = m.nth n (m s).2 := rfl

@[simp] theorem after_zero (s : σ) : m.after 0 s = s := rfl

@[simp] theorem after_succ (n : Nat) (s : σ) : m.after (n + 1) s = m.after n (m s).2 := rfl

theorem nth_add (k n : Nat) (s : σ) : m.nth (k + n) s = m.nth n (m.after k s) := by
  induction k generalizing s with
  | zero => rw [Nat.zero_add, after_zero]
  | succ k ih => rw [Nat.succ_add, nth_succ, after_succ, ih]

theorem after_keeps {I : σ → Prop} (hstep : Keeps I m) (n : Nat) {s : σ} (hs : I s) : I (m.after n s) := by
  induction n generalizing s with
  | zero => exact hs
  | succ n ih => exact ih (hstep s hs)

theorem nth_of_invariant {I : σ → Prop} {Q : Res ε α → Prop}
    (hstep : ∀ s, I s → Q (m s).1 ∧ I (m s).2) (n : Nat) {s : σ} (hs : I s) : Q (m.nth n s) :=
  (hstep _ (after_keeps (fun s h => (hstep s h).2) n hs)).1

theorem nth_of_countdown {I : Nat → σ → Prop} {P Q : Res ε α → Prop}
    (hstep : ∀ k s, I (k + 1) s → P (m s).1 ∧ I k (m s).2)
    (hdone : ∀ s, I 0 s → Q (m s).1 ∧ I 0 (m s).2) {k : Nat} {s : σ} (hs : I k s) (n : Nat) :
    (n < k → P (m.nth n s)) ∧ (k ≤ n → Q (m.nth n s)) := by
  induction n generalizing k s with
  | zero =>
    cases k with
    | zero => exact ⟨fun h => absurd h (Nat.lt_irrefl 0), fun _ => (hdone s hs).1⟩
    | succ k => exact ⟨fun _ => (hstep k s hs).1, fun h => absurd h (Nat.not_succ_le_zero k)⟩
  | succ n ih =>
    cases k with
    | zero =>
      refine ⟨fun h => absurd h (Nat.not_lt_zero _), fun _ => ?_⟩
      exact (ih (hdone s hs).2).2 (Nat.zero_le n)
    | succ k =>
      obtain ⟨hlt, hge⟩ := ih (hstep k s hs).2
      exact ⟨fun h => hlt (Nat.lt_of_succ_lt_succ h), fun h => hge (Nat.le_of_succ_le_succ h)⟩

end Gbl.Lib.Exec
