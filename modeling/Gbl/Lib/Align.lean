import Mathlib

/-!
# Rounding up to a multiple

`gap a n` is how far `a` is from the next multiple of `n`. Everything here is about one number and
one unit; the unit is arbitrary, it need not be a power of two.
-/

namespace Gbl.Lib

def gap (a n : Nat) : Nat := (n - a % n) % n

theorem gap_lt (a : Nat) {n : Nat} (hn : 0 < n) : gap a n < n := Nat.mod_lt _ hn

theorem gap_of_aligned {a n : Nat} (h : a % n = 0) : gap a n = 0 := by
  rw [gap, h, Nat.sub_zero, Nat.mod_self]

theorem gap_of_not_aligned {a n : Nat} (hn : 0 < n) (h : a % n ≠ 0) : gap a n = n - a % n :=
  Nat.mod_eq_of_lt (by omega)

theorem add_gap_mod (a : Nat) {n : Nat} (hn : 0 < n) : (a + gap a n) % n = 0 := by
  by_cases h : a % n = 0
  · rw [gap_of_aligned h, Nat.add_zero, h]
  · have hlt := Nat.mod_lt a hn
    rw [gap_of_not_aligned hn h, Nat.add_mod, Nat.mod_eq_of_lt (show n - a % n < n by omega),
      Nat.add_sub_cancel' (by omega), Nat.mod_self]

theorem add_pred_sub_mod (a : Nat) {n : Nat} (hn : 0 < n) : a + n - 1 - (a + n - 1) % n = a + gap a n := by
  have hdiv := Nat.div_add_mod a n
  have hlt := Nat.mod_lt a hn
  by_cases h : a % n = 0
  · -- `a` is a multiple: the `n - 1` added on top is what the rounding takes off again.
    have hm : (a + n - 1) % n = n - 1 := by
      rw [Nat.add_sub_assoc hn, Nat.add_mod, h, Nat.zero_add, Nat.mod_mod, Nat.mod_eq_of_lt (by omega)]
    rw [hm, gap_of_aligned h]
    omega
  · have hm : (a + n - 1) % n = a % n - 1 := by
      have he : a + n - 1 = n * (a / n + 1) + (a % n - 1) := by
        rw [Nat.mul_add]
        omega
      rw [he, Nat.mul_add_mod, Nat.mod_eq_of_lt (by omega)]
    rw [hm, gap_of_not_aligned hn h]
    omega

theorem gap_of_succ_aligned {a n : Nat} (hn : 1 < n) (h : (a + 1) % n = 0) : gap a n = 1 := by
  have hlt := Nat.mod_lt a (show 0 < n by omega)
  have hm : a % n = n - 1 := by
    by_contra hne
    have : (a + 1) % n = a % n + 1 := by
      rw [Nat.add_mod, Nat.mod_eq_of_lt hn, Nat.mod_eq_of_lt (by omega)]
    omega
  rw [gap_of_not_aligned (by omega) (by omega), hm]
  omega

end Gbl.Lib
