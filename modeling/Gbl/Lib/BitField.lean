import Mathlib

/-!
# Bit fields

A field of `k` consecutive bits in a word, the least significant of them at position `o`. The mask of the field is the
word whose `k` lowest bits are set.
-/

namespace Gbl.Lib.BitField

variable {w : Nat}

/-- The value of a field. -/
def get (x : BitVec w) (o : Nat) (mask : BitVec w) : BitVec w := (x >>> o) &&& mask

/-- The word with a value stored in a field. -/
def set (x v : BitVec w) (o : Nat) (mask : BitVec w) : BitVec w :=
  (x &&& ~~~ (mask <<< o)) ||| ((v &&& mask) <<< o)

/-- The `k` lowest bits. -/
def mask (w k : Nat) : BitVec w := (BitVec.allOnes k).setWidth w

theorem getLsbD_mask (k i : Nat) : (mask w k).getLsbD i = (decide (i < w) && decide (i < k)) := by
  simp [mask]

theorem toNat_and_mask (v : BitVec w) {k : Nat} (h : k ≤ w) : (v &&& mask w k).toNat = v.toNat % 2 ^ k := by
  have hmask : (mask w k).toNat = 2 ^ k - 1 := by
    have hpow : 2 ^ k ≤ 2 ^ w := Nat.pow_le_pow_right (by decide) h
    have hpos : 0 < 2 ^ k := Nat.two_pow_pos k
    rw [mask, BitVec.toNat_setWidth, BitVec.toNat_allOnes, Nat.mod_eq_of_lt]
    omega
  rw [BitVec.toNat_and, hmask, Nat.and_two_pow_sub_one_eq_mod]

theorem get_set_self (x v : BitVec w) {o k : Nat} (h : o + k ≤ w) :
    get (set x v o (mask w k)) o (mask w k) = v &&& mask w k := by
  apply BitVec.eq_of_getLsbD_eq
  intro i hi
  simp only [get, set, BitVec.getLsbD_and, BitVec.getLsbD_or, BitVec.getLsbD_not,
    BitVec.getLsbD_ushiftRight, BitVec.getLsbD_shiftLeft, getLsbD_mask]
  by_cases hk : i < k
  · simp [hk, show o + i < w by omega, show i < w by omega, show ¬ o + i < o by omega]
  · simp [hk]

theorem get_set_of_disjoint (x v : BitVec w) {o k p l : Nat} (h : o + k ≤ p ∨ p + l ≤ o) :
    get (set x v o (mask w k)) p (mask w l) = get x p (mask w l) := by
  apply BitVec.eq_of_getLsbD_eq
  intro i hi
  simp only [get, set, BitVec.getLsbD_and, BitVec.getLsbD_or, BitVec.getLsbD_not,
    BitVec.getLsbD_ushiftRight, BitVec.getLsbD_shiftLeft, getLsbD_mask]
  by_cases hk : i < l
  · by_cases hw : p + i < w
    · rcases h with h | h
      · simp [hw, show ¬ p + i - o < k by omega]
      · simp [hw, show p + i < o by omega]
    · simp [hw, BitVec.getLsbD_of_ge x (p + i) (by omega)]
  · simp [hk]

theorem set_set_self (x v v' : BitVec w) (o k : Nat) :
    set (set x v o (mask w k)) v' o (mask w k) = set x v' o (mask w k) := by
  apply BitVec.eq_of_getLsbD_eq
  intro i hi
  simp only [set, BitVec.getLsbD_and, BitVec.getLsbD_or, BitVec.getLsbD_not, BitVec.getLsbD_shiftLeft, getLsbD_mask]
  by_cases ho : i < o
  · simp [ho]
  · by_cases hk : i - o < k
    · simp [hi, ho, hk, show i - o < w by omega]
    · simp [hk]

end Gbl.Lib.BitField
