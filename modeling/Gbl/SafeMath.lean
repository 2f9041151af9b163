import Gbl.Error
import Gbl.Lib.Align

/-!
# Checked arithmetic (`libsafemath`)

A `SafeNum` is a `u64` or the trace of an operation that failed; operations on a failed number fail again, and only
the conversion back to an integer (`toU64`, `try_into`) reports the failure.
-/

namespace Gbl

open Lib

inductive SafeNum where
  | valid (n : Nat)
  | error
  deriving DecidableEq, Repr

namespace SafeNum

/-- Conversion from an integer: it fails for one that is no `u64`. -/
def ofNat (n : Nat) : SafeNum := if n < 2 ^ 64 then valid n else error

instance : Coe Nat SafeNum := ⟨ofNat⟩

instance (n : Nat) : OfNat SafeNum n := ⟨ofNat n⟩

def arith (op : Nat → Nat → SafeNum) : SafeNum → SafeNum → SafeNum
  | valid a, valid b => op a b
  | _, _ => error

instance : Add SafeNum := ⟨arith fun a b => ofNat (a + b)⟩

instance : Sub SafeNum := ⟨arith fun a b => if b ≤ a then valid (a - b) else error⟩

instance : Mul SafeNum := ⟨arith fun a b => ofNat (a * b)⟩

instance : Div SafeNum := ⟨arith fun a b => if b = 0 then error else valid (a / b)⟩

instance : Mod SafeNum := ⟨arith fun a b => if b = 0 then error else valid (a % b)⟩

/-- Round down to the nearest multiple of `b`. -/
def roundDown (a b : SafeNum) : SafeNum := a - a % b

/-- Round up to the nearest multiple of `b`. -/
def roundUp (a b : SafeNum) : SafeNum := (a + b - 1).roundDown b

/-- `u64::try_from`, and `usize::try_from`. -/
def toU64 : SafeNum → Result Nat
  | valid n => .ok n
  | error => err .arithmeticOverflow

/-! ## What the operators compute -/

variable {n : Nat} {x : SafeNum} {m a b : Nat} {y : SafeNum}

theorem ofNat_of_lt (h : n < 2 ^ 64) : ofNat n = valid n := if_pos h

theorem ofNat_of_ge (h : 2 ^ 64 ≤ n) : ofNat n = error := if_neg (by omega)

@[simp] theorem one_eq : (1 : SafeNum) = valid 1 := rfl

@[simp] theorem valid_add (a b : Nat) : valid a + valid b = ofNat (a + b) := rfl

theorem valid_sub (a b : Nat) : valid a - valid b = if b ≤ a then valid (a - b) else error := rfl

@[simp] theorem valid_mul (a b : Nat) : valid a * valid b = ofNat (a * b) := rfl

theorem valid_div (a b : Nat) : valid a / valid b = if b = 0 then error else valid (a / b) := rfl

theorem valid_mod (a b : Nat) : valid a % valid b = if b = 0 then error else valid (a % b) := rfl

@[simp] theorem error_add (b : SafeNum) : error + b = error := rfl

@[simp] theorem error_sub (b : SafeNum) : error - b = error := rfl

@[simp] theorem error_mul (b : SafeNum) : error * b = error := rfl

@[simp] theorem error_div (b : SafeNum) : error / b = error := rfl

@[simp] theorem add_error (a : SafeNum) : a + error = error := by cases a <;> rfl

@[simp] theorem sub_error (a : SafeNum) : a - error = error := by cases a <;> rfl

@[simp] theorem toU64_valid (n : Nat) : toU64 (valid n) = .ok n := rfl

@[simp] theorem toU64_error : toU64 error = err .arithmeticOverflow := rfl

theorem toU64_ofNat_of_lt (h : n < 2 ^ 64) : toU64 (ofNat n) = .ok n := by
  rw [ofNat_of_lt h, toU64_valid]

theorem toU64_eq_ok : x.toU64 = .ok n ↔ x = valid n := by
  cases x with
  | valid m =>
    constructor
    · intro h; cases h; rfl
    · intro h; cases h; rfl
  | error =>
    constructor
    · intro h; cases h
    · intro h; cases h

theorem toU64_ne_hang (x : SafeNum) : x.toU64 ≠ .error .hang := by
  cases x with
  | valid n => exact nofun
  | error => exact nofun

theorem toU64_ofNat_eq_ok : (ofNat m).toU64 = .ok n ↔ m < 2 ^ 64 ∧ m = n := by
  rw [toU64_eq_ok]
  unfold ofNat
  split
  · next h =>
    constructor
    · intro he
      cases he
      exact ⟨h, rfl⟩
    · rintro ⟨-, rfl⟩
      rfl
  · next h => exact iff_of_false nofun fun h' => h h'.1

theorem mul_toU64_eq_ok (ha : a < 2 ^ 64) (hb : b < 2 ^ 64) :
    ((a : SafeNum) * (b : SafeNum)).toU64 = .ok n ↔ a * b < 2 ^ 64 ∧ a * b = n := by
  rw [ofNat_of_lt ha, ofNat_of_lt hb, valid_mul, toU64_ofNat_eq_ok]

theorem sub_eq_valid : x - y = valid n ↔ ∃ a b, x = valid a ∧ y = valid b ∧ b ≤ a ∧ a - b = n := by
  cases x with
  | error => exact iff_of_false nofun nofun
  | valid a =>
    cases y with
    | error => exact iff_of_false (by rw [sub_error]; nofun) nofun
    | valid b =>
      rw [valid_sub]
      constructor
      · intro h
        split at h
        · next hle =>
          cases h
          exact ⟨a, b, rfl, rfl, hle, rfl⟩
        · cases h
      · rintro ⟨_, _, ⟨⟩, ⟨⟩, hle, rfl⟩
        rw [if_pos hle]

theorem mul_eq_valid : x * y = valid n ↔ ∃ a b, x = valid a ∧ y = valid b ∧ a * b < 2 ^ 64 ∧ a * b = n := by
  cases x with
  | error => exact iff_of_false nofun nofun
  | valid a =>
    cases y with
    | error => exact iff_of_false nofun nofun
    | valid b =>
      rw [valid_mul, ← toU64_eq_ok, toU64_ofNat_eq_ok]
      constructor
      · rintro ⟨hlt, rfl⟩
        exact ⟨a, b, rfl, rfl, hlt, rfl⟩
      · rintro ⟨_, _, ⟨⟩, ⟨⟩, hlt, rfl⟩
        exact ⟨hlt, rfl⟩

theorem add_eq_valid : x + y = valid n ↔ ∃ a b, x = valid a ∧ y = valid b ∧ a + b < 2 ^ 64 ∧ a + b = n := by
  cases x with
  | error => exact iff_of_false nofun nofun
  | valid a =>
    cases y with
    | error => exact iff_of_false nofun nofun
    | valid b =>
      rw [valid_add, ← toU64_eq_ok, toU64_ofNat_eq_ok]
      constructor
      · rintro ⟨hlt, rfl⟩
        exact ⟨a, b, rfl, rfl, hlt, rfl⟩
      · rintro ⟨_, _, ⟨⟩, ⟨⟩, hlt, rfl⟩
        exact ⟨hlt, rfl⟩

theorem ofNat_eq_valid : ofNat m = valid n ↔ m < 2 ^ 64 ∧ m = n := by
  rw [← toU64_eq_ok, toU64_ofNat_eq_ok]

theorem div_eq_valid : x / y = valid n ↔ ∃ a b, x = valid a ∧ y = valid b ∧ b ≠ 0 ∧ a / b = n := by
  cases x with
  | error => exact iff_of_false nofun nofun
  | valid a =>
    cases y with
    | error => exact iff_of_false nofun nofun
    | valid b =>
      rw [valid_div]
      constructor
      · intro h
        split at h
        · cases h
        · next hb =>
          cases h
          exact ⟨a, b, rfl, rfl, hb, rfl⟩
      · rintro ⟨_, _, ⟨⟩, ⟨⟩, hb, rfl⟩
        rw [if_neg hb]

theorem roundDown_valid (a : Nat) (hb : 0 < b) : roundDown (valid a) (valid b) = valid (a - a % b) := by
  have hle : a % b ≤ a := Nat.mod_le a b
  rw [roundDown, valid_mod, if_neg (by omega), valid_sub, if_pos hle]

theorem roundUp_valid (hb : 0 < b) (h : a + b < 2 ^ 64) :
    roundUp (valid a) (valid b) = valid (a + b - 1 - (a + b - 1) % b) := by
  rw [roundUp, valid_add, ofNat_of_lt h, one_eq, valid_sub, if_pos (by omega), roundDown_valid _ hb]

theorem roundUp_error_of_ge (h : 2 ^ 64 ≤ a + b) : roundUp (valid a) (valid b) = error := by
  rw [roundUp, valid_add, ofNat_of_ge h, error_sub]
  rfl

theorem roundUp_zero (a : SafeNum) : roundUp a (valid 0) = error := by
  have h0 : ∀ x : SafeNum, roundDown x (valid 0) = error := by
    intro x; cases x <;> rfl
  exact h0 _

theorem roundUp_eq_valid : roundUp x y = valid n ↔
      ∃ a b, x = valid a ∧ y = valid b ∧ 0 < b ∧ a + b < 2 ^ 64 ∧ a + Lib.gap a b = n := by
  cases x with
  | error => exact iff_of_false (by cases y <;> exact nofun) nofun
  | valid a =>
    cases y with
    | error => exact iff_of_false nofun nofun
    | valid b =>
      by_cases hb : 0 < b
      · by_cases hlt : a + b < 2 ^ 64
        · rw [roundUp_valid hb hlt, Lib.add_pred_sub_mod a hb, valid.injEq]
          constructor
          · intro h
            exact ⟨a, b, rfl, rfl, hb, hlt, h⟩
          · rintro ⟨_, _, ⟨⟩, ⟨⟩, -, -, h⟩
            exact h
        · rw [roundUp_error_of_ge (Nat.not_lt.1 hlt)]
          refine iff_of_false nofun ?_
          rintro ⟨_, _, ⟨⟩, ⟨⟩, -, h, -⟩
          exact hlt h
      · obtain rfl : b = 0 := Nat.eq_zero_of_not_pos hb
        rw [roundUp_zero]
        refine iff_of_false nofun ?_
        rintro ⟨_, _, ⟨⟩, ⟨⟩, h, -⟩
        exact hb h

end SafeNum
end Gbl
