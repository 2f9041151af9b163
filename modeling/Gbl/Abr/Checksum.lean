import Gbl.Abr.Basic
import Gbl.Lib.Crc32

/-!
# The checksum of the library is the standard one

The library reverses the bits of every byte, divides with the most significant bit first and reverses the result.
-/

namespace Gbl.Abr

open Lib

theorem testBit_reverseByte : ∀ b : Fin 256, ∀ j : Fin 8,
    (reverseByte (UInt8.ofNat b)).toNat.testBit j = b.val.testBit (7 - j) := by
  decide +kernel

theorem testBit_leValue (bs : List UInt8) (i : Nat) :
    (leValue bs).testBit i = (bs.getD (i / 8) 0).toNat.testBit (i % 8) := by
  induction bs generalizing i with
  | nil => simp [leValue]
  | cons b bs ih =>
    have hsplit : leValue (b :: bs) = 2 ^ 8 * leValue bs + b.toNat := by
      rw [leValue]
      omega
    rw [hsplit, Nat.testBit_two_pow_mul_add _ b.toNat_lt]
    split
    · rename_i hlt
      rw [Nat.div_eq_of_lt hlt, Nat.mod_eq_of_lt hlt]
      rfl
    · have hdiv : i / 8 = (i - 8) / 8 + 1 := by omega
      have hmod : i % 8 = (i - 8) % 8 := by omega
      rw [ih, hdiv, hmod, List.getD_cons_succ]

theorem testBit_reverseByte_div (n k : Nat) {j : Nat} (h : j < 8) :
    (reverseByte (UInt8.ofNat (n / 2 ^ k))).toNat.testBit j = n.testBit (k + 7 - j) := by
  have hmod : UInt8.ofNat (n / 2 ^ k) = UInt8.ofNat (n / 2 ^ k % 256) := by
    apply UInt8.toNat_inj.mp
    simp
  have hlt : n / 2 ^ k % 256 < 256 := Nat.mod_lt _ (by decide)
  have hbits := testBit_reverseByte ⟨n / 2 ^ k % 256, hlt⟩ ⟨j, h⟩
  rw [hmod]
  refine hbits.trans ?_
  show (n / 2 ^ k % 2 ^ 8).testBit (7 - j) = n.testBit (k + 7 - j)
  rw [Nat.testBit_mod_two_pow, Nat.testBit_div_two_pow]
  simp only [show 7 - j < 8 by omega, decide_true, Bool.true_and]
  congr 1
  omega

theorem toBitVec_reverseU32 (val : UInt32) : (reverseU32 val).toBitVec = val.toBitVec.reverse := by
  have hbytes : ((leBytes 4 val.toNat).map reverseByte).reverse =
      [reverseByte (UInt8.ofNat (val.toNat / 2 ^ 24)), reverseByte (UInt8.ofNat (val.toNat / 2 ^ 16)),
        reverseByte (UInt8.ofNat (val.toNat / 2 ^ 8)), reverseByte (UInt8.ofNat (val.toNat / 2 ^ 0))] := by
    simp [leBytes, Nat.div_div_eq_div_mul]
  apply BitVec.eq_of_getLsbD_eq
  intro i hi
  have hrev : val.toBitVec.reverse.getLsbD i = val.toNat.testBit (31 - i) := by
    rw [BitVec.getLsbD_reverse, BitVec.getMsbD_eq_getLsbD]
    simp only [hi, decide_true, Bool.true_and]
    rfl
  have hval : (reverseU32 val).toBitVec.getLsbD i =
      (leValue ((leBytes 4 val.toNat).map reverseByte).reverse).testBit i := by
    rw [reverseU32, UInt32.toBitVec_ofNat', BitVec.getLsbD_ofNat]
    simp [hi]
  have hj : i % 8 < 8 := Nat.mod_lt _ (by decide)
  rw [hrev, hval, testBit_leValue, hbytes]
  have hcases : i / 8 = 0 ∨ i / 8 = 1 ∨ i / 8 = 2 ∨ i / 8 = 3 := by omega
  rcases hcases with h | h | h | h
  · rw [h, List.getD_cons_zero, testBit_reverseByte_div _ _ hj]
    congr 1
    omega
  · rw [h, List.getD_cons_succ, List.getD_cons_zero, testBit_reverseByte_div _ _ hj]
    congr 1
    omega
  · rw [h, List.getD_cons_succ, List.getD_cons_succ, List.getD_cons_zero, testBit_reverseByte_div _ _ hj]
    congr 1
    omega
  · rw [h, List.getD_cons_succ, List.getD_cons_succ, List.getD_cons_succ, List.getD_cons_zero,
      testBit_reverseByte_div _ _ hj]
    congr 1
    omega

theorem toBitVec_crcBit (res : UInt32) : (crcBit res).toBitVec = Crc32.stepMsb res.toBitVec := by
  have hbit : res &&& 0x80000000 ≠ 0 ↔ res.toBitVec.getMsbD 0 = true := by
    have hand : (res &&& 0x80000000).toBitVec =
        if res.toBitVec.getLsbD 31 then BitVec.twoPow 32 31 else 0#32 := BitVec.and_twoPow res.toBitVec 31
    rw [Ne, ← UInt32.toBitVec_inj, hand, BitVec.getMsbD_eq_getLsbD]
    cases res.toBitVec.getLsbD 31 <;> decide
  unfold crcBit Crc32.stepMsb
  by_cases h : res.toBitVec.getMsbD 0 = true
  · rw [if_pos (hbit.mpr h), if_pos h]
    simp
  · rw [if_neg (fun hne => h (hbit.mp hne)), if_neg h]
    simp

theorem toBitVec_reverseByte : ∀ b : Fin 256, ((reverseByte (UInt8.ofNat b)).toUInt32 <<< 24).toBitVec =
      ((UInt8.ofNat b).toBitVec.setWidth 32).reverse := by
  decide +kernel

theorem toBitVec_crcByte {res : UInt32} {x : BitVec 32} (h : res.toBitVec = x.reverse) (b : UInt8) :
    (crcByte res b).toBitVec = (Crc32.byte x b).reverse := by
  have hb := toBitVec_reverseByte ⟨b.toNat, b.toNat_lt⟩
  rw [UInt8.ofNat_toNat] at hb
  have hrepeat : ∀ n, ∀ res : UInt32, ∀ x : BitVec 32, res.toBitVec = x.reverse →
      (Nat.repeat crcBit n res).toBitVec = (Nat.repeat Crc32.step n x).reverse := by
    intro n
    induction n with
    | zero => exact fun _ _ h => h
    | succ n ih =>
      intro res x h
      rw [Nat.repeat, Nat.repeat, toBitVec_crcBit, ih res x h, Crc32.step_reverse]
  refine hrepeat 8 _ _ ?_
  rw [UInt32.toBitVec_xor, h, hb, Crc32.reverse_xor]

theorem crc32_eq (data : List UInt8) : crc32 data = Crc32.crc32 data := by
  have hfold : ∀ res : UInt32, ∀ x : BitVec 32, res.toBitVec = x.reverse →
      (data.foldl crcByte res).toBitVec = (data.foldl Crc32.byte x).reverse := by
    induction data with
    | nil => exact fun _ _ h => h
    | cons b data ih =>
      intro res x h
      exact ih _ _ (toBitVec_crcByte h b)
  have hinit : (0xffffffff : UInt32).toBitVec = (0xffffffff : BitVec 32).reverse := by decide +kernel
  apply UInt32.toBitVec_inj.mp
  rw [crc32, toBitVec_reverseU32, UInt32.toBitVec_not, hfold _ _ hinit, ← Crc32.reverse_not, BitVec.reverse_reverse_eq]
  rfl

end Gbl.Abr
