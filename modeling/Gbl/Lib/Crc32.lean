import Gbl.Lib.Bytes

/-!
# The standard CRC-32

The checksum of Ethernet and zip in its usual, reflected form: bits come least significant first and the polynomial is
`0xEDB88320`.
-/

namespace Gbl.Lib.Crc32

/-- One step of the division. -/
def step (res : BitVec 32) : BitVec 32 := if res.getLsbD 0 then (res >>> 1) ^^^ 0xEDB88320 else res >>> 1

/-- One byte more. -/
def byte (res : BitVec 32) (b : UInt8) : BitVec 32 := Nat.repeat step 8 (res ^^^ b.toBitVec.setWidth 32)

/-- The checksum of a byte string. -/
def crc32 (data : List UInt8) : UInt32 := ⟨~~~ (data.foldl byte 0xffffffff)⟩

def stepMsb (res : BitVec 32) : BitVec 32 :=
  if res.getMsbD 0 then (res <<< 1) ^^^ 0x04C11DB7 else res <<< 1

theorem reverse_xor (x y : BitVec 32) : (x ^^^ y).reverse = x.reverse ^^^ y.reverse := by
  apply BitVec.eq_of_getLsbD_eq
  intro i hi
  simp [BitVec.getLsbD_reverse, BitVec.getMsbD_xor]

theorem reverse_not (x : BitVec 32) : (~~~ x).reverse = ~~~ x.reverse := by
  apply BitVec.eq_of_getLsbD_eq
  intro i hi
  simp only [BitVec.getLsbD_reverse, BitVec.getMsbD_not, BitVec.getLsbD_not, hi, decide_true, Bool.true_and]

theorem reverse_ushiftRight_one (x : BitVec 32) : (x >>> 1).reverse = x.reverse <<< 1 := by
  apply BitVec.eq_of_getLsbD_eq
  intro i hi
  simp only [BitVec.getLsbD_reverse, BitVec.getMsbD_eq_getLsbD, BitVec.getLsbD_shiftLeft, BitVec.getLsbD_ushiftRight]
  by_cases h0 : i = 0
  · subst h0
    simp
  · have hshift : 1 + (32 - 1 - i) = 32 - 1 - (i - 1) := by omega
    simp [hi, hshift, show i - 1 < 32 by omega, show ¬ i < 1 by omega]

theorem step_reverse (x : BitVec 32) : stepMsb x.reverse = (step x).reverse := by
  have hpoly : (0xEDB88320 : BitVec 32).reverse = 0x04C11DB7 := by decide +kernel
  have hbit : x.reverse.getMsbD 0 = x.getLsbD 0 := by
    rw [BitVec.getMsbD_reverse]
  rw [stepMsb, step, hbit, ← reverse_ushiftRight_one]
  split
  · rw [reverse_xor, hpoly]
  · rfl

end Gbl.Lib.Crc32
