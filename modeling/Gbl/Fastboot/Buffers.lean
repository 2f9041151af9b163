import Gbl.Error
import Gbl.Lib.Extent

/-!
# The download buffers of fastboot (`libgbl`, `GblFastbootEntry::run_n`)

`run_n` cuts the download buffer into `N` pieces for the buffer pool.
-/

namespace Gbl.Fastboot

open Lib

def chunks (len size : Nat) : List Extent := (List.range (len / size)).map fun i => ⟨i * size, size⟩

def chunksExactMut (len chunkSize : Nat) : Result (List Extent) :=
  if chunkSize = 0 then panic else .ok (chunks len chunkSize)

def assignFrom (i : Nat) (arr : List Extent) : List Extent → Result (List Extent)
  | [] => .ok arr
  | v :: vs => if i < arr.length then assignFrom (i + 1) (arr.set i v) vs else panic

def runN (n len : Nat) : Result (List Extent) := do
  -- `N < 1` runs as `N = 1`.
  let n := if n < 1 then 1 else n
  let chunks ← chunksExactMut len (len / n)
  assignFrom 0 (List.replicate n ⟨0, 0⟩) chunks

def SplitsEvenly (n len : Nat) : Prop :=
  ∃ bufs, runN n len = .ok bufs ∧ bufs.length = n ∧ bufs.Pairwise Extent.Disjoint ∧
    ∀ b ∈ bufs, b.Within ⟨0, len⟩ ∧ b.len = len / n

/-! ## The loop -/

theorem assignFrom_of_le {i : Nat} {arr vs : List Extent} (h : i + vs.length ≤ arr.length) :
    assignFrom i arr vs = .ok (arr.take i ++ vs ++ arr.drop (i + vs.length)) := by
  induction vs generalizing i arr with
  | nil => simp [assignFrom]
  | cons v vs ih =>
    have hi : i < arr.length := by simp only [List.length_cons] at h; omega
    have hlen : i + 1 + vs.length ≤ (arr.set i v).length := by
      simp only [List.length_cons, List.length_set] at h ⊢
      omega
    rw [assignFrom, if_pos hi, ih hlen]
    have htake : (arr.set i v).take (i + 1) = arr.take i ++ [v] := by
      rw [List.take_add_one, List.getElem?_set_self hi, List.take_set_of_le (Nat.le_refl i)]
      rfl
    have hdrop : (arr.set i v).drop (i + 1 + vs.length) = arr.drop (i + (vs.length + 1)) := by
      rw [List.drop_set_of_lt (by omega)]
      congr 1
      omega
    rw [htake, hdrop]
    simp

theorem assignFrom_of_lt {i : Nat} {arr vs : List Extent} (hi : i ≤ arr.length)
    (h : arr.length < i + vs.length) : assignFrom i arr vs = panic := by
  induction vs generalizing i arr with
  | nil => simp only [List.length_nil] at h; omega
  | cons v vs ih =>
    rw [assignFrom]
    by_cases hlt : i < arr.length
    · rw [if_pos hlt]
      apply ih
      · rw [List.length_set]
        exact hlt
      · simp only [List.length_cons, List.length_set] at h ⊢
        omega
    · rw [if_neg hlt]

/-! ## The chunks -/

theorem length_chunks (len size : Nat) : (chunks len size).length = len / size := by
  rw [chunks, List.length_map, List.length_range]

theorem chunks_pairwise (len size : Nat) : (chunks len size).Pairwise Extent.Disjoint := by
  rw [chunks, List.pairwise_map]
  apply List.Pairwise.imp _ List.pairwise_lt_range
  intro i j hij
  rw [Extent.disjoint_iff]
  have hle : (i + 1) * size ≤ j * size := Nat.mul_le_mul_right size hij
  rw [Nat.succ_mul] at hle
  exact .inr (.inr (.inl hle))

theorem chunks_within {len size : Nat} {b : Extent} (h : b ∈ chunks len size) : b.Within ⟨0, len⟩ ∧ b.len = size := by
  obtain ⟨i, hi, rfl⟩ := List.mem_map.mp h
  have hle : (i + 1) * size ≤ len / size * size := Nat.mul_le_mul_right size (List.mem_range.mp hi)
  have hdiv := Nat.div_mul_le_self len size
  refine ⟨⟨Nat.zero_le _, ?_⟩, rfl⟩
  simp only [Extent.stop]
  rw [Nat.succ_mul] at hle
  omega

theorem div_div_le_iff {n len : Nat} : len / n ≠ 0 ∧ len / (len / n) ≤ n ↔ len % n < len / n := by
  have hsplit := Nat.div_add_mod len n
  constructor
  · rintro ⟨hpos, hle⟩
    have hlt : len < (n + 1) * (len / n) :=
      (Nat.div_lt_iff_lt_mul (Nat.pos_of_ne_zero hpos)).mp (Nat.lt_succ_of_le hle)
    rw [Nat.succ_mul] at hlt
    omega
  · intro h
    have hpos : 0 < len / n := Nat.zero_lt_of_lt h
    refine ⟨Nat.ne_of_gt hpos, Nat.le_of_lt_succ ((Nat.div_lt_iff_lt_mul hpos).mpr ?_)⟩
    rw [Nat.succ_mul]
    omega

/-- **When the download buffer is split into `n` equal buffers.** The bytes that are left over must be fewer
than a chunk; otherwise there are more than `n` chunks, or chunks of no size, and `run_n` panics. -/
theorem splits_evenly_iff (n len : Nat) (hn : 1 ≤ n) : SplitsEvenly n len ↔ len % n < len / n := by
  rw [← div_div_le_iff]
  have hrun : runN n len = chunksExactMut len (len / n) >>= assignFrom 0 (List.replicate n ⟨0, 0⟩) := by
    rw [runN, if_neg (Nat.not_lt.mpr hn)]
  constructor
  · rintro ⟨bufs, hbufs, -⟩
    rw [hrun] at hbufs
    obtain ⟨cs, hcs, hassign⟩ := Res.bind_eq_ok.mp hbufs
    unfold chunksExactMut at hcs
    split at hcs
    · cases hcs
    next hpos =>
    cases hcs
    refine ⟨hpos, ?_⟩
    by_contra hmany
    rw [assignFrom_of_lt (Nat.zero_le _)] at hassign
    · cases hassign
    · rw [length_chunks, List.length_replicate]
      omega
  · rintro ⟨hpos, hle⟩
    have hge : n ≤ len / (len / n) := by
      rw [Nat.le_div_iff_mul_le (Nat.pos_of_ne_zero hpos), Nat.mul_comm]
      exact Nat.div_mul_le_self len n
    have hcount : (chunks len (len / n)).length = n := by
      rw [length_chunks]
      omega
    refine ⟨chunks len (len / n), ?_, hcount, chunks_pairwise _ _, fun b => chunks_within⟩
    rw [hrun, chunksExactMut, if_neg hpos, Res.ok_bind]
    refine (assignFrom_of_le (by rw [hcount]; simp)).trans ?_
    simp [hcount]

theorem splits_evenly_seven : SplitsEvenly 2 7 := (splits_evenly_iff 2 7 (by decide)).mpr (by decide)

/-- A byte is too little for two buffers, and five bytes make five chunks for three buffers. -/
theorem runN_fatal : runN 2 1 = panic ∧ runN 3 5 = panic ∧ ¬ SplitsEvenly 2 1 ∧ ¬ SplitsEvenly 3 5 := by
  refine ⟨rfl, rfl, ?_, ?_⟩
  · rintro ⟨bufs, hbufs, -⟩
    cases hbufs
  · rintro ⟨bufs, hbufs, -⟩
    cases hbufs

end Gbl.Fastboot
