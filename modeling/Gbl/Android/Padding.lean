import Gbl.Android.Progress

/-!
# Padded LZ4 kernels

The loader hands a kernel over with the zeros that fill its last page.
-/

namespace Gbl.Android

open Lib Lib.Exec
open Fastboot (Bytes)

def framed (block : Bytes) : Bytes := leBytes 4 block.length ++ block

def lz4Kernel (bs : List Bytes) (k : Nat) : Bytes :=
  [0x02, 0x21, 0x4c, 0x18] ++ (bs.flatMap framed ++ List.replicate k 0)

variable {C : Codecs} {bs : List Bytes} {k : Nat} {out : Bytes}

theorem nextBlock_framed {block : Bytes} (hne : block ≠ []) (hlen : block.length < 2 ^ 32) (rest : Bytes) :
    nextBlock (framed block ++ rest) = (some (.ok block), rest) := by
  have hsize : (leBytes 4 block.length).length = 4 := length_leBytes 4 _
  have hval : leValue (leBytes 4 block.length) = block.length := leValue_leBytes hlen
  have hpos : 0 < block.length := List.length_pos_iff.2 hne
  unfold nextBlock framed
  rw [if_neg (by simp [hsize, ← List.length_eq_zero_iff]), if_neg (by simp [hsize]), List.append_assoc,
    List.take_left' hsize, List.drop_left' hsize, hval]
  simp only
  rw [if_neg (by omega), if_neg (by simp), List.take_left, List.drop_left]

theorem blocks_of_next {data rest : Bytes} {r : Option (Result Bytes)} (h : nextBlock data = (r, rest)) :
    blocks data = match r with
      | none => []
      | some (.ok block) => .ok block :: blocks rest
      | some (.error e) => [.error e] := by
  rw [blocks]
  split <;> next h' => cases h.symm.trans h'; rfl

theorem blocks_framed (hbs : ∀ block ∈ bs, block ≠ [] ∧ block.length < 2 ^ 32) (rest : Bytes) :
    blocks (bs.flatMap framed ++ rest) = bs.map .ok ++ blocks rest := by
  induction bs with
  | nil => rfl
  | cons block bs ih =>
    obtain ⟨⟨hne, hlen⟩, hrest⟩ := List.forall_mem_cons.1 hbs
    rw [List.flatMap_cons, List.append_assoc, blocks_of_next (nextBlock_framed hne hlen _), ih hrest]
    rfl

theorem blocks_padding (k : Nat) :
    blocks (List.replicate k 0) = if k = 0 ∨ 4 ≤ k then [] else [err lz4NextBlockFailed] := by
  by_cases h0 : k = 0
  · subst h0
    exact blocks_of_next rfl
  have hne : (List.replicate k (0 : UInt8)).isEmpty = false := by simpa using h0
  by_cases hk : k < 4
  · have hnext : nextBlock (List.replicate k 0) = (some (err lz4NextBlockFailed), List.replicate k 0) := by
      unfold nextBlock
      rw [hne, if_neg Bool.false_ne_true, List.length_replicate, if_pos hk]
    rw [blocks_of_next hnext, if_neg (by omega)]
  · have htake : (List.replicate k (0 : UInt8)).take 4 = [0, 0, 0, 0] := by
      rw [List.take_replicate, Nat.min_eq_left (by omega)]
      rfl
    have hnext : nextBlock (List.replicate k 0) = (none, (List.replicate k 0).drop 4) := by
      unfold nextBlock
      rw [hne, if_neg Bool.false_ne_true, List.length_replicate, if_neg hk, htake]
      rfl
    rw [blocks_of_next hnext, if_pos (by omega)]

theorem blocksData_append (C : Codecs) (bs : List Bytes) (rest : List (Result Bytes)) :
    blocksData C (bs.map .ok ++ rest) = (bs.mapM C.lz4Data).bind fun ds =>
      (blocksData C rest).map (ds.flatten ++ ·) := by
  induction bs with
  | nil => simp
  | cons block bs ih =>
    rw [List.map_cons, List.cons_append, blocksData, ih, List.mapM_cons]
    cases C.lz4Data block <;> cases bs.mapM C.lz4Data <;> cases blocksData C rest <;> simp

theorem decompressed_lz4Kernel (C : Codecs) (hbs : ∀ block ∈ bs, block ≠ [] ∧ block.length < 2 ^ 32) (k : Nat) :
    decompressed C (lz4Kernel bs k) = if k = 0 ∨ 4 ≤ k then (bs.mapM C.lz4Data).map List.flatten else none := by
  have hblocks : blocks ((lz4Kernel bs k).drop 4) = bs.map .ok ++ blocks (List.replicate k 0) := blocks_framed hbs _
  rw [decompressed, if_neg (by simp [lz4Kernel, isGzipCompressed]), if_pos (by simp [lz4Kernel, isLz4Compressed]),
    hblocks, blocksData_append, blocks_padding]
  split
  · simp [blocksData, Option.map_eq_bind]
  · simp [blocksData]

/-! ## Every kernel is answered -/

theorem error_mem_blocks {data : Bytes} {e : Stop Error} (h : .error e ∈ blocks data) :
    e = .err lz4NextBlockFailed := by
  induction data using blocks.induct with
  | case1 data rest hnext => rw [blocks_of_next hnext] at h; cases h
  | case2 data rest block hnext ih =>
    rw [blocks_of_next hnext] at h
    rcases List.mem_cons.1 h with h | h
    · cases h
    · exact ih h
  | case3 data rest e' hnext =>
    rw [blocks_of_next hnext] at h
    cases List.mem_singleton.1 h
    unfold nextBlock at hnext
    simp only at hnext
    split_ifs at hnext <;> cases hnext <;> rfl

theorem decompressBlocks_returns {rs : List (Result Bytes)} (hrs : ∀ e, .error e ∈ rs → e = .err lz4NextBlockFailed) :
    ∀ {pos : Nat} {out : Bytes}, pos ≤ out.length →
      ∃ r, (decompressBlocks C rs pos out).1 = r ∧ r ≠ panic ∧ r ≠ .error .hang := by
  induction rs with
  | nil => exact fun _ => ⟨_, rfl, by rintro ⟨⟩, by rintro ⟨⟩⟩
  | cons r rs ih =>
    intro pos out hpos
    cases r with
    | error e =>
      obtain rfl := hrs e List.mem_cons_self
      exact ⟨_, rfl, by rintro ⟨⟩, by rintro ⟨⟩⟩
    | ok block =>
      unfold decompressBlocks
      rw [bind_run_ok (get_run out), assert_bind_run_true (decide_eq_true hpos)]
      cases hinto : (C.decompressInto block (out.drop pos)).1 with
      | none =>
        simp only [hinto]
        exact ⟨_, rfl, by rintro ⟨⟩, by rintro ⟨⟩⟩
      | some n =>
        simp only [hinto]
        rw [bind_run_ok (modify_run _ _)]
        obtain ⟨d, -, hfits, rfl⟩ := (C.into_eq_some _ _ _).1 hinto
        apply ih fun e he => hrs e (List.mem_cons_of_mem _ he)
        rw [List.length_append, C.length_into, List.length_take_of_le hpos]
        omega

theorem copyOut_returns (data out : Bytes) : (copyOut data out).1 ≠ panic ∧ (copyOut data out).1 ≠ .error .hang := by
  unfold copyOut
  rw [bind_run_ok (get_run out)]
  split
  · rw [bind_run_ok (modify_run _ _)]
    exact ⟨nofun, nofun⟩
  · exact ⟨nofun, nofun⟩

theorem decompressKernel_returns (C : Codecs) (kernel out : Bytes) :
    (decompressKernel C kernel out).1 ≠ panic ∧ (decompressKernel C kernel out).1 ≠ .error .hang := by
  unfold decompressKernel decompressGzip
  split
  · cases C.decodeGzip kernel with
    | some data => exact copyOut_returns data out
    | none => exact ⟨nofun, nofun⟩
  · split
    · obtain ⟨_, rfl, hr⟩ := decompressBlocks_returns (C := C) (fun e => error_mem_blocks) (Nat.zero_le out.length)
      exact hr
    · exact copyOut_returns _ out

/-- A padded LZ4 kernel decompresses to the data of its blocks exactly if there is no padding or at least as much as
the size of a block takes; and no kernel at all makes the function die. -/
theorem lz4_padding_iff {ds : List Bytes} (hbs : ∀ block ∈ bs, block ≠ [] ∧ block.length < 2 ^ 32)
    (hds : bs.mapM C.lz4Data = some ds) :
    ((∀ out : Bytes, ds.flatten.length ≤ out.length → ∃ out',
        decompressKernel C (lz4Kernel bs k) out = (.ok ds.flatten.length, out') ∧
          out'.take ds.flatten.length = ds.flatten) ↔ k = 0 ∨ 4 ≤ k) ∧
      ∀ kernel out, (decompressKernel C kernel out).1 ≠ panic ∧ (decompressKernel C kernel out).1 ≠ .error .hang := by
  have hkernel := decompressed_lz4Kernel C hbs k
  rw [hds] at hkernel
  refine ⟨⟨fun h => ?_, fun hk out hroom => ?_⟩, decompressKernel_returns C⟩
  · by_contra hk
    rw [if_neg hk] at hkernel
    obtain ⟨out', hrun, -⟩ := h ds.flatten le_rfl
    obtain ⟨d, hd, -⟩ := decompressKernel_ok hrun
    cases hkernel.symm.trans hd
  · rw [if_pos hk] at hkernel
    obtain ⟨out', hrun⟩ := decompressKernel_progress hkernel hroom
    obtain ⟨d, hd, -, -, -, htake⟩ := decompressKernel_ok hrun
    cases hkernel.symm.trans hd
    exact ⟨out', hrun, htake⟩

/-- What an LZ4 block of a single run of literals holds: the upper half of its first byte is their number. -/
def literals : Bytes → Option Bytes
  | [] => none
  | token :: data => if token.toNat = 16 * data.length then some data else none

/-- A library that knows such blocks and no others. -/
def literalBlocks : Codecs where
  decodeGzip _ := none
  lz4Data := literals
  decompressInto block out :=
    match literals block with
    | some data => if data.length ≤ out.length then (some data.length, splice out 0 data) else (none, out)
    | none => (none, out)
  length_into block out := by
    split
    · split
      · next h => exact length_splice (by rwa [Nat.zero_add])
      · rfl
    · rfl
  into_eq_some block out n := by
    cases literals block with
    | none => simp
    | some data =>
      by_cases h : data.length ≤ out.length
      · simp [h, eq_comm]
      · simp [h]
  take_into block out d hd hle := by
    simp only [hd, if_pos hle]
    rw [splice_zero, List.take_left]

/-- The block `10 07` is the byte 7. -/
theorem lz4_padding_page :
    ∃ out', decompressKernel literalBlocks (lz4Kernel [[0x10, 7]] 4) [0] = (.ok 1, out') ∧ out'.take 1 = [7] :=
  (lz4_padding_iff (k := 4) (show ∀ block ∈ [[0x10, 7]], _ by decide)
    (show [[0x10, 7]].mapM literalBlocks.lz4Data = some [[7]] from rfl)).1.2 (.inr le_rfl) [0] (by decide)

/-- One byte of padding is too little. -/
theorem lz4_padding_refused :
    (decompressKernel literalBlocks (lz4Kernel [[0x10, 7]] 1) [0]).1 = err lz4NextBlockFailed := by
  decide +kernel

end Gbl.Android
