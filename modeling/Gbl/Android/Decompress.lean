import Gbl.Error
import Gbl.Fastboot.Text
import Gbl.Lib.Bytes

/-!
# Kernel decompression (`libgbl/src/decompress.rs`)

A kernel is compressed with gzip, or it is a list of LZ4 blocks behind a magic, or it is taken as it is.
-/

namespace Gbl.Android

open Lib Lib.Exec
open Fastboot (Bytes)

structure Codecs where
  decodeGzip : Bytes → Option Bytes
  lz4Data : Bytes → Option Bytes
  decompressInto : Bytes → Bytes → Option Nat × Bytes
  length_into : ∀ block out, (decompressInto block out).2.length = out.length
  into_eq_some : ∀ block out n, (decompressInto block out).1 = some n ↔
    ∃ d, lz4Data block = some d ∧ d.length ≤ out.length ∧ n = d.length
  take_into : ∀ block out d, lz4Data block = some d → d.length ≤ out.length →
    (decompressInto block out).2.take d.length = d

def isGzipCompressed (data : Bytes) : Bool := List.isPrefixOf [0x1f, 0x8b] data

def isLz4Compressed (data : Bytes) : Bool := List.isPrefixOf [0x02, 0x21, 0x4c, 0x18] data

def lz4NextBlockFailed : Error := .other (some "Failed to handle next block of lz4-compressed kernel")

def nextBlock (data : Bytes) : Option (Result Bytes) × Bytes :=
  if data.isEmpty then (none, data)
  else if data.length < 4 then (some (err lz4NextBlockFailed), data)
  else
    let size := leValue (data.take 4)
    let rest := data.drop 4
    if size = 0 then (none, rest)
    else if rest.length < size then (some (err lz4NextBlockFailed), rest)
    else (some (.ok (rest.take size)), rest.drop size)

theorem length_nextBlock_lt {data block rest : Bytes} (h : nextBlock data = (some (.ok block), rest)) :
    rest.length < data.length := by
  unfold nextBlock at h
  split at h
  · cases h
  · split at h
    · cases h
    · next hlen =>
      simp only at h
      split at h
      · cases h
      · split at h
        · cases h
        · obtain ⟨-, rfl⟩ := Prod.mk.inj h
          simp only [List.length_drop]
          omega

def blocks (data : Bytes) : List (Result Bytes) :=
  match _h : nextBlock data with
  | (none, _) => []
  | (some (.ok block), rest) => .ok block :: blocks rest
  | (some (.error e), _) => [.error e]
termination_by data.length
decreasing_by exact length_nextBlock_lt _h

section

variable (C : Codecs)

def decompressBlocks : List (Result Bytes) → Nat → Exec Error Bytes Nat
  | [], pos => pure pos
  | .error e :: _, _ => lift (.error e)
  | .ok block :: rest, pos => do
    let out ← get
    assert (decide (pos ≤ out.length))
    let (n, filled) := C.decompressInto block (out.drop pos)
    modify fun out => out.take pos ++ filled
    match n with
    | some n => decompressBlocks rest (pos + n)
    | none => lift (err (.other (some "Failed to decompress lz4 block")))

def decompressLz4 (content : Bytes) : Exec Error Bytes Nat := decompressBlocks C (blocks content) 0

def copyOut (data : Bytes) : Exec Error Bytes Nat := do
  let out ← get
  if data.length ≤ out.length then do
    modify fun out => splice out 0 data
    pure data.length
  else lift (err (.bufferTooSmall (some data.length)))

def decompressGzip (content : Bytes) : Exec Error Bytes Nat :=
  match C.decodeGzip content with
  | some data => copyOut data
  | none => lift (err (.other (some "Failed to decompress gzip data")))

def decompressKernel (kernel : Bytes) : Exec Error Bytes Nat :=
  if isGzipCompressed kernel then decompressGzip C kernel
  else if isLz4Compressed kernel then decompressLz4 C (kernel.drop 4)
  else copyOut kernel

/-! ## What a kernel decompresses to -/

def blocksData : List (Result Bytes) → Option Bytes
  | [] => some []
  | .error _ :: _ => none
  | .ok block :: rest => do
    let d ← C.lz4Data block
    let ds ← blocksData rest
    pure (d ++ ds)

def decompressed (kernel : Bytes) : Option Bytes :=
  if isGzipCompressed kernel then C.decodeGzip kernel
  else if isLz4Compressed kernel then blocksData C (blocks (kernel.drop 4))
  else some kernel

end

variable {C : Codecs} {out out' data kernel : Bytes} {n : Nat}

theorem copyOut_eq_ok :
    copyOut data out = (.ok n, out') ↔ data.length ≤ out.length ∧ n = data.length ∧ out' = splice out 0 data := by
  unfold copyOut
  rw [bind_run_ok (get_run out)]
  by_cases h : data.length ≤ out.length
  · rw [if_pos h, bind_run_ok (modify_run _ _), pure_run, Prod.mk.injEq, Except.ok.injEq]
    simp only [h, true_and]
    exact and_congr eq_comm eq_comm
  · rw [if_neg h]
    exact iff_of_false nofun fun h' => h h'.1

theorem decompressBlocks_ok {bs : List (Result Bytes)} {pos : Nat} (hpos : pos ≤ out.length)
    (h : decompressBlocks C bs pos out = (.ok n, out')) :
    ∃ d, blocksData C bs = some d ∧ n = pos + d.length ∧ out'.length = out.length ∧ n ≤ out.length ∧
      out'.take n = out.take pos ++ d := by
  induction bs generalizing pos out with
  | nil =>
    cases h
    exact ⟨[], rfl, rfl, rfl, hpos, (List.append_nil _).symm⟩
  | cons b bs ih =>
    cases b with
    | error e => cases h
    | ok block =>
      unfold decompressBlocks at h
      rw [bind_run_ok (get_run out), assert_bind_run_true (decide_eq_true hpos)] at h
      cases hinto : (C.decompressInto block (out.drop pos)).1 with
      | none =>
        simp only [hinto] at h
        cases h
      | some k =>
        simp only [hinto] at h
        obtain ⟨d, hd, hfits, rfl⟩ := (C.into_eq_some block (out.drop pos) k).1 hinto
        have hfilled := C.length_into block (out.drop pos)
        have htake := C.take_into block (out.drop pos) d hd hfits
        have hpre : (out.take pos).length = pos := List.length_take_of_le hpos
        rw [List.length_drop] at hfits hfilled
        have hlen : (out.take pos ++ (C.decompressInto block (out.drop pos)).2).length = out.length := by
          rw [List.length_append, hpre, hfilled]
          omega
        obtain ⟨ds, hds, hn, hlen', hle, hout⟩ := ih (by rw [hlen]; omega) h
        rw [hlen] at hlen' hle
        refine ⟨d ++ ds, ?_, by rw [hn, List.length_append, Nat.add_assoc], hlen', hle, ?_⟩
        · simp [blocksData, hd, hds]
        · rw [hout, List.take_append, hpre, Nat.add_sub_cancel_left, htake,
            List.take_of_length_le (by omega), List.append_assoc]

theorem decompressKernel_ok (h : decompressKernel C kernel out = (.ok n, out')) :
    ∃ d, decompressed C kernel = some d ∧ n = d.length ∧ n ≤ out.length ∧ out'.length = out.length ∧
      out'.take n = d := by
  have hcopy : ∀ data, copyOut data out = (.ok n, out') →
      n = data.length ∧ n ≤ out.length ∧ out'.length = out.length ∧ out'.take n = data := by
    intro data hrun
    obtain ⟨hle, rfl, rfl⟩ := copyOut_eq_ok.1 hrun
    refine ⟨rfl, hle, length_splice (by rwa [Nat.zero_add]), ?_⟩
    rw [splice_zero, List.take_left]
  unfold decompressKernel at h
  unfold decompressed
  split at h
  · next hgzip =>
    rw [if_pos hgzip]
    unfold decompressGzip at h
    cases hdata : C.decodeGzip kernel with
    | none =>
      simp only [hdata] at h
      cases h
    | some data =>
      simp only [hdata] at h
      exact ⟨data, rfl, hcopy data h⟩
  · next hgzip =>
    rw [if_neg hgzip]
    split at h
    · next hlz4 =>
      rw [if_pos hlz4]
      obtain ⟨d, hd, hn, hlen, hle, htake⟩ := decompressBlocks_ok (Nat.zero_le _) h
      rw [Nat.zero_add] at hn
      exact ⟨d, hd, hn, hle, hlen, htake⟩
    · next hlz4 =>
      rw [if_neg hlz4]
      exact ⟨kernel, rfl, hcopy kernel h⟩

end Gbl.Android
