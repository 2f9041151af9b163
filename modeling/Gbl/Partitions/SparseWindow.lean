import Gbl.Partitions.SparseFill

/-!
# Sparse flashing and the window of the partition

`write_sparse` checks `total_blks` blocks against the partition and then writes what the chunk headers say.
-/

namespace Gbl.Partitions

open Lib Lib.Exec Storage

namespace Sparse

def chunksOf (header : SparseHeader) (img : List UInt8) : List Visit × Result (Cursor × List UInt8) :=
  walk header.blkSz header.totalChunks.toNat ⟨SparseHeader.codec.width, 0, 0⟩ img

def writtenRanges (header : SparseHeader) (img : List UInt8) : List (Nat × Nat) :=
  (chunksOf header img).1.map Visit.range ++
    match (chunksOf header img).2 with
    | .ok (c, img') =>
      reached header.blkSz (img'.length - c.fillOff) ((chunksOf header img).1.map Visit.fill) ⟨none, 0⟩ 0
    | .error _ => []

def InRange (header : SparseHeader) (img : List UInt8) : Prop :=
  ∀ r ∈ writtenRanges header img, r.2 ≠ 0 → r.1 + r.2 ≤ header.dataSize

instance (header : SparseHeader) (img : List UInt8) : Decidable (InRange header img) :=
  inferInstanceAs (Decidable (∀ r ∈ writtenRanges header img, r.2 ≠ 0 → r.1 + r.2 ≤ header.dataSize))

section Storage

variable {σ : Type} {w : Writer σ} {Good : σ → Prop} {Mem : Buf → Prop} {content : σ → Content} {base : Nat}
  {b : Buf} {header : SparseHeader}

theorem writeSparseImage_touched (hw : w.Spec Good Mem content base) {s : σ} (hs : Good s) (hb : Mem b)
    (hheader : isSparseImage b.bytes = .ok header) :
    wp (writeSparseImage w) (s, b) fun _ p =>
      Good p.1 ∧ Touched base (writtenRanges header b.bytes) (content s) (content p.1) := by
  unfold writeSparseImage
  apply wp_get_bind
  refine wp_lift_ok_bind hheader ?_
  refine wp_bind (passOne_wp hw hs hb _ _) ?_ ?_
  swap
  · rintro e ⟨s₁, b₁⟩ ⟨hgood, hpost, -⟩
    exact ⟨hgood, hpost.touched.mono fun r hr => List.mem_append_left _ hr⟩
  rintro c ⟨s₁, b₁⟩ ⟨hgood, hpost, -⟩
  have hout : (chunksOf header b.bytes).2 = .ok (c, b₁.bytes) := (hpost.stored c rfl).1
  obtain ⟨-, hle, hrecs⟩ := walk_records [] rfl (Nat.zero_le _) rfl hout
  have hmem : Mem b₁ := hw.congr b b₁ hb hpost.addr hpost.len
  apply wp_get_bind
  apply wp_assert_bind (decide_eq_true hle)
  dsimp only
  rw [hrecs, List.nil_append]
  have hboth : ∀ s₂, Touched base (reached header.blkSz (b₁.len - c.fillOff)
      ((chunksOf header b.bytes).1.map Visit.fill) ⟨none, 0⟩ 0) (content s₁) (content s₂) →
      Touched base (writtenRanges header b.bytes) (content s) (content s₂) := by
    intro s₂ htouched
    unfold writtenRanges
    rw [hout]
    exact hpost.touched.trans htouched
  refine wp_bind (passTwo_touched hw _ hgood hmem hle ⟨none, 0⟩ 0) ?_ ?_
  · rintro _ ⟨s₂, b₂⟩ ⟨hgood', htouched⟩
    exact wp_pure ⟨hgood', hboth s₂ htouched⟩
  · rintro e ⟨s₂, b₂⟩ ⟨hgood', htouched⟩
    exact ⟨hgood', hboth s₂ htouched⟩

theorem writeSparseImage_stored (hw : w.Spec Good Mem content base) (hinf : w.Infallible) (hb : Mem b)
    (hheader : isSparseImage b.bytes = .ok header) :
    ∃ rs : List (Nat × List UInt8), rs.map (fun r => (r.1, r.2.length)) = writtenRanges header b.bytes ∧
      ∀ s, Good s → wp (writeSparseImage w) (s, b) fun _ p => content p.1 = storeAll base rs (content s) := by
  have hranges : ((chunksOf header b.bytes).1.map Visit.region).map (fun r => (r.1, r.2.length)) =
      (chunksOf header b.bytes).1.map Visit.range := List.map_map
  have hone : ∀ s, Good s → wp (passOne w header.blkSz header.totalChunks.toNat
      ⟨SparseHeader.codec.width, 0, 0⟩) (s, b) fun r p => Good p.1 ∧ p.2.addr = b.addr ∧
        r = Prod.fst <$> (chunksOf header b.bytes).2 ∧
        (∀ c, r = .ok c → (chunksOf header b.bytes).2 = .ok (c, p.2.bytes)) ∧
        content p.1 = storeAll base ((chunksOf header b.bytes).1.map Visit.region) (content s) := by
    intro s hs
    refine wp_mono (passOne_wp hw hs hb _ _) ?_
    rintro r p ⟨hgood, hpost, hexact⟩
    exact ⟨hgood, hpost.addr, (hexact hinf).1, fun c hr => (hpost.stored c hr).1, (hexact hinf).2⟩
  unfold writtenRanges writeSparseImage
  rcases hout : (chunksOf header b.bytes).2 with e | ⟨c, img'⟩
  · -- the first pass fails
    refine ⟨(chunksOf header b.bytes).1.map Visit.region, by rw [hranges, List.append_nil], fun s hs => ?_⟩
    refine wp_get_bind (wp_lift_ok_bind hheader (wp_bind (hone s hs) ?_ ?_))
    · rintro c ⟨s₁, b₁⟩ ⟨-, -, hr, -⟩
      rw [hout] at hr
      cases hr
    · rintro e' ⟨s₁, b₁⟩ ⟨-, -, -, -, hcontent⟩
      exact hcontent
  obtain ⟨hlen, hle, hrecs⟩ := walk_records [] rfl (Nat.zero_le _) rfl hout
  obtain ⟨rs, hrs, htwo⟩ := passTwo_stored header.blkSz hw hinf
    ((chunksOf header b.bytes).1.map Visit.fill) (hw.congr b ⟨b.addr, img'⟩ hb rfl hlen) hle ⟨none, 0⟩ 0
  refine ⟨(chunksOf header b.bytes).1.map Visit.region ++ rs, ?_, fun s hs => ?_⟩
  · rw [List.map_append, hranges, hrs]
    rfl
  refine wp_get_bind (wp_lift_ok_bind hheader (wp_bind (hone s hs) ?_ ?_))
  swap
  · rintro e ⟨s₁, b₁⟩ ⟨-, -, hr, -⟩
    rw [hout] at hr
    cases hr
  rintro c₁ ⟨s₁, b₁⟩ ⟨hgood, haddr, -, hstored, hcontent⟩
  obtain ⟨rfl, hbytes⟩ := Prod.mk.inj (Except.ok.inj (hout.symm.trans (hstored c₁ rfl)))
  obtain rfl : b₁ = ⟨b.addr, img'⟩ := by
    rw [hbytes, ← haddr]
  apply wp_get_bind
  apply wp_assert_bind (decide_eq_true hle)
  dsimp only
  rw [hrecs, List.nil_append, storeAll_append, ← hcontent]
  refine wp_bind (htwo s₁ hgood) ?_ ?_
  · rintro _ ⟨s₂, b₂⟩ hfinal
    exact wp_pure hfinal
  · rintro e ⟨s₂, b₂⟩ hfinal
    exact hfinal

def StaysWithin (img : Buf) (n : Nat) : Prop :=
  ∀ (σ : Type) (w : Writer σ) (Good : σ → Prop) (Mem : Buf → Prop) (content : σ → Content) (base : Nat),
    w.Spec Good Mem content base → ∀ s, Good s → Mem img → ∀ i,
      content (writeSparseImage w (s, img)).2.1 i ≠ content s i → base ≤ i ∧ i < base + n

theorem staysWithin_of_inRange (hheader : isSparseImage b.bytes = .ok header) (h : InRange header b.bytes) :
    StaysWithin b header.dataSize := by
  intro σ w Good Mem content base hw s hs hb i hi
  obtain ⟨-, htouched⟩ := writeSparseImage_touched hw hs hb hheader
  obtain ⟨r, hr, hin⟩ := htouched i hi
  have := h r hr (by omega)
  omega

theorem inRange_of_staysWithin (hheader : isSparseImage b.bytes = .ok header)
    (h : StaysWithin b header.dataSize) : InRange header b.bytes := by
  intro r hr hne
  by_contra hout
  obtain ⟨rs, hrs, hrun⟩ := writeSparseImage_stored contentWriter_stores.spec contentWriter_stores.infallible
    (b := b) trivial hheader
  rw [← hrs] at hr
  obtain ⟨q, hq, rfl⟩ := List.mem_map.mp hr
  dsimp only at hne hout
  have hsame : ∀ v : UInt8, (writeSparseImage contentWriter ((fun _ => v), b)).2.1 (q.1 + q.2.length - 1) = v := by
    intro v
    by_contra hchanged
    have := h _ contentWriter _ _ id 0 contentWriter_stores.spec (fun _ => v) trivial trivial _ hchanged
    omega
  have hagree : storeAll 0 rs (fun _ => 0) (q.1 + q.2.length - 1) = storeAll 0 rs (fun _ => 1) _ :=
    storeAll_apply_eq ⟨q, hq, by omega, by omega⟩ _ _
  have h0 := hrun (fun _ => 0) trivial
  have h1 := hrun (fun _ => 1) trivial
  have := (hsame 0).symm.trans ((congrFun h0 _).trans (hagree.trans ((congrFun h1 _).symm.trans (hsame 1))))
  exact absurd this (by decide)

end Storage

def InSpace (b : Buf) : Prop := b.addr + b.len < 2 ^ 64

theorem diskWriter_spec (base : Nat) :
    (diskWriter base).Spec (fun d => d.scratch.InMemory) InSpace (fun d => d.io.content) base where
  sub b i n hb hn := by
    unfold InSpace at hb ⊢
    rw [Buf.sub_len b hn, Buf.sub_addr]
    omega
  congr b b' hb haddr hlen := by
    unfold InSpace at hb ⊢
    rw [haddr, hlen]
    exact hb
  write off d b hd hb := by
    unfold InSpace at hb
    have hmem : b.InMemory := ⟨by omega, by omega, by omega⟩
    unfold diskWriter
    refine wp_lift_bind (fun offset hoffset => ?_) fun e _ =>
      ⟨hd, rfl, .refl _ _ _, fun h => absurd h Res.error_ne_ok⟩
    obtain ⟨a, a', ha, ha', hlt, rfl⟩ := SafeNum.add_eq_valid.mp (SafeNum.toU64_eq_ok.mp hoffset)
    obtain ⟨-, rfl⟩ := SafeNum.ofNat_eq_valid.mp ha
    obtain ⟨-, rfl⟩ := SafeNum.ofNat_eq_valid.mp ha'
    refine wp_mono (Disk.write_wp hd hmem hlt) ?_
    intro r p hpost
    rw [Nat.add_comm base off]
    exact ⟨hpost.ran.inMemory hd, hpost.buf, hpost.torn, fun hr => (hpost.stored hr).2⟩

end Sparse

namespace PartitionIo

open Sparse

theorem dataSize_lt (header : SparseHeader) : header.dataSize < 2 ^ 64 := by
  have ha := header.totalBlks.toNat_lt
  have hb := header.blkSz.toNat_lt
  calc header.dataSize < 2 ^ 32 * 2 ^ 32 := Nat.mul_lt_mul'' ha hb
    _ = 2 ^ 64 := by norm_num

variable {p : PartitionIo} {off : Nat} {img : Buf} {header : SparseHeader}

theorem writeSparse_eq (h : p.Valid) (ho : off < 2 ^ 64) (hheader : isSparseImage img.bytes = .ok header) :
    writeSparse off (p, img) = if p.Fits off header.dataSize then
        p.afterDisk ((do
          let _ ← writeSparseImage (diskWriter (p.partStart + off))
          pure () : Exec Error (Disk × Buf) Unit) (p.disk, img))
      else (err .outOfRange, p, img) := by
  have hcheck := checkRwRange_eq h ho (dataSize_lt header)
  refine (bind_run_ok (get_run _)).trans ?_
  simp only [hheader]
  by_cases hfit : p.Fits off header.dataSize
  · rw [if_pos hfit] at hcheck ⊢
    exact (bind_run_ok (lift_run_ok hcheck _)).trans (onDisk_run _ _ _)
  · rw [if_neg hfit] at hcheck ⊢
    refine bind_run_error ?_
    rw [lift_run, hcheck]

theorem writeSparse_touched (h : p.Valid) (hd : p.disk.scratch.InMemory) (ho : off < 2 ^ 64)
    (himg : InSpace img) (hheader : isSparseImage img.bytes = .ok header) {i : Nat}
    (hi : (writeSparse off (p, img)).2.1.disk.io.content i ≠ p.disk.io.content i) :
    p.Fits off header.dataSize ∧ ∃ r ∈ writtenRanges header img.bytes,
      p.partStart + off + r.1 ≤ i ∧ i < p.partStart + off + r.1 + r.2 := by
  rw [writeSparse_eq h ho hheader] at hi
  by_cases hfit : p.Fits off header.dataSize
  swap
  · rw [if_neg hfit] at hi
    exact absurd rfl hi
  rw [if_pos hfit] at hi
  have hrun : wp (do
      let _ ← writeSparseImage (diskWriter (p.partStart + off))
      pure () : Exec Error (Disk × Buf) Unit) (p.disk, img) fun _ t =>
      Touched (p.partStart + off) (writtenRanges header img.bytes) p.disk.io.content t.1.io.content := by
    refine wp_bind (writeSparseImage_touched (diskWriter_spec _) hd himg hheader) ?_ ?_
    · rintro _ t ⟨-, ht⟩
      exact ht
    · rintro e t ⟨-, ht⟩
      exact ht
  exact ⟨hfit, hrun i hi⟩

/-- **Sparse flashing and the window.** The writes of an accepted image stay within the range of
`data_size()` bytes exactly if every chunk that is written ends there. Then `write_sparse`, whether it
succeeds or fails, changes nothing outside the window from the offset on. -/
theorem writeSparse_window_iff {img : Buf} {header : SparseHeader} (hheader : isSparseImage img.bytes = .ok header) :
    (StaysWithin img header.dataSize ↔ InRange header img.bytes) ∧
      (InRange header img.bytes → ∀ (p : PartitionIo) (off i : Nat), p.Valid → p.disk.scratch.InMemory →
        off < 2 ^ 64 → InSpace img →
        (writeSparse off (p, img)).2.1.disk.io.content i ≠ p.disk.io.content i →
          p.partStart + off ≤ i ∧ i < p.partEnd) := by
  refine ⟨⟨inRange_of_staysWithin hheader, staysWithin_of_inRange hheader⟩, ?_⟩
  intro hrange p off i hp hd ho himg hi
  obtain ⟨hfit, r, hr, hin⟩ := writeSparse_touched hp hd ho himg hheader hi
  have hend := hrange r hr (by omega)
  unfold Fits at hfit
  omega

theorem writeSparse_window_small : StaysWithin ⟨64, smallImage⟩ 16 := by
  have hheader : isSparseImage (⟨64, smallImage⟩ : Buf).bytes = .ok ⟨headerMagic, 1, 0, 28, 12, 4, 4, 3, 0⟩ := by
    decide +kernel
  obtain ⟨hiff, -⟩ := writeSparse_window_iff hheader
  exact hiff.mpr (by decide +kernel)

def wideImage : List UInt8 := imageOf 4 1 [(⟨chunkTypeRaw, 0, 2, 20⟩, List.replicate 8 255)]

/-- The header is checked against the first half of the disk, and the chunk is written to all of it. -/
theorem writeSparse_leaves_window :
    let p : PartitionIo := ⟨smallDisk, 0, 4⟩
    p.Valid ∧ p.disk.scratch.InMemory ∧ InSpace ⟨64, wideImage⟩ ∧
      isSparseImage wideImage = .ok ⟨headerMagic, 1, 0, 28, 12, 4, 1, 1, 0⟩ ∧
      (writeSparse 0 (p, ⟨64, wideImage⟩)).1 = .ok () ∧
      (writeSparse 0 (p, ⟨64, wideImage⟩)).2.1.disk.io.content 5 ≠ p.disk.io.content 5 :=
  ⟨⟨by decide, by decide⟩, ⟨by decide, by decide, by decide⟩, by unfold InSpace; decide +kernel,
    by decide +kernel, by decide +kernel, by decide +kernel⟩

end PartitionIo

end Gbl.Partitions
