import Gbl.Partitions.SparseWindow

/-!
# Which sparse images are fatal

A malformed image should be refused. Here are the images that are not, and that stop the device instead.
-/

namespace Gbl.Partitions.Sparse

open Lib Lib.Exec Storage

def Writer.Polite {σ : Type} (w : Writer σ) : Prop := ∀ off p, (w off p).1.Returns ∧ (w off p).2.2 = p.2

def Expected {σ α : Type} (w : Writer σ) (outcome r : Result α) : Prop :=
  (r = outcome ∨ r.IsErr) ∧ (w.Infallible → r = outcome)

theorem Expected.refl {σ α : Type} (w : Writer σ) (r : Result α) : Expected w r r := ⟨.inl rfl, fun _ => rfl⟩

section Outcome

variable {σ : Type} {w : Writer σ} {blkSz : UInt32} {s : σ} {b : Buf}

theorem wp_bind_expected {α β : Type} {m : Exec Error (σ × Buf) α} {k : α → Exec Error (σ × Buf) β} {p : σ × Buf}
    {o₁ : Result α} {I : Result α → σ × Buf → Prop} (o₂ : α → Result β)
    (hm : wp m p fun r q => I r q ∧ Expected w o₁ r)
    (hk : ∀ a q, o₁ = .ok a → I (.ok a) q → wp (k a) q fun r _ => Expected w (o₂ a) r) :
    wp (m >>= k) p fun r _ => Expected w (o₁ >>= o₂) r := by
  refine wp_bind hm ?_ ?_
  · rintro a q ⟨hI, hor, -⟩
    have ho : o₁ = .ok a := (hor.resolve_right id).symm
    rw [ho]
    exact hk a q ho hI
  · rintro e q ⟨-, hor, hinf⟩
    refine ⟨?_, fun h => ?_⟩
    · rcases hor with heq | herr
      · rw [← heq]
        exact Or.inl rfl
      · obtain ⟨e', he⟩ := Res.IsErr.exists_err herr
        cases he
        exact Or.inr trivial
    · rw [← hinf h]
      rfl

variable {n off start stop : Nat}

theorem onSlice_polite (hw : w.Polite) {i : Nat} (hn : i + n ≤ b.len) :
    wp (onSlice i n (w off)) (s, b) fun r q => q.2 = b ∧ Expected w (.ok ()) r := by
  obtain ⟨hret, hbuf⟩ := hw off (s, b.sub i n)
  refine ⟨?_, ?_, fun hinf => hinf off _⟩
  · show b.patch i (w off (s, b.sub i n)).2.2.bytes = b
    rw [hbuf]
    exact congrArg (Buf.mk b.addr) (splice_take_drop _ _ _ hn)
  · show (w off (s, b.sub i n)).1 = .ok () ∨ (w off (s, b.sub i n)).1.IsErr
    by_cases hok : (w off (s, b.sub i n)).1 = .ok ()
    · exact Or.inl hok
    · exact Or.inr (hret.isErr_of_not_ok fun _ => hok)

/-! ## The first pass -/

theorem passOne_polite (hw : w.Polite) (n : Nat) (c : Cursor) : wp (passOne w blkSz n c) (s, b) fun r q =>
      (∀ c', r = .ok c' → (walk blkSz n c b.bytes).2 = .ok (c', q.2.bytes)) ∧
        Expected w (Prod.fst <$> (walk blkSz n c b.bytes).2) r := by
  induction n generalizing c s b with
  | zero => exact wp_pure ⟨fun c' h => by cases h; rfl, .refl _ _⟩
  | succ n ih =>
    rw [passOne]
    apply wp_get_bind
    refine wp_lift_bind (fun hf hread => ?_) (fun e he => ?_)
    swap
    · simp only [walk, he]
      exact ⟨fun _ h => absurd h Res.error_ne_ok, .refl _ _⟩
    obtain ⟨header, fill⟩ := hf
    dsimp only at hread ⊢
    simp only [walk, hread]
    have hvisit : wp (Exec.when (header.chunkType = chunkTypeRaw)
        (onSlice (c.curr + ChunkHeader.codec.width) (header.chunkSz.toNat * blkSz.toNat) (w c.writeOffset)))
        (s, b) fun r q => q.2 = b ∧ Expected w (.ok ()) r :=
      wp_when (fun hraw => onSlice_polite hw (readChunk_raw hread hraw)) fun _ => ⟨rfl, .refl _ _⟩
    refine wp_bind hvisit ?_ ?_
    · rintro ⟨⟩ ⟨s', b'⟩ ⟨rfl, -⟩
      refine advance_wp (fun e b'' hadv _ _ => ?_) fun c' img' hadv _ => ?_
      · simp only [hadv]
        exact ⟨fun _ h => absurd h Res.error_ne_ok, .refl _ _⟩
      · simp only [hadv]
        exact ih c'
    · -- the write failed
      rintro e ⟨s', b'⟩ ⟨rfl, hor, hinf⟩
      obtain ⟨e', he⟩ := Res.IsErr.exists_err (hor.resolve_left Res.error_ne_ok)
      cases he
      exact ⟨fun _ h => absurd h Res.error_ne_ok, .inr trivial, fun h => absurd (hinf h) Res.error_ne_ok⟩

/-! ## The second pass -/

theorem writeFill_polite (hw : w.Polite) {fuel : Nat} (hn : start + n ≤ b.len) (hpos : off < stop → 0 < n)
    (hfuel : stop - off < fuel) :
    wp (writeFill w start n stop fuel off) (s, b) fun r q => q.2 = b ∧ Expected w (.ok ()) r := by
  induction fuel generalizing s off with
  | zero => omega
  | succ fuel ih =>
    rw [writeFill]
    refine wp_ite (fun hlt => ?_) fun _ => wp_pure ⟨rfl, .refl _ _⟩
    have hpos' := hpos hlt
    refine wp_bind (onSlice_polite hw (show start + min n (stop - off) ≤ b.len by omega)) ?_ ?_
    · rintro ⟨⟩ ⟨s', b'⟩ ⟨rfl, -⟩
      exact ih (fun _ => hpos') (by omega)
    · rintro e ⟨s', b'⟩ ⟨rfl, hexp⟩
      exact ⟨rfl, hexp⟩

theorem writeFill_polite_empty (hw : w.Polite) (fuel : Nat) (hn : start ≤ b.len) (hlt : off < stop) :
    wp (writeFill w start 0 stop fuel off) (s, b) fun r q => q.2 = b ∧ Expected w (.error .hang) r := by
  induction fuel generalizing s with
  | zero => exact wp_lift ⟨rfl, .refl _ _⟩
  | succ fuel ih =>
    rw [writeFill, if_pos hlt, Nat.zero_min]
    refine wp_bind (onSlice_polite hw (show start + 0 ≤ b.len by omega)) ?_ ?_
    · rintro ⟨⟩ ⟨s', b'⟩ ⟨rfl, -⟩
      exact ih
    · rintro e ⟨s', b'⟩ ⟨rfl, hor, hinf⟩
      exact ⟨rfl, .inr (hor.resolve_left Res.error_ne_ok), fun h => absurd (hinf h) Res.error_ne_ok⟩

def loopOutcome (n sz : Nat) : Result Unit := if n = 0 ∧ sz ≠ 0 then .error .hang else .ok ()

def fillOutcome (blkSz : UInt32) (room : Nat) : List FillInfo → FillBuffer → Nat → Result Unit
  | [], _, _ => .ok ()
  | f :: fs, fb, off =>
    match f.getBlocksAndValue with
    | (blks, none) => do
      let off ← u64Add off (blks.toNat * blkSz.toNat)
      fillOutcome blkSz room fs fb off
    | (blks, some v) =>
      match fb.next room v (blks.toNat * blkSz.toNat) with
      | none => panic
      | some (fb', n) => do
        let stop ← u64Add off (blks.toNat * blkSz.toNat)
        loopOutcome n (blks.toNat * blkSz.toNat)
        fillOutcome blkSz room fs fb' stop

theorem passTwo_polite (hw : w.Polite) (fs : List FillInfo) (hstart : start ≤ b.len) (fb : FillBuffer) (off : Nat) :
    wp (passTwo w blkSz start fs fb off) (s, b) fun r _ =>
      Expected w (fillOutcome blkSz (b.len - start) fs fb off) r := by
  induction fs generalizing s b fb off with
  | nil => exact wp_pure (.refl _ _)
  | cons f fs ih =>
    rw [passTwo, fillOutcome]
    rcases hf : f.getBlocksAndValue with ⟨blks, _ | v⟩
    · dsimp only
      refine wp_lift_ok_bind (u64Mul_toNat _ _) ?_
      rcases hoff : u64Add off (blks.toNat * blkSz.toNat) with e | off'
      · exact .refl _ _
      · exact wp_lift_ok_bind rfl (ih hstart fb off')
    · dsimp only
      refine wp_lift_ok_bind (u64Mul_toNat _ _) ?_
      generalize blks.toNat * blkSz.toNat = sz
      have hget := fb.get_run start v sz s b
      rcases hnext : fb.next (b.len - start) v sz with _ | ⟨fb', n⟩
      · rw [hnext] at hget
        exact wp_bind_of_run_error hget (.refl _ _)
      rw [hnext] at hget
      refine wp_bind_of_run_ok hget ?_
      have hlen := FillBuffer.filled_len hstart hnext
      obtain ⟨hn, -⟩ := FillBuffer.next_eq_some hnext
      generalize fb.filled start v fb' b = b₁ at hlen ⊢
      dsimp only
      rcases hstop : u64Add off sz with e | stop
      · exact .refl _ _
      obtain ⟨-, rfl⟩ := u64Add_eq_ok.mp hstop
      refine wp_lift_ok_bind rfl ?_
      rw [Res.ok_bind]
      have hloop : wp (writeFill w start n (off + sz) (sz + 1) off) (s, b₁) fun r q =>
          q.2 = b₁ ∧ Expected w (loopOutcome n sz) r := by
        unfold loopOutcome
        by_cases hempty : n = 0 ∧ sz ≠ 0
        · rw [if_pos hempty, hempty.1]
          exact writeFill_polite_empty hw _ (by omega) (by omega)
        · rw [if_neg hempty]
          exact writeFill_polite hw (by omega) (by omega) (by omega)
      refine wp_bind_expected _ hloop ?_
      rintro ⟨⟩ ⟨s', b'⟩ - hb
      obtain rfl : b' = b₁ := hb
      have hrest := ih (s := s') (b := b') (by omega) fb' (off + sz)
      rw [hlen] at hrest
      exact hrest

/-! ## The whole image -/

def imageOutcome (img : List UInt8) : Result Nat := do
  let header ← isSparseImage img
  let (c, img') ← (chunksOf header img).2
  fillOutcome header.blkSz (img'.length - c.fillOff) ((chunksOf header img).1.map Visit.fill) ⟨none, 0⟩ 0
  pure c.writeOffset

theorem writeSparseImage_polite (hw : w.Polite) :
    wp (writeSparseImage w) (s, b) fun r _ => Expected w (imageOutcome b.bytes) r := by
  unfold writeSparseImage imageOutcome
  apply wp_get_bind
  rcases hheader : isSparseImage b.bytes with e | header
  · exact .refl _ _
  refine wp_lift_ok_bind rfl ?_
  rw [Res.ok_bind]
  have hone : wp (passOne w header.blkSz header.totalChunks.toNat ⟨SparseHeader.codec.width, 0, 0⟩) (s, b)
      fun r q => (∀ c', r = .ok c' → (chunksOf header b.bytes).2 = .ok (c', q.2.bytes)) ∧
        Expected w (Prod.fst <$> (chunksOf header b.bytes).2) r := passOne_polite hw _ _
  rcases hout : (chunksOf header b.bytes).2 with e | ⟨c, img'⟩ <;> rw [hout] at hone
  · exact wp_bind_expected (fun _ => .ok 0) hone fun _ _ h => absurd h Res.error_ne_ok
  · refine wp_bind_expected (fun c => do
      fillOutcome header.blkSz (img'.length - c.fillOff) ((chunksOf header b.bytes).1.map Visit.fill) ⟨none, 0⟩ 0
      pure c.writeOffset) hone ?_
    rintro _ ⟨s₁, b₁⟩ hc hI
    cases hc
    obtain ⟨-, rfl⟩ := Prod.mk.inj (Except.ok.inj (hI c rfl))
    obtain ⟨-, hle, hrecs⟩ := walk_records [] rfl (Nat.zero_le _) rfl hout
    apply wp_get_bind
    apply wp_assert_bind (decide_eq_true hle)
    dsimp only
    rw [hrecs, List.nil_append]
    have htwo : wp (passTwo w header.blkSz c.fillOff ((chunksOf header b.bytes).1.map Visit.fill) ⟨none, 0⟩ 0)
        (s₁, b₁) fun r _ => True ∧ Expected w (fillOutcome header.blkSz (b₁.len - c.fillOff)
          ((chunksOf header b.bytes).1.map Visit.fill) ⟨none, 0⟩ 0) r :=
      wp_mono (passTwo_polite hw _ hle _ _) fun _ _ h => ⟨trivial, h⟩
    exact wp_bind_expected _ htwo fun _ _ _ _ => wp_pure (.refl _ _)

end Outcome

/-! ## Images that are not fatal -/

def InBounds (blkSz : UInt32) : Nat → Cursor → List UInt8 → Prop
  | 0, _, _ => True
  | n + 1, c, img => c.curr ≤ img.length ∧
      ∀ header fill, readChunk blkSz img c.curr = .ok (header, fill) →
        (c.writeOffset + header.chunkSz.toNat * blkSz.toNat < 2 ^ 64 →
          c.fillOff + FillInfo.codec.width ≤ img.length) ∧
        ∀ c' img', advance blkSz img c header fill = .ok (c', img') → InBounds blkSz n c' img'

def Fillable (blkSz : UInt32) (room : Nat) : List FillInfo → FillBuffer → Prop
  | [], _ => True
  | f :: fs, fb =>
    match f.getBlocksAndValue with
    | (_, none) => Fillable blkSz room fs fb
    | (blks, some v) =>
      let n := min (room - room % 4) (blks.toNat * blkSz.toNat)
      (n % 4 = 0 ∨ n ≤ (fb.forValue v).currSize) ∧ (blks.toNat * blkSz.toNat = 0 ∨ 4 ≤ room) ∧
        Fillable blkSz room fs ⟨some v, max (fb.forValue v).currSize n⟩

def SafeImage (img : List UInt8) : Prop :=
  ∀ header, isSparseImage img = .ok header →
    InBounds header.blkSz header.totalChunks.toNat ⟨SparseHeader.codec.width, 0, 0⟩ img ∧
      ∀ c img', (chunksOf header img).2 = .ok (c, img') →
        Fillable header.blkSz (img.length - c.fillOff) ((chunksOf header img).1.map Visit.fill) ⟨none, 0⟩

section Safety

variable {blkSz : UInt32}

theorem copyFrom_returns {α : Type} (c : Codec α) (bytes : List UInt8) : (copyFrom c bytes).Returns := by
  unfold copyFrom
  split <;> exact trivial

variable {img : List UInt8} {c : Cursor} {header : ChunkHeader} {fill : FillInfo} {n room : Nat}
  {fb : FillBuffer}

theorem readChunk_returns_iff (blkSz : UInt32) {curr : Nat} :
    (readChunk blkSz img curr).Returns ↔ curr ≤ img.length := by
  unfold readChunk
  by_cases hlt : img.length < curr
  · rw [if_pos hlt]
    exact iff_of_false id (by omega)
  · rw [if_neg hlt]
    refine iff_of_true ?_ (by omega)
    refine Res.returns_bind_iff.mpr ⟨copyFrom_returns _ _, fun header _ => ?_⟩
    rw [u64Mul_toNat, Res.ok_bind]
    split
    · split <;> exact trivial
    · split
      · split <;> exact trivial
      · split <;> exact trivial

theorem u64Add_returns (a b : Nat) : (u64Add a b).Returns := by
  unfold u64Add
  split <;> exact trivial

theorem advance_returns_iff : (advance blkSz img c header fill).Returns ↔
      (c.writeOffset + header.chunkSz.toNat * blkSz.toNat < 2 ^ 64 →
        c.fillOff + FillInfo.codec.width ≤ img.length) := by
  unfold advance
  rw [Res.returns_bind_iff]
  constructor
  · rintro ⟨-, h⟩ hlt
    have hrest := h _ (u64Add_eq_ok.mpr ⟨hlt, rfl⟩)
    by_contra hno
    rw [if_neg hno] at hrest
    exact hrest
  · intro h
    refine ⟨u64Add_returns _ _, fun wo hwo => ?_⟩
    rw [if_pos (h (u64Add_eq_ok.mp hwo).1)]
    exact Res.returns_bind_iff.mpr ⟨u64Add_returns _ _, fun _ _ =>
      Res.returns_bind_iff.mpr ⟨u64Add_returns _ _, fun _ _ => trivial⟩⟩

theorem walk_returns_iff : (walk blkSz n c img).2.Returns ↔ InBounds blkSz n c img := by
  induction n generalizing c img with
  | zero => exact iff_of_true trivial trivial
  | succ n ih =>
    rw [walk, InBounds, ← readChunk_returns_iff blkSz]
    rcases hread : readChunk blkSz img c.curr with e | ⟨header, fill⟩
    · dsimp only
      exact ⟨fun h => ⟨Res.returns_error_iff.mp h, by rintro _ _ ⟨⟩⟩, fun h => Res.returns_error_iff.mp h.1⟩
    dsimp only
    rcases hadv : advance blkSz img c header fill with e | ⟨c', img'⟩
    · constructor
      · intro h
        refine ⟨trivial, ?_⟩
        rintro _ _ ⟨⟩
        refine ⟨advance_returns_iff.mp (by rw [hadv]; exact h), fun c' img' h' => ?_⟩
        rw [hadv] at h'
        cases h'
      · rintro ⟨-, h⟩
        have hret : (advance blkSz img c header fill).Returns := advance_returns_iff.mpr (h header fill rfl).1
        rwa [hadv] at hret
    · dsimp only
      rw [ih]
      constructor
      · intro h
        refine ⟨trivial, ?_⟩
        rintro _ _ ⟨⟩
        refine ⟨advance_returns_iff.mp (by rw [hadv]; exact trivial), fun c'' img'' h' => ?_⟩
        rw [hadv] at h'
        cases h'
        exact h
      · rintro ⟨-, h⟩
        exact (h header fill rfl).2 c' img' hadv

theorem FillBuffer.next_eq {sz : Nat} {v : UInt32} (h4 : (fb.forValue v).currSize % 4 = 0)
    (hle : (fb.forValue v).currSize ≤ room) :
    fb.next room v sz =
      if min (room - room % 4) sz % 4 = 0 ∨ min (room - room % 4) sz ≤ (fb.forValue v).currSize then
        some (⟨some v, max (fb.forValue v).currSize (min (room - room % 4) sz)⟩, min (room - room % 4) sz)
      else none := by
  unfold FillBuffer.next
  dsimp only
  rw [currVal_forValue]
  generalize (fb.forValue v).currSize = cs at h4 hle ⊢
  generalize hn : min (room - room % 4) sz = n
  have hroom : n ≤ room := by omega
  by_cases hcond : n % 4 = 0 ∨ n ≤ cs
  · rw [if_pos hcond, if_pos ⟨by omega, by omega⟩, show cs + (max cs n - cs) = max cs n by omega]
  · rw [if_neg hcond, if_neg (by omega)]

theorem fillOutcome_returns_iff {fs : List FillInfo} {off : Nat} (h4 : fb.currSize % 4 = 0)
    (hle : fb.currSize ≤ room) (hsum : off + totalBlocks fs * blkSz.toNat < 2 ^ 64) :
    (fillOutcome blkSz room fs fb off).Returns ↔ Fillable blkSz room fs fb := by
  induction fs generalizing fb off with
  | nil => exact iff_of_true trivial trivial
  | cons f fs ih =>
    have htotal : totalBlocks (f :: fs) = f.getBlocksAndValue.1.toNat + totalBlocks fs := rfl
    rw [htotal, Nat.add_mul] at hsum
    rw [fillOutcome, Fillable]
    rcases hf : f.getBlocksAndValue with ⟨blks, _ | v⟩ <;> rw [hf] at hsum <;> dsimp only at hsum ⊢
    · rw [u64Add, if_pos (by omega), Res.ok_bind]
      exact ih h4 hle (by omega)
    · have hfv : (fb.forValue v).currSize % 4 = 0 ∧ (fb.forValue v).currSize ≤ room := by
        unfold FillBuffer.forValue
        split
        · exact ⟨rfl, Nat.zero_le _⟩
        · exact ⟨h4, hle⟩
      rw [FillBuffer.next_eq hfv.1 hfv.2]
      generalize (fb.forValue v).currSize = cs at hfv ⊢
      generalize blks.toNat * blkSz.toNat = sz at hsum ⊢
      obtain ⟨n, hn⟩ : ∃ n, n = min (room - room % 4) sz := ⟨_, rfl⟩
      rw [← hn]
      by_cases hcond : n % 4 = 0 ∨ n ≤ cs
      · rw [if_pos hcond]
        dsimp only
        rw [u64Add, if_pos (by omega), Res.ok_bind, Res.returns_bind_iff]
        have hrest : (fillOutcome blkSz room fs ⟨some v, max cs n⟩ (off + sz)).Returns ↔
            Fillable blkSz room fs ⟨some v, max cs n⟩ := ih (by dsimp only; omega) (by dsimp only; omega) (by omega)
        by_cases hword : sz = 0 ∨ 4 ≤ room
        · have hloop : loopOutcome n sz = .ok () := if_neg (by omega)
          rw [hloop, hrest]
          exact ⟨fun h => ⟨hcond, hword, h.2 () rfl⟩, fun h => ⟨trivial, fun _ _ => h.2.2⟩⟩
        · have hloop : loopOutcome n sz = .error .hang := if_pos (by omega)
          rw [hloop]
          exact iff_of_false (fun h => h.1) fun h => hword h.2.1
      · rw [if_neg hcond]
        exact iff_of_false id fun h => hcond h.1

theorem Accepted.blocks {payload : Nat} (h : Accepted blkSz img payload header fill) :
    fill.getBlocksAndValue.1 = header.chunkSz := by
  cases h with
  | raw => rfl
  | fill type pos inside => rw [FillInfo.getBlocksAndValue, FillInfo.newFill, if_neg pos]
  | skip => rfl

theorem walk_writeOffset {c' : Cursor} {img' : List UInt8} (hlt : c.writeOffset < 2 ^ 64)
    (h : (walk blkSz n c img).2 = .ok (c', img')) :
    c.writeOffset + totalBlocks ((walk blkSz n c img).1.map Visit.fill) * blkSz.toNat < 2 ^ 64 := by
  induction n generalizing c img with
  | zero => simpa [walk, totalBlocks] using hlt
  | succ n ih =>
    rw [walk] at h ⊢
    rcases hread : readChunk blkSz img c.curr with e | ⟨header, fill⟩ <;> rw [hread] at h
    · cases h
    dsimp only at h ⊢
    rcases hadv : advance blkSz img c header fill with e | ⟨c₁, img₁⟩ <;> rw [hadv] at h
    · cases h
    obtain ⟨hwo, -, -, -, hc₁, -⟩ := advance_eq_ok.mp hadv
    have hblocks := (readChunk_eq_ok.mp hread).2.2.blocks
    have hrest := ih (by rw [hc₁]; exact hwo) h
    have hoff : c₁.writeOffset = c.writeOffset + header.chunkSz.toNat * blkSz.toNat := by rw [hc₁]
    rw [hoff] at hrest
    have htotal : totalBlocks ((Visit.at_ blkSz img c header fill :: (walk blkSz n c₁ img₁).1).map Visit.fill) =
        header.chunkSz.toNat + totalBlocks ((walk blkSz n c₁ img₁).1.map Visit.fill) := by
      rw [← hblocks]
      rfl
    dsimp only
    rw [htotal, Nat.add_mul]
    omega

theorem isSparseImage_returns (img : List UInt8) : (isSparseImage img).Returns := by
  refine Res.returns_bind_iff.mpr ⟨copyFrom_returns _ _, fun header _ => ?_⟩
  split
  · exact trivial
  · split
    · exact trivial
    · split <;> exact trivial

theorem imageOutcome_returns_iff (img : List UInt8) : (imageOutcome img).Returns ↔ SafeImage img := by
  unfold imageOutcome SafeImage
  rw [Res.returns_bind_iff, and_iff_right (isSparseImage_returns img)]
  refine forall_congr' fun header => imp_congr_right fun _ => ?_
  rw [Res.returns_bind_iff]
  refine and_congr walk_returns_iff ?_
  have hfills : ∀ c img', (chunksOf header img).2 = .ok (c, img') →
      ((fillOutcome header.blkSz (img'.length - c.fillOff) ((chunksOf header img).1.map Visit.fill) ⟨none, 0⟩ 0 >>=
        fun _ => pure c.writeOffset : Result Nat).Returns ↔
        Fillable header.blkSz (img.length - c.fillOff) ((chunksOf header img).1.map Visit.fill) ⟨none, 0⟩) := by
    intro c img' hout
    obtain ⟨hlen, -, -⟩ := walk_records [] rfl (Nat.zero_le _) rfl hout
    have hsum : 0 + totalBlocks ((chunksOf header img).1.map Visit.fill) * header.blkSz.toNat < 2 ^ 64 :=
      walk_writeOffset (by decide) hout
    have hiff := fillOutcome_returns_iff (show (⟨none, 0⟩ : FillBuffer).currSize % 4 = 0 from rfl)
      (Nat.zero_le (img.length - c.fillOff)) hsum
    rw [hlen, Res.returns_bind_iff, hiff]
    exact ⟨fun h => h.1, fun h => ⟨h, fun _ _ => trivial⟩⟩
  constructor
  · intro h c img' hout
    exact (hfills c img' hout).mp (h (c, img') hout)
  · rintro h ⟨c, img'⟩ hout
    exact (hfills c img' hout).mpr (h c img' hout)

def WritesOrRefuses (img : Buf) : Prop :=
  ∀ (σ : Type) (w : Writer σ), w.Polite → ∀ s, (writeSparseImage w (s, img)).1.Returns

theorem contentWriter_polite : contentWriter.Polite := fun _ _ => ⟨trivial, rfl⟩

/-- **When a sparse image is not fatal.** -/
theorem writeSparseImage_returns_iff (img : Buf) : WritesOrRefuses img ↔ SafeImage img.bytes := by
  rw [← imageOutcome_returns_iff]
  constructor
  · intro h
    have hret := h Content contentWriter contentWriter_polite fun _ => 0
    have hexp := writeSparseImage_polite (s := fun _ => 0) (b := img) contentWriter_polite
    have heq := hexp.2 contentWriter_stores.infallible
    rwa [heq] at hret
  · intro h σ w hw s
    have hexp := writeSparseImage_polite (s := s) (b := img) hw
    rcases hexp.1 with heq | herr
    · rw [heq]
      exact h
    · exact herr.returns

def straying : List UInt8 :=
  imageOf 4 2 [(⟨chunkTypeDontCare, 0, 1, 1000⟩, []), (⟨chunkTypeDontCare, 0, 1, 12⟩, [])]

def uneven : List UInt8 := imageOf 6 1 [(⟨chunkTypeFill, 0, 1, 16⟩, [1, 2, 3, 4])]

def crowded : List UInt8 :=
  SparseHeader.codec.enc ⟨headerMagic, 1, 0, 28, 12, 4, 1, 7, 0⟩ ++
    ChunkHeader.codec.enc ⟨chunkTypeFill, 0, 1, 16⟩ ++ [1, 2, 3, 4] ++
    ChunkHeader.codec.enc ⟨chunkTypeDontCare, 0, 0xCAC3, 0⟩

/-- The three ways in which a malformed image is fatal: an index behind the end, a piece of a word, and a
loop that never ends. -/
theorem writeSparseImage_fatal :
    (writeSparseImage contentWriter (fun _ => 0, ⟨0, straying⟩)).1 = panic ∧
      (writeSparseImage contentWriter (fun _ => 0, ⟨0, uneven⟩)).1 = panic ∧
      (writeSparseImage contentWriter (fun _ => 0, ⟨0, crowded⟩)).1 = .error .hang ∧
      ¬ WritesOrRefuses ⟨0, straying⟩ ∧ ¬ WritesOrRefuses ⟨0, uneven⟩ ∧ ¬ WritesOrRefuses ⟨0, crowded⟩ := by
  have hstraying : (writeSparseImage contentWriter (fun _ => 0, ⟨0, straying⟩)).1 = panic := by decide +kernel
  have huneven : (writeSparseImage contentWriter (fun _ => 0, ⟨0, uneven⟩)).1 = panic := by decide +kernel
  have hcrowded : (writeSparseImage contentWriter (fun _ => 0, ⟨0, crowded⟩)).1 = .error .hang := by
    decide +kernel
  have hno : ∀ img : Buf, ¬ (writeSparseImage contentWriter (fun _ => 0, img)).1.Returns → ¬ WritesOrRefuses img :=
    fun img h hall => h (hall Content contentWriter contentWriter_polite fun _ => 0)
  refine ⟨hstraying, huneven, hcrowded, hno _ ?_, hno _ ?_, hno _ ?_⟩
  · rw [hstraying]
    exact id
  · rw [huneven]
    exact id
  · rw [hcrowded]
    exact id

end Safety

end Gbl.Partitions.Sparse
