import Gbl.Partitions.SparseWalk

/-!
# The second pass

The fill buffer is prepared once for a value and then reused, also for chunks of other lengths: what `FillBuffer.get`
hands out is a prefix of what has been filled with that value (`FillBuffer.Holds`).
-/

namespace Gbl.Partitions.Sparse

open Lib Lib.Exec Storage

/-! ## Repeated words -/

theorem length_words (val : UInt32) (n : Nat) : (words val n).length = 4 * n := by
  induction n with
  | zero => rfl
  | succ n ih =>
    unfold words at ih ⊢
    rw [List.replicate_succ, List.flatten_cons, List.length_append, ih, Codec.u32.length_enc]
    exact (Nat.add_comm _ _).trans (Nat.mul_succ 4 n).symm

theorem words_add (v : UInt32) (m n : Nat) : words v (m + n) = words v m ++ words v n := by
  unfold words
  rw [← List.replicate_append_replicate, List.flatten_append]

theorem take_words (v : UInt32) {m n : Nat} (h : m ≤ n) : (words v n).take (4 * m) = words v m := by
  obtain ⟨k, rfl⟩ := Nat.exists_eq_add_of_le h
  rw [words_add]
  exact List.take_left' (length_words v m)

theorem take_words_whole (v : UInt32) {m n : Nat} (h : m ≤ 4 * n) (h4 : m % 4 = 0) :
    (words v n).take m = words v (m / 4) := by
  have hsplit : m = 4 * (m / 4) := by omega
  calc (words v n).take m = (words v n).take (4 * (m / 4)) := by rw [← hsplit]
    _ = words v (m / 4) := take_words v (by omega)

section Fill

variable {σ : Type} {w : Writer σ} {Good : σ → Prop} {Mem : Buf → Prop} {content : σ → Content} {base : Nat}
  {blkSz : UInt32} {s : σ} {b : Buf}

/-! ## The fill buffer -/

def FillBuffer.forValue (val : UInt32) (fb : FillBuffer) : FillBuffer :=
  if some val ≠ fb.currVal then ⟨some val, 0⟩ else fb

def FillBuffer.next (room : Nat) (val : UInt32) (size : Nat) (fb : FillBuffer) : Option (FillBuffer × Nat) :=
  let n := min (room - room % 4) size
  let fb := fb.forValue val
  let gap := max fb.currSize n - fb.currSize
  if fb.currSize + gap ≤ room ∧ gap % 4 = 0 then some (⟨fb.currVal, fb.currSize + gap⟩, n) else none

structure FillBuffer.Holds (start : Nat) (b : Buf) (fb : FillBuffer) : Prop where
  whole : fb.currSize % 4 = 0
  inside : start + fb.currSize ≤ b.len
  filled : ∀ v, fb.currVal = some v → (b.bytes.drop start).take fb.currSize = words v (fb.currSize / 4)

theorem FillBuffer.currVal_forValue (val : UInt32) (fb : FillBuffer) : (fb.forValue val).currVal = some val := by
  unfold forValue
  split
  · rfl
  · next h => exact (not_not.mp h).symm

variable {start : Nat} {fb : FillBuffer} {n : Nat} {v : UInt32} {size fuel len stop off : Nat}

theorem FillBuffer.Holds.forValue (h : fb.Holds start b) (val : UInt32) : (fb.forValue val).Holds start b := by
  unfold FillBuffer.forValue
  split
  · have hin := h.inside
    exact ⟨rfl, by dsimp only; omega, fun _ _ => by simp [words]⟩
  · exact h

theorem FillBuffer.Holds.take (h : fb.Holds start b) (hv : fb.currVal = some v) (hn : n ≤ fb.currSize)
    (h4 : n % 4 = 0) : (b.bytes.drop start).take n = words v (n / 4) := by
  have hwhole := h.whole
  have hfill := congrArg (List.take n) (h.filled v hv)
  rw [List.take_take, Nat.min_eq_left hn] at hfill
  rw [hfill]
  exact take_words_whole v (by omega) h4

def FillBuffer.filled (start : Nat) (v : UInt32) (fb fb' : FillBuffer) (b : Buf) : Buf :=
  b.patch (start + (fb.forValue v).currSize) (words v ((fb'.currSize - (fb.forValue v).currSize) / 4))

theorem FillBuffer.get_run (start : Nat) (v : UInt32) (size : Nat) (fb : FillBuffer) (s : σ) (b : Buf) :
    fb.get start v size (s, b) = match fb.next (b.len - start) v size with
      | none => (panic, (s, b))
      | some (fb', n) => (.ok (fb', n), (s, fb.filled start v fb' b)) := by
  have hfv : (if some v ≠ fb.currVal then ⟨some v, 0⟩ else fb) = fb.forValue v := rfl
  unfold FillBuffer.get FillBuffer.next FillBuffer.filled
  refine (bind_run_ok (Exec.get_run _)).trans ?_
  dsimp only
  rw [hfv]
  generalize fb.forValue v = fb₁
  generalize max fb₁.currSize (min (b.len - start - (b.len - start) % 4) size) - fb₁.currSize = gap
  by_cases hroom : fb₁.currSize + gap ≤ b.len - start
  swap
  · rw [if_neg fun h => hroom h.1]
    exact assert_bind_run_false (decide_eq_false hroom)
  refine (assert_bind_run_true (decide_eq_true hroom)).trans ?_
  by_cases hwhole : gap % 4 = 0
  swap
  · rw [if_neg fun h => hwhole h.2]
    exact assert_bind_run_false (decide_eq_false hwhole)
  refine (assert_bind_run_true (decide_eq_true hwhole)).trans ?_
  rw [if_pos ⟨hroom, hwhole⟩]
  dsimp only
  rw [Nat.add_sub_cancel_left]
  rfl

theorem FillBuffer.next_eq_some {room : Nat} {fb' : FillBuffer} (h : fb.next room v size = some (fb', n)) :
    n = min (room - room % 4) size ∧ fb'.currVal = some v ∧ fb'.currSize = max (fb.forValue v).currSize n ∧
      fb'.currSize ≤ room ∧ (fb'.currSize - (fb.forValue v).currSize) % 4 = 0 := by
  unfold next at h
  dsimp only at h
  split at h
  · next hcond =>
    obtain ⟨rfl, rfl⟩ := Prod.mk.inj (Option.some.inj h)
    refine ⟨rfl, currVal_forValue v fb, ?_, hcond.1, ?_⟩
    · dsimp only
      omega
    · dsimp only
      rw [Nat.add_sub_cancel_left]
      exact hcond.2
  · cases h

section Next

variable {start size n : Nat} {v : UInt32} {fb fb' : FillBuffer}

theorem FillBuffer.filled_len (hstart : start ≤ b.len) (h : fb.next (b.len - start) v size = some (fb', n)) :
    (fb.filled start v fb' b).len = b.len := by
  obtain ⟨-, -, hsize, hroom, hwhole⟩ := next_eq_some h
  refine Buf.patch_len b ?_
  rw [length_words]
  omega

theorem FillBuffer.Holds.next (h : fb.Holds start b) (hnext : fb.next (b.len - start) v size = some (fb', n)) :
    fb'.Holds start (fb.filled start v fb' b) := by
  obtain ⟨-, hval, hsize, hroom, hgap⟩ := FillBuffer.next_eq_some hnext
  have hholds := h.forValue v
  have hwhole := hholds.whole
  have hinside := hholds.inside
  have hlen : (words v ((fb'.currSize - (fb.forValue v).currSize) / 4)).length =
      fb'.currSize - (fb.forValue v).currSize := by
    rw [length_words]
    omega
  refine ⟨by omega, ?_, fun v' hv' => ?_⟩
  · rw [FillBuffer.filled_len (by omega) hnext]
    omega
  · obtain rfl : v = v' := Option.some.inj (hval.symm.trans hv')
    have hcurr : fb'.currSize = (fb.forValue v).currSize +
        (words v ((fb'.currSize - (fb.forValue v).currSize) / 4)).length := by omega
    have htake : ((fb.filled start v fb' b).bytes.drop start).take fb'.currSize =
        (b.bytes.drop start).take (fb.forValue v).currSize ++
          words v ((fb'.currSize - (fb.forValue v).currSize) / 4) := by
      unfold FillBuffer.filled Buf.patch
      rw [drop_splice _ _ _ hinside]
      nth_rewrite 1 [hcurr]
      exact take_splice_end (by rw [List.length_drop]; unfold Buf.len at hinside; omega)
    rw [htake, hholds.filled v (FillBuffer.currVal_forValue v fb), ← words_add]
    congr 1
    omega

end Next

theorem FillBuffer.next_whole (v : UInt32) (h : fb.Holds start b) (hsize : size % 4 = 0) :
    ∃ fb' n, fb.next (b.len - start) v size = some (fb', n) ∧ fb'.currVal = some v ∧ n ≤ fb'.currSize ∧
      n = min (b.len - start - (b.len - start) % 4) size := by
  have hwhole := (h.forValue v).whole
  have hinside := (h.forValue v).inside
  refine ⟨_, _, if_pos ⟨by omega, by omega⟩, FillBuffer.currVal_forValue v fb, ?_, rfl⟩
  dsimp only
  omega

/-! ## The loop -/

def cycled (piece : List UInt8) (fuel len : Nat) : List UInt8 := (List.replicate fuel piece).flatten.take len

theorem cycled_succ (piece : List UInt8) (fuel len : Nat) :
    cycled piece (fuel + 1) len = piece.take len ++ cycled piece fuel (len - piece.length) := by
  unfold cycled
  rw [List.replicate_succ, List.flatten_cons, List.take_append]

theorem length_cycled {piece : List UInt8} (hpos : 0 < len → 0 < piece.length) (hfuel : len < fuel) :
    (cycled piece fuel len).length = len := by
  induction fuel generalizing len with
  | zero => omega
  | succ fuel ih =>
    rw [cycled_succ, List.length_append, List.length_take]
    by_cases hlen : len ≤ piece.length
    · rw [Nat.sub_eq_zero_of_le hlen]
      simp [cycled, hlen]
    · rw [ih (fun _ => hpos (by omega)) (by omega)]
      omega

theorem flatten_replicate_words (v : UInt32) (fuel k : Nat) :
    (List.replicate fuel (words v k)).flatten = words v (fuel * k) := by
  induction fuel with
  | zero => simp [words]
  | succ fuel ih => rw [List.replicate_succ, List.flatten_cons, ih, ← words_add, Nat.succ_mul, Nat.add_comm]

theorem cycled_words (v : UInt32) {k : Nat} (h4 : len % 4 = 0) (hpos : 0 < len → 0 < k) (hfuel : len < fuel) :
    cycled (words v k) fuel len = words v (len / 4) := by
  unfold cycled
  rw [flatten_replicate_words]
  refine take_words_whole v ?_ h4
  by_cases hlen : len = 0
  · omega
  · have := hpos (by omega)
    calc len ≤ fuel := hfuel.le
      _ ≤ fuel * k := Nat.le_mul_of_pos_right _ this
      _ ≤ 4 * (fuel * k) := by omega

theorem writeFill_touched (hw : w.Spec Good Mem content base) (hs : Good s) (hb : Mem b) (hn : start + n ≤ b.len) :
    wp (writeFill w start n stop fuel off) (s, b) fun r p =>
      Good p.1 ∧ p.2 = b ∧ (r = .ok () → off < stop → 0 < n) ∧
        ∀ i, content p.1 i ≠ content s i → 0 < n ∧ base + off ≤ i ∧ i < base + stop := by
  induction fuel generalizing s off with
  | zero => exact wp_lift ⟨hs, rfl, fun h => absurd h Res.error_ne_ok, fun _ h => absurd rfl h⟩
  | succ fuel ih =>
    rw [writeFill]
    refine wp_ite (fun hlt => ?_) fun hge => wp_pure ⟨hs, rfl, fun _ h => absurd h hge, fun _ h => absurd rfl h⟩
    have hslice : start + min n (stop - off) ≤ b.len := by omega
    have hlen : (b.sub start (min n (stop - off))).bytes.length = min n (stop - off) := Buf.sub_len b hslice
    have hpiece : ∀ s₁, Torn (content s) (base + off) (b.sub start (min n (stop - off))).bytes (content s₁) →
        ∀ i, content s₁ i ≠ content s i → 0 < n ∧ base + off ≤ i ∧ i < base + stop := by
      intro s₁ htorn i hi
      have hin := not_imp_comm.mp htorn.eq_of_not_mem hi
      omega
    refine wp_bind (onSlice_wp hw hs hb hslice) ?_ ?_
    · rintro _ ⟨s₁, b₁⟩ ⟨hgood, rfl, htorn, -, -⟩
      refine wp_mono (ih hgood) ?_
      rintro r p ⟨hgood', hbuf, hr, hrest⟩
      refine ⟨hgood', hbuf, fun hok _ => ?_, fun i hi => ?_⟩
      · by_contra hzero
        have := hr hok
        omega
      · by_cases hmid : content s₁ i = content s i
        · have := hrest i (by rwa [hmid])
          omega
        · exact hpiece s₁ htorn i hmid
    · rintro e ⟨s₁, b₁⟩ ⟨hgood, rfl, htorn, -, -⟩
      exact ⟨hgood, rfl, fun h => absurd h Res.error_ne_ok, hpiece s₁ htorn⟩

theorem writeFill_stored (hw : w.Spec Good Mem content base) (hinf : w.Infallible) (hs : Good s) (hb : Mem b)
    (hn : start + n ≤ b.len) (hpos : off < stop → 0 < n) (hfuel : stop - off < fuel) :
    wp (writeFill w start n stop fuel off) (s, b) fun r p => r = .ok () ∧ Good p.1 ∧ p.2 = b ∧
      content p.1 = store (content s) (base + off) (cycled ((b.bytes.drop start).take n) fuel (stop - off)) := by
  induction fuel generalizing s off with
  | zero => omega
  | succ fuel ih =>
    rw [writeFill]
    refine wp_ite (fun hlt => ?_) fun hge => ?_
    swap
    · rw [Nat.sub_eq_zero_of_le (Nat.le_of_not_lt hge)]
      exact wp_pure ⟨rfl, hs, rfl, (store_nil _ _).symm⟩
    have hpos' := hpos hlt
    have hpiece : ((b.bytes.drop start).take n).length = n := Buf.sub_len b hn
    generalize hm : min n (stop - off) = m
    have hslice : start + m ≤ b.len := by omega
    have hsub : (b.sub start m).bytes = ((b.bytes.drop start).take n).take (stop - off) := by
      rw [List.take_take, Nat.min_comm, hm]
      rfl
    have hlen : (b.sub start m).bytes.length = m := Buf.sub_len b hslice
    refine wp_bind (onSlice_wp hw hs hb hslice) ?_ ?_
    swap
    · rintro e ⟨s₁, b₁⟩ ⟨-, -, -, -, hok⟩
      exact absurd (hok hinf) Res.error_ne_ok
    rintro _ ⟨s₁, b₁⟩ ⟨hgood, rfl, -, hstored, -⟩
    have hcontent := hstored rfl
    refine wp_mono (ih hgood (fun _ => hpos') (by omega)) ?_
    rintro r p ⟨hr, hgood', hbuf, hcontent'⟩
    refine ⟨hr, hgood', hbuf, hcontent'.trans ?_⟩
    have hrest : stop - off - n = stop - (off + m) := by omega
    rw [hcontent, cycled_succ, hpiece, ← hsub, store_append, hlen, hrest, Nat.add_assoc]

/-! ## The pass -/

def reached (blkSz : UInt32) (room : Nat) : List FillInfo → FillBuffer → Nat → List (Nat × Nat)
  | [], _, _ => []
  | f :: fs, fb, off =>
    match f.getBlocksAndValue with
    | (blks, none) =>
      if off + blks.toNat * blkSz.toNat < 2 ^ 64 then reached blkSz room fs fb (off + blks.toNat * blkSz.toNat)
      else []
    | (blks, some v) =>
      match fb.next room v (blks.toNat * blkSz.toNat) with
      -- not a whole number of words
      | none => []
      | some (fb', n) =>
        -- without a word of buffer the code hangs
        if off + blks.toNat * blkSz.toNat < 2 ^ 64 ∧ (n = 0 → blks.toNat * blkSz.toNat = 0) then
          (off, blks.toNat * blkSz.toNat) :: reached blkSz room fs fb' (off + blks.toNat * blkSz.toNat)
        else []

theorem passTwo_touched (hw : w.Spec Good Mem content base) (fs : List FillInfo) (hs : Good s) (hb : Mem b)
    (hstart : start ≤ b.len) (fb : FillBuffer) (off : Nat) :
    wp (passTwo w blkSz start fs fb off) (s, b) fun _ p =>
      Good p.1 ∧ Touched base (reached blkSz (b.len - start) fs fb off) (content s) (content p.1) := by
  induction fs generalizing s b fb off with
  | nil => exact wp_pure ⟨hs, .refl _ _ _⟩
  | cons f fs ih =>
    rw [passTwo, reached]
    rcases hf : f.getBlocksAndValue with ⟨blks, _ | v⟩
    · dsimp only
      refine wp_lift_ok_bind (u64Mul_toNat _ _) ?_
      refine wp_lift_bind (fun off' hoff => ?_) fun e _ => ⟨hs, .refl _ _ _⟩
      obtain ⟨hlt, rfl⟩ := u64Add_eq_ok.mp hoff
      rw [if_pos hlt]
      exact ih hs hb hstart fb _
    · dsimp only
      refine wp_lift_ok_bind (u64Mul_toNat _ _) ?_
      generalize blks.toNat * blkSz.toNat = sz
      have hget := fb.get_run start v sz s b
      rcases hnext : fb.next (b.len - start) v sz with _ | ⟨fb', n⟩
      · rw [hnext] at hget
        exact wp_bind_of_run_error hget ⟨hs, .refl _ _ _⟩
      rw [hnext] at hget
      refine wp_bind_of_run_ok hget ?_
      dsimp only
      refine wp_lift_bind (fun stop hstop => ?_) fun e _ => ⟨hs, .refl _ _ _⟩
      obtain ⟨hlt, rfl⟩ := u64Add_eq_ok.mp hstop
      obtain ⟨hn, -⟩ := FillBuffer.next_eq_some hnext
      have hlen := FillBuffer.filled_len hstart hnext
      have hmem : Mem (fb.filled start v fb' b) := hw.congr b _ hb rfl hlen
      generalize fb.filled start v fb' b = b₁ at hlen hmem ⊢
      refine wp_bind (writeFill_touched hw hs hmem (by omega)) ?_ ?_
      · rintro _ ⟨s₂, b₂⟩ ⟨hgood, hbuf, hok, hchanged⟩
        obtain rfl : b₂ = b₁ := hbuf
        have hpos := hok rfl
        rw [if_pos ⟨hlt, fun _ => by omega⟩]
        have hfirst : Touched base [(off, sz)] (content s) (content s₂) := fun i hi =>
          ⟨_, List.mem_cons_self .., (hchanged i hi).2.1, by have := (hchanged i hi).2.2; dsimp only; omega⟩
        refine wp_mono (ih hgood hmem (hlen ▸ hstart) fb' _) ?_
        rintro r p ⟨hgood', htouched'⟩
        rw [hlen] at htouched'
        exact ⟨hgood', hfirst.trans htouched'⟩
      · rintro e ⟨s₂, b₂⟩ ⟨hgood, -, -, hchanged⟩
        refine ⟨hgood, fun i hi => ?_⟩
        have hin := hchanged i hi
        rw [if_pos ⟨hlt, fun _ => by omega⟩]
        exact ⟨_, List.mem_cons_self .., hin.2.1, by dsimp only; omega⟩

theorem passTwo_stored (blkSz : UInt32) (hw : w.Spec Good Mem content base) (hinf : w.Infallible)
    (fs : List FillInfo) (hb : Mem b) (hstart : start ≤ b.len) (fb : FillBuffer) (off : Nat) :
    ∃ rs : List (Nat × List UInt8), rs.map (fun r => (r.1, r.2.length)) = reached blkSz (b.len - start) fs fb off ∧
      ∀ s, Good s → wp (passTwo w blkSz start fs fb off) (s, b) fun _ p =>
        content p.1 = storeAll base rs (content s) := by
  induction fs generalizing b fb off with
  | nil => exact ⟨[], rfl, fun s _ => wp_pure rfl⟩
  | cons f fs ih =>
    simp only [passTwo, reached]
    rcases hf : f.getBlocksAndValue with ⟨blks, _ | v⟩
    · dsimp only
      by_cases hlt : off + blks.toNat * blkSz.toNat < 2 ^ 64
      · rw [if_pos hlt]
        obtain ⟨rs, hrs, hrun⟩ := ih hb hstart fb (off + blks.toNat * blkSz.toNat)
        refine ⟨rs, hrs, fun s hs => ?_⟩
        refine wp_lift_ok_bind (u64Mul_toNat _ _) ?_
        exact wp_lift_ok_bind (u64Add_eq_ok.mpr ⟨hlt, rfl⟩) (hrun s hs)
      · rw [if_neg hlt]
        refine ⟨[], rfl, fun s _ => wp_lift_ok_bind (u64Mul_toNat _ _) ?_⟩
        exact wp_lift_bind (fun _ h => absurd (u64Add_eq_ok.mp h).1 hlt) fun _ _ => rfl
    · dsimp only
      simp only [u64Mul_toNat]
      generalize blks.toNat * blkSz.toNat = sz
      have hget := fun s : σ => fb.get_run start v sz s b
      rcases hnext : fb.next (b.len - start) v sz with _ | ⟨fb', n⟩
      · rw [hnext] at hget
        refine ⟨[], rfl, fun s _ => wp_lift_ok_bind rfl ?_⟩
        exact wp_bind_of_run_error (hget s) rfl
      rw [hnext] at hget
      obtain ⟨hn, -⟩ := FillBuffer.next_eq_some hnext
      have hlen := FillBuffer.filled_len hstart hnext
      have hmem : Mem (fb.filled start v fb' b) := hw.congr b _ hb rfl hlen
      dsimp only at hget ⊢
      generalize fb.filled start v fb' b = b₁ at hget hlen hmem
      by_cases hlt : off + sz < 2 ^ 64
      swap
      · rw [if_neg fun h => hlt h.1]
        refine ⟨[], rfl, fun s _ => wp_lift_ok_bind rfl (wp_bind_of_run_ok (hget s) ?_)⟩
        exact wp_lift_bind (fun _ h => absurd (u64Add_eq_ok.mp h).1 hlt) fun _ _ => rfl
      have hstop : u64Add off sz = .ok (off + sz) := u64Add_eq_ok.mpr ⟨hlt, rfl⟩
      by_cases hpos : n = 0 → sz = 0
      · rw [if_pos ⟨hlt, hpos⟩]
        obtain ⟨rs, hrs, hrun⟩ := ih hmem (hlen ▸ hstart) fb' (off + sz)
        rw [hlen] at hrs
        have hcycled : (cycled ((b₁.bytes.drop start).take n) (sz + 1) (off + sz - off)).length = sz := by
          have hpiece : ((b₁.bytes.drop start).take n).length = n := Buf.sub_len b₁ (by omega)
          rw [length_cycled (by omega) (by omega)]
          omega
        refine ⟨(off, cycled ((b₁.bytes.drop start).take n) (sz + 1) (off + sz - off)) :: rs, ?_, fun s hs => ?_⟩
        · rw [List.map_cons, hrs, hcycled]
        refine wp_lift_ok_bind rfl (wp_bind_of_run_ok (hget s) ?_)
        refine wp_lift_ok_bind hstop ?_
        have hwrite : wp (writeFill w start n (off + sz) (sz + 1) off) (s, b₁) _ :=
          writeFill_stored hw hinf hs hmem (by omega) (fun _ => by omega) (by omega)
        refine wp_bind hwrite ?_ ?_
        · rintro _ ⟨s₂, b₂⟩ ⟨-, hgood, hbuf, hcontent⟩
          obtain rfl : b₂ = b₁ := hbuf
          refine wp_mono (hrun s₂ hgood) fun r p hp => ?_
          rw [hp, hcontent, storeAll_cons]
        · rintro e ⟨s₂, b₂⟩ ⟨hr, -⟩
          exact absurd hr Res.error_ne_ok
      · rw [if_neg fun h => hpos h.2]
        refine ⟨[], rfl, fun s hs => wp_lift_ok_bind rfl (wp_bind_of_run_ok (hget s) ?_)⟩
        refine wp_lift_ok_bind hstop ?_
        -- the loop never ends, and writes nothing
        refine wp_bind (writeFill_touched hw hs hmem (by omega)) ?_ ?_
        · rintro _ ⟨s₂, b₂⟩ ⟨-, -, hok, -⟩
          exact absurd (hok rfl (by omega)) (by omega)
        · rintro e ⟨s₂, b₂⟩ ⟨-, -, -, hchanged⟩
          funext i
          by_contra hi
          have := hchanged i hi
          omega

def fillRegions (blkSz : UInt32) : List FillInfo → Nat → List (Nat × List UInt8)
  | [], _ => []
  | f :: fs, off =>
    match f.getBlocksAndValue with
    | (blks, none) => fillRegions blkSz fs (off + blks.toNat * blkSz.toNat)
    | (blks, some v) => (off, words v (blks.toNat * blkSz.toNat / 4)) ::
        fillRegions blkSz fs (off + blks.toNat * blkSz.toNat)

def totalBlocks (fs : List FillInfo) : Nat := (fs.map fun f => f.getBlocksAndValue.1.toNat).sum

theorem passTwo_wp (blkSz : UInt32) (hw : w.Spec Good Mem content base) (hinf : w.Infallible)
    (h4 : blkSz.toNat % 4 = 0) (fs : List FillInfo) (hs : Good s) (hb : Mem b) (hroom : start + 4 ≤ b.len)
    (hfb : fb.Holds start b) (hsum : off + totalBlocks fs * blkSz.toNat < 2 ^ 64) :
    wp (passTwo w blkSz start fs fb off) (s, b) fun r p =>
      r = .ok () ∧ content p.1 = storeAll base (fillRegions blkSz fs off) (content s) := by
  induction fs generalizing s b fb off with
  | nil => exact wp_pure ⟨rfl, rfl⟩
  | cons f fs ih =>
    rw [passTwo, fillRegions]
    have htotal : totalBlocks (f :: fs) = f.getBlocksAndValue.1.toNat + totalBlocks fs := rfl
    rw [htotal, Nat.add_mul] at hsum
    rcases hf : f.getBlocksAndValue with ⟨blks, _ | v⟩
    · rw [hf] at hsum
      dsimp only at hsum ⊢
      refine wp_lift_ok_bind (u64Mul_toNat _ _) ?_
      refine wp_lift_ok_bind (u64Add_eq_ok.mpr ⟨by omega, rfl⟩) ?_
      exact ih hs hb hroom hfb (by omega)
    · rw [hf] at hsum
      dsimp only at hsum ⊢
      have hsz : blks.toNat * blkSz.toNat % 4 = 0 := by
        rw [Nat.mul_mod, h4]
        rfl
      refine wp_lift_ok_bind (u64Mul_toNat _ _) ?_
      generalize blks.toNat * blkSz.toNat = sz at hsum hsz ⊢
      obtain ⟨fb', n, hnext, hval, hle, hn⟩ := FillBuffer.next_whole v hfb hsz
      have hget := fb.get_run start v sz s b
      rw [hnext] at hget
      refine wp_bind_of_run_ok hget ?_
      have hstart : start ≤ b.len := by omega
      have hlen := FillBuffer.filled_len hstart hnext
      have hmem : Mem (fb.filled start v fb' b) := hw.congr b _ hb rfl hlen
      have hholds := hfb.next hnext
      generalize fb.filled start v fb' b = b₁ at hlen hmem hholds ⊢
      refine wp_lift_ok_bind (u64Add_eq_ok.mpr ⟨by omega, rfl⟩) ?_
      have hwords : cycled ((b₁.bytes.drop start).take n) (sz + 1) (off + sz - off) = words v (sz / 4) := by
        rw [hholds.take hval hle (by omega), Nat.add_sub_cancel_left]
        exact cycled_words v hsz (by omega) (by omega)
      have hwrite : wp (writeFill w start n (off + sz) (sz + 1) off) (s, b₁) _ :=
        writeFill_stored hw hinf hs hmem (by omega) (fun _ => by omega) (by omega)
      refine wp_bind hwrite ?_ ?_
      swap
      · rintro e ⟨s₂, b₂⟩ ⟨hr, -⟩
        exact absurd hr Res.error_ne_ok
      rintro _ ⟨s₂, b₂⟩ ⟨-, hgood, hbuf, hcontent⟩
      obtain rfl : b₂ = b₁ := hbuf
      refine wp_mono (ih hgood hmem (by omega) hholds (by omega)) ?_
      rintro r p ⟨hr, hcontent'⟩
      refine ⟨hr, hcontent'.trans ?_⟩
      rw [storeAll_cons, hcontent, hwords]

end Fill

end Gbl.Partitions.Sparse
