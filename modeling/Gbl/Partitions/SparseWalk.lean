import Gbl.Partitions.Sparse
import Gbl.Lib.Regions

/-!
# What the two passes write

Which chunks the first pass meets does not depend on the writer: it is a walk over the bytes of the image, which
change as records are stored in them (`walk`).
-/

namespace Gbl.Partitions.Sparse

open Lib Lib.Exec Storage

structure Writer.Spec {σ : Type} (w : Writer σ) (Good : σ → Prop) (Mem : Buf → Prop)
    (content : σ → Content) (base : Nat) : Prop where
  sub : ∀ b i n, Mem b → i + n ≤ b.len → Mem (b.sub i n)
  congr : ∀ b b', Mem b → b'.addr = b.addr → b'.len = b.len → Mem b'
  write : ∀ off s b, Good s → Mem b → wp (w off) (s, b) fun r p =>
    Good p.1 ∧ p.2 = b ∧ Torn (content s) (base + off) b.bytes (content p.1) ∧
      (r = .ok () → content p.1 = store (content s) (base + off) b.bytes)

def Writer.Infallible {σ : Type} (w : Writer σ) : Prop := ∀ off p, (w off p).1 = .ok ()

section Passes

variable {σ : Type} {w : Writer σ} {Good : σ → Prop} {Mem : Buf → Prop} {content : σ → Content} {base : Nat}
  {blkSz : UInt32} {s : σ} {b : Buf}

variable {n : Nat} {img : List UInt8} {curr : Nat} {header : ChunkHeader} {fill : FillInfo} {c : Cursor}
  {img' : List UInt8} {c' : Cursor}

theorem onSlice_wp (hw : w.Spec Good Mem content base) (hs : Good s) (hb : Mem b) {i off : Nat} (hn : i + n ≤ b.len) :
    wp (onSlice i n (w off)) (s, b) fun r p =>
      Good p.1 ∧ p.2 = b ∧ Torn (content s) (base + off) (b.sub i n).bytes (content p.1) ∧
        (r = .ok () → content p.1 = store (content s) (base + off) (b.sub i n).bytes) ∧
        (w.Infallible → r = .ok ()) := by
  unfold onSlice
  apply wp_zoom
  have hinf : wp (w off) (s, b.sub i n) fun r _ => w.Infallible → r = .ok () := fun h => h off _
  refine wp_mono (wp_and (hw.write off s (b.sub i n) hs (hw.sub b i n hb hn)) hinf) ?_
  rintro r p ⟨⟨hgood, hbuf, htorn, hstored⟩, hr⟩
  refine ⟨hgood, ?_, htorn, hstored, hr⟩
  rw [hbuf]
  exact congrArg (Buf.mk b.addr) (splice_take_drop _ _ _ hn)

/-! ## The first pass -/

structure Visit where
  header : ChunkHeader
  fill : FillInfo
  writeOffset : Nat
  data : List UInt8

def Visit.at_ (blkSz : UInt32) (img : List UInt8) (c : Cursor) (header : ChunkHeader) (fill : FillInfo) :
    Visit where
  header
  fill
  writeOffset := c.writeOffset
  data := if header.chunkType = chunkTypeRaw then
      (img.drop (c.curr + ChunkHeader.codec.width)).take (header.chunkSz.toNat * blkSz.toNat)
    else []

def advance (blkSz : UInt32) (img : List UInt8) (c : Cursor) (header : ChunkHeader) (fill : FillInfo) :
    Result (Cursor × List UInt8) := do
  let writeOffset ← u64Add c.writeOffset (header.chunkSz.toNat * blkSz.toNat)
  if c.fillOff + FillInfo.codec.width ≤ img.length then do
    let fillOff ← u64Add c.fillOff FillInfo.codec.width
    let curr ← u64Add c.curr header.totalSz.toNat
    pure (⟨curr, writeOffset, fillOff⟩, splice img c.fillOff (FillInfo.codec.enc fill))
  else panic

def walk (blkSz : UInt32) : Nat → Cursor → List UInt8 → List Visit × Result (Cursor × List UInt8)
  | 0, c, img => ([], .ok (c, img))
  | n + 1, c, img =>
    match readChunk blkSz img c.curr with
    | .error e => ([], .error e)
    | .ok (header, fill) =>
      match advance blkSz img c header fill with
      | .error e => ([.at_ blkSz img c header fill], .error e)
      | .ok (c', img') =>
        (.at_ blkSz img c header fill :: (walk blkSz n c' img').1, (walk blkSz n c' img').2)

def Visit.region (v : Visit) : Nat × List UInt8 := (v.writeOffset, v.data)

def Visit.range (v : Visit) : Nat × Nat := (v.writeOffset, v.data.length)

structure PassOnePost (content : σ → Content) (base : Nat) (s : σ) (b : Buf)
    (out : List Visit × Result (Cursor × List UInt8)) (r : Result Cursor) (s' : σ) (b' : Buf) : Prop where
  addr : b'.addr = b.addr
  len : b'.len = b.len
  touched : Touched base (out.1.map Visit.range) (content s) (content s')
  stored : ∀ c, r = .ok c → out.2 = .ok (c, b'.bytes) ∧
    content s' = storeAll base (out.1.map Visit.region) (content s)

theorem u64Add_eq_ok {a b : Nat} : u64Add a b = .ok n ↔ a + b < 2 ^ 64 ∧ a + b = n := by
  unfold u64Add
  by_cases h : a + b < 2 ^ 64
  · rw [if_pos h]
    exact ⟨fun heq => ⟨h, Except.ok.inj heq⟩, fun heq => congrArg Except.ok heq.2⟩
  · rw [if_neg h]
    exact iff_of_false Res.error_ne_ok fun heq => h heq.1

theorem u64Mul_toNat (a b : UInt32) : u64Mul a.toNat b.toNat = .ok (a.toNat * b.toNat) := by
  have ha := a.toNat_lt
  have hb := b.toNat_lt
  refine if_pos ?_
  calc a.toNat * b.toNat < 2 ^ 32 * 2 ^ 32 := Nat.mul_lt_mul'' ha hb
    _ = 2 ^ 64 := by norm_num

inductive Accepted (blkSz : UInt32) (img : List UInt8) (payload : Nat) (header : ChunkHeader) : FillInfo → Prop
  | raw (type : header.chunkType = chunkTypeRaw)
      (inside : payload + header.chunkSz.toNat * blkSz.toNat ≤ img.length) :
      Accepted blkSz img payload header (.newSkip header.chunkSz)
  | fill (type : header.chunkType = chunkTypeFill) (pos : header.chunkSz ≠ 0) (inside : payload + 4 ≤ img.length) :
      Accepted blkSz img payload header
        (.newFill header.chunkSz (Codec.u32.dec ((img.drop payload).take 4)))
  | skip (type : header.chunkType = chunkTypeDontCare ∨ header.chunkType = chunkTypeCrc32) :
      Accepted blkSz img payload header (.newSkip header.chunkSz)

theorem readChunk_eq_ok : readChunk blkSz img curr = .ok (header, fill) ↔ curr + ChunkHeader.codec.width ≤ img.length ∧
        header = ChunkHeader.codec.dec ((img.drop curr).take ChunkHeader.codec.width) ∧
        Accepted blkSz img (curr + ChunkHeader.codec.width) header fill := by
  have hw := ChunkHeader.codec_width
  unfold readChunk
  by_cases hlen : curr + ChunkHeader.codec.width ≤ img.length
  swap
  · refine iff_of_false (fun h => ?_) fun h => hlen h.1
    by_cases hc : img.length < curr
    · rw [if_pos hc] at h
      cases h
    · rw [if_neg hc, copyFrom, List.length_drop, if_neg (by omega)] at h
      cases h
  rw [if_neg (by omega), copyFrom, List.length_drop, if_pos (by omega), Res.ok_bind]
  generalize ChunkHeader.codec.dec ((img.drop curr).take ChunkHeader.codec.width) = h₀
  rw [u64Mul_toNat, Res.ok_bind, List.length_drop]
  constructor
  · intro h
    refine ⟨hlen, ?_⟩
    split at h
    · next htype =>
      split at h
      · next hin =>
        obtain ⟨rfl, rfl⟩ := Prod.mk.inj (Except.ok.inj h)
        exact ⟨rfl, .raw htype (by omega)⟩
      · cases h
    · split at h
      · next htype =>
        split at h
        · next hin =>
          obtain ⟨rfl, rfl⟩ := Prod.mk.inj (Except.ok.inj h)
          exact ⟨rfl, .fill htype.1 htype.2 (by omega)⟩
        · cases h
      · split at h
        · next htype =>
          obtain ⟨rfl, rfl⟩ := Prod.mk.inj (Except.ok.inj h)
          exact ⟨rfl, .skip htype⟩
        · cases h
  · rintro ⟨-, rfl, hacc⟩
    cases hacc with
    | raw type inside =>
      rw [if_pos type, if_pos (by omega)]
      rfl
    | fill type pos inside =>
      have hraw : header.chunkType ≠ chunkTypeRaw := by rw [type]; decide
      rw [if_neg hraw, if_pos ⟨type, pos⟩, if_pos (by omega)]
      rfl
    | skip type =>
      have hraw : header.chunkType ≠ chunkTypeRaw := by rcases type with type | type <;> rw [type] <;> decide
      have hfill : ¬ (header.chunkType = chunkTypeFill ∧ header.chunkSz ≠ 0) := by
        rcases type with type | type <;> rw [type] <;> exact fun h => absurd h.1 (by decide)
      rw [if_neg hraw, if_neg hfill, if_pos type]
      rfl

theorem readChunk_raw (h : readChunk blkSz img curr = .ok (header, fill)) (hraw : header.chunkType = chunkTypeRaw) :
    curr + ChunkHeader.codec.width + header.chunkSz.toNat * blkSz.toNat ≤ img.length := by
  obtain ⟨-, -, hacc⟩ := readChunk_eq_ok.mp h
  cases hacc with
  | raw type inside => exact inside
  | fill type => exact absurd (hraw.symm.trans type) (by decide)
  | skip type =>
    rw [hraw] at type
    exact absurd type (by decide)

theorem PassOnePost.error {vs : List Visit} {e : Stop Error} {s' : σ} {b' : Buf} {o : Result (Cursor × List UInt8)}
    (haddr : b'.addr = b.addr) (hlen : b'.len = b.len)
    (htouched : Touched base (vs.map Visit.range) (content s) (content s')) :
    PassOnePost content base s b (vs, o) (.error e) s' b' :=
  ⟨haddr, hlen, htouched, fun _ h => absurd h Res.error_ne_ok⟩

theorem visit_wp (hw : w.Spec Good Mem content base) (hs : Good s) (hb : Mem b)
    (hread : readChunk blkSz b.bytes c.curr = .ok (header, fill)) :
    wp (Exec.when (header.chunkType = chunkTypeRaw)
        (onSlice (c.curr + ChunkHeader.codec.width) (header.chunkSz.toNat * blkSz.toNat) (w c.writeOffset)))
      (s, b) fun r p => Good p.1 ∧ p.2 = b ∧
        Touched base [(Visit.at_ blkSz b.bytes c header fill).range] (content s) (content p.1) ∧
        (r = .ok () → content p.1 = store (content s) (base + c.writeOffset)
          (Visit.at_ blkSz b.bytes c header fill).data) ∧
        (w.Infallible → r = .ok ()) := by
  refine wp_when (fun hraw => ?_) fun hraw => ?_
  · refine wp_mono (onSlice_wp hw hs hb (readChunk_raw hread hraw)) ?_
    rintro r p ⟨hgood, hbuf, htorn, hstored, hinf⟩
    have hdata : (Visit.at_ blkSz b.bytes c header fill).data =
        (b.sub (c.curr + ChunkHeader.codec.width) (header.chunkSz.toNat * blkSz.toNat)).bytes := if_pos hraw
    rw [← hdata] at htorn hstored
    exact ⟨hgood, hbuf, .of_torn htorn le_rfl, hstored, hinf⟩
  · have hdata : (Visit.at_ blkSz b.bytes c header fill).data = [] := if_neg hraw
    refine ⟨hs, rfl, .refl _ _ _, fun _ => ?_, fun _ => rfl⟩
    rw [hdata, store_nil]

theorem advance_wp {k : Cursor → Exec Error (σ × Buf) Cursor} {Q : Result Cursor → σ × Buf → Prop}
    (herr : ∀ e b', advance blkSz b.bytes c header fill = .error e → b'.addr = b.addr → b'.len = b.len →
      Q (.error e) (s, b'))
    (hok : ∀ c' img', advance blkSz b.bytes c header fill = .ok (c', img') → img'.length = b.len →
      wp (k c') (s, ⟨b.addr, img'⟩) Q) :
    wp (do
      let writeOffset ← Exec.lift (u64Add c.writeOffset (header.chunkSz.toNat * blkSz.toNat))
      Exec.assert (c.fillOff + FillInfo.codec.width ≤ b.len)
      Exec.modify fun s => (s.1, s.2.patch c.fillOff (FillInfo.codec.enc fill))
      let fillOff ← Exec.lift (u64Add c.fillOff FillInfo.codec.width)
      let curr ← Exec.lift (u64Add c.curr header.totalSz.toNat)
      k ⟨curr, writeOffset, fillOff⟩) (s, b) Q := by
  have hlen : b.len = b.bytes.length := rfl
  unfold advance at herr hok
  rcases hwo : u64Add c.writeOffset (header.chunkSz.toNat * blkSz.toNat) with e | wo
  · exact herr e b (by rw [hwo]; rfl) rfl rfl
  rw [hwo, Res.ok_bind] at herr hok
  refine wp_lift_ok_bind rfl ?_
  by_cases hfit : c.fillOff + FillInfo.codec.width ≤ b.bytes.length
  swap
  · rw [if_neg hfit] at herr
    refine wp_lift_bind (fun _ h => ?_) (fun e he => ?_)
    · simp only [hlen, hfit, decide_false] at h
      cases h
    · simp only [hlen, hfit, decide_false] at he
      cases he
      exact herr _ b rfl rfl rfl
  rw [if_pos hfit] at herr hok
  apply wp_assert_bind (decide_eq_true hfit)
  apply wp_modify_bind
  have hpatch : (b.patch c.fillOff (FillInfo.codec.enc fill)).len = b.len :=
    Buf.patch_len b (by rw [FillInfo.codec.length_enc]; exact hfit)
  rcases hfo : u64Add c.fillOff FillInfo.codec.width with e | fo
  · exact herr e _ (by rw [hfo]; rfl) rfl hpatch
  rw [hfo, Res.ok_bind] at herr hok
  refine wp_lift_ok_bind rfl ?_
  rcases hcurr : u64Add c.curr header.totalSz.toNat with e | curr
  · exact herr e _ (by rw [hcurr]; rfl) rfl hpatch
  rw [hcurr, Res.ok_bind] at hok
  exact wp_lift_ok_bind rfl (hok _ _ rfl hpatch)

theorem passOne_wp (hw : w.Spec Good Mem content base) (hs : Good s) (hb : Mem b) (n : Nat) (c : Cursor) :
    wp (passOne w blkSz n c) (s, b) fun r p =>
      Good p.1 ∧ PassOnePost content base s b (walk blkSz n c b.bytes) r p.1 p.2 ∧
        (w.Infallible → r = Prod.fst <$> (walk blkSz n c b.bytes).2 ∧
          content p.1 = storeAll base ((walk blkSz n c b.bytes).1.map Visit.region) (content s)) := by
  induction n generalizing c s b with
  | zero =>
    exact wp_pure ⟨hs, ⟨rfl, rfl, .refl _ _ _, fun c' h => by cases h; exact ⟨rfl, rfl⟩⟩,
      fun _ => ⟨rfl, rfl⟩⟩
  | succ n ih =>
    rw [passOne]
    apply wp_get_bind
    refine wp_lift_bind (fun hf hread => ?_) (fun e he => ?_)
    swap
    · simp only [walk, he]
      exact ⟨hs, .error rfl rfl (.refl _ _ _), fun _ => ⟨rfl, rfl⟩⟩
    obtain ⟨header, fill⟩ := hf
    dsimp only at hread ⊢
    simp only [walk, hread]
    refine wp_bind (visit_wp hw hs hb hread) ?_ ?_
    swap
    · -- the write failed
      rintro e ⟨s₁, _⟩ ⟨hgood, rfl, htouched, -, hinf⟩
      refine ⟨hgood, ?_, fun h => absurd (hinf h) Res.error_ne_ok⟩
      split
      · exact .error rfl rfl htouched
      · exact .error rfl rfl (htouched.mono (by simp))
    rintro _ ⟨s₁, b₁⟩ ⟨hgood, rfl, htouched, hstored, -⟩
    refine advance_wp (fun e b' hadv haddr hlen => ?_) (fun c' img' hadv hlen => ?_)
    · simp only [hadv]
      exact ⟨hgood, .error haddr hlen htouched, fun _ => ⟨rfl, hstored rfl⟩⟩
    · simp only [hadv]
      have hmem : Mem ⟨b₁.addr, img'⟩ := hw.congr b₁ _ hb rfl hlen
      refine wp_mono (ih hgood hmem c') ?_
      rintro r p ⟨hgood', hpost, hinf⟩
      have hfirst : storeAll base ((walk blkSz n c' img').1.map Visit.region) (content s₁) =
          storeAll base ((Visit.at_ blkSz b₁.bytes c header fill ::
            (walk blkSz n c' img').1).map Visit.region) (content s) := by
        rw [hstored rfl]
        rfl
      refine ⟨hgood', ⟨hpost.addr, hpost.len.trans hlen, ?_, fun c'' hr => ?_⟩, fun h => ?_⟩
      · exact htouched.trans hpost.touched
      · exact (hpost.stored c'' hr).imp_right fun hcontent => hcontent.trans hfirst
      · exact (hinf h).imp_right fun hcontent => hcontent.trans hfirst

/-! ## The records -/

theorem advance_eq_ok : advance blkSz img c header fill = .ok (c', img') ↔
      c.writeOffset + header.chunkSz.toNat * blkSz.toNat < 2 ^ 64 ∧
      c.fillOff + FillInfo.codec.width ≤ img.length ∧ c.fillOff + FillInfo.codec.width < 2 ^ 64 ∧
      c.curr + header.totalSz.toNat < 2 ^ 64 ∧
      c' = ⟨c.curr + header.totalSz.toNat, c.writeOffset + header.chunkSz.toNat * blkSz.toNat,
        c.fillOff + FillInfo.codec.width⟩ ∧
      img' = splice img c.fillOff (FillInfo.codec.enc fill) := by
  unfold advance
  simp only [Res.bind_eq_ok, u64Add_eq_ok]
  constructor
  · rintro ⟨wo, ⟨hwo, rfl⟩, h⟩
    split at h
    · next hfit =>
      obtain ⟨fo, hsum, h⟩ := Res.bind_eq_ok.mp h
      obtain ⟨hfo, rfl⟩ := u64Add_eq_ok.mp hsum
      obtain ⟨curr, hsum', h⟩ := Res.bind_eq_ok.mp h
      obtain ⟨hcurr, rfl⟩ := u64Add_eq_ok.mp hsum'
      obtain ⟨rfl, rfl⟩ := Prod.mk.inj (Except.ok.inj h)
      exact ⟨hwo, hfit, hfo, hcurr, rfl, rfl⟩
    · cases h
  · rintro ⟨hwo, hfit, hfo, hcurr, rfl, rfl⟩
    refine ⟨_, ⟨hwo, rfl⟩, ?_⟩
    rw [if_pos hfit, u64Add, if_pos hfo, u64Add, if_pos hcurr]
    rfl

theorem walk_records (recs : List FillInfo) (hoff : c.fillOff = recs.length * FillInfo.codec.width)
    (hle : c.fillOff ≤ img.length) (htake : img.take c.fillOff = FillInfo.codec.encAll recs)
    (h : (walk blkSz n c img).2 = .ok (c', img')) :
    img'.length = img.length ∧ c'.fillOff ≤ img'.length ∧
      FillInfo.codec.decAll (c'.fillOff / FillInfo.codec.width) img' =
        recs ++ (walk blkSz n c img).1.map Visit.fill := by
  induction n generalizing c img recs with
  | zero =>
    obtain ⟨rfl, rfl⟩ := Prod.mk.inj (Except.ok.inj h)
    refine ⟨rfl, hle, ?_⟩
    have hpos : 0 < FillInfo.codec.width := by decide
    have hsplit : img = FillInfo.codec.encAll recs ++ img.drop c.fillOff := by
      rw [← htake, List.take_append_drop]
    rw [hoff, Nat.mul_div_cancel _ hpos, hsplit, Codec.decAll_encAll_append, walk, List.map_nil, List.append_nil]
  | succ n ih =>
    rw [walk] at h ⊢
    rcases hread : readChunk blkSz img c.curr with e | ⟨header, fill⟩
    · rw [hread] at h
      cases h
    rw [hread] at h
    dsimp only at h ⊢
    rcases hadv : advance blkSz img c header fill with e | ⟨c₁, img₁⟩
    · rw [hadv] at h
      cases h
    rw [hadv] at h
    obtain ⟨-, hfit, -, -, rfl, rfl⟩ := advance_eq_ok.mp hadv
    have henc : (FillInfo.codec.enc fill).length = FillInfo.codec.width := FillInfo.codec.length_enc fill
    have hlen : (splice img c.fillOff (FillInfo.codec.enc fill)).length = img.length :=
      length_splice (by rw [henc]; exact hfit)
    have htake' : (splice img c.fillOff (FillInfo.codec.enc fill)).take (c.fillOff + FillInfo.codec.width) =
        FillInfo.codec.encAll (recs ++ [fill]) := by
      rw [Codec.encAll_append, ← htake, Codec.encAll_cons, Codec.encAll_nil, List.append_nil, ← henc]
      exact take_splice_end hle
    have hoff' : c.fillOff + FillInfo.codec.width = (recs ++ [fill]).length * FillInfo.codec.width := by
      rw [List.length_append, List.length_singleton, Nat.add_mul, Nat.one_mul, hoff]
    obtain ⟨hlen', hle', hdec⟩ := ih (recs ++ [fill]) hoff' (by rw [hlen]; exact hfit) htake' h
    refine ⟨hlen'.trans hlen, hle', hdec.trans ?_⟩
    rw [List.append_assoc]
    rfl

/-! ## Writers that never fail -/

def Writer.Stores {σ : Type} (w : Writer σ) (content : σ → Content) : Prop :=
  ∀ off s b, ∃ s', w off (s, b) = (.ok (), (s', b)) ∧ content s' = store (content s) off b.bytes

theorem Writer.Stores.spec (hw : w.Stores content) : w.Spec (fun _ => True) (fun _ => True) content 0 where
  sub _ _ _ _ _ := trivial
  congr _ _ _ _ _ := trivial
  write off s b _ _ := by
    obtain ⟨s', hrun, hcontent⟩ := hw off s b
    rw [wp, hrun, Nat.zero_add]
    exact ⟨trivial, rfl, hcontent ▸ Torn.of_store (content s) off b.bytes, fun _ => hcontent⟩

theorem Writer.Stores.infallible (hw : w.Stores content) : w.Infallible := by
  rintro off ⟨s, b⟩
  obtain ⟨s', hrun, -⟩ := hw off s b
  rw [hrun]

def contentWriter : Writer Content := fun off p => (.ok (), (store p.1 off p.2.bytes, p.2))

theorem contentWriter_stores : contentWriter.Stores id := fun off s b => ⟨store s off b.bytes, rfl, rfl⟩

def imageOf (blkSz totalBlks : UInt32) (chunks : List (ChunkHeader × List UInt8)) : List UInt8 :=
  SparseHeader.codec.enc ⟨headerMagic, 1, 0, 28, 12, blkSz, totalBlks, UInt32.ofNat chunks.length, 0⟩ ++
    chunks.flatMap fun ch => ChunkHeader.codec.enc ch.1 ++ ch.2

def smallImage : List UInt8 :=
  imageOf 4 4 [(⟨chunkTypeRaw, 0, 1, 16⟩, [1, 2, 3, 4]), (⟨chunkTypeFill, 0, 2, 16⟩, [5, 6, 7, 8]),
    (⟨chunkTypeDontCare, 0, 1, 12⟩, [])]

end Passes

end Gbl.Partitions.Sparse
