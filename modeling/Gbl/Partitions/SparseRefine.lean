import Gbl.Partitions.SparseFill

/-!
# The in-place writer refines the plain one

The plain way to write a sparse image: parse its chunks, none of which is ever overwritten, and go through them once,
storing what each says (`expand`).
-/

namespace Gbl.Partitions.Sparse

open Lib Lib.Exec Storage

/-! ## The plain way -/

inductive Body where
  | raw (data : List UInt8)
  | fill (word : List UInt8)
  | skip
  deriving DecidableEq, Repr

def Body.length : Body → Nat
  | raw data => data.length
  | fill word => word.length
  | skip => 0

structure Chunk where
  blocks : Nat
  body : Body
  deriving DecidableEq, Repr

def parseBody (blkSz : Nat) (header : ChunkHeader) (payload : List UInt8) : Option Body :=
  if header.chunkType = chunkTypeRaw then
    if header.chunkSz.toNat * blkSz ≤ payload.length then some (.raw (payload.take (header.chunkSz.toNat * blkSz)))
    else none
  else if header.chunkType = chunkTypeFill then
    if header.chunkSz ≠ 0 ∧ 4 ≤ payload.length then some (.fill (payload.take 4)) else none
  else if header.chunkType = chunkTypeDontCare ∨ header.chunkType = chunkTypeCrc32 then some .skip
  else none

def parseChunks (blkSz : Nat) (img : List UInt8) : Nat → Nat → Option (List Chunk)
  | 0, _ => some []
  | n + 1, curr =>
    if curr + ChunkHeader.codec.width ≤ img.length then do
      let header := ChunkHeader.codec.dec ((img.drop curr).take ChunkHeader.codec.width)
      let body ← parseBody blkSz header (img.drop (curr + ChunkHeader.codec.width))
      if ChunkHeader.codec.width + body.length ≤ header.totalSz.toNat ∧
          curr + header.totalSz.toNat ≤ img.length then do
        let rest ← parseChunks blkSz img n (curr + header.totalSz.toNat)
        some (⟨header.chunkSz.toNat, body⟩ :: rest)
      else none
    else none

structure WellFormed (img : List UInt8) (header : SparseHeader) (chunks : List Chunk) : Prop where
  accepted : isSparseImage img = .ok header
  blkSz_pos : 0 < header.blkSz.toNat
  blkSz_whole : header.blkSz.toNat % 4 = 0
  parsed : parseChunks header.blkSz.toNat img header.totalChunks.toNat SparseHeader.codec.width = some chunks

def Chunk.data (blkSz : Nat) (ch : Chunk) : List UInt8 :=
  match ch.body with
  | .raw data => data
  | .fill word => (List.replicate (ch.blocks * blkSz / 4) word).flatten
  | .skip => []

def expand (blkSz : Nat) : List Chunk → Nat → Content → Content
  | [], _, c => c
  | ch :: rest, off, c => expand blkSz rest (off + ch.blocks * blkSz) (store c off (ch.data blkSz))

def expandedSize (blkSz : Nat) (chunks : List Chunk) : Nat := (chunks.map fun ch => ch.blocks * blkSz).sum

/-! ## The walk meets the chunks -/

structure Meets (blkSz : UInt32) (off : Nat) (v : Visit) (ch : Chunk) : Prop where
  offset : v.writeOffset = off
  blocks : v.header.chunkSz.toNat = ch.blocks
  first : v.fill.getBlocksAndValue.1 = v.header.chunkSz
  body : (v.data = ch.data blkSz.toNat ∧ v.fill.getBlocksAndValue.2 = none) ∨
    (v.data = [] ∧ ∃ val, v.fill.getBlocksAndValue.2 = some val ∧
      ch.data blkSz.toNat = words val (ch.blocks * blkSz.toNat / 4))
  length_le : (ch.data blkSz.toNat).length ≤ ch.blocks * blkSz.toNat

inductive MeetsAll (blkSz : UInt32) : Nat → List Visit → List Chunk → Prop
  | nil {off : Nat} : MeetsAll blkSz off [] []
  | cons {off : Nat} {v : Visit} {ch : Chunk} {vs : List Visit} {chunks : List Chunk}
      (head : Meets blkSz off v ch) (tail : MeetsAll blkSz (off + ch.blocks * blkSz.toNat) vs chunks) :
      MeetsAll blkSz off (v :: vs) (ch :: chunks)

variable {blkSz : UInt32}

variable {off : Nat} {vs : List Visit} {chunks : List Chunk} {img : List UInt8} {c : Cursor}

theorem MeetsAll.le_writeOffset (h : MeetsAll blkSz off vs chunks) : ∀ v ∈ vs, off ≤ v.writeOffset := by
  induction h with
  | nil => exact fun _ hv => absurd hv List.not_mem_nil
  | cons head tail ih =>
    intro v hv
    rcases List.mem_cons.mp hv with rfl | hv
    · exact head.offset.ge
    · have := ih v hv
      omega

theorem storeAll_eq_expand (h : MeetsAll blkSz off vs chunks) (c : Content) :
    storeAll 0 (fillRegions blkSz (vs.map Visit.fill) off) (storeAll 0 (vs.map Visit.region) c) =
      expand blkSz.toNat chunks off c := by
  induction h generalizing c with
  | nil => rfl
  | @cons off v ch vs chunks head tail ih =>
    have hblocks : v.fill.getBlocksAndValue.1.toNat = ch.blocks := by rw [head.first, head.blocks]
    rw [expand, ← ih, List.map_cons, List.map_cons, fillRegions, storeAll_cons]
    simp only [Visit.region, head.offset, Nat.zero_add]
    rcases hval : v.fill.getBlocksAndValue with ⟨blks, _ | val⟩
    · rw [hval] at hblocks
      rcases head.body with ⟨hdata, -⟩ | ⟨-, val, hsome, -⟩
      · rw [← hblocks, hdata]
      · rw [hval] at hsome
        cases hsome
    · rw [hval] at hblocks
      rcases head.body with ⟨-, hnone⟩ | ⟨hdata, val', hsome, hwords⟩
      · rw [hval] at hnone
        cases hnone
      · rw [hval] at hsome
        obtain rfl := Option.some.inj hsome
        dsimp only at hblocks ⊢
        have hbehind : ∀ r ∈ vs.map Visit.region, off + (ch.data blkSz.toNat).length ≤ r.1 := by
          intro r hr
          obtain ⟨v', hv', rfl⟩ := List.mem_map.mp hr
          have := tail.le_writeOffset v' hv'
          have := head.length_le
          dsimp only [Visit.region]
          omega
        -- the fill chunk is stored behind the raw chunks that come after it
        have hcomm : storeAll 0 _ (store c (0 + off) _) = _ := store_storeAll_comm hbehind c
        simp only [Nat.zero_add] at hcomm
        rw [storeAll_cons, hblocks, hdata, store_nil, hcomm, hwords]
        simp only [Nat.zero_add]

theorem accepted_of_parseBody {header : ChunkHeader} {body : Body}
    (hheader : c.curr + ChunkHeader.codec.width ≤ img.length)
    (h : parseBody blkSz.toNat header (img.drop (c.curr + ChunkHeader.codec.width)) = some body) :
    ∃ fill, Accepted blkSz img (c.curr + ChunkHeader.codec.width) header fill ∧
      Meets blkSz c.writeOffset (.at_ blkSz img c header fill) ⟨header.chunkSz.toNat, body⟩ := by
  have hlen : (img.drop (c.curr + ChunkHeader.codec.width)).length =
      img.length - (c.curr + ChunkHeader.codec.width) := List.length_drop
  unfold parseBody at h
  split at h
  · next htype =>
    split at h
    · next hin =>
      obtain rfl := Option.some.inj h
      have hdata : ∀ fill, (Visit.at_ blkSz img c header fill).data = _ := fun _ => if_pos htype
      refine ⟨_, .raw htype (by omega), rfl, rfl, rfl, .inl ⟨hdata _, rfl⟩, ?_⟩
      exact List.length_take_le ..
    · cases h
  · next hraw =>
    have hempty : ∀ fill, (Visit.at_ blkSz img c header fill).data = [] := fun _ => if_neg hraw
    split at h
    · next htype =>
      split at h
      · next hin =>
        obtain rfl := Option.some.inj h
        generalize hword : (img.drop (c.curr + ChunkHeader.codec.width)).take 4 = word
        have hfour : word.length = 4 := by
          rw [← hword, List.length_take]
          omega
        have hdata : (⟨header.chunkSz.toNat, .fill word⟩ : Chunk).data blkSz.toNat =
            words (Codec.u32.dec word) (header.chunkSz.toNat * blkSz.toNat / 4) := by
          unfold words
          rw [Codec.u32.enc_dec word hfour]
          rfl
        have hrec : (FillInfo.newFill header.chunkSz (Codec.u32.dec word)).getBlocksAndValue =
            (header.chunkSz, some (Codec.u32.dec word)) := if_neg hin.1
        refine ⟨.newFill header.chunkSz (Codec.u32.dec word), hword ▸ .fill htype hin.1 (by omega), rfl, rfl,
          congrArg Prod.fst hrec, .inr ⟨hempty _, _, congrArg Prod.snd hrec, hdata⟩, ?_⟩
        rw [hdata, length_words]
        exact Nat.mul_div_le ..
      · cases h
    · split at h
      · next htype =>
        obtain rfl := Option.some.inj h
        exact ⟨_, .skip htype, rfl, rfl, rfl, .inl ⟨hempty _, rfl⟩, Nat.zero_le _⟩
      · cases h

theorem walk_parse {img₀ : List UInt8} {n : Nat}
    (hparse : parseChunks blkSz.toNat img₀ n c.curr = some chunks) (hlen : img.length = img₀.length)
    (hsame : img.drop c.fillOff = img₀.drop c.fillOff) (hbehind : c.fillOff + FillInfo.codec.width ≤ c.curr)
    (hcurr : c.curr ≤ img₀.length) (hlt : img₀.length < 2 ^ 64)
    (hsum : c.writeOffset + expandedSize blkSz.toNat chunks < 2 ^ 64) :
    ∃ c' img', (walk blkSz n c img).2 = .ok (c', img') ∧ img'.length = img₀.length ∧
      c'.fillOff + FillInfo.codec.width ≤ img₀.length ∧
      c'.writeOffset = c.writeOffset + expandedSize blkSz.toNat chunks ∧
      MeetsAll blkSz c.writeOffset (walk blkSz n c img).1 chunks := by
  induction n generalizing c img chunks with
  | zero =>
    obtain rfl := Option.some.inj hparse
    exact ⟨c, img, rfl, hlen, by omega, rfl, .nil⟩
  | succ n ih =>
    have hw := ChunkHeader.codec_width
    have hw' := FillInfo.codec_width
    rw [parseChunks] at hparse
    split at hparse
    swap
    · cases hparse
    next hheader =>
    obtain ⟨body, hbody, hparse⟩ := Option.bind_eq_some_iff.mp hparse
    split at hparse
    swap
    · cases hparse
    next hfits =>
    obtain ⟨rest, hrest, hparse⟩ := Option.bind_eq_some_iff.mp hparse
    obtain rfl := (Option.some.inj hparse).symm
    -- the image is still as it was from the cursor on
    have hdrop : ∀ k, c.fillOff ≤ k → img.drop k = img₀.drop k := by
      intro k hk
      obtain ⟨j, rfl⟩ := Nat.exists_eq_add_of_le hk
      rw [← List.drop_drop, ← List.drop_drop, hsame]
    generalize hdec : ChunkHeader.codec.dec ((img₀.drop c.curr).take ChunkHeader.codec.width) = header at *
    rw [← hdrop (c.curr + ChunkHeader.codec.width) (by omega)] at hbody
    obtain ⟨fill, hacc, hmeets⟩ := accepted_of_parseBody (by omega) hbody
    have hread : readChunk blkSz img c.curr = .ok (header, fill) :=
      readChunk_eq_ok.mpr ⟨by omega, by rw [hdrop c.curr (by omega), hdec], hacc⟩
    have hsize : expandedSize blkSz.toNat (⟨header.chunkSz.toNat, body⟩ :: rest) =
        header.chunkSz.toNat * blkSz.toNat + expandedSize blkSz.toNat rest := rfl
    rw [hsize] at hsum ⊢
    have henc : (FillInfo.codec.enc fill).length = FillInfo.codec.width := FillInfo.codec.length_enc fill
    have hadv : advance blkSz img c header fill =
        .ok (⟨c.curr + header.totalSz.toNat, c.writeOffset + header.chunkSz.toNat * blkSz.toNat,
          c.fillOff + FillInfo.codec.width⟩, splice img c.fillOff (FillInfo.codec.enc fill)) :=
      advance_eq_ok.mpr ⟨by omega, by omega, by omega, by omega, rfl, rfl⟩
    have hlen' : (splice img c.fillOff (FillInfo.codec.enc fill)).length = img₀.length := by
      rw [length_splice (by omega), hlen]
    have hsame' : (splice img c.fillOff (FillInfo.codec.enc fill)).drop (c.fillOff + FillInfo.codec.width) =
        img₀.drop (c.fillOff + FillInfo.codec.width) := by
      rw [← hdrop _ (by omega), ← henc]
      exact drop_splice_end (by omega)
    obtain ⟨c', img', hend, hlen'', hfill, hwo, hrest⟩ := ih (c := ⟨c.curr + header.totalSz.toNat,
      c.writeOffset + header.chunkSz.toNat * blkSz.toNat, c.fillOff + FillInfo.codec.width⟩) hrest hlen' hsame'
      (by dsimp only; omega) (by dsimp only; omega) (by dsimp only; omega)
    simp only [walk, hread, hadv]
    exact ⟨c', img', hend, hlen'', hfill, hwo.trans (Nat.add_assoc _ _ _), .cons hmeets hrest⟩

/-! ## The refinement -/

section Refine

variable {σ : Type} {w : Writer σ} {content : σ → Content}

theorem totalBlocks_eq {off : Nat} {vs : List Visit} {chunks : List Chunk} (h : MeetsAll blkSz off vs chunks) :
    totalBlocks (vs.map Visit.fill) * blkSz.toNat = expandedSize blkSz.toNat chunks := by
  induction h with
  | nil => exact Nat.zero_mul _
  | @cons off v ch vs chunks head tail ih =>
    have hblocks : v.fill.getBlocksAndValue.1.toNat = ch.blocks := by rw [head.first, head.blocks]
    calc totalBlocks ((v :: vs).map Visit.fill) * blkSz.toNat
        = (ch.blocks + totalBlocks (vs.map Visit.fill)) * blkSz.toNat := by rw [← hblocks]; rfl
      _ = expandedSize blkSz.toNat (ch :: chunks) := by rw [Nat.add_mul, ih]; rfl

/-- **Refinement.** For a well-formed image of less than `2 ^ 64` bytes, `write_sparse_image` returns the
size of the image and leaves the storage as one pass over the chunks does. -/
theorem writeSparseImage_refines_expand (hw : w.Stores content) (s : σ) {b : Buf} {header : SparseHeader}
    {chunks : List Chunk} (h : WellFormed b.bytes header chunks) (hb : b.len < 2 ^ 64)
    (hsize : expandedSize header.blkSz.toNat chunks < 2 ^ 64) :
    ∃ s' b', writeSparseImage w (s, b) = (.ok (expandedSize header.blkSz.toNat chunks), (s', b')) ∧
      content s' = expand header.blkSz.toNat chunks 0 (content s) := by
  have hwidth := SparseHeader.codec_width
  have hrec := FillInfo.codec_width
  have hlen : SparseHeader.codec.width ≤ b.bytes.length := by
    by_contra hlt
    have herr := h.accepted
    rw [isSparseImage, copyFrom, if_neg hlt] at herr
    cases herr
  obtain ⟨c, img, hwalk, himg, hfill, hoff, hmeets⟩ := walk_parse
    (c := ⟨SparseHeader.codec.width, 0, 0⟩) h.parsed (rfl : b.bytes.length = _) rfl (by dsimp only; omega) hlen hb
    (by dsimp only; omega)
  dsimp only at hoff hmeets
  suffices hwp : wp (writeSparseImage w) (s, b) fun r p =>
      r = .ok (expandedSize header.blkSz.toNat chunks) ∧
        content p.1 = expand header.blkSz.toNat chunks 0 (content s) by
    obtain ⟨hr, hcontent⟩ := hwp
    exact ⟨_, _, Prod.ext hr rfl, hcontent⟩
  unfold writeSparseImage
  apply wp_get_bind
  refine wp_lift_ok_bind h.accepted ?_
  refine wp_bind (passOne_wp hw.spec trivial trivial _ _) ?_ ?_
  swap
  · rintro e ⟨s₁, b₁⟩ ⟨-, -, hr⟩
    have hr := (hr hw.infallible).1
    rw [hwalk] at hr
    exact absurd hr Res.error_ne_ok
  rintro c₁ ⟨s₁, b₁⟩ ⟨-, hpost, -⟩
  obtain ⟨hout, hstored⟩ := hpost.stored c₁ rfl
  obtain ⟨rfl, rfl⟩ := Prod.mk.inj (Except.ok.inj (hwalk.symm.trans hout))
  obtain ⟨-, hle, hrecs⟩ := walk_records [] rfl (Nat.zero_le _) rfl hwalk
  rw [List.nil_append] at hrecs
  apply wp_get_bind
  apply wp_assert_bind (decide_eq_true hle)
  dsimp only
  rw [hrecs]
  dsimp only at himg
  have hroom : c.fillOff + 4 ≤ b₁.len := by
    unfold Buf.len
    omega
  have hempty : FillBuffer.Holds c.fillOff b₁ ⟨none, 0⟩ := ⟨rfl, hle, fun _ h => absurd h (by simp)⟩
  have hsum : 0 + totalBlocks ((walk header.blkSz header.totalChunks.toNat
      ⟨SparseHeader.codec.width, 0, 0⟩ b.bytes).1.map Visit.fill) * header.blkSz.toNat < 2 ^ 64 := by
    rw [totalBlocks_eq hmeets]
    omega
  have htwo := passTwo_wp (s := s₁) header.blkSz hw.spec hw.infallible h.blkSz_whole _ trivial trivial hroom
    hempty hsum
  refine wp_bind htwo ?_ ?_
  · rintro _ ⟨s₂, b₂⟩ ⟨-, hcontent⟩
    refine wp_pure ⟨by rw [hoff, Nat.zero_add], hcontent.trans ?_⟩
    rw [hstored]
    exact storeAll_eq_expand hmeets (content s)
  · rintro e ⟨s₂, b₂⟩ ⟨hr, -⟩
    exact absurd hr Res.error_ne_ok

theorem writeSparseImage_refines_expand_small :
    ∃ s' b', writeSparseImage contentWriter (fun _ => 0, ⟨0, smallImage⟩) = (.ok 16, (s', b')) ∧
      s' = expand 4 [⟨1, .raw [1, 2, 3, 4]⟩, ⟨2, .fill [5, 6, 7, 8]⟩, ⟨1, .skip⟩] 0 (fun _ => 0) := by
  have hwf : WellFormed smallImage ⟨headerMagic, 1, 0, 28, 12, 4, 4, 3, 0⟩
      [⟨1, .raw [1, 2, 3, 4]⟩, ⟨2, .fill [5, 6, 7, 8]⟩, ⟨1, .skip⟩] :=
    ⟨by decide +kernel, by decide, by decide, by decide +kernel⟩
  exact writeSparseImage_refines_expand (b := ⟨0, smallImage⟩) contentWriter_stores (fun _ => 0) hwf
    (by decide +kernel) (by decide)

def hugeImage : List UInt8 :=
  imageOf 0xFFFFFFFC 0 [(⟨chunkTypeDontCare, 0, 0xFFFFFFFF, 12⟩, []), (⟨chunkTypeDontCare, 0, 0xFFFFFFFF, 12⟩, [])]

theorem writeSparseImage_overflows :
    WellFormed hugeImage ⟨headerMagic, 1, 0, 28, 12, 0xFFFFFFFC, 0, 2, 0⟩
        [⟨0xFFFFFFFF, .skip⟩, ⟨0xFFFFFFFF, .skip⟩] ∧
      contentWriter.Stores id ∧
      (writeSparseImage contentWriter (fun _ => 0, ⟨0, hugeImage⟩)).1 = err errArithmeticOverflow :=
  ⟨⟨by decide +kernel, by decide, by decide, by decide +kernel⟩, contentWriter_stores, by decide +kernel⟩

end Refine

end Gbl.Partitions.Sparse
