import Gbl.Storage.Gpt.Basic

/-!
# What a load finds

The content of a disk determines which copies of the GPT it holds: `diskHeader` and `diskTable` read them off, and
`CopyValid` says that a copy passes both checks.
-/

namespace Gbl.Storage

open Lib Lib.Exec

/-! ## The copies on a disk -/

def headerPos (info : BlockInfo) : HeaderType → Nat
  | .primary => info.blockSize
  | .secondary => (info.numBlocks - 1) * info.blockSize

def diskHeader (info : BlockInfo) (c : Content) (t : HeaderType) : GptHeader :=
  GptHeader.codec.dec (slice c (headerPos info t) gptHeaderSize)

def GptHeader.entriesPos (info : BlockInfo) (h : GptHeader) : Nat := h.entries.toNat * info.blockSize

def GptHeader.tableBytes (info : BlockInfo) (c : Content) (h : GptHeader) : List UInt8 :=
  slice c (h.entriesPos info) (h.entriesCount.toNat * gptEntrySize)

theorem GptHeader.length_tableBytes (info : BlockInfo) (c : Content) (h : GptHeader) :
    (h.tableBytes info c).length = h.entriesCount.toNat * gptEntrySize :=
  length_slice _ _ _

def diskTable (info : BlockInfo) (c : Content) (t : HeaderType) : List GptEntry :=
  (diskHeader info c t).table ((diskHeader info c t).tableBytes info c)

structure CopyValid (P : Platform) (info : BlockInfo) (c : Content) (t : HeaderType) : Prop where
  header : checkHeader P info (diskHeader info c t) t = .ok ()
  entries : checkEntries P (diskHeader info c t) ((diskHeader info c t).tableBytes info c) = .ok ()

@[simp] theorem length_diskTable (info : BlockInfo) (c : Content) (t : HeaderType) :
    (diskTable info c t).length = (diskHeader info c t).entriesCount.toNat :=
  Codec.length_decAll _ _ _

theorem encAll_diskTable (info : BlockInfo) (c : Content) (t : HeaderType) :
    GptEntry.codec.encAll (diskTable info c t) = (diskHeader info c t).tableBytes info c :=
  Codec.encAll_decAll _ _ _ (GptHeader.length_tableBytes _ _ _)

namespace Gpt

structure Loadable (P : Platform) (d : Disk) (g : Gpt) (t : HeaderType) : Prop where
  valid : CopyValid P d.io.info d.io.content t
  start : headerStart d.io.info t = .ok (headerPos d.io.info t)
  header : d.Reaches (g.headerBuf t).addr (headerPos d.io.info t) gptHeaderSize
  capacity : (diskHeader d.io.info d.io.content t).entriesCount.toNat ≤ g.capacity
  offset_lt : (diskHeader d.io.info d.io.content t).entriesPos d.io.info < 2 ^ 64
  table : d.Reaches (g.tableBuf t).addr ((diskHeader d.io.info d.io.content t).entriesPos d.io.info)
    ((diskHeader d.io.info d.io.content t).entriesCount.toNat * gptEntrySize)

structure SameBuffer (g g' : Gpt) : Prop where
  addr : g'.addr = g.addr
  capacity : g'.capacity = g.capacity

structure SameBut (t : HeaderType) (g g' : Gpt) : Prop extends SameBuffer g g' where
  blockSize : g'.blockSize = g.blockSize
  header : ∀ u, u ≠ t → g'.header u = g.header u
  table : ∀ u, u ≠ t → g'.table u = g.table u

namespace SameBuffer

variable {g g' g'' : Gpt}

theorem refl (g : Gpt) : SameBuffer g g := ⟨rfl, rfl⟩

theorem trans (h : SameBuffer g g') (h' : SameBuffer g' g'') : SameBuffer g g'' :=
  ⟨h'.addr.trans h.addr, h'.capacity.trans h.capacity⟩

theorem headerAddr (h : SameBuffer g g') (t : HeaderType) : (g'.headerBuf t).addr = (g.headerBuf t).addr := by
  cases t <;> simp only [headerBuf, h.addr]

theorem tableAddr (h : SameBuffer g g') (t : HeaderType) : (g'.tableBuf t).addr = (g.tableBuf t).addr := by
  cases t <;> simp only [tableBuf, h.addr, h.capacity]

end SameBuffer

namespace SameBut

variable {t : HeaderType} {g g' g'' : Gpt}

theorem refl (t : HeaderType) (g : Gpt) : SameBut t g g := ⟨.refl g, rfl, fun _ _ => rfl, fun _ _ => rfl⟩

theorem trans (h : SameBut t g g') (h' : SameBut t g' g'') : SameBut t g g'' :=
  ⟨h.toSameBuffer.trans h'.toSameBuffer, h'.blockSize.trans h.blockSize,
    fun u hu => (h'.header u hu).trans (h.header u hu),
    fun u hu => (h'.table u hu).trans (h.table u hu)⟩

end SameBut

/-! ## Parts of the buffer -/

@[simp] theorem header_setHeader (g : Gpt) (h : GptHeader) (t : HeaderType) : (g.setHeader h t).header t = h := by
  cases t <;> rfl

@[simp] theorem table_setHeader (g : Gpt) (h : GptHeader) (t u : HeaderType) :
    (g.setHeader h t).table u = g.table u := by
  cases t <;> cases u <;> rfl

@[simp] theorem table_setTable (g : Gpt) (bytes : List UInt8) (t : HeaderType) :
    (g.setTable bytes t).table t = GptEntry.codec.decAll g.capacity bytes := by
  cases t <;> rfl

@[simp] theorem header_setTable (g : Gpt) (bytes : List UInt8) (t u : HeaderType) :
    (g.setTable bytes t).header u = g.header u := by
  cases t <;> cases u <;> rfl

theorem sameBut_setHeader (g : Gpt) (h : GptHeader) (t : HeaderType) : SameBut t g (g.setHeader h t) := by
  cases t
  all_goals
    refine ⟨⟨rfl, rfl⟩, rfl, fun u hu => ?_, fun u hu => ?_⟩
    · cases u <;> first | rfl | exact absurd rfl hu
    · cases u <;> rfl

theorem sameBut_setTable (g : Gpt) (bytes : List UInt8) (t : HeaderType) : SameBut t g (g.setTable bytes t) := by
  cases t
  all_goals
    refine ⟨⟨rfl, rfl⟩, rfl, fun u hu => ?_, fun u hu => ?_⟩
    · cases u <;> rfl
    · cases u <;> first | rfl | exact absurd rfl hu

theorem bytes_headerBuf (g : Gpt) (t : HeaderType) : (g.headerBuf t).bytes = GptHeader.codec.enc (g.header t) := by
  unfold headerBuf
  rfl

theorem bytes_tableBuf (g : Gpt) (t : HeaderType) : (g.tableBuf t).bytes = GptEntry.codec.encAll (g.table t) := by
  unfold tableBuf
  rfl

theorem len_headerBuf (g : Gpt) (t : HeaderType) : (g.headerBuf t).len = gptHeaderSize := GptHeader.codec.length_enc _

theorem len_tableBuf (g : Gpt) (t : HeaderType) : (g.tableBuf t).len = g.capacity * gptEntrySize := by
  rw [Buf.len, bytes_tableBuf, Codec.length_encAll, length_table]
  rfl

theorem inMemory_headerBuf (g : Gpt) (t : HeaderType) : (g.headerBuf t).InMemory := by
  have hmem := g.inMemory
  have hlen := g.len_headerBuf t
  unfold gptLoadBufferSize gptHeaderSize at hmem
  unfold gptHeaderSize at hlen
  have haddr : (g.headerBuf t).addr ≤ g.addr + 100 := by
    cases t <;> simp only [headerBuf, gptHeaderSize] <;> omega
  exact ⟨by omega, by omega, by omega⟩

theorem inMemory_tableBuf (g : Gpt) (t : HeaderType) : (g.tableBuf t).InMemory := by
  have hmem := g.inMemory
  have hcap := g.capacity_le
  have hlen := g.len_tableBuf t
  unfold gptLoadBufferSize gptHeaderSize gptEntrySize at hmem
  unfold gptMaxNumEntries at hcap
  unfold gptEntrySize at hlen
  cases t with
  | primary =>
    have haddr : (g.tableBuf .primary).addr = g.addr + 192 := rfl
    exact ⟨by omega, by omega, by omega⟩
  | secondary =>
    have haddr : (g.tableBuf .secondary).addr = g.addr + 192 + g.capacity * 128 := rfl
    exact ⟨by omega, by omega, by omega⟩

/-! ## Transfers to and from the buffer -/

section Transfers

variable {t : HeaderType} {d : Disk} {g : Gpt} {offset : Nat}

theorem onHeader_read_wp (hd : d.scratch.InMemory) (ho : offset < 2 ^ 64) :
    wp (onHeader t (Disk.read offset)) (d, g) fun r p =>
      ∃ b, Disk.ReadPost offset d (g.headerBuf t) r p.1 b ∧ p.2 = g.setHeader (GptHeader.codec.dec b.bytes) t := by
  unfold onHeader
  apply wp_zoom
  refine wp_mono (Disk.read_wp hd (g.inMemory_headerBuf t) ho) ?_
  rintro r ⟨d', b⟩ hpost
  exact ⟨b, hpost, rfl⟩

theorem inMemory_tableBuf_sub {n : Nat} (hn : n ≤ g.capacity * gptEntrySize) : ((g.tableBuf t).sub 0 n).InMemory :=
  (g.inMemory_tableBuf t).sub (by rw [len_tableBuf]; omega) (g.inMemory_tableBuf t).addr_lt

theorem len_tableBuf_sub {n : Nat} (hn : n ≤ g.capacity * gptEntrySize) : ((g.tableBuf t).sub 0 n).len = n :=
  Buf.sub_len _ (by rw [len_tableBuf]; omega)

theorem onTable_read_wp (hd : d.scratch.InMemory) (ho : offset < 2 ^ 64) {n : Nat}
    (hn : n ≤ g.capacity * gptEntrySize) :
    wp (onTable t n (Disk.read offset)) (d, g) fun r p =>
      ∃ b, Disk.ReadPost offset d ((g.tableBuf t).sub 0 n) r p.1 b ∧
        p.2 = g.setTable (splice (g.tableBuf t).bytes 0 b.bytes) t := by
  unfold onTable
  apply wp_zoom
  refine wp_mono (Disk.read_wp hd (inMemory_tableBuf_sub hn) ho) ?_
  rintro r ⟨d', b⟩ hpost
  exact ⟨b, hpost, rfl⟩

theorem setHeader_self (g : Gpt) (t : HeaderType) : g.setHeader (g.header t) t = g := by
  cases t <;> rfl

theorem setTable_self (g : Gpt) (t : HeaderType) : g.setTable (GptEntry.codec.encAll (g.table t)) t = g := by
  have hdec : GptEntry.codec.decAll g.capacity (GptEntry.codec.encAll (g.table t)) = g.table t := by
    rw [← g.length_table t, Codec.decAll_encAll]
  cases t with
  | primary =>
    change GptEntry.codec.decAll g.capacity (GptEntry.codec.encAll g.primaryEntries) = _ at hdec
    simp only [setTable, table, hdec]
  | secondary =>
    change GptEntry.codec.decAll g.capacity (GptEntry.codec.encAll g.secondaryEntries) = _ at hdec
    simp only [setTable, table, hdec]

theorem onHeader_write_wp (hd : d.scratch.InMemory) (ho : offset < 2 ^ 64) :
    wp (onHeader t (Disk.write offset)) (d, g) fun r p =>
      (∃ b, Disk.WritePost offset d (g.headerBuf t) r p.1 b) ∧ p.2 = g := by
  unfold onHeader
  apply wp_zoom
  refine wp_mono (Disk.write_wp hd (g.inMemory_headerBuf t) ho) ?_
  rintro r ⟨d', b⟩ hpost
  refine ⟨⟨b, hpost⟩, ?_⟩
  rw [hpost.buf]
  show g.setHeader (GptHeader.codec.dec (GptHeader.codec.enc (g.header t))) t = g
  rw [Codec.dec_enc, setHeader_self]

theorem onTable_write_wp (hd : d.scratch.InMemory) (ho : offset < 2 ^ 64) :
    wp (onTable t (g.capacity * gptEntrySize) (Disk.write offset)) (d, g) fun r p =>
      (∃ b, Disk.WritePost offset d (g.tableBuf t) r p.1 b) ∧ p.2 = g := by
  have hsub : (g.tableBuf t).sub 0 (g.capacity * gptEntrySize) = g.tableBuf t := by
    show Buf.mk _ _ = _
    rw [Nat.add_zero, List.drop_zero, List.take_of_length_le (g.len_tableBuf t).le]
  unfold onTable
  apply wp_zoom
  show wp _ (d, (g.tableBuf t).sub 0 (g.capacity * gptEntrySize)) _
  rw [hsub]
  refine wp_mono (Disk.write_wp hd (g.inMemory_tableBuf t) ho) ?_
  rintro r ⟨d', b⟩ hpost
  refine ⟨⟨b, hpost⟩, ?_⟩
  rw [hpost.buf]
  show g.setTable (splice (g.tableBuf t).bytes 0 (g.tableBuf t).bytes) t = g
  rw [splice_zero, List.drop_length, List.append_nil]
  exact g.setTable_self t

end Transfers

/-! ## The specification of a load -/

theorem headerStart_eq_ok {info : BlockInfo} {t : HeaderType} {start : Nat}
    (h : headerStart info t = .ok start) : start = headerPos info t ∧ start < 2 ^ 64 := by
  cases t with
  | primary =>
    cases h
    exact ⟨rfl, info.blockSize_lt⟩
  | secondary =>
    change (((info.numBlocks : SafeNum) - 1) * info.blockSize).toU64 = .ok start at h
    rw [SafeNum.one_eq, SafeNum.ofNat_of_lt info.numBlocks_lt, SafeNum.valid_sub] at h
    by_cases h1 : 1 ≤ info.numBlocks
    · rw [if_pos h1, SafeNum.ofNat_of_lt info.blockSize_lt, SafeNum.valid_mul, SafeNum.toU64_ofNat_eq_ok] at h
      exact ⟨h.2.symm, h.2 ▸ h.1⟩
    · rw [if_neg h1] at h
      cases h

structure Refused (P : Platform) (d : Disk) (g : Gpt) (t : HeaderType) : Prop where
  start : headerStart d.io.info t = .ok (headerPos d.io.info t)
  header : d.Reaches (g.headerBuf t).addr (headerPos d.io.info t) gptHeaderSize
  refused : (∃ e, checkHeader P d.io.info (diskHeader d.io.info d.io.content t) t = err e) ∨
    checkHeader P d.io.info (diskHeader d.io.info d.io.content t) t = .ok () ∧
    (diskHeader d.io.info d.io.content t).entriesCount.toNat ≤ g.capacity ∧
    (diskHeader d.io.info d.io.content t).entriesPos d.io.info < 2 ^ 64 ∧
    d.Reaches (g.tableBuf t).addr ((diskHeader d.io.info d.io.content t).entriesPos d.io.info)
      ((diskHeader d.io.info d.io.content t).entriesCount.toNat * gptEntrySize) ∧
    ∃ e, checkEntries P (diskHeader d.io.info d.io.content t)
      ((diskHeader d.io.info d.io.content t).tableBytes d.io.info d.io.content) = err e

structure LoadPost (P : Platform) (t : HeaderType) (d : Disk) (g : Gpt) (r : Result Unit) (d' : Disk)
    (g' : Gpt) : Prop where
  ran : d.Ran (fun a => a.IsRead ∧ a.Proper d.io.info) d'
  content : d'.io.content = d.io.content
  same : SameBut t g g'
  loaded : r = .ok () → Loadable P d g t ∧ g'.header t = diskHeader d.io.info d.io.content t ∧
    g'.table t = diskTable d.io.info d.io.content t ++
      (g.table t).drop (diskHeader d.io.info d.io.content t).entriesCount.toNat
  succeeds : d.io.FaultFree → Loadable P d g t → r = .ok ()
  refused : d.io.FaultFree → Refused P d g t → ∃ e, r = err e

/-- What is left after the header of a copy has been read. -/
structure HeaderLoaded (t : HeaderType) (d : Disk) (g : Gpt) (d' : Disk) (g' : Gpt) : Prop where
  ran : d.Ran (fun a => a.IsRead ∧ a.Proper d.io.info) d'
  content : d'.io.content = d.io.content
  same : SameBut t g g'
  start : headerStart d.io.info t = .ok (headerPos d.io.info t)
  reaches : d.Reaches (g.headerBuf t).addr (headerPos d.io.info t) gptHeaderSize
  header : g'.header t = diskHeader d.io.info d.io.content t
  table : g'.table t = g.table t

section Load

variable {P : Platform} {t : HeaderType} {d d₁ : Disk} {g g₁ : Gpt}

theorem Refused.checkEntries (h : Refused P d g t)
    (hcheck : checkHeader P d.io.info (diskHeader d.io.info d.io.content t) t = .ok ()) :
    (diskHeader d.io.info d.io.content t).entriesCount.toNat ≤ g.capacity ∧
      (diskHeader d.io.info d.io.content t).entriesPos d.io.info < 2 ^ 64 ∧
      d.Reaches (g.tableBuf t).addr ((diskHeader d.io.info d.io.content t).entriesPos d.io.info)
        ((diskHeader d.io.info d.io.content t).entriesCount.toNat * gptEntrySize) ∧
      ∃ e, Storage.checkEntries P (diskHeader d.io.info d.io.content t)
        ((diskHeader d.io.info d.io.content t).tableBytes d.io.info d.io.content) = err e := by
  rcases h.refused with ⟨e, he⟩ | ⟨-, hentries⟩
  · exact absurd (he.symm.trans hcheck) Res.error_ne_ok
  · exact hentries

theorem readHeader_wp (P : Platform) (hd : d.scratch.InMemory) {start : Nat}
    (hstart : headerStart d.io.info t = .ok start) :
    wp (onHeader t (Disk.read start)) (d, g) fun r p =>
      (r = .ok () → HeaderLoaded t d g p.1 p.2) ∧ ∀ e, r = .error e → LoadPost P t d g (.error e) p.1 p.2 := by
  obtain ⟨rfl, hlt⟩ := headerStart_eq_ok hstart
  refine wp_mono (onHeader_read_wp hd hlt) ?_
  rintro r ⟨d', g'⟩ ⟨b, hread, hg⟩
  dsimp only at hread hg
  have hsame : SameBut t g g' := hg ▸ sameBut_setHeader _ _ _
  refine ⟨fun hok => ?_, ?_⟩
  · obtain ⟨hreach, hbytes⟩ := hread.filled hok
    rw [len_headerBuf] at hreach hbytes
    refine ⟨hread.ran, hread.content, hsame, hstart, hreach, ?_, by rw [hg, table_setHeader]⟩
    rw [hg, header_setHeader, hbytes]
    rfl
  · rintro e rfl
    have hok : d.io.FaultFree → d.Reaches (g.headerBuf t).addr (headerPos d.io.info t) gptHeaderSize →
        (.error e : Result Unit) = .ok () := by
      intro hff hreach
      refine hread.succeeds hff ?_
      rw [len_headerBuf]
      exact hreach
    exact ⟨hread.ran, hread.content, hsame, nofun, fun hff hl => hok hff hl.header,
      fun hff hr => absurd (hok hff hr.header) Res.error_ne_ok⟩

/-- A load that fails behind the header read leaves what that read has left. -/
theorem HeaderLoaded.failed (h : HeaderLoaded t d g d₁ g₁) {e : Stop Error} (hno : Loadable P d g t → False)
    (href : Refused P d g t → ∃ e', (.error e : Result Unit) = err e') : LoadPost P t d g (.error e) d₁ g₁ :=
  ⟨h.ran, h.content, h.same, nofun, fun _ hl => (hno hl).elim, fun _ hr => href hr⟩

theorem HeaderLoaded.readEntries_wp (h : HeaderLoaded t d g d₁ g₁) (hd : d.scratch.InMemory)
    (hcheck : checkHeader P d.io.info (diskHeader d.io.info d.io.content t) t = .ok ())
    (hcap : (diskHeader d.io.info d.io.content t).entriesCount.toNat * gptEntrySize ≤ g₁.capacity * gptEntrySize)
    (hoff : (diskHeader d.io.info d.io.content t).entriesPos d.io.info < 2 ^ 64) :
    wp (do
      onTable t ((diskHeader d.io.info d.io.content t).entriesCount.toNat * gptEntrySize)
        (Disk.read ((diskHeader d.io.info d.io.content t).entriesPos d.io.info))
      let p ← Exec.get
      Exec.lift (checkEntries P (diskHeader d.io.info d.io.content t) (p.2.tableBuf t).bytes)) (d₁, g₁)
      fun r p => LoadPost P t d g r p.1 p.2 := by
  refine wp_bind (onTable_read_wp (h.ran.inMemory hd) hoff hcap) ?_ ?_
  rotate_left
  · -- the entries cannot be read
    rintro e ⟨d', g'⟩ ⟨b, hread, rfl⟩
    have hok : d.io.FaultFree → d.Reaches (g.tableBuf t).addr
        ((diskHeader d.io.info d.io.content t).entriesPos d.io.info)
        ((diskHeader d.io.info d.io.content t).entriesCount.toNat * gptEntrySize) →
        (.error e : Result Unit) = .ok () := by
      intro hff hreach
      refine hread.succeeds (h.ran.io.faultFree hff) ((h.ran.reaches_iff _ _ _).mpr ?_)
      rw [len_tableBuf_sub hcap, Buf.sub_addr, Nat.add_zero, h.same.tableAddr]
      exact hreach
    exact ⟨h.ran.trans (h.ran.io.info ▸ hread.ran), hread.content.trans h.content,
      h.same.trans (sameBut_setTable _ _ _), nofun, fun hff hl => hok hff hl.table,
      fun hff hr => absurd (hok hff (hr.checkEntries hcheck).2.2.1) Res.error_ne_ok⟩
  rintro ⟨⟩ ⟨d₂, g₂⟩ ⟨b, hread, hg₂⟩
  dsimp only at hread hg₂
  obtain ⟨hreach, hbytes⟩ := hread.filled rfl
  rw [len_tableBuf_sub hcap, h.content] at hbytes
  rw [len_tableBuf_sub hcap, Buf.sub_addr, Nat.add_zero, h.same.tableAddr, h.ran.reaches_iff] at hreach
  have hcapacity : (diskHeader d.io.info d.io.content t).entriesCount.toNat ≤ g.capacity :=
    Nat.le_of_mul_le_mul_right (h.same.capacity ▸ hcap) (by decide)
  have htable : g₂.table t = diskTable d.io.info d.io.content t ++
      (g.table t).drop (diskHeader d.io.info d.io.content t).entriesCount.toNat := by
    rw [hg₂, table_setTable, ← length_table g₁ t]
    show GptEntry.codec.decAll _ (splice (GptEntry.codec.encAll (g₁.table t)) 0 b.bytes) = _
    rw [h.table, hbytes]
    exact GptEntry.codec.decAll_splice_encAll (by rw [length_table]; exact hcapacity) (length_slice _ _ _)
  refine wp_get_bind (wp_lift ?_)
  have hentries : checkEntries P (diskHeader d.io.info d.io.content t) (g₂.tableBuf t).bytes =
      checkEntries P (diskHeader d.io.info d.io.content t)
        ((diskHeader d.io.info d.io.content t).tableBytes d.io.info d.io.content) := by
    show checkEntries P _ (GptEntry.codec.encAll (g₂.table t)) = _
    rw [htable, Codec.encAll_append, encAll_diskTable, checkEntries_append]
    exact length_slice _ _ _
  dsimp only
  rw [hentries]
  refine ⟨h.ran.trans (h.ran.io.info ▸ hread.ran), hread.content.trans h.content,
    h.same.trans (hg₂ ▸ sameBut_setTable _ _ _), fun hok => ?_, fun _ hl => hl.valid.entries,
    fun _ hr => (hr.checkEntries hcheck).2.2.2⟩
  refine ⟨⟨⟨hcheck, hok⟩, h.start, h.reaches, hcapacity, hoff, hreach⟩, ?_, htable⟩
  rw [hg₂, header_setTable, h.header]

end Load

theorem load_wp (P : Platform) (t : HeaderType) {d : Disk} {g : Gpt} (hd : d.scratch.InMemory) :
    wp (loadAndValidateGpt P t) (d, g) fun r p => LoadPost P t d g r p.1 p.2 := by
  unfold loadAndValidateGpt
  refine wp_get_bind ?_
  refine wp_lift_bind (fun start hstart => ?_) fun e he => ?_
  rotate_left
  · -- no position to read from
    refine ⟨.refl _ _, rfl, .refl _ _, nofun, fun _ hl => ?_, fun _ hr => ?_⟩
    · have hs := hl.start
      rw [he] at hs
      cases hs
    · have hs := hr.start
      rw [he] at hs
      cases hs
  refine wp_bind (readHeader_wp P hd hstart) ?_ fun e _ hpost => hpost.2 e rfl
  rintro ⟨⟩ ⟨d₁, g₁⟩ ⟨hloaded, -⟩
  have h : HeaderLoaded t d g d₁ g₁ := hloaded rfl
  refine wp_get_bind ?_
  dsimp only
  rw [h.header]
  refine wp_lift_bind (fun _ hcheck => ?_) fun e he => h.failed (fun hl => ?_) fun hr => ?_
  rotate_left
  · rw [hl.valid.header] at he
    cases he
  · rcases hr.refused with ⟨e', he'⟩ | ⟨hok, -⟩
    · exact ⟨e', he.symm.trans he'⟩
    · exact absurd (he.symm.trans hok) Res.error_ne_ok
  have hvalid := (checkHeader_eq_ok_iff P d.io.info _ t).mp hcheck
  have hneeded : gptBufferSize (diskHeader d.io.info d.io.content t).entriesCount.toNat = .ok _ :=
    if_neg (Nat.not_lt.mpr hvalid.entriesCount)
  refine wp_lift_ok_bind (unwrap_eq_ok.mpr hneeded) ?_
  -- the entries have to fit, and to start below 2^64
  have hroom : (diskHeader d.io.info d.io.content t).entriesCount.toNat ≤ g.capacity →
      (diskHeader d.io.info d.io.content t).entriesCount.toNat * gptEntrySize ≤ g₁.capacity * gptEntrySize :=
    fun hle => by rw [h.same.capacity]; exact Nat.mul_le_mul_right _ hle
  refine wp_lift_bind (fun _ hcap => ?_) fun e he => h.failed (fun hl => ?_) fun hr => ?_
  rotate_left
  · rw [ensure, if_pos (hroom hl.capacity)] at he
    cases he
  · rw [ensure, if_pos (hroom (hr.checkEntries hcheck).1)] at he
    cases he
  have hoffset : (diskHeader d.io.info d.io.content t).entriesPos d.io.info < 2 ^ 64 →
      unwrap (((diskHeader d.io.info d.io.content t).entries.toNat : SafeNum) * d.io.info.blockSize).toU64 =
        .ok _ := fun hlt =>
    unwrap_eq_ok.mpr ((SafeNum.mul_toU64_eq_ok (UInt64.toNat_lt _) d.io.info.blockSize_lt).mpr ⟨hlt, rfl⟩)
  refine wp_lift_bind (fun off hoff => ?_) fun e he => h.failed (fun hl => ?_) fun hr => ?_
  rotate_left
  · rw [hoffset hl.offset_lt] at he
    cases he
  · rw [hoffset (hr.checkEntries hcheck).2.1] at he
    cases he
  obtain ⟨hofflt, rfl⟩ :=
    (SafeNum.mul_toU64_eq_ok (UInt64.toNat_lt _) d.io.info.blockSize_lt).mp (unwrap_eq_ok.mp hoff)
  exact h.readEntries_wp hd hcheck (ensure_eq_ok.mp hcap) hofflt

end Gpt

end Gbl.Storage
