import Gbl.Fastboot.Replies
import Gbl.Fastboot.Windows

/-!
# Reading a partition back (`fetch`)

`fetch:name:offset:size` is parsed from its end, so that the name may contain colons.
-/

namespace Gbl.Fastboot

open Lib Lib.Exec Partitions
open Storage (Buf Disk Access)

namespace GblFastboot

section Model

variable (display : Error → Text)

def getDownloadBuffer {ε : Type} : Exec ε GblFastboot Buf := fun s =>
  match s.currentDownloadBuffer with
  | some buffer => (.ok buffer, s)
  | none =>
    match s.bufferPool with
    | [] => (.error .hang, s)
    | buffer :: pool => (.ok buffer, { s with bufferPool := pool, currentDownloadBuffer := some buffer })

def openWindow (part : Text) : Exec CommandError GblFastboot (Nat × PartitionIo × Buf) := do
  let (blk, io) ← parseAndGetPartitionIo display part
  let buffer ← getDownloadBuffer
  pure (blk, io, buffer)

def close (s : GblFastboot) (blk : Nat) (io : PartitionIo) (buffer : Buf) : GblFastboot :=
  { s with
    disks := s.disks.modify blk fun g => { g with disk := io.disk }
    currentDownloadBuffer := some buffer }

def fetchLoop (s : GblFastboot) (blk stop : Nat) :
    Nat → Nat → PartitionIo → Buf → Talk Bytes (Outcome GblFastboot Unit)
  | 0, _, io, buffer => .done (.error .hang, s.close blk io buffer)
  | fuel + 1, curr, io, buffer =>
    if curr < stop then
      let toSend := min (stop - curr) buffer.len
      match PartitionIo.read curr (io, buffer.sub 0 toSend) with
      | (.ok (), io, piece) =>
        .ask piece.bytes fun
          | .ok () => fetchLoop s blk stop fuel (curr + toSend) io (buffer.patch 0 piece.bytes)
          | .error e => .done (.err (.ofText (display e)), s.close blk io (buffer.patch 0 piece.bytes))
      | (.error e, io, piece) =>
        .done (commandResult display (.error e), s.close blk io (buffer.patch 0 piece.bytes))
    else .done (.ok (), s.close blk io buffer)

def uploading (size : Nat) : Text := text "Uploading " ++ text (toString size) ++ text " bytes..."

def fetch (part : Text) (offset size : Nat) : UploadCall GblFastboot := fun s =>
  match openWindow display part s with
  | (.error e, s) => .done (.inl (.error e, s))
  | (.ok (blk, io, buffer), s) =>
    if h : offset + size < 2 ^ 64 then
      .ask (uploading size) fun
        | .error e => .done (.inl (.err (.ofText (display e)), s))
        | .ok () => .done (.inr
            { size
              size_lt := by omega
              refused := fun e => (.err (.ofText (display e)), s)
              payload := fetchLoop display s blk (offset + size) (size + 1) offset io buffer })
    else .done (.inl (.err (.ofText (display .arithmeticOverflow)), s))

end Model

end GblFastboot

/-! ## The command -/

def fetchCommand (part off sz : Text) : Text := text "fetch:" ++ (part ++ colon :: (off ++ colon :: sz))

theorem colon_not_mem_of_parseHexDigits {acc n : Nat} {t : Text} (h : parseHexDigits acc t = .ok n) : colon ∉ t := by
  induction t generalizing acc with
  | nil => exact List.not_mem_nil
  | cons c cs ih =>
    rw [parseHexDigits] at h
    cases hd : hexValue c with
    | none => simp [hd] at h
    | some d =>
      have hnone : hexValue colon = none := by decide
      have hc : colon ≠ c := by
        intro hc
        rw [← hc, hnone] at hd
        cases hd
      simp only [hd] at h
      split at h
      · exact List.not_mem_cons_of_ne_of_not_mem hc (ih h)
      · cases h

theorem colon_not_mem_of_fromStrRadix16 {t : Text} {n : Nat} (h : fromStrRadix16 t = .ok n) : colon ∉ t := by
  unfold fromStrRadix16 at h
  split at h
  · cases h
  · cases h
  · exact List.not_mem_cons_of_ne_of_not_mem (by decide) (colon_not_mem_of_parseHexDigits h)
  · exact colon_not_mem_of_parseHexDigits h

theorem colon_not_mem_of_hexToU64 {t : Text} {n : Nat} (h : hexToU64 t = .ok n) : colon ∉ t := by
  unfold hexToU64 stripPrefix at h
  split at h
  · next hpre =>
    obtain ⟨digits, rfl⟩ := hpre
    rw [Option.getD_some, List.drop_left] at h
    rw [List.mem_append, not_or]
    exact ⟨by decide, colon_not_mem_of_fromStrRadix16 h⟩
  · exact colon_not_mem_of_fromStrRadix16 h

theorem ne_nil_of_hexToU64 {t : Text} {n : Nat} (h : hexToU64 t = .ok n) : t ≠ [] := by
  rintro rfl
  cases h

section Command

variable {part off sz : Text} {o n : Nat}

theorem stripPrefix_fetchCommand :
    stripPrefix (text "fetch:") (fetchCommand part off sz) = some (part ++ colon :: (off ++ colon :: sz)) := by
  rw [stripPrefix, fetchCommand, if_pos (List.prefix_append _ _), List.drop_left]

theorem args_fetchCommand (hoff : hexToU64 off = .ok o) (hsz : hexToU64 sz = .ok n) :
    (split colon (fetchCommand part off sz)).drop 1 = split colon part ++ [off, sz] := by
  rw [split_of_stripPrefix_fetch stripPrefix_fetchCommand, split, List.splitOn_append_cons_self,
    List.splitOn_append_cons_self, List.splitOn_eq_singleton (colon_not_mem_of_hexToU64 hoff),
    List.splitOn_eq_singleton (colon_not_mem_of_hexToU64 hsz)]
  rfl

theorem fetchArgs_fetchCommand (hoff : hexToU64 off = .ok o) (hsz : hexToU64 sz = .ok n) :
    fetchArgs (fetchCommand part off sz) ((split colon (fetchCommand part off sz)).drop 1) = .ok (part, o, n) := by
  have hthree : ¬ (split colon part ++ [off, sz]).length < 3 := by
    have hpos := List.length_pos_iff.mpr (split_ne_nil colon part)
    rw [List.length_append, List.length_cons, List.length_cons, List.length_nil]
    omega
  have hrev : (split colon part ++ [off, sz]).reverse = sz :: off :: (split colon part).reverse := by
    rw [List.reverse_append]
    rfl
  have hlen : (part ++ colon :: (off ++ colon :: sz)).length = part.length + (off.length + sz.length + 2) := by
    simp only [List.length_append, List.length_cons]
    omega
  unfold fetchArgs
  rw [stripPrefix_fetchCommand, args_fetchCommand hoff hsz]
  simp only [if_neg hthree, hrev, nextArg, if_neg (ne_nil_of_hexToU64 hsz), if_neg (ne_nil_of_hexToU64 hoff),
    List.drop_one, List.tail_cons]
  rw [hlen, if_neg (Nat.not_lt.mpr (Nat.le_add_left _ _)), Nat.add_sub_cancel, List.take_left]
  simp only [hoff, hsz]

theorem commandOf_fetchCommand : commandOf (fetchCommand part off sz) = .fetch := by
  have hsplit : fetchCommand part off sz = text "fetch" ++ colon :: (part ++ colon :: (off ++ colon :: sz)) := by
    rw [fetchCommand, show text "fetch:" = text "fetch" ++ [colon] by decide, List.append_assoc]
    rfl
  have hname : (split colon (fetchCommand part off sz)).headD [] = text "fetch" := by
    rw [hsplit, split, List.splitOn_append_cons_self_of_not_mem (by decide)]
    rfl
  rw [commandOf, hname]
  rfl

end Command

section Run

variable {τ σ : Type} {T : Transport τ} {L : Link T} {B : Backend σ} {s : Conn τ σ} {sent incoming : List Bytes}
  {part off sz : Text} {o n fuel : Nat}

theorem process_fetch (display : Error → Text) (hutf : ValidUtf8 (fetchCommand part off sz))
    (hmax : (fetchCommand part off sz).length ≤ maxCommandSize) (hoff : hexToU64 off = .ok o)
    (hsz : hexToU64 sz = .ok n) (hin : L.Incoming s.transport (fetchCommand part off sz :: incoming))
    (hsent : L.Sent s.transport sent) (fuel : Nat) :
    ∃ t', L.Incoming t' incoming ∧ L.Sent t' sent ∧ processNextCommand T display B fuel s =
        ((callUpload T .fetch (B.fetch part o n) >>= replyUpload T) >>= fun _ => pure false)
          { s with transport := t', resp := .new } := by
  obtain ⟨t', zeros, hin', hsent', hrun⟩ := receive_command (B := B) hmax hin hsent display fuel
  have hne : fetchCommand part off sz ≠ [] := List.append_ne_nil_of_left_ne_nil (by decide) _
  have hfetch : fetch T B (fetchCommand part off sz) (argsOf (fetchCommand part off sz)) { s with transport := t' } =
      (callUpload T .fetch (B.fetch part o n) >>= replyUpload T) { s with transport := t', resp := .new } := by
    unfold fetch
    refine (bind_run_ok (modify_run _ _)).trans ?_
    rw [argsOf, fetchArgs_fetchCommand hoff hsz]
  refine ⟨t', hin', hsent', hrun.trans ?_⟩
  rw [processPacket_eq_handle display zeros hne hutf, commandOf_fetchCommand]
  exact bind_run_congr hfetch

theorem process_fetch_replied (display : Error → Text) (hutf : ValidUtf8 (fetchCommand part off sz))
    (hmax : (fetchCommand part off sz).length ≤ maxCommandSize) (hoff : hexToU64 off = .ok o)
    (hsz : hexToU64 sz = .ok n) (hin : L.Incoming s.transport (fetchCommand part off sz :: incoming))
    (hsent : L.Sent s.transport sent) (fuel : Nat) {out : List Bytes} {x : Except CommandError Unit} {b' : σ}
    (hshort : ∀ t ∈ Talk.messages (B.fetch part o n s.backend), t.length ≤ maxTextSize)
    (htrace : uploadTrace (B.fetch part o n s.backend) = (out, 0, (.ofExcept x, b')))
    (hx : (replyText (x.map fun _ => [])).length ≤ maxTextSize) :
    ∃ s', processNextCommand T display B fuel s = (.ok false, s') ∧
      L.Sent s'.transport (sent ++ out ++ [finalPacket x.isOk (replyText (x.map fun _ => []))]) ∧
      L.Incoming s'.transport incoming := by
  obtain ⟨t₀, hin₀, hsent₀, hrun⟩ := process_fetch (B := B) display hutf hmax hoff hsz hin hsent fuel
  have hreturns : (uploadTrace (B.fetch part o n s.backend)).2.2.1.Returns := by
    rw [htrace]
    cases x <;> trivial
  obtain ⟨x', t₁, hcall, hx', hsends₁⟩ := callUpload_run (T := T) (L := L)
    (s := { s with transport := t₀, resp := .new }) .fetch hshort hreturns rfl rfl hsent₀
  rw [htrace] at hcall hx' hsends₁
  obtain rfl : x = x' := Res.ofExcept_injective hx'
  obtain ⟨t₂, hreply, hsends₂⟩ := ends_reply (σ := σ) (L := L) hx
    ((({ s with transport := t₁, resp := .new } : Conn τ σ).owing 0).called .fetch b' x.isOk) (sent ++ out) rfl
    hsends₁.sent
  have hdone := (bind_run_ok (f := replyUpload T) hcall).trans ((replyUpload_complete (Nat.lt_irrefl 0)).trans hreply)
  have hok : (x.map fun _ => ([] : Text)).isOk = x.isOk := by cases x <;> rfl
  rw [hok] at hsends₂
  exact ⟨_, hrun.trans (bind_run_ok hdone), hsends₂.sent, hsends₂.incoming _ (hsends₁.incoming _ hin₀)⟩

/-- A fetch that does not end the session has uploaded all that it has announced. -/
theorem uploaded_of_process_fetch (display : Error → Text) (hutf : ValidUtf8 (fetchCommand part off sz))
    (hmax : (fetchCommand part off sz).length ≤ maxCommandSize) (hoff : hexToU64 off = .ok o)
    (hsz : hexToU64 sz = .ok n) (hin : L.Incoming s.transport (fetchCommand part off sz :: incoming))
    (hsent : L.Sent s.transport sent) (fuel : Nat)
    (hshort : ∀ t ∈ Talk.messages (B.fetch part o n s.backend), t.length ≤ maxTextSize) {s' : Conn τ σ}
    (hrun : processNextCommand T display B fuel s = (.ok false, s')) :
    (uploadTrace (B.fetch part o n s.backend)).2.1 = 0 := by
  obtain ⟨t₀, -, hsent₀, hproc⟩ := process_fetch (B := B) display hutf hmax hoff hsz hin hsent fuel
  obtain ⟨_, s₂, hmid, -⟩ := bind_run_eq_ok (hproc.symm.trans hrun)
  obtain ⟨x, s₁, hcall, hreply⟩ := bind_run_eq_ok hmid
  have hreturns := returns_of_callUpload (s := { s with transport := t₀, resp := .new }) hshort rfl hsent₀ hcall
  obtain ⟨x', t₁, hcall', -, -⟩ := callUpload_run (s := { s with transport := t₀, resp := .new }) .fetch hshort hreturns
    rfl rfl hsent₀
  obtain ⟨-, rfl⟩ := Prod.mk.inj (hcall.symm.trans hcall')
  by_contra howes
  rw [replyUpload_owing (Nat.pos_of_ne_zero howes)] at hreply
  cases hreply

end Run

/-! ## The bytes -/

namespace GblFastboot

variable {display : Error → Text}

section Loop

variable {io : PartitionIo} {buffer : Buf} {curr stop fuel addr len : Nat}

/-- The disk can read each of the pieces of `len` bytes that make up the range. -/
def Reached (io : PartitionIo) (addr len curr stop : Nat) : Prop :=
  ∀ k, curr + k * len < stop →
    io.disk.Reaches addr (io.partStart + (curr + k * len)) (min (stop - (curr + k * len)) len)

theorem reached_iff (hlt : curr < stop) :
    Reached io addr len curr stop ↔ io.disk.Reaches addr (io.partStart + curr) (min (stop - curr) len) ∧
      Reached io addr len (curr + min (stop - curr) len) stop := by
  by_cases hlen : len ≤ stop - curr
  · rw [Nat.min_eq_right hlen]
    have hshift : ∀ k, curr + (k + 1) * len = curr + len + k * len := fun k => by rw [Nat.succ_mul]; omega
    constructor
    · intro h
      refine ⟨by simpa [hlen] using h 0 (by omega), fun k hk => ?_⟩
      rw [← hshift] at hk ⊢
      exact h (k + 1) hk
    · rintro ⟨hfirst, hrest⟩ (_ | k) hk
      · simpa [hlen] using hfirst
      · rw [hshift] at hk ⊢
        exact hrest k hk
  · rw [Nat.min_eq_left (by omega), Nat.add_sub_cancel' (Nat.le_of_lt hlt)]
    constructor
    · intro h
      refine ⟨by simpa [Nat.le_of_not_le hlen] using h 0 (by omega), fun k hk => ?_⟩
      omega
    · rintro ⟨hfirst, -⟩ (_ | k) hk
      · simpa [Nat.le_of_not_le hlen] using hfirst
      · rw [Nat.succ_mul] at hk
        omega

theorem reached_of_ran {P : Access → Prop} {disk : Disk} (hran : io.disk.Ran P disk) :
    Reached { io with disk } addr len curr stop ↔ Reached io addr len curr stop :=
  forall_congr' fun _ => imp_congr_right fun _ => hran.reaches_iff ..

theorem reached_of_usable (husable : io.disk.Usable) (hpos : 0 < len)
    (hinside : io.partStart + stop ≤ io.disk.io.info.total)
    (haddr : addr % io.disk.io.info.alignment = 0 ∨ addr + io.disk.io.info.alignment < 2 ^ 64) :
    Reached io addr len curr stop :=
  fun _ _ => husable.reaches (by omega) (by omega) haddr

theorem deliver_fetchLoop (display : Error → Text) (s : GblFastboot) (blk : Nat) (hv : io.Valid)
    (hff : io.disk.io.FaultFree) (hd : io.disk.scratch.InMemory) (hb : buffer.InMemory) (hpos : 0 < buffer.len)
    (h : Reached io buffer.addr buffer.len curr stop) (hle : curr ≤ stop)
    (hstop : io.partStart + stop ≤ io.partEnd) (hfuel : stop - curr < fuel) :
    ∃ pieces s', deliver (stop - curr) (fetchLoop display s blk stop fuel curr io buffer) = (pieces, 0, (.ok (), s')) ∧
      pieces.flatten = slice io.disk.io.content (io.partStart + curr) (stop - curr) := by
  induction fuel generalizing curr io buffer with
  | zero => exact absurd hfuel (Nat.not_lt_zero _)
  | succ fuel ih =>
    by_cases hlt : curr < stop
    · -- one piece, and then the rest
      rw [reached_iff hlt] at h
      obtain ⟨len, hlen⟩ : ∃ len, len = min (stop - curr) buffer.len := ⟨_, rfl⟩
      rw [← hlen] at h
      have hsublen : (buffer.sub 0 len).len = len := Buf.sub_len buffer (by omega)
      have hsub : (buffer.sub 0 len).InMemory := hb.sub (by omega) hb.addr_lt
      obtain ⟨disk, hread, hcontent, hran⟩ := PartitionIo.read_of_reaches hv hff hd hsub
        (show io.Fits curr (buffer.sub 0 len).len from Nat.le_trans (by omega) hstop) (hsublen.symm ▸ h.1)
      rw [hsublen] at hread
      obtain ⟨bytes, hbytes⟩ : ∃ bytes, bytes = slice io.disk.io.content (io.partStart + curr) len := ⟨_, rfl⟩
      rw [← hbytes] at hread
      have hpiece : bytes.length = len := by rw [hbytes, length_slice]
      have hpatch : (buffer.patch 0 bytes).len = buffer.len := Buf.patch_len buffer (by omega)
      obtain ⟨pieces, s', hdeliver, hflat⟩ :=
        ih (show PartitionIo.Valid { io with disk } from ⟨hv.le, hv.lt⟩) (hran.io.faultFree hff) (hran.inMemory hd)
        (show (buffer.patch 0 bytes).InMemory from hb.congr rfl hpatch) (by omega)
        (by rw [hpatch]; exact (reached_of_ran hran).2 h.2) (show curr + len ≤ stop by omega) hstop (by omega)
      refine ⟨bytes :: pieces, s', ?_, ?_⟩
      · rw [fetchLoop, if_pos hlt]
        simp only [← hlen, hread, deliver]
        rw [if_pos (by omega), hpiece, show stop - curr - len = stop - (curr + len) by omega, hdeliver]
      · rw [List.flatten_cons, hflat, hbytes, hcontent, show stop - curr = len + (stop - (curr + len)) by omega,
          slice_add, Nat.add_assoc]
    · obtain rfl : curr = stop := by omega
      refine ⟨[], s.close blk io buffer, ?_, ?_⟩
      · rw [fetchLoop, if_neg hlt, Nat.sub_self]
        rfl
      · rw [Nat.sub_self]
        rfl

theorem reached_of_deliver (s : GblFastboot) (blk : Nat) (hv : io.Valid) (hd : io.disk.scratch.InMemory)
    (hb : buffer.InMemory) (hle : curr ≤ stop) (hstop : io.partStart + stop ≤ io.partEnd)
    (h : (deliver (stop - curr) (fetchLoop display s blk stop fuel curr io buffer)).2.1 = 0) :
    Reached io buffer.addr buffer.len curr stop := by
  induction fuel generalizing curr io buffer with
  | zero =>
    have hleft : stop - curr = 0 := h
    intro k hk
    omega
  | succ fuel ih =>
    by_cases hlt : curr < stop
    · obtain ⟨len, hlen⟩ : ∃ len, len = min (stop - curr) buffer.len := ⟨_, rfl⟩
      have hsublen : (buffer.sub 0 len).len = len := Buf.sub_len buffer (by omega)
      have hsub : (buffer.sub 0 len).InMemory := hb.sub (by omega) hb.addr_lt
      have ho : curr < 2 ^ 64 := by
        have := hv.lt
        omega
      rw [fetchLoop, if_pos hlt] at h
      rw [reached_iff hlt, ← hlen]
      simp only [← hlen] at h
      obtain ⟨disk, hio, hran⟩ := PartitionIo.read_ran hv hd ho hsub
      rcases hread : PartitionIo.read curr (io, buffer.sub 0 len) with ⟨e | _, io', piece⟩
      · rw [hread, deliver] at h
        have hleft : stop - curr = 0 := h
        omega
      · obtain ⟨hfit, hreach, hbytes⟩ := PartitionIo.read_ok hv hd ho hsub (by rw [hread])
        rw [hread] at h hio hbytes
        obtain rfl : io' = { io with disk } := hio
        have hpiece : piece.bytes.length = len := by rw [show piece.bytes = _ from hbytes, length_slice, hsublen]
        have hpatch : (buffer.patch 0 piece.bytes).len = buffer.len := Buf.patch_len buffer (by omega)
        rw [hsublen] at hreach
        simp only [deliver] at h
        rw [if_pos (by omega), hpiece, show stop - curr - len = stop - (curr + len) by omega] at h
        have hrest :=
          ih (show PartitionIo.Valid { io with disk } from ⟨hv.le, hv.lt⟩) (hran.inMemory hd)
          (show (buffer.patch 0 piece.bytes).InMemory from hb.congr rfl hpatch) (by omega) hstop h
        rw [hpatch] at hrest
        exact ⟨hreach, (reached_of_ran hran).1 hrest⟩
    · intro k hk
      omega

end Loop

/-! ## Opening -/

section Open

variable {b b' : GblFastboot} {part : Text} {blk : Nat} {io : PartitionIo} {buffer : Buf}

def HasBuffer (b : GblFastboot) : Prop := b.currentDownloadBuffer.isSome ∨ b.bufferPool ≠ []

theorem getDownloadBuffer_of_hasBuffer {ε : Type} (h : b.HasBuffer) :
    ∃ buffer b', (getDownloadBuffer : Exec ε GblFastboot Buf) b = (.ok buffer, b') := by
  unfold getDownloadBuffer
  cases hcur : b.currentDownloadBuffer with
  | some buffer => exact ⟨buffer, b, rfl⟩
  | none =>
    cases hpool : b.bufferPool with
    | nil => simp [HasBuffer, hcur, hpool] at h
    | cons buffer pool => exact ⟨_, _, rfl⟩

theorem of_parseAndGetPartitionIo (h : parseAndGetPartitionIo display part b = (.ok (blk, io), b')) :
    io.Valid ∧ (b.HasBuffer → b'.HasBuffer) := by
  unfold parseAndGetPartitionIo at h
  rw [bind_run_ok (get_run b)] at h
  obtain ⟨⟨name, blk', start, size⟩, -, h⟩ := lift_bind_run_eq_ok h
  obtain ⟨whole, b₁, hwait, h⟩ := bind_run_eq_ok h
  obtain ⟨window, hsub, h⟩ := lift_bind_run_eq_ok h
  cases h
  obtain rfl := congrArg Prod.snd hwait
  obtain ⟨_, -, hsub⟩ := Res.bind_eq_ok.mp (commandResult_eq_ok.mp hsub)
  obtain ⟨lo, -, hsub⟩ := Res.bind_eq_ok.mp hsub
  obtain ⟨hi, hhi, hsub⟩ := Res.bind_eq_ok.mp hsub
  cases hsub
  obtain ⟨hlt, rfl⟩ := addU64_eq_ok.mp hhi
  exact ⟨⟨Nat.le_add_right _ _, hlt⟩, id⟩

theorem valid_of_openWindow (h : openWindow display part b = (.ok (blk, io, buffer), b')) : io.Valid := by
  obtain ⟨⟨blk', io'⟩, b₁, hopen, h⟩ := bind_run_eq_ok h
  obtain ⟨buffer', b₂, -, h⟩ := bind_run_eq_ok h
  cases h
  exact (of_parseAndGetPartitionIo hopen).1

theorem openWindow_of_ok (h : parseAndGetPartitionIo display part b = (.ok (blk, io), b')) (hbuffer : b.HasBuffer) :
    ∃ buffer b₁, openWindow display part b = (.ok (blk, io, buffer), b₁) := by
  obtain ⟨buffer, b₁, hget⟩ :=
    getDownloadBuffer_of_hasBuffer (ε := CommandError) ((of_parseAndGetPartitionIo h).2 hbuffer)
  exact ⟨buffer, b₁, (bind_run_ok h).trans (bind_run_ok hget)⟩

theorem length_uploading_le {n : Nat} (hn : n < 2 ^ 64) : (uploading n).length ≤ maxTextSize := by
  have hdigits : (text (toString n)).length ≤ 20 := length_decimal_le (by decide) (hn.trans (by decide))
  have h₁ : (text "Uploading ").length = 10 := by decide
  have h₂ : (text " bytes...").length = 9 := by decide
  simp only [uploading, List.length_append, h₁, h₂, maxTextSize]
  omega

theorem fetch_of_open {o n : Nat} (h : openWindow display part b = (.ok (blk, io, buffer), b')) (hlt : o + n < 2 ^ 64) :
    Talk.messages (fetch display part o n b) = [uploading n] ∧ uploadTrace (fetch display part o n b) =
        (infoPacket (uploading n) :: dataPacket n ::
            (deliver n (fetchLoop display b' blk (o + n) (n + 1) o io buffer)).1,
          (deliver n (fetchLoop display b' blk (o + n) (n + 1) o io buffer)).2) := by
  unfold fetch
  simp only [h, dif_pos hlt]
  exact ⟨rfl, rfl⟩

end Open

/-! ## Fetching -/

section Fetch

variable {τ : Type} {T : Transport τ} {L : Link T} {B : Backend GblFastboot} {s : Conn τ GblFastboot}
  {sent incoming : List Bytes} {part off sz : Text} {o n blk : Nat} {io : PartitionIo} {buffer : Buf}
  {b' : GblFastboot}

/-- **A fetch returns the requested bytes.** For any name, with colons or without, and any buffer, if the range lies in
the window that the name stands for: the host gets INFO, DATA with the size, packets that make up the bytes of the
range, and OKAY, and the session goes on, exactly if the disk can read each piece into the buffer. -/
theorem fetch_returns_bytes_iff (hB : B.fetch = fetch display) (hutf : ValidUtf8 (fetchCommand part off sz))
    (hmax : (fetchCommand part off sz).length ≤ maxCommandSize) (hoff : hexToU64 off = .ok o)
    (hsz : hexToU64 sz = .ok n) (hin : L.Incoming s.transport (fetchCommand part off sz :: incoming))
    (hsent : L.Sent s.transport sent) (hopen : openWindow display part s.backend = (.ok (blk, io, buffer), b'))
    (hfit : io.Fits o n) (hff : io.disk.io.FaultFree) (hd : io.disk.scratch.InMemory) (hbuffer : buffer.InMemory)
    (hpos : 0 < buffer.len) (fuel : Nat) :
    (∃ s' payload, processNextCommand T display B fuel s = (.ok false, s') ∧
      L.Sent s'.transport (sent ++ (infoPacket (uploading n) :: dataPacket n :: payload) ++ [text "OKAY"]) ∧
      payload.flatten = slice io.disk.io.content (io.partStart + o) n ∧ L.Incoming s'.transport incoming) ↔
      Reached io buffer.addr buffer.len o (o + n) := by
  have hvalid := valid_of_openWindow hopen
  have hend : io.partStart + o + n ≤ io.partEnd := hfit
  have hlt : o + n < 2 ^ 64 := by
    have := hvalid.lt
    omega
  obtain ⟨hmessages, htrace⟩ := fetch_of_open hopen hlt
  rw [← hB] at hmessages htrace
  have hshort : ∀ t ∈ Talk.messages (B.fetch part o n s.backend), t.length ≤ maxTextSize := by
    rw [hmessages]
    simpa using length_uploading_le (show n < 2 ^ 64 by omega)
  constructor
  · rintro ⟨s', payload, hrun, -⟩
    have howes := uploaded_of_process_fetch display hutf hmax hoff hsz hin hsent fuel hshort hrun
    rw [htrace] at howes
    have hall : (deliver (o + n - o) (fetchLoop display b' blk (o + n) (n + 1) o io buffer)).2.1 = 0 := by
      rwa [Nat.add_sub_cancel_left]
    exact reached_of_deliver b' blk hvalid hd hbuffer (Nat.le_add_right o n) (by omega) hall
  · intro hreached
    obtain ⟨payload, b₁, hdeliver, hflat⟩ := deliver_fetchLoop display b' blk hvalid hff hd hbuffer hpos hreached
      (Nat.le_add_right o n) (by omega) (show o + n - o < n + 1 by omega)
    rw [Nat.add_sub_cancel_left] at hdeliver hflat
    rw [hdeliver] at htrace
    obtain ⟨s', hrun, hsent', hin'⟩ := process_fetch_replied (x := .ok ()) display hutf hmax hoff hsz hin hsent fuel
      hshort htrace (Nat.zero_le _)
    exact ⟨s', payload, hrun, hsent', hflat, hin'⟩

end Fetch

def fetchOnly (display : Error → Text) : Backend GblFastboot where
  getVar _ _ b := .done (.err (commandError "Not found"), b)
  getVarAll b := .done (.ok (), b)
  getDownloadBuffer := pure ()
  buffer _ := []
  setBuffer b _ := b
  downloadComplete _ b := .done (.ok (), b)
  flash _ b := .done (.err (commandError "Unimplemented"), b)
  erase _ b := .done (.err (commandError "Unimplemented"), b)
  upload b := .done (.inl (.err (commandError "Unimplemented"), b))
  fetch := fetch display
  reboot _ b := .done (.inl (.ok (commandError "Unimplemented"), b))
  «continue» b := .done (.ok (), b)
  setActive _ b := .done (.err (commandError "Unimplemented"), b)
  boot b := .done (.inl (.err (commandError "Unimplemented"), b))
  oem _ b := .done (.err (commandError "Unimplemented"), b)

def countingDisk : Disk :=
  ⟨⟨⟨2, 4, 2, Storage.BlockInfo.two_lt, Storage.BlockInfo.four_lt, Storage.BlockInfo.two_lt⟩, UInt8.ofNat,
    fun _ => none, []⟩,
    ⟨32, [0, 0, 0, 0]⟩⟩

theorem countingDisk_usable : countingDisk.Usable := ⟨⟨_, rfl⟩, by decide, by decide⟩

def countingDevice (buffer : Buf) : GblFastboot :=
  ⟨[⟨countingDisk, false, .raw "all" 8, false, countingDisk.io.info⟩], [], [buffer], none, none⟩

theorem fetch_returns_four_bytes : ∃ (s' : Conn PacketQueue GblFastboot) (payload : List Bytes),
      processNextCommand (packetTransport truncating) (fun _ => []) (fetchOnly fun _ => []) 0
        ⟨⟨[text "fetch:/0:1:0x4"], []⟩, countingDevice ⟨64, [0, 0, 0]⟩, .new, []⟩ = (.ok false, s') ∧
      s'.transport.sent = [text "INFOUploading 4 bytes...", text "DATA00000004"] ++ payload ++ [text "OKAY"] ∧
      payload.flatten = [1, 2, 3, 4] := by
  have hcmd : fetchCommand (text "/0") (text "1") (text "0x4") = text "fetch:/0:1:0x4" := by decide
  have h := (fetch_returns_bytes_iff (L := packetLink truncating) (B := fetchOnly fun _ => [])
    (s := ⟨⟨[fetchCommand (text "/0") (text "1") (text "0x4")], []⟩, countingDevice ⟨64, [0, 0, 0]⟩, .new, []⟩)
    rfl (by decide) (by decide)
    (show hexToU64 (text "1") = .ok 1 by decide) (show hexToU64 (text "0x4") = .ok 4 by decide)
    (show (packetLink truncating).Incoming _ [_] from ⟨rfl, by decide⟩)
    (show (packetLink truncating).Sent _ [] from rfl) (show openWindow _ _ (countingDevice ⟨64, [0, 0, 0]⟩) =
      (.ok (0, ⟨countingDisk, 0, 8⟩, ⟨64, [0, 0, 0]⟩), _) from rfl) (by decide)
    (fun _ => rfl) ⟨by decide, by decide, by decide⟩ ⟨by decide, by decide, by decide⟩ (by decide) 0).2
    (reached_of_usable countingDisk_usable (by decide) (by decide) (.inr (by decide)))
  rw [hcmd] at h
  obtain ⟨s', payload, hrun, hsent, hflat, -⟩ := h
  have hinfo : infoPacket (uploading 4) = text "INFOUploading 4 bytes..." := by decide
  have hdata : dataPacket 4 = text "DATA00000004" := by decide
  rw [hinfo, hdata] at hsent
  exact ⟨s', payload, hrun, hsent, hflat⟩

theorem eight_lt : 8 < 2 ^ 64 := by decide

theorem sixteen_lt : 16 < 2 ^ 64 := by decide

def strictDisk : Disk :=
  ⟨⟨⟨1, 8, 16, Storage.BlockInfo.one_lt, eight_lt, sixteen_lt⟩, UInt8.ofNat, fun _ => none, []⟩,
    ⟨16, List.replicate 30 0⟩⟩

def strictDevice : GblFastboot :=
  ⟨[⟨strictDisk, false, .raw "all" 8, false, strictDisk.io.info⟩], [], [⟨2 ^ 64 - 8, [0, 0, 0, 0]⟩], none, none⟩

/-- On a disk that wants 16-byte alignment, nothing can be read into four bytes at the end of the address space: the
data is announced, and then the session is over. -/
theorem fetch_top_of_memory :
    (∃ b', openWindow (fun _ => []) (text "/0") strictDevice =
      (.ok (0, ⟨strictDisk, 0, 8⟩, ⟨2 ^ 64 - 8, [0, 0, 0, 0]⟩), b')) ∧
    strictDisk.Usable ∧ strictDisk.io.FaultFree ∧ (⟨2 ^ 64 - 8, [0, 0, 0, 0]⟩ : Buf).InMemory ∧
    (processNextCommand (packetTransport truncating) (fun _ => []) (fetchOnly fun _ => []) 0
      ⟨⟨[text "fetch:/0:1:0x4"], []⟩, strictDevice, .new, []⟩).1 = err .invalidInput :=
  ⟨⟨_, rfl⟩, ⟨⟨_, rfl⟩, by decide, by decide⟩, fun _ => rfl, ⟨by decide, by decide, by decide⟩, by decide +kernel⟩

/-! ## Refusals -/

def Short {α : Type} (r : Res CommandError α) : Prop := ∀ e, r = .err e → e.toStr.length ≤ maxTextSize

section Short

variable {α β : Type}

theorem short_ok (a : α) : Short (.ok a) := nofun

theorem short_ofText {t : Text} (h : t.length ≤ maxTextSize) : Short (.err (.ofText t) : Res CommandError α) := by
  rintro e ⟨⟩
  exact (length_toStr_ofText_le t).trans h

theorem short_bind {r : Res CommandError α} {f : α → Res CommandError β} (hr : Short r) (hf : ∀ a, Short (f a)) :
    Short (r >>= f) := by
  rcases r with e | a
  · rintro e' h
    exact hr e' (by cases h; rfl)
  · exact hf a

theorem short_bind_run {σ : Type} {m : Exec CommandError σ α} {f : α → Exec CommandError σ β} {s : σ}
    (hm : Short (m s).1) (hf : ∀ a s', Short (f a s').1) : Short ((m >>= f) s).1 := by
  rcases hrun : m s with ⟨e | a, s'⟩
  · rw [bind_run_error hrun]
    rw [hrun] at hm
    rintro e' h
    exact hm e' (by cases h; rfl)
  · rw [bind_run_ok hrun]
    exact hf a s'

theorem short_commandResult (hdisplay : ∀ e, (display e).length ≤ maxTextSize) (r : Result α) :
    Short (commandResult display r) := by
  rcases r with (e | _ | _) | a
  · exact short_ofText (hdisplay e)
  · exact nofun
  · exact nofun
  · exact short_ok a

theorem short_nextArgU64 (args : List Text) : Short (nextArgU64 args) := by
  unfold nextArgU64
  cases nextArg args with
  | none => exact short_ok none
  | some a =>
    simp only
    cases hexToU64 a with
    | ok v => exact short_ok (some v)
    | error e => exact short_ofText e.length_display_le

theorem short_checkNextArgBlkId (devs : List GblDisk) (defaultBlock : Option Nat) (args : List Text) :
    Short (checkNextArgBlkId devs defaultBlock args) := by
  apply short_bind (short_nextArgU64 args)
  intro blkId
  cases blkId with
  | none => exact short_ok _
  | some v =>
    simp only
    split
    · exact short_ok _
    · exact short_ofText (by decide)

theorem short_parsePartition (hdisplay : ∀ e, (display e).length ≤ maxTextSize) (devs : List GblDisk)
    (defaultBlock : Option Nat) (part : Text) : Short (parsePartition display devs defaultBlock part) := by
  apply short_bind (short_checkNextArgBlkId devs defaultBlock _)
  intro blkId
  apply short_bind (short_nextArgU64 _)
  intro offset
  apply short_bind (short_nextArgU64 _)
  intro size
  apply short_bind (short_commandResult hdisplay _)
  intro found
  apply short_bind (short_commandResult hdisplay _)
  intro partSz
  apply short_bind (short_commandResult hdisplay _)
  intro rest
  apply short_bind (short_commandResult hdisplay _)
  intro spare
  exact short_ok _

theorem short_parseAndGetPartitionIo (hdisplay : ∀ e, (display e).length ≤ maxTextSize) (part : Text)
    (b : GblFastboot) : Short (parseAndGetPartitionIo display part b).1 := by
  apply short_bind_run (short_ok b)
  intro b _
  apply short_bind_run (short_parsePartition hdisplay _ _ part)
  intro found b₁
  apply short_bind_run (short_commandResult hdisplay _)
  intro io b₂
  apply short_bind_run (short_commandResult hdisplay _)
  intro window b₃
  exact short_ok _

theorem short_fetchLoop (hdisplay : ∀ e, (display e).length ≤ maxTextSize) (s : GblFastboot) (blk stop fuel curr : Nat)
    (io : PartitionIo) (buffer : Buf) :
    (fetchLoop display s blk stop fuel curr io buffer).Always (fun _ => True) (fun _ _ => True)
      (fun o => Short o.1) := by
  induction fuel generalizing curr io buffer with
  | zero => exact nofun
  | succ fuel ih =>
    rw [fetchLoop]
    split
    · dsimp only
      split
      · refine ⟨trivial, fun answer _ => ?_⟩
        cases answer with
        | ok _ => exact ih ..
        | error e => exact short_ofText (hdisplay e)
      · exact short_commandResult hdisplay _
    · exact short_ok ()

end Short

def Refuses (display : Error → Text) (B : Backend GblFastboot) (packet : Bytes) (b : GblFastboot) : Prop :=
  ∀ (τ : Type) (T : Transport τ) (L : Link T) (s : Conn τ GblFastboot) (sent incoming : List Bytes) (fuel : Nat),
    s.backend = b → L.Incoming s.transport (packet :: incoming) → L.Sent s.transport sent →
    ∃ s' infos t, processNextCommand T display B fuel s = (.ok false, s') ∧
      L.Sent s'.transport (sent ++ List.map infoPacket infos ++ [text "FAIL" ++ t]) ∧
      L.Incoming s'.transport incoming

def Bad (display : Error → Text) (part : Text) (o n : Nat) (b : GblFastboot) : Prop :=
  (∃ e b', parseAndGetPartitionIo display part b = (.err e, b')) ∨
    ∃ blk io b', parseAndGetPartitionIo display part b = (.ok (blk, io), b') ∧ ¬ io.Fits o n

section Refuse

variable {B : Backend GblFastboot} {b b' : GblFastboot} {part off sz : Text} {o n blk : Nat} {io : PartitionIo}

theorem refuses_of_trace (hutf : ValidUtf8 (fetchCommand part off sz))
    (hmax : (fetchCommand part off sz).length ≤ maxCommandSize) (hoff : hexToU64 off = .ok o)
    (hsz : hexToU64 sz = .ok n) {e : CommandError} (hfetch : B.fetch part o n b = .done (.inl (.err e, b')))
    (he : e.toStr.length ≤ maxTextSize) : Refuses display B (fetchCommand part off sz) b := by
  rintro τ T L s sent incoming fuel rfl hin hsent
  have htrace : uploadTrace (B.fetch part o n s.backend) = ([], 0, (.ofExcept (.error e), b')) := by
    rw [hfetch]
    rfl
  obtain ⟨s', hrun, hsent', hin'⟩ := process_fetch_replied display hutf hmax hoff hsz hin hsent fuel
    (by rw [hfetch]; exact nofun) htrace he
  exact ⟨s', [], e.toStr, hrun, hsent', hin'⟩

theorem infoPacket_ne_dataPacket (t : Text) (n : Nat) : infoPacket t ≠ dataPacket n := by
  intro h
  exact absurd (List.append_inj_left h (by decide)) (by decide)

theorem fail_ne_dataPacket (t : Text) (n : Nat) : text "FAIL" ++ t ≠ dataPacket n := by
  intro h
  exact absurd (List.append_inj_left h (by decide)) (by decide)

theorem not_refuses (hB : B.fetch = fetch display) (hdisplay : ∀ e, (display e).length ≤ maxTextSize)
    (hutf : ValidUtf8 (fetchCommand part off sz)) (hmax : (fetchCommand part off sz).length ≤ maxCommandSize)
    (hoff : hexToU64 off = .ok o) (hsz : hexToU64 sz = .ok n) {buffer : Buf}
    (hopen : openWindow display part b = (.ok (blk, io, buffer), b')) (hlt : o + n < 2 ^ 64) :
    ¬ Refuses display B (fetchCommand part off sz) b := by
  intro h
  obtain ⟨hmessages, htrace⟩ := fetch_of_open hopen hlt
  rw [← hB] at hmessages htrace
  have hin : (packetLink truncating).Incoming ⟨[fetchCommand part off sz], []⟩ [fetchCommand part off sz] := by
    refine ⟨rfl, fun p hp => ?_⟩
    rw [List.mem_singleton.mp hp]
    exact Nat.lt_of_le_of_lt hmax (by decide)
  obtain ⟨s', infos, t, hrun, hsent', -⟩ := h _ _ (packetLink truncating)
    ⟨⟨[fetchCommand part off sz], []⟩, b, .new, []⟩ [] [] 0 rfl hin rfl
  have hshort : ∀ t ∈ Talk.messages (B.fetch part o n b), t.length ≤ maxTextSize := by
    rw [hmessages]
    simpa using length_uploading_le (show n < 2 ^ 64 by omega)
  -- peel the run apart: the call and its reply
  obtain ⟨t₀, -, hsent₀, hproc⟩ := process_fetch (L := packetLink truncating) (B := B)
    (s := ⟨⟨[fetchCommand part off sz], []⟩, b, .new, []⟩) display hutf hmax hoff hsz hin
    (show (packetLink truncating).Sent _ [] from rfl) 0
  rw [hproc] at hrun
  obtain ⟨_, s₂, hmid, hpure⟩ := bind_run_eq_ok hrun
  cases hpure
  obtain ⟨x, s₁, hcall, hreply⟩ := bind_run_eq_ok hmid
  have hreturns := returns_of_callUpload (L := packetLink truncating) (s := ⟨t₀, b, .new, []⟩) hshort rfl hsent₀ hcall
  obtain ⟨x', t₁, hcall', hx, hsends₁⟩ := callUpload_run (L := packetLink truncating)
    (s := ⟨t₀, b, .new, []⟩) .fetch hshort hreturns rfl rfl hsent₀
  obtain ⟨hx', rfl⟩ := Prod.mk.inj (hcall.symm.trans hcall')
  obtain rfl := Except.ok.inj hx'
  by_cases howes : 0 < (uploadTrace (B.fetch part o n b)).2.1
  · rw [replyUpload_owing howes] at hreply
    cases hreply
  · -- what was sent in between contains the announcement
    have htext : (replyText (x.map fun _ => [])).length ≤ maxTextSize := by
      cases x with
      | ok _ => exact Nat.zero_le _
      | error e =>
        rw [htrace] at hx
        exact deliver_always (short_fetchLoop hdisplay ..) n e hx
    rw [replyUpload_complete howes] at hreply
    obtain ⟨t₂, hreply', hsends₂⟩ := ends_reply (L := packetLink truncating) htext
      (((⟨t₁, b, .new, []⟩ : Conn PacketQueue GblFastboot).owing _).called .fetch _ x.isOk) _ rfl hsends₁.sent
    obtain ⟨-, rfl⟩ := Prod.mk.inj (hreply.symm.trans hreply')
    have hlog := hsent'.symm.trans hsends₂.sent
    have hmem : dataPacket n ∈ [] ++ List.map infoPacket infos ++ [text "FAIL" ++ t] := by
      rw [hlog, htrace]
      simp
    rw [List.nil_append, List.mem_append, List.mem_map, List.mem_singleton] at hmem
    obtain ⟨info, -, hinfo⟩ | hfail := hmem
    · exact infoPacket_ne_dataPacket info n hinfo
    · exact fail_ne_dataPacket t n hfail.symm

/-- **A bad fetch is refused before data is announced** exactly if the partition cannot be opened or the
end of the range overflows; a range that only leaves the window is announced like any other. -/
theorem refuses_iff (hB : B.fetch = fetch display) (hdisplay : ∀ e, (display e).length ≤ maxTextSize)
    (hutf : ValidUtf8 (fetchCommand part off sz)) (hmax : (fetchCommand part off sz).length ≤ maxCommandSize)
    (hoff : hexToU64 off = .ok o) (hsz : hexToU64 sz = .ok n) (hbuffer : b.HasBuffer) (hbad : Bad display part o n b) :
    Refuses display B (fetchCommand part off sz) b ↔
      (∃ e b', parseAndGetPartitionIo display part b = (.err e, b')) ∨ 2 ^ 64 ≤ o + n := by
  rcases hbad with ⟨e, b', herr⟩ | ⟨blk, io, b', hok, -⟩
  · refine iff_of_true ?_ (Or.inl ⟨e, b', herr⟩)
    have hfetch : B.fetch part o n b = .done (.inl (.err e, b')) := by
      rw [hB]
      unfold fetch openWindow
      rw [bind_run_error herr]
      rfl
    have hshort := short_parseAndGetPartitionIo hdisplay part b
    rw [herr] at hshort
    exact refuses_of_trace hutf hmax hoff hsz hfetch (hshort e rfl)
  · obtain ⟨buffer, b₁, hopen⟩ := openWindow_of_ok hok hbuffer
    by_cases hlt : o + n < 2 ^ 64
    · refine iff_of_false (not_refuses hB hdisplay hutf hmax hoff hsz hopen hlt) ?_
      rintro (⟨e, b₂, herr⟩ | hge)
      · rw [hok] at herr
        cases herr
      · omega
    · refine iff_of_true ?_ (Or.inr (Nat.le_of_not_lt hlt))
      have hfetch : B.fetch part o n b = .done (.inl (.err (.ofText (display .arithmeticOverflow)), b₁)) := by
        rw [hB]
        unfold fetch
        simp only [hopen, dif_neg hlt]
      exact refuses_of_trace hutf hmax hoff hsz hfetch ((length_toStr_ofText_le _).trans (hdisplay _))

theorem refuses_iff_missing :
    Refuses (fun _ => []) (fetchOnly fun _ => []) (fetchCommand (text "boot") (text "0") (text "1"))
      (countingDevice ⟨64, [0, 0, 0]⟩) :=
  (refuses_iff rfl (fun _ => by decide) (by decide) (by decide) (show hexToU64 (text "0") = .ok 0 by decide)
    (show hexToU64 (text "1") = .ok 1 by decide) (Or.inr (by decide)) (Or.inl ⟨_, _, rfl⟩)).2 (Or.inl ⟨_, _, rfl⟩)

/-- Nine bytes of the eight: they are announced, six of them arrive, the third read fails, and the session is
over without a reply. -/
theorem announces_beyond_window :
    Bad (fun _ => []) (text "/0") 0 9 (countingDevice ⟨64, [0, 0, 0]⟩) ∧
      ¬ Refuses (fun _ => []) (fetchOnly fun _ => []) (fetchCommand (text "/0") (text "0") (text "9"))
        (countingDevice ⟨64, [0, 0, 0]⟩) ∧
      (processNextCommand (packetTransport truncating) (fun _ => []) (fetchOnly fun _ => []) 0
        ⟨⟨[text "fetch:/0:0:9"], []⟩, countingDevice ⟨64, [0, 0, 0]⟩, .new, []⟩).1 = err .invalidInput ∧
      (processNextCommand (packetTransport truncating) (fun _ => []) (fetchOnly fun _ => []) 0
        ⟨⟨[text "fetch:/0:0:9"], []⟩, countingDevice ⟨64, [0, 0, 0]⟩, .new, []⟩).2.transport.sent =
          [text "INFOUploading 9 bytes...", text "DATA00000009", [0, 1, 2], [3, 4, 5]] := by
  refine ⟨Or.inr ⟨0, ⟨countingDisk, 0, 8⟩, _, rfl, by decide⟩, ?_, by decide +kernel, by decide +kernel⟩
  exact not_refuses rfl (fun _ => by decide) (by decide) (by decide) (show hexToU64 (text "0") = .ok 0 by decide)
    (show hexToU64 (text "9") = .ok 9 by decide)
    (show openWindow _ _ (countingDevice _) = (.ok (0, ⟨countingDisk, 0, 8⟩, _), _) from rfl) (by decide)

end Refuse

end GblFastboot

end Gbl.Fastboot
