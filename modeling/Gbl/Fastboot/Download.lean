import Gbl.Fastboot.Sending

/-!
# Downloads

The host announces a size, the device answers with DATA, and the payload follows in as many packets as the host likes.
-/

namespace Gbl.Fastboot

open Lib Lib.Exec

structure Backend.LawfulBuffer {σ : Type} (B : Backend σ) : Prop where
  get_set : ∀ s buf, B.buffer (B.setBuffer s buf) = buf
  set_get : ∀ s, B.setBuffer s (B.buffer s) = s
  set_set : ∀ s a b, B.setBuffer (B.setBuffer s a) b = B.setBuffer s b

def Exceeds (n : Nat) : List Bytes → Prop
  | [] => False
  | p :: ps => 0 < n ∧ (n < p.length ∨ Exceeds (n - p.length) ps)

instance : (n : Nat) → (ps : List Bytes) → Decidable (Exceeds n ps)
  | _, [] => isFalse id
  | n, p :: ps =>
    have : Decidable (Exceeds (n - p.length) ps) := instDecidableExceeds (n - p.length) ps
    inferInstanceAs (Decidable (0 < n ∧ (n < p.length ∨ Exceeds (n - p.length) ps)))

section Loop

variable {τ σ : Type} {T : Transport τ} {L : Link T} {B : Backend σ} {s : Conn τ σ}

def Conn.filled (B : Backend σ) (s : Conn τ σ) (t : τ) (buf : Bytes) : Conn τ σ :=
  { s with transport := t, backend := B.setBuffer s.backend buf }

variable {p : Bytes} {ps : List Bytes} {lo hi total downloaded : Nat} {packets rest : List Bytes} {fuel : Nat}

theorem receiveInto_fits (hin : L.Incoming s.transport (p :: ps)) (hfits : lo + p.length ≤ hi)
    (hhi : hi ≤ (B.buffer s.backend).length) :
    ∃ t', receiveInto T B lo hi s = (.ok p.length, s.filled B t' (splice (B.buffer s.backend) lo p)) ∧
      L.Incoming t' ps ∧ ∀ sent, L.Sent s.transport sent → L.Sent t' sent := by
  have hwindow : p.length ≤ (((B.buffer s.backend).take hi).drop lo).length := by
    rw [List.length_drop, List.length_take]
    omega
  obtain ⟨t', hrun, hin', hsent⟩ := L.receive hin hwindow
  refine ⟨t', ?_, hin', hsent⟩
  rw [receiveInto, zoom, hrun, Conn.filled]
  simp only [splice_window hfits hhi]

theorem receiveInto_exceeds (hin : L.Incoming s.transport (p :: ps)) (hlong : hi < lo + p.length)
    (hlo : lo ≤ hi) (hhi : hi ≤ (B.buffer s.backend).length) :
    ∃ r t' buf, receiveInto T B lo hi s = (r, s.filled B t' buf) ∧ Oversize (hi - lo) r ∧
      ∀ sent, L.Sent s.transport sent → L.Sent t' sent := by
  have hwindow : (((B.buffer s.backend).take hi).drop lo).length = hi - lo := by
    rw [List.length_drop, List.length_take]
    omega
  have hroom : (((B.buffer s.backend).take hi).drop lo).length < p.length := by
    rw [hwindow]
    omega
  obtain ⟨r, t', out', hrun, hover, -, hsent⟩ := L.refuse hin hroom
  rw [hwindow] at hover
  exact ⟨r, t', splice (B.buffer s.backend) lo out', by rw [receiveInto, zoom, hrun]; rfl, hover, hsent⟩

@[simp] theorem filled_filled (hB : B.LawfulBuffer) (t₁ t₂ : τ) (a b : Bytes) :
    (s.filled B t₁ a).filled B t₂ b = s.filled B t₂ b := by
  simp [Conn.filled, hB.set_set]

theorem receiveAll_step (hB : B.LawfulBuffer) (fuel : Nat) (hin : L.Incoming s.transport (p :: ps))
    (hmore : downloaded < total) (hfits : downloaded + p.length ≤ total)
    (htotal : total ≤ (B.buffer s.backend).length) (hlt : total < 2 ^ 64) :
    ∃ s' : Conn τ σ, receiveAll T B (fuel + 1) total downloaded s =
        receiveAll T B fuel total (downloaded + p.length) s' ∧
      s' = s.filled B s'.transport (splice (B.buffer s.backend) downloaded p) ∧
      B.buffer s'.backend = splice (B.buffer s.backend) downloaded p ∧ L.Incoming s'.transport ps ∧
      ∀ sent, L.Sent s.transport sent → L.Sent s'.transport sent := by
  obtain ⟨t', hrun, hin', hsent⟩ := receiveInto_fits hin hfits htotal
  refine ⟨s.filled B t' (splice (B.buffer s.backend) downloaded p), ?_, rfl, hB.get_set _ _, hin', hsent⟩
  rw [receiveAll, if_pos hmore]
  refine (bind_run_ok hrun).trans ?_
  by_cases hp : p.length = 0
  · rw [if_pos hp, hp, Nat.add_zero]
  · rw [if_neg hp, if_pos (by omega), if_neg (by omega)]

theorem receiveAll_complete (hB : B.LawfulBuffer) (hin : L.Incoming s.transport (packets ++ rest))
    (hsum : downloaded + packets.flatten.length = total) (htotal : total ≤ (B.buffer s.backend).length)
    (hlt : total < 2 ^ 64) (hfuel : packets.length < fuel) :
    ∃ t', receiveAll T B fuel total downloaded s =
        (.ok true, s.filled B t' (splice (B.buffer s.backend) downloaded packets.flatten)) ∧
      (∃ left, left <:+ packets ∧ left.flatten = [] ∧ L.Incoming t' (left ++ rest)) ∧
      ∀ sent, L.Sent s.transport sent → L.Sent t' sent := by
  induction packets generalizing fuel downloaded s with
  | nil =>
    obtain ⟨fuel, rfl⟩ := Nat.exists_eq_add_of_lt hfuel
    have hdone : ¬ downloaded < total := by
      simp only [List.flatten_nil, List.length_nil] at hsum
      omega
    refine ⟨s.transport, ?_, ⟨[], List.suffix_rfl, rfl, hin⟩, fun _ h => h⟩
    rw [receiveAll, if_neg hdone, List.flatten_nil, splice_nil, Conn.filled, hB.set_get]
    rfl
  | cons p ps ih =>
    obtain ⟨fuel, rfl⟩ : ∃ k, fuel = k + 1 := ⟨fuel - 1, by omega⟩
    rw [List.flatten_cons, List.length_append] at hsum
    by_cases hmore : downloaded < total
    · obtain ⟨s', hstep, hs', hbuf, hin', hsent'⟩ := receiveAll_step hB fuel hin hmore (by omega) htotal hlt
      have hroom : total ≤ (B.buffer s'.backend).length := by
        rw [hbuf, length_splice (by omega)]
        exact htotal
      obtain ⟨t, hrest, ⟨left, hleft, hempty, hinT⟩, hsentT⟩ :=
        ih hin' (show downloaded + p.length + ps.flatten.length = total by omega) hroom (by simpa using hfuel)
      refine ⟨t, ?_, ⟨left, hleft.trans (List.suffix_cons p ps), hempty, hinT⟩,
        fun sent h => hsentT sent (hsent' sent h)⟩
      rw [hstep, hrest, hbuf, hs', filled_filled hB, splice_splice (by omega), List.flatten_cons]
    · -- all that is left is empty
      have hnil : (p :: ps).flatten = [] := by
        rw [← List.length_eq_zero_iff, List.flatten_cons, List.length_append]
        omega
      refine ⟨s.transport, ?_, ⟨p :: ps, List.suffix_rfl, hnil, hin⟩, fun _ h => h⟩
      rw [receiveAll, if_neg hmore, hnil, splice_nil, Conn.filled, hB.set_get]
      rfl

theorem receiveAll_exceeds (hB : B.LawfulBuffer) (hin : L.Incoming s.transport (packets ++ rest))
    (hexc : Exceeds (total - downloaded) packets) (htotal : total ≤ (B.buffer s.backend).length)
    (hlt : total < 2 ^ 64) (hfuel : packets.length < fuel) :
    ∃ r t' buf, receiveAll T B fuel total downloaded s = (r, s.filled B t' buf) ∧
      (r = .ok false ∨ r.IsErr ∧ ¬ (L.Faultless ∧ total < 2 ^ 63)) ∧
      ∀ sent, L.Sent s.transport sent → L.Sent t' sent := by
  induction packets generalizing fuel downloaded s with
  | nil => exact absurd hexc id
  | cons p ps ih =>
    obtain ⟨fuel, rfl⟩ : ∃ k, fuel = k + 1 := ⟨fuel - 1, by omega⟩
    obtain ⟨hpos, hcase⟩ := hexc
    have hmore : downloaded < total := by omega
    by_cases hlong : total - downloaded < p.length
    · obtain ⟨r, t', buf, hrun, hover, hsent⟩ :=
        receiveInto_exceeds hin (show total < downloaded + p.length by omega) (by omega) htotal
      rw [receiveAll, if_pos hmore]
      rcases r with (e | _ | _) | v
      · refine ⟨_, t', buf, bind_run_error hrun, Or.inr ⟨Res.isErr_err e, ?_⟩, hsent⟩
        rintro ⟨hfault, -⟩
        have hne := hfault s.transport (((B.buffer s.backend).take total).drop downloaded) _ hin
        have hrun' := congrArg Prod.fst hrun
        rw [receiveInto, zoom] at hrun'
        simp only at hrun'
        rw [hrun'] at hne
        exact hne (Res.isErr_err e)
      · exact absurd hover id
      · exact absurd hover id
      · obtain ⟨hv, hv'⟩ := hover
        by_cases hsum : downloaded + v < 2 ^ 64
        · refine ⟨.ok false, t', buf, (bind_run_ok hrun).trans ?_, Or.inl rfl, hsent⟩
          rw [if_neg (by omega), if_pos hsum, if_pos (by omega)]
          rfl
        · refine ⟨err (.other (some "Invalid read size from transport")), t', buf,
            (bind_run_ok hrun).trans ?_, Or.inr ⟨Res.isErr_err _, fun hn => hsum (by omega)⟩, hsent⟩
          rw [if_neg (by omega), if_neg hsum]
          rfl
    · have hexc' : Exceeds (total - (downloaded + p.length)) ps := by
        rw [← Nat.sub_sub]
        exact hcase.resolve_left hlong
      obtain ⟨s', hstep, hs', hbuf, hin', hsent'⟩ := receiveAll_step hB fuel hin hmore (by omega) htotal hlt
      have hroom : total ≤ (B.buffer s'.backend).length := by
        rw [hbuf, length_splice (by omega)]
        exact htotal
      obtain ⟨r, t, buf, hrest, hr, hsentT⟩ := ih hin' hexc' hroom (by simpa using hfuel)
      refine ⟨r, t, buf, ?_, hr, fun sent h => hsentT sent (hsent' sent h)⟩
      rw [hstep, hrest, hs', filled_filled hB]

theorem exceeds_or_reaches_or_short (n : Nat) (ps : List Bytes) :
    Exceeds n ps ∨ (∃ packets rest, ps = packets ++ rest ∧ packets.flatten.length = n) ∨ ps.flatten.length < n := by
  induction ps generalizing n with
  | nil =>
    rcases Nat.eq_zero_or_pos n with rfl | hn
    · exact Or.inr (Or.inl ⟨[], [], rfl, rfl⟩)
    · exact Or.inr (Or.inr hn)
  | cons p ps ih =>
    rcases Nat.eq_zero_or_pos n with rfl | hn
    · exact Or.inr (Or.inl ⟨[], p :: ps, rfl, rfl⟩)
    by_cases hlong : n < p.length
    · exact Or.inl ⟨hn, Or.inl hlong⟩
    · rcases ih (n - p.length) with h | ⟨packets, rest, rfl, hsum⟩ | h
      · exact Or.inl ⟨hn, Or.inr h⟩
      · refine Or.inr (Or.inl ⟨p :: packets, rest, rfl, ?_⟩)
        rw [List.flatten_cons, List.length_append]
        omega
      · refine Or.inr (Or.inr ?_)
        rw [List.flatten_cons, List.length_append]
        omega

theorem receiveAll_waits (hB : B.LawfulBuffer) (hin : L.Incoming s.transport packets)
    (hsum : downloaded + packets.flatten.length < total) (htotal : total ≤ (B.buffer s.backend).length)
    (hlt : total < 2 ^ 64) (hfuel : packets.length < fuel) :
    ∃ s', receiveAll T B fuel total downloaded s = (.error .hang, s') ∧ s'.calls = s.calls ∧
      ∀ sent, L.Sent s.transport sent → L.Sent s'.transport sent := by
  induction packets generalizing fuel downloaded s with
  | nil =>
    obtain ⟨fuel, rfl⟩ : ∃ k, fuel = k + 1 := ⟨fuel - 1, by omega⟩
    have hrun : receiveInto T B downloaded total s = (.error .hang, s.filled B s.transport
        (splice (B.buffer s.backend) downloaded (((B.buffer s.backend).take total).drop downloaded))) := by
      rw [receiveInto, zoom, L.wait hin]
      rfl
    rw [receiveAll, if_pos (by simpa using hsum)]
    exact ⟨_, bind_run_error hrun, rfl, fun _ h => h⟩
  | cons p ps ih =>
    obtain ⟨fuel, rfl⟩ : ∃ k, fuel = k + 1 := ⟨fuel - 1, by omega⟩
    rw [List.flatten_cons, List.length_append] at hsum
    obtain ⟨s', hstep, hs', hbuf, hin', hsent'⟩ :=
      receiveAll_step hB fuel hin (show downloaded < total by omega) (by omega) htotal hlt
    have hroom : total ≤ (B.buffer s'.backend).length := by
      rw [hbuf, length_splice (by omega)]
      exact htotal
    obtain ⟨s'', hrest, hcalls, hsent⟩ :=
      ih hin' (show downloaded + p.length + ps.flatten.length < total by omega) hroom (by simpa using hfuel)
    refine ⟨s'', hstep.trans hrest, ?_, fun sent h => hsent sent (hsent' sent h)⟩
    rw [hcalls, hs']
    rfl

end Loop

/-! ## The command -/

structure Requested {τ σ : Type} {T : Transport τ} (L : Link T) (B : Backend σ) (s : Conn τ σ)
    (sent : List Bytes) (args : List Text) (n : Nat) (b : σ) (packets rest : List Bytes) : Prop where
  size : downloadSize args = .ok n
  pos : 0 < n
  lent : B.getDownloadBuffer s.backend = (.ok (), b)
  room : n ≤ (B.buffer b).length
  incoming : L.Incoming s.transport (packets ++ rest)
  sent : L.Sent s.transport sent

theorem downloadSize_lt {args : List Text} {n : Nat} (h : downloadSize args = .ok n) : n < 2 ^ 64 := by
  unfold downloadSize at h
  cases harg : nextArg args with
  | none => simp [harg] at h
  | some a =>
    rw [harg] at h
    cases hhex : hexToU64 a with
    | error e => simp [hhex, Except.mapError] at h
    | ok v =>
      simp only [hhex, Except.mapError, Except.ok.injEq] at h
      exact h ▸ hexToU64_lt hhex

section Command

variable {τ σ : Type} {T : Transport τ} {L : Link T} {B : Backend σ} {s : Conn τ σ} {b : σ}
  {sent packets rest : List Bytes} {args : List Text} {n fuel : Nat}

def Conn.awaiting (s : Conn τ σ) (t : τ) (b : σ) : Conn τ σ :=
  { s with transport := t, backend := b, resp := .new }

theorem downloadBufferLen_run (hlent : B.getDownloadBuffer s.backend = (.ok (), b)) :
    downloadBufferLen B s = (.ok (B.buffer b).length, { s with backend := b }) := by
  have hrun : zoom (fun c : Conn τ σ => c.backend) (fun c b => { c with backend := b }) B.getDownloadBuffer s =
      (.ok (), { s with backend := b }) := by
    rw [zoom, hlent]
  exact (bind_run_ok hrun).trans rfl

theorem download_sized (hsize : downloadSize args = .ok n) (hlent : B.getDownloadBuffer s.backend = (.ok (), b)) :
    download T B fuel args s = (if (B.buffer b).length < n then replyFail T (text "Download size is too big")
      else if n = 0 then replyFail T (text "Zero download size")
      else do
        sendDataMessage T n
        if ← receiveAll T B fuel n 0 then
          let r ← call T (.downloadComplete n) (B.downloadComplete n)
          replyUnit T r
        else replyFail T (text "More data received then expected")) (s.awaiting s.transport b) := by
  unfold download
  refine (bind_run_ok (modify_run _ s)).trans ?_
  rw [hsize]
  exact bind_run_ok (downloadBufferLen_run (s := { s with resp := .new }) hlent)

theorem download_start (h : Requested L B s sent args n b packets rest) :
    ∃ t', L.Sends sent [dataPacket n] s.transport t' ∧ download T B fuel args s = (do
        if ← receiveAll T B fuel n 0 then
          let r ← call T (.downloadComplete n) (B.downloadComplete n)
          replyUnit T r
        else replyFail T (text "More data received then expected")) (s.awaiting t' b) := by
  obtain ⟨t', hdata, hsends⟩ := sendDataMessage_run (s := s.awaiting s.transport b) n rfl h.sent
  refine ⟨t', hsends, (download_sized h.size h.lent).trans ?_⟩
  rw [if_neg (Nat.not_lt.mpr h.room), if_neg (Nat.ne_of_gt h.pos)]
  exact bind_run_ok hdata

def okayPacket : Bytes := text "OKAY"

def tooLongPacket : Bytes := text "FAIL" ++ text "More data received then expected"

theorem download_received (hB : B.LawfulBuffer) (h : Requested L B s sent args n b packets rest)
    (hfuel : packets.length < fuel) (hsum : packets.flatten.length = n) :
    ∃ t', L.Sent t' (sent ++ [dataPacket n]) ∧
      (∃ left, left <:+ packets ∧ left.flatten = [] ∧ L.Incoming t' (left ++ rest)) ∧
      download T B fuel args s = (do
        let r ← call T (.downloadComplete n) (B.downloadComplete n)
        replyUnit T r) (s.awaiting t' (B.setBuffer b (packets.flatten ++ (B.buffer b).drop n))) := by
  obtain ⟨t₁, hsends₁, hstart⟩ := download_start (T := T) (L := L) h
  obtain ⟨t₂, hloop, hleft, hsent₂⟩ := receiveAll_complete (s := s.awaiting t₁ b) hB (hsends₁.incoming _ h.incoming)
      (show 0 + packets.flatten.length = n by omega) h.room (downloadSize_lt h.size) hfuel
  have hstate : (Conn.filled B (s.awaiting t₁ b) t₂ (splice (B.buffer (s.awaiting t₁ b).backend) 0 packets.flatten)) =
      s.awaiting t₂ (B.setBuffer b (packets.flatten ++ (B.buffer b).drop n)) := by
    rw [splice_zero, hsum]
    rfl
  rw [hstate] at hloop
  exact ⟨t₂, hsent₂ _ hsends₁.sent, hleft, hstart.trans (bind_run_ok hloop)⟩

theorem download_completes (hB : B.LawfulBuffer) (h : Requested L B s sent args n b packets rest)
    (hfuel : packets.length < fuel) (hsum : packets.flatten.length = n) {d : Talk Text (Outcome σ Unit)}
    (hd : d = B.downloadComplete n (B.setBuffer b (packets.flatten ++ (B.buffer b).drop n)))
    (hshort : ∀ t ∈ Talk.messages d, t.length ≤ maxTextSize) (hok : (Talk.outcome d).1 = .ok ()) :
    ∃ s', download T B fuel args s = (.ok (), s') ∧
      s'.backend = (Talk.outcome d).2 ∧ s'.calls = s.calls ++ [⟨.downloadComplete n, true⟩] ∧
      L.Sent s'.transport (sent ++ dataPacket n :: ((Talk.messages d).map infoPacket ++ [okayPacket])) ∧
      ∃ left, left <:+ packets ∧ left.flatten = [] ∧ L.Incoming s'.transport (left ++ rest) := by
  obtain ⟨t₂, hsent₂, ⟨left, hleft, hempty, hin⟩, hrun⟩ := download_received (T := T) hB h hfuel hsum
  have hret : (Talk.outcome d).1.Returns := by
    rw [hok]
    trivial
  subst hd
  obtain ⟨x, t₃, hcall, hx, hsends₃⟩ := call_run (L := L) (T := T) (.downloadComplete n)
    (s := s.awaiting t₂ (B.setBuffer b (packets.flatten ++ (B.buffer b).drop n)))
    (c := B.downloadComplete n) hshort hret rfl hsent₂
  obtain rfl : x = .ok () := Res.ofExcept_eq_ok.mp (hx.symm.trans hok)
  obtain ⟨t₄, hreply, hsends₄⟩ := replyOkay_run (L := L) (T := T) (t := [])
    (s := Conn.called (s.awaiting t₃ (B.setBuffer b (packets.flatten ++ (B.buffer b).drop n))) _ _ true)
    (by decide) rfl hsends₃.sent
  refine ⟨_, hrun.trans ((bind_run_ok hcall).trans hreply), rfl, rfl, ?_,
    left, hleft, hempty, hsends₄.incoming _ (hsends₃.incoming _ hin)⟩
  have hsent := hsends₄.sent
  simp only [List.append_assoc, List.append_nil, List.cons_append, List.nil_append] at hsent
  exact hsent

theorem download_refused (hB : B.LawfulBuffer) (h : Requested L B s sent args n b packets rest)
    (hfuel : packets.length < fuel) (hexc : Exceeds n packets) :
    ∃ r s', download T B fuel args s = (r, s') ∧ s'.calls = s.calls ∧
      (r = .ok () ∧ L.Sent s'.transport (sent ++ [dataPacket n, tooLongPacket]) ∨
        (r.IsErr ∧ ¬ (L.Faultless ∧ n < 2 ^ 63)) ∧ L.Sent s'.transport (sent ++ [dataPacket n])) := by
  obtain ⟨t₁, hsends₁, hstart⟩ := download_start (T := T) (L := L) h
  obtain ⟨r, t₂, buf, hloop, hr, hsent₂⟩ :=
    receiveAll_exceeds (s := s.awaiting t₁ b) hB (hsends₁.incoming _ h.incoming)
      (show Exceeds (n - 0) packets from hexc) h.room (downloadSize_lt h.size) hfuel
  have hsent := hsent₂ _ hsends₁.sent
  rcases hr with rfl | ⟨hr, hfault⟩
  · obtain ⟨t₃, hreply, hsends₃⟩ := replyFail_run (L := L) (T := T)
      (s := Conn.filled B (s.awaiting t₁ b) t₂ buf) (t := text "More data received then expected")
      (by decide) rfl hsent
    refine ⟨_, _, hstart.trans ((bind_run_ok hloop).trans hreply), rfl, Or.inl ⟨rfl, ?_⟩⟩
    have hsent' := hsends₃.sent
    rwa [List.append_assoc] at hsent'
  · obtain ⟨e, rfl⟩ := hr.exists_err
    exact ⟨_, _, hstart.trans (bind_run_error hloop), rfl, Or.inr ⟨⟨Res.isErr_err e, hfault⟩, hsent⟩⟩

/-- **Downloads are exact.** However the payload is cut into packets: the host gets DATA with its size, the backend is
told once, with the payload at the start of its buffer and the rest as it was, and then the host gets OKAY. If a
packet is too long, the backend is told nothing and there is no OKAY. -/
theorem download_exact (hB : B.LawfulBuffer) (h : Requested L B s sent args n b packets rest)
    (hfuel : packets.length < fuel) :
    hexToU64 ((dataPacket n).drop 4) = .ok n ∧
    (packets.flatten.length = n →
      let d := B.downloadComplete n (B.setBuffer b (packets.flatten ++ (B.buffer b).drop n))
      (∀ t ∈ Talk.messages d, t.length ≤ maxTextSize) → (Talk.outcome d).1 = .ok () →
      ∃ s', download T B fuel args s = (.ok (), s') ∧
        s'.backend = (Talk.outcome d).2 ∧ s'.calls = s.calls ++ [⟨.downloadComplete n, true⟩] ∧
        L.Sent s'.transport
          (sent ++ dataPacket n :: ((Talk.messages d).map infoPacket ++ [okayPacket])) ∧
        ∃ left, left <:+ packets ∧ left.flatten = [] ∧ L.Incoming s'.transport (left ++ rest)) ∧
    (Exceeds n packets →
      ∃ r s', download T B fuel args s = (r, s') ∧ r.Returns ∧ s'.calls = s.calls ∧
        (L.Sent s'.transport (sent ++ [dataPacket n]) ∨
          L.Sent s'.transport (sent ++ [dataPacket n, tooLongPacket]))) := by
  refine ⟨?_, ?_, ?_⟩
  · rw [dataPacket, List.drop_left' (by decide)]
    exact hexToU64_lowerHex (by decide) (by decide) (downloadSize_lt h.size)
  · intro hsum d hshort hok
    exact download_completes hB h hfuel hsum rfl hshort hok
  · intro hexc
    obtain ⟨r, s', hrun, hcalls, ⟨rfl, hsent⟩ | ⟨⟨hr, -⟩, hsent⟩⟩ := download_refused (T := T) hB h hfuel hexc
    · exact ⟨_, s', hrun, trivial, hcalls, Or.inr hsent⟩
    · exact ⟨r, s', hrun, hr.returns, hcalls, Or.inl hsent⟩

end Command

def bufferBackend : Backend Bytes where
  getVar _ _ b := .done (.ok (0, List.replicate maxResponseSize 0), b)
  getVarAll b := .done (.ok (), b)
  getDownloadBuffer := pure ()
  buffer b := b
  setBuffer _ b := b
  downloadComplete _ b := .done (.ok (), b)
  flash _ b := .done (.ok (), b)
  erase _ b := .done (.ok (), b)
  upload b := .done (.inl (.ok (), b))
  fetch _ _ _ b := .done (.inl (.ok (), b))
  reboot _ b := .done (.inl (.ok (commandError "not possible"), b))
  «continue» b := .done (.ok (), b)
  setActive _ b := .done (.ok (), b)
  boot b := .done (.inl (.ok (), b))
  oem _ b := .done (.ok [], b)

theorem download_exact_tcp :
    ∃ s', download (tcpTransport byteStream) bufferBackend 4 [text "3"]
        ⟨⟨[[1], [], [2, 3]].flatMap frame, []⟩, [9, 9, 9, 9, 9], .new, []⟩ = (.ok (), s') ∧
      s'.backend = [1, 2, 3, 9, 9] ∧ s'.calls = [⟨.downloadComplete 3, true⟩] ∧
      s'.transport.output = [dataPacket 3, okayPacket].flatMap frame := by
  have hrequest : Requested tcpLink bufferBackend
      ⟨⟨[[1], [], [2, 3]].flatMap frame, []⟩, [9, 9, 9, 9, 9], .new, []⟩ [] [text "3"] 3 [9, 9, 9, 9, 9]
      [[1], [], [2, 3]] [] :=
    ⟨by decide, by decide, rfl, by decide, ⟨by decide, by decide⟩, rfl⟩
  obtain ⟨s', hrun, hbackend, hcalls, hsent, -⟩ :=
    (download_exact ⟨fun _ _ => rfl, fun _ => rfl, fun _ _ _ => rfl⟩ hrequest
      (show ([[1], [], [2, 3]] : List Bytes).length < 4 by decide)).2.1 rfl
      (fun t ht => absurd ht List.not_mem_nil) rfl
  exact ⟨s', hrun, hbackend, hcalls, hsent⟩

end Gbl.Fastboot
