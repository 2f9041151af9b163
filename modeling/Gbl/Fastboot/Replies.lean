import Gbl.Fastboot.Download

/-!
# One well-formed reply to every command

What the host sees of a command is a list of packets.
-/

namespace Gbl.Fastboot

open Lib Lib.Exec

/-! ## Backends with short messages -/

section Terse

variable {σ α : Type}

def Outcome.Fine (R : α → Prop) (o : Outcome σ α) : Prop :=
  (∃ a, o.1 = .ok a ∧ R a) ∨ ∃ e : CommandError, o.1 = .error (.err e) ∧ e.toStr.length ≤ maxTextSize

def Terse {Q : Type} (size : Q → Nat) (R : α → Prop) (d : Talk Q α) : Prop :=
  d.Always (fun q => size q ≤ maxTextSize) (fun _ _ => True) R

def FineUpload : Outcome σ Unit ⊕ Upload σ → Prop
  | .inl o => o.Fine fun _ => True
  | .inr u => (∀ e, (u.refused e).Fine fun _ => True) ∧
      u.payload.Always (fun _ => True) (fun _ _ => True) (Outcome.Fine fun _ => True)

structure Backend.Terse (B : Backend σ) : Prop where
  getVar : ∀ var args s, Fastboot.Terse List.length
    (Outcome.Fine fun v => (v.2.take v.1).length ≤ maxTextSize) (B.getVar var args s)
  getVarAll : ∀ s, Fastboot.Terse (fun v => v.pieces.flatten.length) (Outcome.Fine fun _ => True)
    (B.getVarAll s)
  getDownloadBuffer : ∀ s, ∃ s', B.getDownloadBuffer s = (.ok (), s')
  downloadComplete : ∀ n s, Fastboot.Terse List.length (Outcome.Fine fun _ => True) (B.downloadComplete n s)
  flash : ∀ part s, Fastboot.Terse List.length (Outcome.Fine fun _ => True) (B.flash part s)
  erase : ∀ part s, Fastboot.Terse List.length (Outcome.Fine fun _ => True) (B.erase part s)
  upload : ∀ s, Fastboot.Terse List.length FineUpload (B.upload s)
  fetch : ∀ part off sz s, Fastboot.Terse List.length FineUpload (B.fetch part off sz s)
  «continue» : ∀ s, Fastboot.Terse List.length (Outcome.Fine fun _ => True) (B.continue s)
  setActive : ∀ slot s, Fastboot.Terse List.length (Outcome.Fine fun _ => True) (B.setActive slot s)
  boot : ∀ s, Fastboot.Terse List.length (fun r => ∃ o, r = .inl o ∧ o.Fine fun _ => True) (B.boot s)
  oem : ∀ cmd s, Fastboot.Terse List.length (Outcome.Fine fun msg => msg.length ≤ maxTextSize) (B.oem cmd s)

variable {Q : Type} {size : Q → Nat} {R : α → Prop} {d : Talk Q α}

theorem Terse.messages (h : Terse size R d) : ∀ q ∈ Talk.messages d, size q ≤ maxTextSize :=
  Dialogue.Always.asked h fun _ => trivial

theorem Terse.outcome (h : Terse size R d) : R (Talk.outcome d) := Dialogue.Always.answered h fun _ => trivial

theorem Outcome.Fine.returns {o : Outcome σ α} (h : o.Fine R) : o.1.Returns := by
  rcases h with ⟨a, ha, -⟩ | ⟨e, he, -⟩
  · rw [ha]
    trivial
  · rw [he]
    trivial

end Terse

/-! ## Replies -/

def finalPacket (okay : Bool) (t : Text) : Bytes := text (if okay then "OKAY" else "FAIL") ++ t

inductive Announced (cmd : Command) : List Bytes → Prop
  | nothing : Announced cmd []
  | download (n : Nat) (h : cmd = .download) : Announced cmd [dataPacket n]
  | upload (n : Nat) (payload : List Bytes) (h : cmd = .upload ∨ cmd = .fetch)
      (hn : payload.flatten.length = n) : Announced cmd (dataPacket n :: payload)

inductive Answered {α : Type} (cmd : Command) (incoming : List Bytes) (calls : List CallRecord) :
    Result α → List Bytes → Prop
  | replied (a : α) (before after : List Text) (data : List Bytes) (okay : Bool) (t : Text)
      (hdata : Announced cmd data) (hokay : okay = true → ∀ c ∈ calls, c.ok = true) :
      Answered cmd incoming calls (.ok a)
        (before.map infoPacket ++ data ++ after.map infoPacket ++ [finalPacket okay t])
  /-- The backend uploaded less than it announced. -/
  | owing (e : Error) (before : List Text) (n : Nat) (payload : List Bytes)
      (h : cmd = .upload ∨ cmd = .fetch) (hn : payload.flatten.length < n) :
      Answered cmd incoming calls (.error (.err e)) (before.map infoPacket ++ dataPacket n :: payload)
  /-- The host has sent less than it announced. -/
  | waiting (n : Nat) (h : cmd = .download) (hn : incoming.flatten.length < n) :
      Answered cmd incoming calls (.error .hang) [dataPacket n]

section Handlers

variable {τ σ α : Type} {T : Transport τ} (L : Link T)

def Answers (cmd : Command) (incoming : List Bytes) (m : Exec Error (Conn τ σ) α) (s : Conn τ σ)
    (sent : List Bytes) : Prop :=
  ∃ r s' out calls, m s = (r, s') ∧ L.Sent s'.transport (sent ++ out) ∧ s'.calls = s.calls ++ calls ∧
    Answered cmd incoming calls r out

variable {L} {B : Backend σ} {s : Conn τ σ} {sent incoming : List Bytes} {cmd : Command}

def Ends (L : Link T) (m : Exec Error (Conn τ σ) Unit) (okay : Bool) (t : Text) : Prop :=
  ∀ (s : Conn τ σ) (sent : List Bytes), s.Healthy → L.Sent s.transport sent →
    ∃ t', m s = (.ok (), { s with transport := t' }) ∧ L.Sends sent [finalPacket okay t] s.transport t'

variable {t : Text} {m : Exec Error (Conn τ σ) α} {R : α → Prop} {x : Except CommandError Unit}
  {fin : Except CommandError α → Exec Error (Conn τ σ) Unit} {method : Method} {data : List Bytes}
  {args : List Text} {fuel : Nat} {p : Bytes} {cmdStr rest : Text}

theorem ends_replyOkay (ht : t.length ≤ maxTextSize) :
    Ends (σ := σ) L (replyOkay T t) true t := fun _ _ => replyOkay_run ht

theorem ends_replyFail (ht : t.length ≤ maxTextSize) :
    Ends (σ := σ) L (replyFail T t) false t := fun _ _ => replyFail_run ht

def replyText : Except CommandError Text → Text
  | .ok t => t
  | .error e => e.toStr

theorem ends_reply {y : Except CommandError Text} (hy : (replyText y).length ≤ maxTextSize) :
    Ends (σ := σ) L (reply T y) y.isOk (replyText y) := by
  cases y with
  | ok t => exact ends_replyOkay hy
  | error e => exact ends_replyFail hy

theorem answers_replyFail (ht : t.length ≤ maxTextSize) (hs : s.Healthy) (hsent : L.Sent s.transport sent) :
    Answers L cmd incoming (replyFail T t) s sent := by
  obtain ⟨t', hrun, hsends⟩ := replyFail_run ht hs hsent
  refine ⟨_, _, _, [], hrun, hsends.sent, (List.append_nil _).symm, ?_⟩
  exact .replied () [] [] [] false t .nothing (by simp)

theorem answers_newResponder {m : Unit → Exec Error (Conn τ σ) α}
    (h : Answers L cmd incoming (m ()) { s with resp := .new } sent) :
    Answers L cmd incoming (newResponder >>= m) s sent := by
  obtain ⟨r, s', out, calls, hrun, hsent, hcalls, hans⟩ := h
  exact ⟨r, s', out, calls, (bind_run_ok (modify_run _ s)).trans hrun, hsent, hcalls, hans⟩

theorem answers_pure {β : Type} (b : β) (h : Answers L cmd incoming m s sent) :
    Answers L cmd incoming (m >>= fun _ => pure b) s sent := by
  obtain ⟨r, s', out, calls, hrun, hsent, hcalls, hans⟩ := h
  cases hans with
  | replied a before after data okay t hdata hokay =>
    exact ⟨_, s', _, calls, bind_run_ok hrun, hsent, hcalls, .replied b before after data okay t hdata hokay⟩
  | owing e before n payload h hn =>
    exact ⟨_, s', _, calls, bind_run_error hrun, hsent, hcalls, .owing e before n payload h hn⟩
  | waiting n h hn => exact ⟨_, s', _, calls, bind_run_error hrun, hsent, hcalls, .waiting n h hn⟩

/-! ### Calls -/

def Told (R : α → Prop) (x : Except CommandError α) : Prop :=
  (∃ a, x = .ok a ∧ R a) ∨ ∃ e, x = .error e ∧ e.toStr.length ≤ maxTextSize

theorem Outcome.Fine.told {o : Outcome σ α} {x : Except CommandError α} (h : o.Fine R)
    (hx : o.1 = .ofExcept x) : Told R x := by
  rcases h with ⟨a, ha, hR⟩ | ⟨e, he, hlen⟩
  · exact Or.inl ⟨a, Res.ofExcept_eq_ok.mp (hx.symm.trans ha), hR⟩
  · cases x with
    | ok a =>
      rw [he] at hx
      cases hx
    | error e' =>
      rw [he] at hx
      cases hx
      exact Or.inr ⟨e, rfl, hlen⟩

theorem answers_of_call (before : List Text) {m : Exec Error (Conn τ σ) (Except CommandError α)}
    {x : Except CommandError α} {b : σ} {t₁ : τ} {msgs : List Text} {okay : Bool} (hdata : Announced cmd data)
    (hrun : m s = (.ok x, ({ s with transport := t₁ } : Conn τ σ).called method b x.isOk))
    (hsends : L.Sends (sent ++ (before.map infoPacket ++ data)) (msgs.map infoPacket) s.transport t₁)
    (hs : s.Healthy) (hfin : Ends L (fin x) okay t) (hokay : okay = true → x.isOk = true) :
    Answers L cmd incoming (m >>= fin) s sent := by
  obtain ⟨t₂, hreply, hsends₂⟩ := hfin (Conn.called { s with transport := t₁ } method b x.isOk) _ hs hsends.sent
  have hsent := (hsends.append L hsends₂).sent
  rw [List.append_assoc] at hsent
  refine ⟨_, _, _, [⟨method, x.isOk⟩], (bind_run_ok hrun).trans hreply, hsent, rfl, ?_⟩
  have hans : Answered cmd incoming [⟨method, x.isOk⟩] (.ok ()) _ := .replied () before msgs data okay t hdata (by
      intro h c hc
      rw [List.mem_singleton] at hc
      rw [hc]
      exact hokay h)
  simpa using hans

theorem answers_call (hdata : Announced cmd data) {c : Call σ α} (hc : ∀ b, Terse List.length (Outcome.Fine R) (c b))
    (hfin : ∀ x, Told R x → ∃ okay t, Ends L (fin x) okay t ∧ (okay = true → x.isOk = true)) (hs : s.Healthy)
    (hsent : L.Sent s.transport (sent ++ data)) :
    Answers L cmd incoming (call T method c >>= fin) s sent := by
  obtain ⟨x, t₁, hcall, hx, hsends₁⟩ := call_run (T := T) (L := L) method (hc s.backend).messages
    (hc s.backend).outcome.returns hs hsent
  obtain ⟨okay, t, hends, hokay⟩ := hfin x ((hc s.backend).outcome.told hx)
  exact answers_of_call [] hdata hcall hsends₁ hs hends hokay

theorem ends_replyUnit (hx : Told (fun _ => True) x) :
    ∃ okay t, Ends (σ := σ) L (replyUnit T x) okay t ∧ (okay = true → x.isOk = true) := by
  rcases hx with ⟨a, rfl, -⟩ | ⟨e, rfl, he⟩
  · exact ⟨true, [], ends_replyOkay (Nat.zero_le _), fun _ => rfl⟩
  · exact ⟨false, e.toStr, ends_replyFail he, nofun⟩

/-! ### Uploads -/

theorem uploadTrace_cases {d : Talk Text (Outcome σ Unit ⊕ Upload σ)} (hd : Terse List.length FineUpload d) :
    (uploadTrace d).2.2.Fine (fun _ => True) ∧
      ((uploadTrace d).1 = (Talk.messages d).map infoPacket ∧ (uploadTrace d).2.1 = 0 ∨
        ∃ n payload, (uploadTrace d).1 = (Talk.messages d).map infoPacket ++ dataPacket n :: payload ∧
          payload.flatten.length + (uploadTrace d).2.1 = n) := by
  have hfine := hd.outcome
  unfold uploadTrace
  cases hout : Talk.outcome d with
  | inl o =>
    rw [hout] at hfine
    exact ⟨hfine, Or.inl ⟨rfl, rfl⟩⟩
  | inr u =>
    rw [hout] at hfine
    exact ⟨deliver_always hfine.2 u.size, Or.inr ⟨_, _, rfl, deliver_length u.size u.payload⟩⟩

theorem replyUpload_owing (h : 0 < s.resp.remainingUpload) : replyUpload T x s = (err .invalidInput, s) := by
  refine (bind_run_ok (get_run s)).trans ?_
  rw [if_pos h]
  rfl

theorem replyUpload_complete (h : ¬ 0 < s.resp.remainingUpload) : replyUpload T x s = replyUnit T x s := by
  refine (bind_run_ok (get_run s)).trans ?_
  rw [if_neg h]

theorem answers_upload {c : UploadCall σ} (hcmd : cmd = .upload ∨ cmd = .fetch)
    (hc : ∀ b, Terse List.length FineUpload (c b)) (hs : s.Healthy) (hzero : s.resp.remainingUpload = 0)
    (hsent : L.Sent s.transport sent) :
    Answers L cmd incoming (do
      let r ← callUpload T method c
      replyUpload T r) s sent := by
  obtain ⟨hfine, hcases⟩ := uploadTrace_cases (hc s.backend)
  obtain ⟨x, t₁, hcall, hx, hsends₁⟩ := callUpload_run (T := T) (L := L) method (hc s.backend).messages
    hfine.returns hs hzero hsent
  by_cases howes : 0 < (uploadTrace (c s.backend)).2.1
  · -- the backend owes data: the session is over
    obtain ⟨-, hnone⟩ | ⟨n, payload, hout, hsum⟩ := hcases
    · omega
    refine ⟨_, _, _, [⟨method, x.isOk⟩], (bind_run_ok hcall).trans (replyUpload_owing howes), hsends₁.sent,
      rfl, ?_⟩
    rw [hout]
    exact .owing _ (Talk.messages (c s.backend)) n payload hcmd (by omega)
  · obtain ⟨okay, t, hends, hokay⟩ := ends_replyUnit (T := T) (L := L) (σ := σ) (hfine.told hx)
    obtain ⟨t₂, hreply, hsends₂⟩ :=
      hends ((Conn.owing { s with transport := t₁ } (uploadTrace (c s.backend)).2.1).called method _ x.isOk) _
        hs hsends₁.sent
    refine ⟨_, _, _, [⟨method, x.isOk⟩], (bind_run_ok hcall).trans ((replyUpload_complete howes).trans hreply),
      (hsends₁.append L hsends₂).sent, rfl, ?_⟩
    have hcalls : okay = true → ∀ c ∈ [(⟨method, x.isOk⟩ : CallRecord)], c.ok = true := by
      intro h c hc
      rw [List.mem_singleton] at hc
      rw [hc]
      exact hokay h
    obtain ⟨hout, -⟩ | ⟨n, payload, hout, hsum⟩ := hcases
    · have hans : Answered cmd incoming _ (.ok ()) _ :=
        .replied () (Talk.messages (c s.backend)) [] [] okay t .nothing hcalls
      simpa [hout] using hans
    · have hans : Answered cmd incoming _ (.ok ()) _ :=
        .replied () (Talk.messages (c s.backend)) [] _ okay t (.upload n payload hcmd (by omega)) hcalls
      simpa [hout] using hans

/-! ### Downloads -/

theorem length_toStr_ofText_le (t : Text) : (CommandError.ofText t).toStr.length ≤ t.length := by
  unfold CommandError.toStr
  split
  · simp only [CommandError.ofText, formatted_eq, List.flatten_singleton]
    exact List.length_take_le' _ _
  · exact Nat.zero_le _

theorem ParseIntError.length_display_le (e : ParseIntError) : e.display.length ≤ maxTextSize := by
  cases e <;> decide

theorem length_downloadSize_error {e : CommandError} (h : downloadSize args = .error e) :
    e.toStr.length ≤ maxTextSize := by
  unfold downloadSize at h
  split at h
  · cases h
    exact (length_toStr_ofText_le _).trans (by decide)
  · next a _ =>
    cases hhex : hexToU64 a with
    | error e' =>
      simp only [hhex, Except.mapError, Except.error.injEq] at h
      exact h ▸ (length_toStr_ofText_le _).trans e'.length_display_le
    | ok v => simp [hhex, Except.mapError] at h

theorem Answers.of_run {m' : Exec Error (Conn τ σ) α} {s' : Conn τ σ} (hrun : m s = m' s')
    (hcalls : s'.calls = s.calls) (h : Answers L cmd incoming m' s' sent) :
    Answers L cmd incoming m s sent := by
  obtain ⟨r, s'', out, calls, hrun', hsent, hcalls', hans⟩ := h
  exact ⟨r, s'', out, calls, hrun.trans hrun', hsent, by rw [hcalls', hcalls], hans⟩

theorem answers_download (hT : B.Terse) (hB : B.LawfulBuffer) (hin : L.Incoming s.transport incoming)
    (hsent : L.Sent s.transport sent) (hfuel : incoming.length < fuel)
    (hbuf : ∀ b, B.getDownloadBuffer s.backend = (.ok (), b) → (B.buffer b).length < 2 ^ 63)
    (hfault : ∀ n, downloadSize args = .ok n → Exceeds n incoming → L.Faultless) :
    Answers L .download incoming (download T B fuel args) s sent := by
  cases hsize : downloadSize args with
  | error e =>
    apply answers_newResponder
    rw [hsize]
    exact answers_replyFail (length_downloadSize_error hsize) rfl hsent
  | ok n =>
    obtain ⟨b, hb⟩ := hT.getDownloadBuffer s.backend
    by_cases hbig : (B.buffer b).length < n
    · apply Answers.of_run ((download_sized hsize hb).trans (congrFun (if_pos hbig) _)) rfl
      exact answers_replyFail (by decide) rfl hsent
    by_cases hzero : n = 0
    · apply Answers.of_run ((download_sized hsize hb).trans ((congrFun (if_neg hbig) _).trans
        (congrFun (if_pos hzero) _))) rfl
      exact answers_replyFail (by decide) rfl hsent
    have hroom : n ≤ (B.buffer b).length := Nat.not_lt.mp hbig
    rcases exceeds_or_reaches_or_short n incoming with hexc | ⟨packets, rest, rfl, hsum⟩ | hshort
    · have hreq : Requested L B s sent args n b incoming [] :=
        ⟨hsize, Nat.pos_of_ne_zero hzero, hb, hroom, by rwa [List.append_nil], hsent⟩
      obtain ⟨r, s', hrun, hcalls, ⟨rfl, hsent'⟩ | ⟨⟨-, hno⟩, -⟩⟩ := download_refused (T := T) hB hreq hfuel hexc
      · exact ⟨_, s', _, [], hrun, hsent', by rw [hcalls, List.append_nil],
          .replied () [] [] [dataPacket n] false _ (.download n rfl) (by simp)⟩
      · exact absurd ⟨hfault n hsize hexc, hroom.trans_lt (hbuf b hb)⟩ hno
    · have hreq : Requested L B s sent args n b packets rest :=
        ⟨hsize, Nat.pos_of_ne_zero hzero, hb, hroom, hin, hsent⟩
      have hfuel' : packets.length < fuel := by
        rw [List.length_append] at hfuel
        omega
      obtain ⟨t', hsent', -, hrun⟩ := download_received (T := T) hB hreq hfuel' hsum
      apply Answers.of_run hrun rfl
      exact answers_call (.download n rfl) (hT.downloadComplete n) (fun x hx => ends_replyUnit hx) rfl hsent'
    · have hreq : Requested L B s sent args n b incoming [] :=
        ⟨hsize, Nat.pos_of_ne_zero hzero, hb, hroom, by rwa [List.append_nil], hsent⟩
      obtain ⟨t', hsends, hstart⟩ := download_start (T := T) (L := L) hreq
      obtain ⟨s', hloop, hcalls, hsent'⟩ := receiveAll_waits (s := s.awaiting t' b) hB
        (hsends.incoming _ hin) (show 0 + incoming.flatten.length < n by omega) hroom (downloadSize_lt hsize) hfuel
      exact ⟨_, s', _, [], hstart.trans (bind_run_error hloop), hsent' _ hsends.sent,
        by rw [hcalls, List.append_nil]; rfl, .waiting n rfl hshort⟩

/-! ### Variables -/

theorem length_maxDownloadSizeInfo_le (n : Nat) : (maxDownloadSizeInfo n).pieces.flatten.length ≤ maxTextSize := by
  have hval : (formatted 32 [text "0x", lowerHex 1 n]).length ≤ 32 := by
    rw [formatted_eq]
    exact List.length_take_le _ _
  have hname : maxDownloadSizeName.length = 17 := by decide
  have hsep : (text ": ").length = 2 := by decide
  simp only [maxDownloadSizeInfo, VarInfo.pieces, List.map_nil, List.cons_append, List.nil_append, List.flatten_cons,
    List.flatten_nil, List.append_nil, List.length_append, hname, hsep, maxTextSize]
  omega

theorem answers_getVarAll (hT : B.Terse) (display : Error → Text) (hsent : L.Sent s.transport sent) :
    Answers L .getvar incoming (getVarAll T display B) s sent := by
  apply answers_newResponder
  obtain ⟨b, hb⟩ := hT.getDownloadBuffer s.backend
  obtain ⟨t₁, hinfo, hsends₁⟩ := sendVarInfo_run (T := T) (L := L) (s := s.awaiting s.transport b)
    (length_maxDownloadSizeInfo_le (B.buffer b).length) rfl hsent
  obtain ⟨t₂, htalk, hsends₂⟩ := talk_run (T := T) (L := L) (s := s.awaiting t₁ b) (d := B.getVarAll b)
    (fun v s sent => sendVarInfo_run) (hT.getVarAll b).messages rfl hsends₁.sent
  obtain ⟨x, hfinish, hx⟩ := finish_run .getVarAll (hT.getVarAll b).outcome.returns (s.awaiting t₂ b)
  have hrun : getVarAllWithNative T display B (s.awaiting s.transport s.backend) =
      (.ok x, (s.awaiting t₂ b).called .getVarAll (Talk.outcome (B.getVarAll b)).2 x.isOk) := by
    have hlen : downloadBufferLen B (s.awaiting s.transport s.backend) = (.ok _, s.awaiting s.transport b) :=
      downloadBufferLen_run (s := s.awaiting s.transport s.backend) hb
    unfold getVarAllWithNative
    rw [bind_run_ok hlen, bind_run_ok (attempt_run_ok hinfo)]
    refine (bind_run_ok (get_run _)).trans ?_
    exact (bind_run_ok htalk).trans hfinish
  obtain ⟨okay, t, hends, hokay⟩ := ends_replyUnit (T := T) (L := L) (σ := σ) ((hT.getVarAll b).outcome.told hx)
  have hsends : L.Sends (sent ++ (([] : List Text).map infoPacket ++ []))
      (((maxDownloadSizeInfo (B.buffer b).length).pieces.flatten ::
        (Talk.messages (B.getVarAll b)).map fun v => v.pieces.flatten).map infoPacket) s.transport t₂ := by
    rw [List.map_nil, List.append_nil, List.append_nil, List.map_cons, List.map_map]
    exact hsends₁.append L hsends₂
  exact answers_of_call [] .nothing hrun hsends rfl hends hokay

theorem cmdToCStringArgs_packet (p zeros : Bytes) :
    cmdToCStringArgs (p ++ 0 :: zeros) = .ok (split colon (p.takeWhile (· ≠ 0))) := by
  have hcut : (p ++ 0 :: zeros).takeWhile (· ≠ 0) = p.takeWhile (· ≠ 0) := by
    induction p with
    | nil => rfl
    | cons b bs ih =>
      rw [List.cons_append, List.takeWhile_cons, List.takeWhile_cons, ih]
  rw [cmdToCStringArgs, if_pos (by simp), hcut]

theorem length_varAsStr {v : Nat × Bytes} (hv : (v.2.take v.1).length ≤ maxTextSize) :
    (replyText (varAsStr v)).length ≤ maxTextSize := by
  unfold varAsStr
  split
  · split
    · next t ht =>
      rw [replyText, eq_of_fromUtf8_eq_ok ht]
      exact hv
    · exact (length_toStr_ofText_le _).trans (by decide)
  · exact (length_toStr_ofText_le _).trans (by decide)

theorem answers_getVar (hT : B.Terse) (display : Error → Text) {zeros : Bytes} (hp : ValidUtf8 p)
    (hsent : L.Sent s.transport sent) :
    Answers L .getvar incoming (getVar T display B (p ++ 0 :: zeros)) s sent := by
  apply answers_newResponder
  apply Answers.of_run (bind_run_ok (lift_run_ok (cmdToCStringArgs_packet p zeros) _)) rfl
  cases hargs : (split colon (p.takeWhile (· ≠ 0))).drop 1 with
  | nil => exact answers_replyFail (by decide) rfl hsent
  | cons var args =>
    have hvar : fromUtf8 var = .ok var := by
      apply validUtf8_of_mem_split (show colon < 0x80 by decide) (validUtf8_takeWhile (c := 0) (by decide) hp)
      apply List.mem_of_mem_drop (i := 1)
      rw [hargs]
      exact List.mem_cons_self ..
    simp only [hvar]
    by_cases hall : var = text "all"
    · rw [if_pos hall]
      exact answers_getVarAll hT display hsent
    rw [if_neg hall]
    by_cases hmax : var = maxDownloadSizeName
    · rw [if_pos hmax]
      obtain ⟨b, hb⟩ := hT.getDownloadBuffer s.backend
      have hlen : ([text "0x", lowerHex 1 (B.buffer b).length] : List Text).flatten.length ≤ maxTextSize := by
        have h₁ := length_lowerHex_le 1 (B.buffer b).length
        have h₂ : (text "0x").length = 2 := by decide
        simp only [List.flatten_cons, List.flatten_nil, List.append_nil, List.length_append, h₂, maxTextSize]
        omega
      obtain ⟨t', hrun, hsends⟩ := sendMsg_run (T := T) (L := L) (s := s.awaiting s.transport b) "OKAY"
        [text "0x", lowerHex 1 (B.buffer b).length] (by decide) hlen rfl hsent
      refine ⟨_, _, _, [], (bind_run_ok (downloadBufferLen_run (s := { s with resp := .new }) hb)).trans hrun,
        hsends.sent, (List.append_nil _).symm, ?_⟩
      exact .replied () [] [] [] true _ .nothing (by simp)
    · rw [if_neg hmax]
      refine answers_call .nothing (hT.getVar var args) (fun x hx => ?_) rfl (by rwa [List.append_nil])
      refine ⟨(x.bind varAsStr).isOk, _, ends_reply ?_, ?_⟩
      · rcases hx with ⟨v, rfl, hv⟩ | ⟨e, rfl, he⟩
        · exact length_varAsStr hv
        · exact he
      · rcases hx with ⟨v, rfl, -⟩ | ⟨e, rfl, -⟩
        · exact fun _ => rfl
        · rintro ⟨⟩

/-! ### The other handlers -/

theorem answers_withPartition {pre : String} {c : Text → Call σ Unit}
    (hc : ∀ part b, Terse List.length (Outcome.Fine fun _ => True) (c part b))
    (hsent : L.Sent s.transport sent) :
    Answers L cmd incoming (withPartition T pre method cmdStr c) s sent := by
  apply answers_newResponder
  cases stripPrefix (text pre) cmdStr with
  | none => exact answers_replyFail (by decide) rfl hsent
  | some part =>
    exact answers_call .nothing (hc part) (fun x hx => ends_replyUnit hx) rfl (by rwa [List.append_nil])

theorem nextArg_eq_some {a : Text} (h : nextArg args = some a) : ∃ more, args = a :: more := by
  cases args with
  | nil => cases h
  | cons b more =>
    rw [nextArg] at h
    split at h
    · cases h
    · exact ⟨more, by rw [Option.some.inj h]⟩

theorem split_of_stripPrefix_fetch (h : stripPrefix (text "fetch:") cmdStr = some rest) :
    (split colon cmdStr).drop 1 = split colon rest := by
  unfold stripPrefix at h
  split at h
  · next hpre =>
    obtain ⟨rest', rfl⟩ := hpre
    rw [List.drop_left, Option.some.injEq] at h
    subst h
    have hsplit : text "fetch:" ++ rest' = text "fetch" ++ colon :: rest' := by
      rw [show text "fetch:" = text "fetch" ++ [colon] by decide, List.append_assoc]
      rfl
    rw [hsplit, split, List.splitOn_append_cons_self_of_not_mem (by decide)]
    rfl
  · cases h

theorem length_fetch_name {off sz : Text} {names : List Text}
    (hargs : (split colon rest).reverse = sz :: off :: names) (hthree : ¬ (split colon rest).length < 3) :
    ¬ rest.length < off.length + sz.length + 2 := by
  have hsum := sum_length_split colon rest
  rw [← List.length_reverse, hargs, List.length_cons, List.length_cons] at hthree
  rw [← List.sum_reverse, ← List.map_reverse, hargs, List.map_cons, List.map_cons, List.sum_cons,
    List.sum_cons] at hsum
  cases names with
  | nil => exact absurd (by decide) hthree
  | cons name names =>
    rw [List.map_cons, List.sum_cons] at hsum
    omega

theorem fetchArgs_returns (cmdStr : Text) : (fetchArgs cmdStr ((split colon cmdStr).drop 1)).Returns ∧
      ∀ e, fetchArgs cmdStr ((split colon cmdStr).drop 1) = .error (.err e) → e.toStr.length ≤ maxTextSize := by
  have hconst : ∀ s : String, (text s).length ≤ maxTextSize →
      ∀ e, (Res.err (commandError s) : Res CommandError (Text × Nat × Nat)) = .error (.err e) →
        e.toStr.length ≤ maxTextSize := by
    intro s hs e he
    cases he
    exact (length_toStr_ofText_le _).trans hs
  have hparse : ∀ (p : ParseIntError) (e : CommandError),
      (Res.err (.ofText p.display) : Res CommandError (Text × Nat × Nat)) = .error (.err e) →
        e.toStr.length ≤ maxTextSize := by
    intro p e he
    cases he
    exact (length_toStr_ofText_le _).trans p.length_display_le
  unfold fetchArgs
  cases hstrip : stripPrefix (text "fetch:") cmdStr with
  | none => exact ⟨trivial, hconst _ (by decide)⟩
  | some rest =>
    rw [split_of_stripPrefix_fetch hstrip]
    simp only
    split
    · exact ⟨trivial, hconst _ (by decide)⟩
    · next hthree =>
      cases hsz : nextArg (split colon rest).reverse with
      | none => exact ⟨trivial, hconst _ (by decide)⟩
      | some sz =>
        obtain ⟨more, hmore⟩ := nextArg_eq_some hsz
        rw [hmore]
        simp only [List.drop_one, List.tail_cons]
        cases hoff : nextArg more with
        | none => exact ⟨trivial, hconst _ (by decide)⟩
        | some off =>
          obtain ⟨names, rfl⟩ := nextArg_eq_some hoff
          simp only [if_neg (length_fetch_name hmore hthree)]
          cases hexToU64 off with
          | error e => exact ⟨trivial, hparse e⟩
          | ok off =>
            cases hexToU64 sz with
            | error e => exact ⟨trivial, hparse e⟩
            | ok sz => exact ⟨trivial, nofun⟩

theorem answers_fetch (hT : B.Terse) (hargs : args = (split colon cmdStr).drop 1) (hsent : L.Sent s.transport sent) :
    Answers L .fetch incoming (fetch T B cmdStr args) s sent := by
  subst hargs
  obtain ⟨hret, hlen⟩ := fetchArgs_returns cmdStr
  apply answers_newResponder
  cases hfetch : fetchArgs cmdStr ((split colon cmdStr).drop 1) with
  | ok v =>
    obtain ⟨part, off, sz⟩ := v
    exact answers_upload (Or.inr rfl) (hT.fetch part off sz) rfl rfl hsent
  | error stop =>
    rw [hfetch] at hret
    cases stop with
    | err e =>
      apply Answers.of_run (replyUpload_complete (s := { s with resp := .new }) (Nat.lt_irrefl 0)) rfl
      exact answers_replyFail (hlen e hfetch) rfl hsent
    | panic => exact absurd hret id
    | hang => exact absurd hret id

theorem answers_boot (hT : B.Terse) (hsent : L.Sent s.transport sent) :
    Answers L .boot incoming (boot T B) s sent := by
  apply answers_newResponder
  obtain ⟨o, ho, hfine⟩ := (hT.boot s.backend).outcome
  obtain ⟨x, t₁, hcall, hx, hsends⟩ := callOkay_run (T := T) (L := L) (s := { s with resp := .new }) .boot ho
    (hT.boot s.backend).messages hfine.returns rfl hsent
  have hfin : ∃ okay t, Ends (σ := σ) L (reply T (x.map fun _ => text "boot_command")) okay t ∧
      (okay = true → x.isOk = true) := by
    rcases hfine.told hx with ⟨a, rfl, -⟩ | ⟨e, rfl, he⟩
    · exact ⟨true, _, ends_replyOkay (show (text "boot_command").length ≤ maxTextSize by decide), fun _ => rfl⟩
    · exact ⟨false, _, ends_replyFail he, by rintro ⟨⟩⟩
  obtain ⟨okay, t, hends, hokay⟩ := hfin
  exact answers_of_call [] .nothing hcall (by simpa using hsends) rfl hends hokay

theorem answers_setActive (hT : B.Terse) (hsent : L.Sent s.transport sent) :
    Answers L .setActive incoming (setActive T B args) s sent := by
  apply answers_newResponder
  cases nextArg args with
  | none => exact answers_replyFail (by decide) rfl hsent
  | some slot =>
    exact answers_call .nothing (hT.setActive slot) (fun x hx => ends_replyUnit hx) rfl (by rwa [List.append_nil])

theorem answers_oem (hT : B.Terse) (hsent : L.Sent s.transport sent) :
    Answers L .oem incoming (oem T B cmdStr) s sent := by
  apply answers_newResponder
  refine answers_call .nothing (hT.oem cmdStr) (fun x hx => ?_) rfl (by rwa [List.append_nil])
  rcases hx with ⟨msg, rfl, hmsg⟩ | ⟨e, rfl, he⟩
  · cases hutf : fromUtf8 msg with
    | ok t =>
      have ht : t.length ≤ maxTextSize := by
        rw [eq_of_fromUtf8_eq_ok hutf]
        exact hmsg
      refine ⟨true, t, ?_, fun _ => rfl⟩
      simp only [hutf]
      exact ends_replyOkay ht
    | error e =>
      have hlen : ([text "Invalid return string ", e.display] : List Text).flatten.length ≤ maxTextSize := by
        have h₁ : e.display.length ≤ 51 := length_utf8Error_le (hmsg.trans_lt (by decide)) hutf
        have h₂ : (text "Invalid return string ").length = 22 := by decide
        simp only [List.flatten_cons, List.flatten_nil, List.append_nil, List.length_append, h₂, maxTextSize]
        omega
      refine ⟨false, ([text "Invalid return string ", e.display] : List Text).flatten, ?_, by rintro ⟨⟩⟩
      simp only [hutf]
      exact fun s sent hs hsent => sendMsg_run "FAIL" _ (by decide) hlen hs hsent
  · exact ⟨false, _, ends_replyFail he, by rintro ⟨⟩⟩

/-! ### The dispatcher -/

theorem answers_sendFail {t : String} (ht : (text t).length ≤ maxTextSize) (hsent : L.Sent s.transport sent) :
    Answers L cmd incoming (sendFail T t) s sent := by
  have hpacket : formatted (maxCommandSize + 1) [text "FAIL", text t] = finalPacket false (text t) := by
    have hfail : (text "FAIL").length = 4 := by decide
    rw [formatted_eq, List.flatten_cons, List.flatten_singleton, List.take_of_length_le]
    · rfl
    · simp only [maxTextSize] at ht
      simp only [List.length_append, hfail, maxCommandSize]
      omega
  obtain ⟨t', hrun, hsent', -⟩ := L.send (finalPacket false (text t)) hsent
  refine ⟨.ok (), { s with transport := t' }, _, [], ?_, hsent', (List.append_nil _).symm,
    .replied () [] [] [] false (text t) .nothing (by simp)⟩
  rw [sendFail, hpacket, onTransport, zoom, hrun]

def commandOf (packet : Bytes) : Command := parseCommand packet ((split colon packet).headD [])

def argsOf (packet : Bytes) : List Text := (split colon packet).drop 1

theorem answers_handle (hT : B.Terse) (hB : B.LawfulBuffer) (display : Error → Text) (zeros : Bytes)
    (hp : ValidUtf8 p) (hcmd : ∀ mode, commandOf p ≠ .reboot mode) (hin : L.Incoming s.transport incoming)
    (hsent : L.Sent s.transport sent) (hfuel : incoming.length < fuel)
    (hbuf : ∀ b, B.getDownloadBuffer s.backend = (.ok (), b) → (B.buffer b).length < 2 ^ 63)
    (hfault : ∀ n, downloadSize (argsOf p) = .ok n → Exceeds n incoming → L.Faultless) :
    Answers L (commandOf p) incoming
      (handle T display B fuel (p ++ 0 :: zeros) p (argsOf p) (commandOf p)) s sent := by
  have hnil : L.Sent s.transport (sent ++ []) := by rwa [List.append_nil]
  cases hc : commandOf p with
  | boot => exact answers_pure _ (answers_boot hT hsent)
  | «continue» =>
    apply answers_pure
    apply answers_newResponder
    exact answers_call .nothing hT.continue (fun x hx => ends_replyUnit hx) rfl hnil
  | download => exact answers_pure _ (answers_download hT hB hin hsent hfuel hbuf hfault)
  | erase => exact answers_pure _ (answers_withPartition hT.erase hsent)
  | fetch => exact answers_pure _ (answers_fetch hT rfl hsent)
  | flash => exact answers_pure _ (answers_withPartition hT.flash hsent)
  | getvar => exact answers_pure _ (answers_getVar hT display hp hsent)
  | reboot mode => exact absurd hc (hcmd mode)
  | setActive => exact answers_pure _ (answers_setActive hT hsent)
  | upload =>
    apply answers_pure
    apply answers_newResponder
    exact answers_upload (Or.inl rfl) hT.upload rfl rfl hsent
  | oem => exact answers_pure _ (answers_oem hT hsent)
  | unknown => exact answers_pure _ (answers_sendFail (by decide) hsent)

theorem receive_command (hp : p.length ≤ maxCommandSize) (hin : L.Incoming s.transport (p :: incoming))
    (hsent : L.Sent s.transport sent) (display : Error → Text) (fuel : Nat) :
    ∃ t' zeros, L.Incoming t' incoming ∧ L.Sent t' sent ∧ processNextCommand T display B fuel s =
        processPacket T display B fuel (p ++ 0 :: zeros) p.length { s with transport := t' } := by
  have hroom : p.length ≤ (List.replicate maxCommandSize (0 : UInt8)).length := by rwa [List.length_replicate]
  obtain ⟨t', hrecv, hin', hsent'⟩ := L.receive hin hroom
  refine ⟨t', List.replicate (maxCommandSize - p.length) 0, hin', hsent' _ hsent, ?_⟩
  have hbuffer : p ++ (List.replicate maxCommandSize (0 : UInt8)).drop p.length ++ [0] =
      p ++ 0 :: List.replicate (maxCommandSize - p.length) 0 := by
    rw [List.drop_replicate, List.append_assoc, ← List.replicate_succ', List.replicate_succ]
  have hrun : (zoom (fun s : Conn τ σ => (s.transport, List.replicate maxCommandSize (0 : UInt8)))
      (fun s p => { s with transport := p.1 })
      (do
        let size ← T.receivePacket
        let s ← get
        pure (size, s.2 ++ [0]))) s =
      (.ok (p.length, p ++ 0 :: List.replicate (maxCommandSize - p.length) 0), { s with transport := t' }) := by
    have hinner := bind_run_ok (f := fun size => (do
      let s ← get
      pure (size, s.2 ++ [0]) : Exec Error (τ × Bytes) (Nat × Bytes))) hrecv
    rw [zoom, hinner, ← hbuffer]
    rfl
  unfold processNextCommand
  exact bind_run_ok hrun

theorem processPacket_eq_handle (display : Error → Text) (zeros : Bytes) (hne : p ≠ [])
    (hp : fromUtf8 p = .ok p) (fuel : Nat) (s : Conn τ σ) :
    processPacket T display B fuel (p ++ 0 :: zeros) p.length s =
      handle T display B fuel (p ++ 0 :: zeros) p (argsOf p) (commandOf p) s := by
  have hsize : ¬ p.length = 0 := by rwa [List.length_eq_zero_iff]
  unfold processPacket
  rw [if_neg hsize]
  refine (assert_bind_run_true (by simp)).trans ?_
  rw [List.take_left]
  simp only [hp]
  cases hsplit : split colon p with
  | nil => exact absurd hsplit (split_ne_nil colon p)
  | cons cmd args =>
    have hargs : argsOf p = args := by rw [argsOf, hsplit, List.drop_one, List.tail_cons]
    have hname : commandOf p = parseCommand p cmd := by rw [commandOf, hsplit, List.headD_cons]
    rw [hargs, hname]

/-- **One well-formed reply to every command.** Over a link that works, the answer to a command that is not a reboot
is INFO messages, at most one announcement of data with its payload, more INFO messages, and one OKAY or FAIL, an OKAY
only if every call of the backend succeeded. A backend that uploads less than it announced ends the session with
neither; a host that does not send its download keeps the device waiting. -/
theorem commands_are_answered (hT : B.Terse) (hB : B.LawfulBuffer) (display : Error → Text) {packet : Bytes}
    {fuel : Nat} (hne : packet ≠ []) (hmax : packet.length ≤ maxCommandSize)
    (hcmd : ∀ mode, commandOf packet ≠ .reboot mode) (hin : L.Incoming s.transport (packet :: incoming))
    (hsent : L.Sent s.transport sent) (hfuel : incoming.length < fuel)
    (hbuf : ∀ b, B.getDownloadBuffer s.backend = (.ok (), b) → (B.buffer b).length < 2 ^ 63)
    (hfault : ∀ n, downloadSize (argsOf packet) = .ok n → Exceeds n incoming → L.Faultless) :
    ∃ r s' out calls, processNextCommand T display B fuel s = (r, s') ∧ L.Sent s'.transport (sent ++ out) ∧
      s'.calls = s.calls ++ calls ∧ Answered (commandOf packet) incoming calls r out := by
  obtain ⟨t', zeros, hin', hsent', hrun⟩ := receive_command (B := B) hmax hin hsent display fuel
  suffices h :
    Answers L (commandOf packet) incoming (processPacket T display B fuel (packet ++ 0 :: zeros) packet.length)
      { s with transport := t' } sent from Answers.of_run hrun rfl h
  cases hutf : fromUtf8 packet with
  | error e =>
    have hsize : ¬ packet.length = 0 := by rwa [List.length_eq_zero_iff]
    unfold processPacket
    rw [if_neg hsize]
    refine Answers.of_run (assert_bind_run_true (by simp)) rfl ?_
    rw [List.take_left]
    simp only [hutf]
    exact answers_pure _ (answers_sendFail (by decide) hsent')
  | ok cmdStr =>
    obtain rfl := eq_of_fromUtf8_eq_ok hutf
    refine Answers.of_run (processPacket_eq_handle display zeros hne hutf fuel _) rfl ?_
    exact answers_handle (s := { s with transport := t' }) hT hB display zeros hutf hcmd hin' hsent' hfuel
      hbuf hfault

end Handlers

theorem bufferBackend_terse : bufferBackend.Terse where
  getVar _ _ _ := Or.inl ⟨_, rfl, by decide⟩
  getVarAll _ := Or.inl ⟨_, rfl, trivial⟩
  getDownloadBuffer s := ⟨s, rfl⟩
  downloadComplete _ _ := Or.inl ⟨_, rfl, trivial⟩
  flash _ _ := Or.inl ⟨_, rfl, trivial⟩
  erase _ _ := Or.inl ⟨_, rfl, trivial⟩
  upload _ := Or.inl ⟨_, rfl, trivial⟩
  fetch _ _ _ _ := Or.inl ⟨_, rfl, trivial⟩
  «continue» _ := Or.inl ⟨_, rfl, trivial⟩
  setActive _ _ := Or.inl ⟨_, rfl, trivial⟩
  boot _ := ⟨_, rfl, Or.inl ⟨_, rfl, trivial⟩⟩
  oem _ _ := Or.inl ⟨_, rfl, by decide⟩

theorem commands_are_answered_download :
    ∃ r s' out calls,
      processNextCommand (packetTransport truncating) (fun _ => []) bufferBackend 3
        ⟨⟨[text "download:3", [1, 2], [3]], []⟩, [9, 9, 9, 9], .new, []⟩ = (r, s') ∧
      s'.transport.sent = out ∧ s'.calls = calls ∧ Answered .download [[1, 2], [3]] calls r out := by
  have h := commands_are_answered (L := packetLink truncating) bufferBackend_terse
    ⟨fun _ _ => rfl, fun _ => rfl, fun _ _ _ => rfl⟩ (fun _ => [])
    (s := ⟨⟨[text "download:3", [1, 2], [3]], []⟩, [9, 9, 9, 9], .new, []⟩)
    (show text "download:3" ≠ [] by decide) (by decide)
    (fun mode => by rw [show commandOf (text "download:3") = .download by decide]; nofun)
    ⟨rfl, by decide⟩ rfl (show ([[1, 2], [3]] : List Bytes).length < 3 by decide)
    (fun b hb => by cases hb; decide) (fun _ _ _ => packetLink_truncating_faultless)
  exact h

end Gbl.Fastboot
