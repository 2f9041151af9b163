import Gbl.Fastboot.Protocol

/-!
# What the device sends over a link that works

Over a `Link` every message arrives, so a handler is deterministic: the backend is told that each of its messages was
sent, and what the host sees can be computed.
-/

namespace Gbl.Fastboot

open Lib Lib.Exec

def maxTextSize : Nat := 251

variable {kind : String} {pieces : List Text}

theorem message_eq (hkind : (text kind).length = 4) (h : pieces.flatten.length ≤ maxTextSize) :
    message kind pieces = text kind ++ pieces.flatten := by
  rw [message, formatted_eq, List.flatten_cons, List.take_of_length_le]
  simp only [maxTextSize] at h
  simp only [List.length_append, hkind, maxResponseSize]
  omega

theorem length_message_lt (hkind : (text kind).length = 4) (h : pieces.flatten.length ≤ maxTextSize) :
    (message kind pieces).length < maxResponseSize := by
  rw [message_eq hkind h, List.length_append, hkind]
  simp only [maxTextSize] at h
  simp only [maxResponseSize]
  omega

def infoPacket (t : Text) : Bytes := text "INFO" ++ t

def dataPacket (n : Nat) : Bytes := text "DATA" ++ lowerHex 8 n

section Link

variable {τ σ α : Type} {T : Transport τ} (L : Link T)

structure Link.Sends (sent out : List Bytes) (t t' : τ) : Prop where
  sent : L.Sent t' (sent ++ out)
  incoming : ∀ ps, L.Incoming t ps → L.Incoming t' ps

theorem Link.Sends.nil {sent : List Bytes} {t : τ} (h : L.Sent t sent) : L.Sends sent [] t t :=
  ⟨by rwa [List.append_nil], fun _ h => h⟩

theorem Link.Sends.append {sent a b : List Bytes} {t₀ t₁ t₂ : τ} (h₁ : L.Sends sent a t₀ t₁)
    (h₂ : L.Sends (sent ++ a) b t₁ t₂) : L.Sends sent (a ++ b) t₀ t₂ :=
  ⟨by rw [← List.append_assoc]; exact h₂.sent, fun ps h => h₂.incoming ps (h₁.incoming ps h)⟩

def Conn.Healthy (s : Conn τ σ) : Prop := s.resp.transportError = .ok ()

variable {L} {s : Conn τ σ} {sent : List Bytes}

theorem sendMsg_run (kind : String) (pieces : List Text) (hkind : (text kind).length = 4)
    (hlen : pieces.flatten.length ≤ maxTextSize) (hs : s.Healthy) (hsent : L.Sent s.transport sent) :
    ∃ t', sendMsg T kind pieces s = (.ok (), { s with transport := t' }) ∧
      L.Sends sent [text kind ++ pieces.flatten] s.transport t' := by
  obtain ⟨t', hrun, hsent', hin⟩ := L.send (message kind pieces) hsent
  rw [message_eq hkind hlen] at hsent'
  refine ⟨t', ?_, hsent', hin⟩
  have hattempt : attempt (onTransport (T.sendPacket (message kind pieces))) s =
      (.ok (.ok ()), { s with transport := t' }) := by
    apply attempt_run_ok
    rw [onTransport, zoom, hrun]
  unfold sendMsg
  refine (bind_run_ok (get_run s)).trans ?_
  refine (bind_run_ok (lift_run_ok (a := ()) (by rw [hs]; rfl) s)).trans ?_
  refine (assert_bind_run_true (by simpa using length_message_lt hkind hlen)).trans ?_
  refine (bind_run_ok hattempt).trans ?_
  obtain ⟨t, b, ⟨_, rem⟩, calls⟩ := s
  cases (show _ = Except.ok () from hs)
  rfl

variable {t : Text} {β : Type} {d : Talk Bytes β} {o : Outcome σ α} {c : UploadCall σ} {n : Nat}
  {data : Bytes} {method : Method} {s' : Conn τ σ}

theorem sendInfo_run (ht : t.length ≤ maxTextSize) (hs : s.Healthy) (hsent : L.Sent s.transport sent) :
    ∃ t', sendInfo T t s = (.ok (), { s with transport := t' }) ∧ L.Sends sent [infoPacket t] s.transport t' := by
  have h := sendMsg_run "INFO" [t] (by decide) (by simpa using ht) hs hsent
  rwa [List.flatten_singleton] at h

theorem sendVarInfo_run {v : VarInfo} (hv : v.pieces.flatten.length ≤ maxTextSize) (hs : s.Healthy)
    (hsent : L.Sent s.transport sent) :
    ∃ t', sendVarInfo T v s = (.ok (), { s with transport := t' }) ∧
      L.Sends sent [infoPacket v.pieces.flatten] s.transport t' :=
  sendMsg_run "INFO" v.pieces (by decide) hv hs hsent

theorem sendDataMessage_run (n : Nat) (hs : s.Healthy) (hsent : L.Sent s.transport sent) :
    ∃ t', sendDataMessage T n s = (.ok (), { s with transport := t' }) ∧
      L.Sends sent [dataPacket n] s.transport t' := by
  have hlen : ([lowerHex 8 n] : List Text).flatten.length ≤ maxTextSize := by
    rw [List.flatten_singleton]
    exact (length_lowerHex_le 8 n).trans (by decide)
  have h := sendMsg_run "DATA" [lowerHex 8 n] (by decide) hlen hs hsent
  rwa [List.flatten_singleton] at h

theorem replyOkay_run (ht : t.length ≤ maxTextSize) (hs : s.Healthy) (hsent : L.Sent s.transport sent) :
    ∃ t', replyOkay T t s = (.ok (), { s with transport := t' }) ∧ L.Sends sent [text "OKAY" ++ t] s.transport t' := by
  have h := sendMsg_run "OKAY" [t] (by decide) (by simpa using ht) hs hsent
  rwa [List.flatten_singleton] at h

theorem replyFail_run (ht : t.length ≤ maxTextSize) (hs : s.Healthy) (hsent : L.Sent s.transport sent) :
    ∃ t', replyFail T t s = (.ok (), { s with transport := t' }) ∧ L.Sends sent [text "FAIL" ++ t] s.transport t' := by
  have h := sendMsg_run "FAIL" [t] (by decide) (by simpa using ht) hs hsent
  rwa [List.flatten_singleton] at h

/-! ## Conversations in which every message is sent -/

def Talk.messages {Q : Type} (d : Talk Q α) : List Q := d.asked fun _ => .ok ()

def Talk.outcome {Q : Type} (d : Talk Q α) : α := d.answered fun _ => .ok ()

theorem talk_run {Q : Type} {send : Q → Exec Error (Conn τ σ) Unit} {packet : Q → Bytes} {Short : Q → Prop}
    (hsend : ∀ (q : Q) (s : Conn τ σ) (sent : List Bytes), Short q → s.Healthy → L.Sent s.transport sent →
      ∃ t', send q s = (.ok (), { s with transport := t' }) ∧ L.Sends sent [packet q] s.transport t')
    {d : Talk Q α} (hd : ∀ q ∈ Talk.messages d, Short q) (hs : s.Healthy)
    (hsent : L.Sent s.transport sent) :
    ∃ t', (d.run fun q => attempt (send q)) s = (.ok (Talk.outcome d), { s with transport := t' }) ∧
      L.Sends sent ((Talk.messages d).map packet) s.transport t' := by
  induction d generalizing s sent with
  | done a => exact ⟨s.transport, rfl, .nil L hsent⟩
  | ask q next ih =>
    obtain ⟨t₁, hrun₁, hsends₁⟩ := hsend q s sent (hd q (List.mem_cons_self ..)) hs hsent
    obtain ⟨t₂, hrun₂, hsends₂⟩ := ih (.ok ()) (s := { s with transport := t₁ })
      (fun q' hq' => hd q' (List.mem_cons_of_mem q hq')) hs hsends₁.sent
    exact ⟨t₂, (bind_run_ok (attempt_run_ok hrun₁)).trans hrun₂, hsends₁.append L hsends₂⟩

/-! ## Calls -/

def Conn.called (s : Conn τ σ) (method : Method) (backend : σ) (ok : Bool) : Conn τ σ :=
  { s with backend := backend, calls := s.calls ++ [⟨method, ok⟩] }

theorem finish_run (method : Method) (ho : o.1.Returns) (s : Conn τ σ) :
    ∃ x : Except CommandError α, finish method o s = (.ok x, s.called method o.2 x.isOk) ∧ o.1 = .ofExcept x := by
  obtain ⟨(e | _ | _) | a, b⟩ := o
  · exact ⟨.error e, rfl, rfl⟩
  · exact absurd ho id
  · exact absurd ho id
  · exact ⟨.ok a, rfl, rfl⟩

theorem call_run (method : Method) {c : Call σ α} (hshort : ∀ t ∈ Talk.messages (c s.backend), t.length ≤ maxTextSize)
    (ho : (Talk.outcome (c s.backend)).1.Returns) (hs : s.Healthy) (hsent : L.Sent s.transport sent) :
    ∃ (x : Except CommandError α) (t' : τ), call T method c s = (.ok x,
        ({ s with transport := t' } : Conn τ σ).called method (Talk.outcome (c s.backend)).2 x.isOk) ∧
      (Talk.outcome (c s.backend)).1 = .ofExcept x ∧
      L.Sends sent ((Talk.messages (c s.backend)).map infoPacket) s.transport t' := by
  obtain ⟨t', htalk, hsends⟩ := talk_run (fun q s sent => sendInfo_run) hshort hs hsent
  obtain ⟨x, hfinish, hx⟩ := finish_run method ho { s with transport := t' }
  refine ⟨x, t', ?_, hx, hsends⟩
  exact (bind_run_ok (get_run s)).trans ((bind_run_ok htalk).trans hfinish)

theorem callOkay_run (method : Method) {c : OkayCall σ α} (hout : Talk.outcome (c s.backend) = .inl o)
    (hshort : ∀ t ∈ Talk.messages (c s.backend), t.length ≤ maxTextSize) (ho : o.1.Returns) (hs : s.Healthy)
    (hsent : L.Sent s.transport sent) :
    ∃ (x : Except CommandError α) (t' : τ),
      callOkay T method c s = (.ok x, ({ s with transport := t' } : Conn τ σ).called method o.2 x.isOk) ∧
      o.1 = .ofExcept x ∧ L.Sends sent ((Talk.messages (c s.backend)).map infoPacket) s.transport t' := by
  obtain ⟨t', htalk, hsends⟩ := talk_run (fun q s sent => sendInfo_run) hshort hs hsent
  obtain ⟨x, hfinish, hx⟩ := finish_run method ho { s with transport := t' }
  rw [hout] at htalk
  refine ⟨x, t', ?_, hx, hsends⟩
  exact (bind_run_ok (get_run s)).trans ((bind_run_ok htalk).trans hfinish)

/-! ## Uploads -/

def tooMuch : Error := .other (some "Invalid size of upload data")

def deliver {β : Type} (n : Nat) : Talk Bytes β → List Bytes × Nat × β
  | .done b => ([], n, b)
  | .ask data next =>
    if data.length ≤ n then
      let rest := deliver (n - data.length) (next (.ok ()))
      (data :: rest.1, rest.2)
    else deliver n (next (.error tooMuch))

theorem deliver_length (n : Nat) (d : Talk Bytes β) : (deliver n d).1.flatten.length + (deliver n d).2.1 = n := by
  induction d generalizing n with
  | done b => simp [deliver]
  | ask data next ih =>
    rw [deliver]
    split
    · next h =>
      have := ih (.ok ()) (n - data.length)
      simp only [List.flatten_cons, List.length_append]
      omega
    · exact ih _ n

theorem deliver_always {R : β → Prop} (hd : d.Always (fun _ => True) (fun _ _ => True) R) (n : Nat) :
    R (deliver n d).2.2 := by
  induction d generalizing n with
  | done b => exact hd
  | ask data next ih =>
    rw [deliver]
    split
    · exact ih (.ok ()) (hd.2 _ trivial) (n - data.length)
    · exact ih (.error tooMuch) (hd.2 _ trivial) n

def Conn.owing (s : Conn τ σ) (n : Nat) : Conn τ σ := { s with resp := { s.resp with remainingUpload := n } }

theorem uploadData_run (h : data.length ≤ n) (hs : s.Healthy) (hsent : L.Sent s.transport sent) :
    ∃ t', uploadData T data (s.owing n) = (.ok (), ({ s with transport := t' } : Conn τ σ).owing (n - data.length)) ∧
      L.Sends sent [data] s.transport t' := by
  obtain ⟨t', hrun, hsent', hin⟩ := L.send data hsent
  refine ⟨t', ?_, hsent', hin⟩
  have hattempt : attempt (onTransport (T.sendPacket data)) (s.owing (n - data.length)) =
      (.ok (.ok ()), ({ s with transport := t' } : Conn τ σ).owing (n - data.length)) := by
    apply attempt_run_ok
    show (_, _) = _
    rw [show (s.owing (n - data.length)).transport = s.transport from rfl, hrun]
    rfl
  unfold uploadData
  refine (bind_run_ok (get_run _)).trans ?_
  refine (bind_run_ok
    (lift_run_ok (a := ()) (by rw [show (s.owing n).resp.transportError = _ from hs]; rfl) _)).trans ?_
  refine (bind_run_ok (lift_run_ok (a := ()) (ensure_eq_ok.mpr h) _)).trans ?_
  refine (bind_run_ok (modify_run _ _)).trans ?_
  refine (bind_run_ok hattempt).trans ?_
  obtain ⟨t, b, ⟨_, rem⟩, calls⟩ := s
  cases (show _ = Except.ok () from hs)
  rfl

theorem uploadData_refused (h : ¬ data.length ≤ n) (hs : s.Healthy) :
    uploadData T data (s.owing n) = (err tooMuch, s.owing n) := by
  unfold uploadData
  refine (bind_run_ok (get_run _)).trans ?_
  refine (bind_run_ok
    (lift_run_ok (a := ()) (by rw [show (s.owing n).resp.transportError = _ from hs]; rfl) _)).trans ?_
  refine bind_run_error ?_
  rw [lift_run, ensure, if_neg (show ¬ data.length ≤ (s.owing n).resp.remainingUpload from h)]
  rfl

theorem payload_run (hs : s.Healthy) (hsent : L.Sent s.transport sent) :
    ∃ t', (d.run fun data => attempt (uploadData T data)) (s.owing n) =
        (.ok (deliver n d).2.2, ({ s with transport := t' } : Conn τ σ).owing (deliver n d).2.1) ∧
      L.Sends sent (deliver n d).1 s.transport t' := by
  induction d generalizing s sent n with
  | done b => exact ⟨s.transport, rfl, .nil L hsent⟩
  | ask data next ih =>
    by_cases h : data.length ≤ n
    · obtain ⟨t₁, hrun₁, hsends₁⟩ := uploadData_run h hs hsent
      obtain ⟨t₂, hrun₂, hsends₂⟩ := ih (.ok ()) (s := { s with transport := t₁ })
        (n := n - data.length) hs hsends₁.sent
      rw [deliver, if_pos h]
      exact ⟨t₂, (bind_run_ok (attempt_run_ok hrun₁)).trans hrun₂, hsends₁.append L hsends₂⟩
    · obtain ⟨t₂, hrun₂, hsends₂⟩ := ih (.error tooMuch) hs hsent
      rw [deliver, if_neg h]
      exact ⟨t₂, (bind_run_ok (attempt_run_err (uploadData_refused h hs))).trans hrun₂, hsends₂⟩

def uploadTrace (d : Talk Text (Outcome σ Unit ⊕ Upload σ)) : List Bytes × Nat × Outcome σ Unit :=
  match Talk.outcome d with
  | .inl o => ((Talk.messages d).map infoPacket, 0, o)
  | .inr u => ((Talk.messages d).map infoPacket ++ dataPacket u.size :: (deliver u.size u.payload).1,
      (deliver u.size u.payload).2)

theorem callUpload_run (method : Method) (hshort : ∀ t ∈ Talk.messages (c s.backend), t.length ≤ maxTextSize)
    (ho : (uploadTrace (c s.backend)).2.2.1.Returns) (hs : s.Healthy) (hzero : s.resp.remainingUpload = 0)
    (hsent : L.Sent s.transport sent) :
    ∃ (x : Except CommandError Unit) (t' : τ), callUpload T method c s = (.ok x,
        (({ s with transport := t' } : Conn τ σ).owing (uploadTrace (c s.backend)).2.1).called method
          (uploadTrace (c s.backend)).2.2.2 x.isOk) ∧
      (uploadTrace (c s.backend)).2.2.1 = .ofExcept x ∧
      L.Sends sent (uploadTrace (c s.backend)).1 s.transport t' := by
  obtain ⟨t₁, htalk, hsends₁⟩ := talk_run (fun q s sent => sendInfo_run) hshort hs hsent
  unfold uploadTrace at ho ⊢
  cases hout : Talk.outcome (c s.backend) with
  | inl o =>
    rw [hout] at htalk
    simp only [hout] at ho ⊢
    obtain ⟨x, hfinish, hx⟩ := finish_run method ho { s with transport := t₁ }
    refine ⟨x, t₁, ?_, hx, hsends₁⟩
    refine (bind_run_ok (get_run s)).trans ((bind_run_ok htalk).trans (hfinish.trans ?_))
    obtain ⟨t, b, ⟨e, rem⟩, calls⟩ := s
    cases hzero
    rfl
  | inr u =>
    rw [hout] at htalk
    simp only [hout] at ho ⊢
    obtain ⟨t₂, hdata, hsends₂⟩ := sendDataMessage_run (s := { s with transport := t₁ }) u.size hs hsends₁.sent
    obtain ⟨t₃, hpay, hsends₃⟩ := payload_run (s := { s with transport := t₂ }) (d := u.payload) (n := u.size)
      hs hsends₂.sent
    obtain ⟨x, hfinish, hx⟩ := finish_run method ho
      (({ s with transport := t₃ } : Conn τ σ).owing (deliver u.size u.payload).2.1)
    have hinit : attempt (initiateUpload T u.size) { s with transport := t₁ } =
        (.ok (.ok ()), ({ s with transport := t₂ } : Conn τ σ).owing u.size) :=
      attempt_run_ok ((bind_run_ok hdata).trans rfl)
    refine ⟨x, t₃, ?_, hx, (hsends₁.append L (hsends₂.append L hsends₃))⟩
    refine (bind_run_ok (get_run s)).trans ((bind_run_ok htalk).trans ?_)
    exact (bind_run_ok hinit).trans ((bind_run_ok hpay).trans hfinish)

theorem returns_of_finish {s : Conn τ σ} {x : Except CommandError α} (h : finish method o s = (.ok x, s')) :
    o.1.Returns := by
  obtain ⟨(e | _ | _) | a, b⟩ := o
  · trivial
  · cases h
  · cases h
  · trivial

theorem returns_of_callUpload {x : Except CommandError Unit}
    (hshort : ∀ t ∈ Talk.messages (c s.backend), t.length ≤ maxTextSize) (hs : s.Healthy)
    (hsent : L.Sent s.transport sent) (h : callUpload T method c s = (.ok x, s')) :
    (uploadTrace (c s.backend)).2.2.1.Returns := by
  obtain ⟨t₁, htalk, hsends₁⟩ := talk_run (fun q s sent => sendInfo_run) hshort hs hsent
  unfold callUpload at h
  rw [bind_run_ok (get_run s), bind_run_ok htalk] at h
  unfold uploadTrace
  cases hout : Talk.outcome (c s.backend) with
  | inl o =>
    simp only [hout] at h ⊢
    exact returns_of_finish h
  | inr u =>
    obtain ⟨t₂, hdata, hsends₂⟩ := sendDataMessage_run (s := { s with transport := t₁ }) u.size hs hsends₁.sent
    obtain ⟨t₃, hpay, -⟩ := payload_run (s := { s with transport := t₂ }) (d := u.payload) (n := u.size)
      hs hsends₂.sent
    have hinit : attempt (initiateUpload T u.size) { s with transport := t₁ } =
        (.ok (.ok ()), ({ s with transport := t₂ } : Conn τ σ).owing u.size) :=
      attempt_run_ok ((bind_run_ok hdata).trans rfl)
    simp only [hout] at h ⊢
    rw [bind_run_ok hinit] at h
    simp only at h
    rw [bind_run_ok hpay] at h
    exact returns_of_finish h

end Link

end Gbl.Fastboot
