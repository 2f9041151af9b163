import Gbl.Fastboot.Replies

/-!
# The command loop

`GblFastboot::run` serves up to three channels in turn: a local session, USB, and TCP connections one at a time. The
tasks that the backend has spawned belong to the backend, which is arbitrary here. A device records the packets that
it has sent and the calls of its backend; no code looks at either.
-/

namespace Gbl.Fastboot

open Lib Lib.Exec

inductive Channel where
  | «local»
  | usb
  | tcp
  deriving DecidableEq, Repr

abbrev SentLog := List (Channel × Bytes)

section Transports

variable {τ σ : Type}

def Transport.recorded (c : Channel) (T : Transport τ) : Transport (τ × SentLog) where
  receivePacket := zoom (fun s => (s.1.1, s.2)) (fun s p => ((p.1, s.1.2), p.2)) T.receivePacket
  sendPacket := fun packet => do
    zoom Prod.fst (fun s t => (t, s.2)) (T.sendPacket packet)
    modify fun s => (s.1, s.2 ++ [(c, packet)])

def tcpHandshakeMessage : Bytes := text "FB01"

def newAndHandshake (S : TcpStream τ) : Exec Error τ Unit := do
  S.writeExact tcpHandshakeMessage
  let handshake ← zoom (fun t => (t, List.replicate 4 0)) (fun _ p => p.1)
    (S.readExact >>= fun _ => Prod.snd <$> get)
  if handshake = tcpHandshakeMessage then pure () else lift (err .invalidHandshake)

variable (display : Error → Text) (B : Backend σ)

def run (T : Transport τ) (fuel : Nat) : Nat → Exec Error (Conn τ σ) Unit
  | 0 => lift (.error .hang)
  | n + 1 => do
    if ← processNextCommand T display B fuel then pure () else run T fuel n

def runTcpSession (S : TcpStream τ) (fuel n : Nat) : Exec Error (Conn (τ × SentLog) σ) Unit := do
  onTransport (zoom Prod.fst (fun s t => (t, s.2)) (newAndHandshake S))
  run display B ((tcpTransport S).recorded .tcp) fuel n

end Transports

/-! ## The loop of `GblFastboot` -/

structure Ports (ℓ υ κ : Type) where
  «local» : Transport ℓ
  usb : Transport υ
  hasPacket : υ → Bool × υ
  tcp : TcpStream κ
  acceptNew : κ → Bool × κ

structure Device (ℓ υ κ σ : Type) where
  «local» : Option ℓ
  usb : Option υ
  tcp : Option κ
  backend : σ
  calls : List CallRecord
  sent : SentLog

section Loop

variable {ℓ υ κ σ τ α : Type} (P : Ports ℓ υ κ) (display : Error → Text) (B : Backend σ) (fuel n : Nat)

def serve (t : τ) (put : Device ℓ υ κ σ → τ → Device ℓ υ κ σ) (m : Exec Error (Conn (τ × SentLog) σ) α) :
    Exec Error (Device ℓ υ κ σ) α :=
  zoom (fun d => ⟨(t, d.sent), d.backend, .new, d.calls⟩)
    (fun d c => { put d c.transport.1 with backend := c.backend, calls := c.calls, sent := c.transport.2 }) m

def localTurn : Exec Error (Device ℓ υ κ σ) Bool := do
  match (← get).local with
  | none => pure false
  | some l =>
    match ← attempt (serve l (fun d t => { d with «local» := some t })
      (processNextCommand (P.local.recorded .local) display B fuel)) with
    | .ok leave => pure leave
    | .error _ => pure false

def usbTurn : Exec Error (Device ℓ υ κ σ) Bool := do
  match (← get).usb with
  | none => pure false
  | some u =>
    modify fun d => { d with usb := some (P.hasPacket u).2 }
    if (P.hasPacket u).1 then
      match ← attempt (serve (P.hasPacket u).2 (fun d t => { d with usb := some t })
        (processNextCommand (P.usb.recorded .usb) display B fuel)) with
      | .ok leave => pure leave
      | .error _ => pure false
    else pure false

def tcpTurn : Exec Error (Device ℓ υ κ σ) Bool := do
  match (← get).tcp with
  | none => pure false
  | some k =>
    modify fun d => { d with tcp := some (P.acceptNew k).2 }
    if (P.acceptNew k).1 then
      match ← attempt (serve (P.acceptNew k).2 (fun d t => { d with tcp := some t })
        (runTcpSession display B P.tcp fuel n)) with
      | .ok () => pure true
      | .error _ => pure false
    else pure false

def commandLoop : Nat → Exec Error (Device ℓ υ κ σ) Unit
  | 0 => lift (.error .hang)
  | turns + 1 => do
    if ← localTurn P display B fuel then pure ()
    else if ← usbTurn P display B fuel then pure ()
    else if ← tcpTurn P display B fuel n then pure ()
    else commandLoop turns

def Device.Connected (d : Device ℓ υ κ σ) : Prop := d.local.isSome ∨ d.usb.isSome ∨ d.tcp.isSome

instance (d : Device ℓ υ κ σ) : Decidable d.Connected := inferInstanceAs (Decidable (_ ∨ _ ∨ _))

def runFastboot (turns : Nat) : Exec Error (Device ℓ υ κ σ) Unit := do
  if (← get).Connected then commandLoop P display B fuel n turns else pure ()

end Loop

/-! ## Leaving -/

def Left (c : Channel) (calls : List CallRecord) (sent : SentLog) : Prop :=
  ∃ call t, calls.getLast? = some call ∧ (call.method = .boot ∨ call.method = .continue) ∧
    sent.getLast? = some (c, finalPacket call.ok t)

section Commands

variable {τ σ α β : Type} {T : Transport τ} {c : Channel} {display : Error → Text} {B : Backend σ} {fuel : Nat}
  {s s' : Conn (τ × SentLog) σ}

theorem bind_pure_run_eq_ok {S : Type} {m : Exec Error S α} {t t' : S} {b b' : β}
    (h : (m >>= fun _ => pure b) t = (.ok b', t')) : b = b' ∧ ∃ a, m t = (.ok a, t') := by
  obtain ⟨a, t₁, hm, hpure⟩ := bind_run_eq_ok h
  obtain ⟨hb, rfl⟩ := Prod.mk.inj hpure
  exact ⟨Except.ok.inj hb, a, hm⟩

variable {packet : Bytes} {kind : String} {pieces : List Text} {y : Except CommandError Text}
  {method : Method} {x : Except CommandError α} {n : Nat}

theorem sendPacket_recorded {t t' : τ × SentLog} (h : (T.recorded c).sendPacket packet t = (.ok (), t')) :
    t'.2 = t.2 ++ [(c, packet)] := by
  obtain ⟨a, t₁, hsend, hrecord⟩ := bind_run_eq_ok h
  obtain ⟨-, rfl⟩ := Prod.mk.inj hsend
  obtain ⟨-, rfl⟩ := Prod.mk.inj hrecord
  rfl

theorem message_eq_of_lt (h : (message kind pieces).length < maxResponseSize) :
    message kind pieces = text kind ++ pieces.flatten := by
  rw [message, formatted_eq, List.length_take] at h
  rw [message, formatted_eq, List.flatten_cons, List.take_of_length_le]
  simp only [List.flatten_cons] at h
  omega

theorem sendMsg_recorded (h : sendMsg (T.recorded c) kind pieces s = (.ok (), s')) :
    s'.calls = s.calls ∧ s'.transport.2 = s.transport.2 ++ [(c, text kind ++ pieces.flatten)] := by
  unfold sendMsg at h
  rw [bind_run_ok (get_run s)] at h
  obtain ⟨-, -, h⟩ := lift_bind_run_eq_ok h
  by_cases hlen : (message kind pieces).length < maxResponseSize
  · rw [assert_bind_run_true (by simpa using hlen)] at h
    obtain ⟨sent, s₁, hattempt, h⟩ := bind_run_eq_ok h
    rw [bind_run_ok (modify_run _ s₁)] at h
    obtain ⟨hsent, rfl⟩ := Prod.mk.inj h
    obtain rfl := Res.ofExcept_eq_ok.mp hsent
    have hrun := attempt_run_eq_ok hattempt
    obtain ⟨hpacket, rfl⟩ := Prod.mk.inj hrun
    refine ⟨rfl, ?_⟩
    rw [← message_eq_of_lt hlen]
    exact sendPacket_recorded (Prod.ext hpacket rfl)
  · rw [assert_bind_run_false (by simpa using hlen)] at h
    cases h

theorem reply_recorded (h : reply (T.recorded c) y s = (.ok (), s')) :
    s'.calls = s.calls ∧ s'.transport.2 = s.transport.2 ++ [(c, finalPacket y.isOk (replyText y))] := by
  cases y with
  | ok t =>
    have hmsg := sendMsg_recorded h
    rw [List.flatten_singleton] at hmsg
    exact hmsg
  | error e =>
    have hmsg := sendMsg_recorded h
    rw [List.flatten_singleton] at hmsg
    exact hmsg

theorem finish_recorded {o : Outcome σ α} (h : finish method o s = (.ok x, s')) :
    s'.calls = s.calls ++ [⟨method, x.isOk⟩] := by
  unfold finish at h
  rw [bind_run_ok (modify_run _ s)] at h
  rcases o with ⟨(e | _ | _) | a, b⟩
  · cases h
    rfl
  · cases h
  · cases h
  · cases h
    rfl

theorem call_recorded {m : Call σ α} (h : call (T.recorded c) method m s = (.ok x, s')) :
    s'.calls.getLast? = some ⟨method, x.isOk⟩ := by
  unfold call at h
  rw [bind_run_ok (get_run s)] at h
  obtain ⟨o, s₁, -, hfinish⟩ := bind_run_eq_ok h
  rw [finish_recorded hfinish, List.getLast?_concat]

theorem callOkay_recorded {m : OkayCall σ α} (h : callOkay (T.recorded c) method m s = (.ok x, s')) :
    s'.calls.getLast? = some ⟨method, x.isOk⟩ := by
  unfold callOkay at h
  rw [bind_run_ok (get_run s)] at h
  obtain ⟨o | ⟨t, next⟩, s₁, -, h⟩ := bind_run_eq_ok h
  · rw [finish_recorded h, List.getLast?_concat]
  · obtain ⟨sent, s₂, -, hfinish⟩ := bind_run_eq_ok h
    rw [finish_recorded hfinish, List.getLast?_concat]

/-! ### One command -/

theorem left_of_reply {ok : Bool} (hcall : s.calls.getLast? = some ⟨method, ok⟩)
    (hmethod : method = .boot ∨ method = .continue) (hy : y.isOk = ok)
    (h : reply (T.recorded c) y s = (.ok (), s')) : Left c s'.calls s'.transport.2 := by
  obtain ⟨hcalls, hsent⟩ := reply_recorded h
  refine ⟨⟨method, ok⟩, replyText y, ?_, hmethod, ?_⟩
  · rw [hcalls, hcall]
  · rw [hsent, List.getLast?_concat, hy]

theorem isOk_map {f : α → β} : (x.map f).isOk = x.isOk := by
  cases x <;> rfl

theorem left_of_boot (h : boot (T.recorded c) B s = (.ok (), s')) : Left c s'.calls s'.transport.2 := by
  unfold boot newResponder at h
  rw [bind_run_ok (modify_run _ s)] at h
  obtain ⟨x, s₁, hcall, hreply⟩ := bind_run_eq_ok h
  exact left_of_reply (callOkay_recorded hcall) (Or.inl rfl) isOk_map hreply

theorem left_of_continue (h : «continue» (T.recorded c) B s = (.ok (), s')) : Left c s'.calls s'.transport.2 := by
  unfold «continue» newResponder at h
  rw [bind_run_ok (modify_run _ s)] at h
  obtain ⟨x, s₁, hcall, hreply⟩ := bind_run_eq_ok h
  exact left_of_reply (call_recorded hcall) (Or.inr rfl) isOk_map hreply

theorem left_of_handle {cmdStr : Text} {args : List Text} {cmd : Command}
    (h : handle (T.recorded c) display B fuel packet cmdStr args cmd s = (.ok true, s')) :
    Left c s'.calls s'.transport.2 := by
  cases cmd with
  | boot =>
    obtain ⟨-, _, hboot⟩ := bind_pure_run_eq_ok h
    exact left_of_boot hboot
  | «continue» =>
    obtain ⟨-, _, hcontinue⟩ := bind_pure_run_eq_ok h
    exact left_of_continue hcontinue
  | download | erase | fetch | flash | getvar | reboot | setActive | upload | oem | unknown =>
    exact absurd (bind_pure_run_eq_ok h).1 (by decide)

theorem left_of_processPacket {size : Nat}
    (h : processPacket (T.recorded c) display B fuel packet size s = (.ok true, s')) :
    Left c s'.calls s'.transport.2 := by
  unfold processPacket at h
  split at h
  · cases h
  · obtain ⟨_, s₁, -, h⟩ := bind_run_eq_ok h
    cases hutf : fromUtf8 (packet.take size) with
    | error e =>
      simp only [hutf] at h
      exact absurd (bind_pure_run_eq_ok h).1 (by decide)
    | ok cmdStr =>
      cases hsplit : split colon cmdStr with
      | nil =>
        simp only [hutf, hsplit] at h
        exact absurd (bind_pure_run_eq_ok h).1 (by decide)
      | cons cmd args =>
        simp only [hutf, hsplit] at h
        exact left_of_handle h

theorem left_of_processNextCommand (h : processNextCommand (T.recorded c) display B fuel s = (.ok true, s')) :
    Left c s'.calls s'.transport.2 := by
  unfold processNextCommand at h
  obtain ⟨⟨size, packet⟩, s₁, -, h⟩ := bind_run_eq_ok h
  exact left_of_processPacket h

theorem left_of_run (h : run display B (T.recorded c) fuel n s = (.ok (), s')) : Left c s'.calls s'.transport.2 := by
  induction n generalizing s with
  | zero => cases h
  | succ n ih =>
    obtain ⟨leave, s₁, hcommand, h⟩ := bind_run_eq_ok h
    cases leave with
    | false => exact ih h
    | true =>
      cases h
      exact left_of_processNextCommand hcommand

theorem left_of_runTcpSession {S : TcpStream τ} (h : runTcpSession display B S fuel n s = (.ok (), s')) :
    Left .tcp s'.calls s'.transport.2 := by
  obtain ⟨_, s₁, -, hrun⟩ := bind_run_eq_ok h
  exact left_of_run hrun

end Commands

/-! ### The loop -/

section Loop

variable {ℓ υ κ σ τ α : Type} {P : Ports ℓ υ κ} {display : Error → Text} {B : Backend σ} {fuel n : Nat}
  {d d' : Device ℓ υ κ σ}

theorem left_of_serve {c : Channel} {t : τ} {put : Device ℓ υ κ σ → τ → Device ℓ υ κ σ}
    {m : Exec Error (Conn (τ × SentLog) σ) α} {a : α}
    (hm : ∀ s s', m s = (.ok a, s') → Left c s'.calls s'.transport.2) (h : serve t put m d = (.ok a, d')) :
    Left c d'.calls d'.sent := by
  obtain ⟨hrun, rfl⟩ := Prod.mk.inj h
  exact hm _ _ (Prod.ext hrun rfl)

theorem left_of_localTurn (h : localTurn P display B fuel d = (.ok true, d')) : Left .local d'.calls d'.sent := by
  unfold localTurn at h
  rw [bind_run_ok (get_run d)] at h
  cases hl : d.local with
  | none =>
    simp only [hl] at h
    cases h
  | some l =>
    simp only [hl] at h
    obtain ⟨leave | leave, d₁, hattempt, h⟩ := bind_run_eq_ok h
    · cases h
    · cases h
      exact left_of_serve (fun _ _ => left_of_processNextCommand) (attempt_run_eq_ok hattempt)

theorem left_of_usbTurn (h : usbTurn P display B fuel d = (.ok true, d')) : Left .usb d'.calls d'.sent := by
  unfold usbTurn at h
  rw [bind_run_ok (get_run d)] at h
  cases hchannel : d.usb with
  | none =>
    simp only [hchannel] at h
    cases h
  | some t =>
    simp only [hchannel] at h
    rw [bind_run_ok (modify_run _ d)] at h
    split at h
    · obtain ⟨leave | leave, d₁, hattempt, h⟩ := bind_run_eq_ok h
      · cases h
      · cases h
        exact left_of_serve (fun _ _ => left_of_processNextCommand) (attempt_run_eq_ok hattempt)
    · cases h

theorem left_of_tcpTurn (h : tcpTurn P display B fuel n d = (.ok true, d')) : Left .tcp d'.calls d'.sent := by
  unfold tcpTurn at h
  rw [bind_run_ok (get_run d)] at h
  cases hchannel : d.tcp with
  | none =>
    simp only [hchannel] at h
    cases h
  | some t =>
    simp only [hchannel] at h
    rw [bind_run_ok (modify_run _ d)] at h
    split at h
    · obtain ⟨leave | leave, d₁, hattempt, h⟩ := bind_run_eq_ok h
      · cases h
      · cases h
        exact left_of_serve (fun _ _ => left_of_runTcpSession) (attempt_run_eq_ok hattempt)
    · cases h

theorem left_of_commandLoop {turns : Nat} (h : commandLoop P display B fuel n turns d = (.ok (), d')) :
    ∃ c, Left c d'.calls d'.sent := by
  induction turns generalizing d with
  | zero => cases h
  | succ turns ih =>
    obtain ⟨leave | leave, d₁, hlocal, h⟩ := bind_run_eq_ok h
    · obtain ⟨leave | leave, d₂, husb, h⟩ := bind_run_eq_ok h
      · obtain ⟨leave | leave, d₃, htcp, h⟩ := bind_run_eq_ok h
        · exact ih h
        · cases h
          exact ⟨.tcp, left_of_tcpTurn htcp⟩
      · cases h
        exact ⟨.usb, left_of_usbTurn husb⟩
    · cases h
      exact ⟨.local, left_of_localTurn hlocal⟩

def Device.LeftOnOkay (d : Device ℓ υ κ σ) : Prop :=
  ∃ c call t, d.calls.getLast? = some call ∧ (call.method = .boot ∨ call.method = .continue) ∧
    d.sent.getLast? = some (c, finalPacket true t)

theorem finalPacket_inj {a b : Bool} {t u : Text} (h : finalPacket a t = finalPacket b u) : a = b := by
  cases a <;> cases b
  · rfl
  · exact absurd (congrArg List.head? h) (by simp [finalPacket, text])
  · exact absurd (congrArg List.head? h) (by simp [finalPacket, text])
  · rfl

/-- **Leaving fastboot.** The command loop ends after `boot` or `continue` only. The host has got
OKAY for it if and only if the backend's call has succeeded; if the call has failed the loop has ended
on a FAIL. -/
theorem left_on_okay_iff {turns : Nat} (hd : d.Connected)
    (h : runFastboot P display B fuel n turns d = (.ok (), d')) :
    d'.LeftOnOkay ↔ ∀ call, d'.calls.getLast? = some call → call.ok = true := by
  unfold runFastboot at h
  rw [bind_run_ok (get_run d), if_pos hd] at h
  obtain ⟨c, call, t, hcall, hmethod, hsent⟩ := left_of_commandLoop h
  constructor
  · rintro ⟨c', call', t', hcall', -, hsent'⟩ call'' hlast
    obtain rfl := Option.some.inj (hcall.symm.trans hlast)
    have hpacket := Option.some.inj (hsent.symm.trans hsent')
    exact finalPacket_inj (congrArg Prod.snd hpacket)
  · intro hok
    refine ⟨c, call, t, hcall, hmethod, ?_⟩
    rw [hsent, hok call hcall]

end Loop

def queuePorts : Ports PacketQueue PacketQueue ByteStream where
  «local» := packetTransport truncating
  usb := packetTransport truncating
  hasPacket q := (!q.incoming.isEmpty, q)
  tcp := byteStream
  acceptNew t := (!t.input.isEmpty, t)

def usbDevice (packets : List Bytes) : Device PacketQueue PacketQueue ByteStream Bytes :=
  ⟨none, some ⟨packets, []⟩, some ⟨[], []⟩, [], [], []⟩

def continuing : Result Unit × Device PacketQueue PacketQueue ByteStream Bytes :=
  runFastboot queuePorts (fun _ => []) bufferBackend 1 1 2 (usbDevice [text "getvar:x", text "continue"])

theorem left_on_okay_continue : continuing.2.LeftOnOkay := by
  have hrun : continuing.1 = .ok () := by decide +kernel
  have hpair : continuing = (.ok (), continuing.2) := by rw [← hrun]
  have hlast : ∀ call ∈ continuing.2.calls.getLast?, call.ok = true := by decide +kernel
  refine (left_on_okay_iff ?_ hpair).2 hlast
  decide

def imagelessBackend : Backend Bytes :=
  { bufferBackend with boot := fun b => .done (.inl (.err (commandError "No boot image staged"), b)) }

def refusing : Result Unit × Device PacketQueue PacketQueue ByteStream Bytes :=
  runFastboot queuePorts (fun _ => []) imagelessBackend 1 1 1 (usbDevice [text "boot", text "getvar:x"])

/-- A boot that is refused ends the loop; the command behind it is not looked at. -/
theorem left_on_fail : refusing.1 = .ok () ∧
    refusing.2.sent = [(.usb, text "FAILNo boot image staged")] ∧ ¬ refusing.2.LeftOnOkay := by
  have hsent : refusing.2.sent = [(.usb, text "FAILNo boot image staged")] := by decide +kernel
  refine ⟨by decide +kernel, hsent, ?_⟩
  rintro ⟨c, call, t, -, -, hlast⟩
  rw [hsent] at hlast
  have hpacket : text "FAILNo boot image staged" = text "OKAY" ++ t :=
    congrArg Prod.snd (Option.some.inj hlast)
  exact absurd (congrArg List.head? hpacket) (by simp [text])

end Gbl.Fastboot
