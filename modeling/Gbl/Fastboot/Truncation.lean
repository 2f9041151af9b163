import Gbl.Fastboot.Sending

/-!
# Long messages

`Notice` is a text on one of the paths to the host, each with its own fixed-size buffer. It is *delivered* if, over
any link that works, it becomes one packet with as much of its text as fits.
-/

namespace Gbl.Fastboot

open Lib Lib.Exec

inductive Notice where
  /-- `send_info`, with a text of the backend. -/
  | info (t : Text)
  /-- `send_var_info`. -/
  | varInfo (v : VarInfo)
  /-- `send_okay` and `reply_okay!`. -/
  | okay (t : Text)
  /-- `reply_fail!`, with a text of the library. -/
  | fail (t : Text)
  /-- `reply_fail!`, with an error of the backend that displays as a text. -/
  | failure (display : Text) (h : ValidUtf8 display)
  /-- The value of a variable: its size and the buffer with the value. -/
  | value (v : Nat × Bytes)
  /-- The output of an `oem` command. -/
  | output (msg : Bytes)

namespace Notice

def send {τ σ : Type} (T : Transport τ) : Notice → Exec Error (Conn τ σ) Unit
  | info t => sendInfo T t
  | varInfo v => sendVarInfo T v
  | okay t => replyOkay T t
  | fail t => replyFail T t
  | failure display _ => reply T (.error (.ofText display))
  | value v => reply T (varAsStr v)
  | output msg =>
    match fromUtf8 msg with
    | .ok t => replyOkay T t
    | .error e => sendMsg T "FAIL" [text "Invalid return string ", e.display]

def kind : Notice → String
  | info _ | varInfo _ => "INFO"
  | okay _ => "OKAY"
  | fail _ | failure _ _ => "FAIL"
  | value v => if (varAsStr v).isOk then "OKAY" else "FAIL"
  | output msg => if (fromUtf8 msg).isOk then "OKAY" else "FAIL"

def pieces : Notice → List Text
  | info t | okay t | fail t | failure t _ => [t]
  | varInfo v => v.pieces
  | value v =>
    match varAsStr v with
    | .ok t => [t]
    | .error e => [e.toStr]
  | output msg =>
    match fromUtf8 msg with
    | .ok t => [t]
    | .error e => [text "Invalid return string ", e.display]

def words (m : Notice) : Text := m.pieces.flatten

def packet (m : Notice) : Bytes := text m.kind ++ m.words.take (maxResponseSize - 4)

def Delivered (m : Notice) : Prop :=
  ∀ (τ σ : Type) (T : Transport τ) (L : Link T) (s : Conn τ σ) (sent : List Bytes), s.Healthy →
    L.Sent s.transport sent →
    ∃ s', m.send T s = (.ok (), s') ∧ L.Sent s'.transport (sent ++ [m.packet])

end Notice

/-! ## Messages of the responder -/

theorem sendMsg_panics {τ σ : Type} {T : Transport τ} {s : Conn τ σ} {kind : String} {pieces : List Text}
    (hkind : (text kind).length = 4) (hlen : maxTextSize < pieces.flatten.length) (hs : s.Healthy) :
    sendMsg T kind pieces s = (panic, s) := by
  have hfull : ¬ (message kind pieces).length < maxResponseSize := by
    rw [message, formatted_eq, List.flatten_cons, List.length_take, List.length_append, hkind]
    simp only [maxTextSize] at hlen
    simp only [maxResponseSize]
    omega
  unfold sendMsg
  refine (bind_run_ok (get_run s)).trans ?_
  refine (bind_run_ok (lift_run_ok (a := ()) (by rw [hs]; rfl) s)).trans ?_
  refine bind_run_error ?_
  rw [decide_eq_false hfull]
  rfl

def quietConn : Conn PacketQueue Unit := ⟨⟨[], []⟩, (), .new, []⟩

theorem quietConn_healthy : quietConn.Healthy := rfl

namespace Notice

theorem kind_cases (m : Notice) : m.kind = "INFO" ∨ m.kind = "OKAY" ∨ m.kind = "FAIL" := by
  cases m with
  | info | varInfo => exact Or.inl rfl
  | okay => exact Or.inr (Or.inl rfl)
  | fail | failure => exact Or.inr (Or.inr rfl)
  | value v =>
    simp only [kind]
    split <;> simp
  | output msg =>
    simp only [kind]
    split <;> simp

theorem length_kind (m : Notice) : (text m.kind).length = 4 := by
  rcases m.kind_cases with h | h | h <;> rw [h] <;> decide

variable {τ σ : Type} {m : Notice} {t : Text}

theorem send_eq (T : Transport τ) (hm : ∀ t h, m ≠ failure t h) : m.send (σ := σ) T = sendMsg T m.kind m.pieces := by
  cases m with
  | info | varInfo | okay | fail => rfl
  | failure t h => exact absurd rfl (hm t h)
  | value v =>
    simp only [send, kind, pieces]
    cases varAsStr v <;> rfl
  | output msg =>
    simp only [send, kind, pieces]
    cases fromUtf8 msg <;> rfl

theorem delivered_of_le (hsend : ∀ (τ σ : Type) (T : Transport τ),
      m.send (σ := σ) T = sendMsg T m.kind m.pieces) (hlen : m.words.length ≤ maxTextSize) : m.Delivered := by
  intro τ σ T L s sent hs hsent
  have hfits : m.words.take (maxResponseSize - 4) = m.words := List.take_of_length_le (hlen.trans (by decide))
  obtain ⟨t', hrun, hsends⟩ := sendMsg_run (L := L) m.kind m.pieces m.length_kind hlen hs hsent
  refine ⟨_, (congrFun (hsend τ σ T) s).trans hrun, ?_⟩
  rw [packet, hfits]
  exact hsends.sent

theorem length_le_of_delivered (hm : ∀ t h, m ≠ failure t h) (h : m.Delivered) : m.words.length ≤ maxTextSize := by
  obtain ⟨s', hrun, -⟩ := h _ _ _ (packetLink truncating) quietConn [] quietConn_healthy rfl
  by_contra hlen
  rw [send_eq _ hm, sendMsg_panics m.length_kind (not_le.mp hlen) quietConn_healthy] at hrun
  cases hrun

/-! ## Errors -/

theorem toStr_ofText (t : Text) : (CommandError.ofText t).toStr =
      if ValidUtf8 (t.take commandErrorLength) then t.take commandErrorLength else [] := by
  simp only [CommandError.toStr, CommandError.ofText, formatted_eq, List.flatten_singleton]

theorem send_failure (T : Transport τ) (h : ValidUtf8 t) :
    (failure t h).send (σ := σ) T = sendMsg T "FAIL" [(CommandError.ofText t).toStr] := rfl

theorem send_failure_of_le (T : Transport τ) (h : ValidUtf8 t) (hlen : t.length ≤ maxTextSize) :
    (failure t h).send (σ := σ) T = sendMsg T "FAIL" [t] := by
  have hcut : t.take commandErrorLength = t := List.take_of_length_le (hlen.trans (by decide))
  rw [send_failure, toStr_ofText, hcut, if_pos h]

theorem not_delivered_failure (h : ValidUtf8 t) (hlen : maxTextSize < t.length) : ¬ (failure t h).Delivered := by
  intro hdel
  obtain ⟨s', hrun, hsent⟩ := hdel _ _ _ (packetLink truncating) quietConn [] quietConn_healthy rfl
  have htake : (t.take commandErrorLength).length = commandErrorLength := by
    rw [List.length_take]
    exact Nat.min_eq_left hlen
  rw [send_failure, toStr_ofText] at hrun
  by_cases hcut : ValidUtf8 (t.take commandErrorLength)
  · have hlong : maxTextSize < [t.take commandErrorLength].flatten.length := by
      rw [List.flatten_singleton, htake]
      decide
    rw [if_pos hcut, sendMsg_panics (by decide : (text "FAIL").length = 4) hlong quietConn_healthy] at hrun
    cases hrun
  · rw [if_neg hcut] at hrun
    obtain ⟨t', hfail, hsends⟩ := sendMsg_run (L := packetLink truncating) (s := quietConn) "FAIL" [[]] (by decide)
      (by decide) rfl (show (packetLink truncating).Sent _ [] from rfl)
    -- the host has got FAIL alone, and should have got 252 bytes behind it
    obtain rfl : _ = s' := congrArg Prod.snd (hfail.symm.trans hrun)
    have hpacket : [text "FAIL" ++ []] = [(failure t h).packet] := hsends.sent.symm.trans hsent
    have hlength := congrArg List.length (List.singleton_inj.mp hpacket)
    rw [packet, List.length_append, List.length_append] at hlength
    have hroom : ((failure t h).words.take (maxResponseSize - 4)).length = commandErrorLength := by
      rw [show (failure t h).words = t from List.flatten_singleton ..]
      exact htake
    have hnil : ([] : Text).length = commandErrorLength := by
      rw [← hroom]
      exact Nat.add_left_cancel hlength
    exact absurd hnil (by decide)

/-- **Long messages are fatal.** Over every link that works a text becomes one packet, with as much
of it as fits into a response, if and only if the text has at most 251 bytes. -/
theorem delivered_iff (m : Notice) : m.Delivered ↔ m.words.length ≤ maxTextSize := by
  by_cases hm : ∀ t h, m ≠ failure t h
  · exact ⟨length_le_of_delivered hm, delivered_of_le fun _ _ T => send_eq T hm⟩
  · push Not at hm
    obtain ⟨t, h, rfl⟩ := hm
    have hwords : (failure t h).words = t := List.flatten_singleton ..
    constructor
    · intro hdel
      by_contra hlen
      exact not_delivered_failure h (by rwa [hwords, not_le] at hlen) hdel
    · intro hlen
      exact delivered_of_le (fun _ _ T => send_failure_of_le T h (by rwa [hwords] at hlen)) hlen

/-- An INFO message of 252 bytes, and an error that is cut inside its last character: neither is delivered. The first
one panics, of the second one the host gets the word FAIL alone. -/
theorem long_notices_fatal :
    (¬ (info (List.replicate 252 0x41)).Delivered ∧
      (sendInfo (packetTransport truncating) (List.replicate 252 0x41) quietConn).1 = panic) ∧
    (∃ h, ¬ (failure (List.replicate 251 0x41 ++ [0xc3, 0xa9]) h).Delivered) ∧
      ((reply (packetTransport truncating)
        (.error (.ofText (List.replicate 251 0x41 ++ [0xc3, 0xa9]))) quietConn).2.transport.sent =
        [text "FAIL"]) := by
  refine ⟨⟨fun h => ?_, by decide +kernel⟩,
    ⟨by decide +kernel, not_delivered_failure _ (by decide +kernel)⟩, by decide +kernel⟩
  exact absurd (length_le_of_delivered (fun _ _ h => by cases h) h) (by decide +kernel)

end Notice

end Gbl.Fastboot
