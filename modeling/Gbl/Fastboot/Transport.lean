import Gbl.Error
import Gbl.Fastboot.Text

/-!
# Transports

What is said about a transport that works — packets arrive in order and whole, a packet that does not fit is never
taken for one that does, every packet sent arrives — is the structure `Link`; the protocol is verified against any of
them.
-/

namespace Gbl.Fastboot

open Lib Lib.Exec

structure Transport (τ : Type) where
  /-- Fetch the next packet into the buffer that is part of the state; its size. -/
  receivePacket : Exec Error (τ × Bytes) Nat
  sendPacket : Bytes → Exec Error τ Unit

def Oversize (room : Nat) : Result Nat → Prop
  | .ok v => room < v ∧ v < 2 ^ 63
  | .error (.err _) => True
  | .error .panic => False
  | .error .hang => False

structure Link {τ : Type} (T : Transport τ) where
  Incoming : τ → List Bytes → Prop
  Sent : τ → List Bytes → Prop
  /-- A packet that fits arrives whole and leaves the rest of the buffer alone. -/
  receive : ∀ {t : τ} {p out : Bytes} {ps : List Bytes}, Incoming t (p :: ps) → p.length ≤ out.length →
    ∃ t', T.receivePacket (t, out) = (.ok p.length, (t', p ++ out.drop p.length)) ∧ Incoming t' ps ∧
      ∀ sent, Sent t sent → Sent t' sent
  /-- A packet that does not fit is not mistaken for one that does. -/
  refuse : ∀ {t : τ} {p out : Bytes} {ps : List Bytes}, Incoming t (p :: ps) → out.length < p.length →
    ∃ r t' out', T.receivePacket (t, out) = (r, (t', out')) ∧ Oversize out.length r ∧
      out'.length = out.length ∧ ∀ sent, Sent t sent → Sent t' sent
  /-- With no packet to come the device waits. -/
  wait : ∀ {t : τ} {out : Bytes}, Incoming t [] → T.receivePacket (t, out) = (.error .hang, (t, out))
  send : ∀ {t : τ} (p : Bytes) {sent : List Bytes}, Sent t sent →
    ∃ t', T.sendPacket p t = (.ok (), t') ∧ Sent t' (sent ++ [p]) ∧ ∀ ps, Incoming t ps → Incoming t' ps

def Link.Faultless {τ : Type} {T : Transport τ} (L : Link T) : Prop :=
  ∀ (t : τ) (out : Bytes) (ps : List Bytes), L.Incoming t ps → ¬ (T.receivePacket (t, out)).1.IsErr

/-! ## A queue of packets -/

structure PacketQueue where
  incoming : List Bytes
  sent : List Bytes
  deriving DecidableEq, Repr

structure OversizePolicy where
  answer : (packet out : Bytes) → Result Nat × Bytes
  oversize : ∀ packet out : Bytes, out.length < packet.length → Oversize out.length (answer packet out).1
  length : ∀ packet out : Bytes, (answer packet out).2.length = out.length

def packetTransport (policy : OversizePolicy) : Transport PacketQueue where
  receivePacket := fun (q, out) =>
    match q.incoming with
    | [] => (.error .hang, (q, out))
    | p :: ps =>
      if p.length ≤ out.length then
        (.ok p.length, ({ q with incoming := ps }, p ++ out.drop p.length))
      else ((policy.answer p out).1, ({ q with incoming := ps }, (policy.answer p out).2))
  sendPacket := fun p => modify fun q => { q with sent := q.sent ++ [p] }

def truncating : OversizePolicy where
  answer packet out :=
    if packet.length < 2 ^ 63 then
      (.ok packet.length, packet.take out.length ++ out.drop packet.length)
    else (err .badBufferSize, out)
  oversize packet out h := by
    split
    · next hlt => exact ⟨h, hlt⟩
    · exact trivial
  length packet out := by
    split
    · simp
      omega
    · rfl

def packetLink (policy : OversizePolicy) : Link (packetTransport policy) where
  Incoming q ps := q.incoming = ps ∧ ∀ p ∈ ps, p.length < 2 ^ 63
  Sent q sent := q.sent = sent
  receive := by
    rintro ⟨incoming, sent⟩ p out ps ⟨rfl, hlen⟩ hfits
    refine ⟨⟨ps, sent⟩, ?_, ⟨rfl, fun q hq => hlen q (List.mem_cons_of_mem p hq)⟩, fun _ h => h⟩
    simp [packetTransport, hfits]
  refuse := by
    rintro ⟨incoming, sent⟩ p out ps ⟨rfl, -⟩ hlong
    refine ⟨_, ⟨ps, sent⟩, _, ?_, policy.oversize p out hlong, policy.length p out, fun _ h => h⟩
    simp [packetTransport, Nat.not_le.mpr hlong]
  wait := by
    rintro ⟨incoming, sent⟩ out ⟨rfl, -⟩
    rfl
  send := by
    rintro ⟨incoming, sent⟩ p _ rfl
    exact ⟨⟨incoming, sent ++ [p]⟩, rfl, rfl, fun _ h => h⟩

theorem packetLink_truncating_faultless : (packetLink truncating).Faultless := by
  rintro ⟨incoming, sent⟩ out ps ⟨rfl, hlen⟩
  cases incoming with
  | nil => exact id
  | cons p ps =>
    have hp : p.length < 2 ^ 63 := hlen p (List.mem_cons_self ..)
    by_cases hfits : p.length ≤ out.length
    · simp [packetTransport, hfits]
    · simp only [packetTransport, hfits, truncating, hp, if_true, if_false]
      exact id

/-! ## TCP -/

structure TcpStream (τ : Type) where
  /-- Fill the buffer that is part of the state. -/
  readExact : Exec Error (τ × Bytes) Unit
  writeExact : Bytes → Exec Error τ Unit

def toBeBytes (n : Nat) : Bytes := (leBytes 8 n).reverse

def fromBeBytes (bs : Bytes) : Nat := leValue bs.reverse

@[simp] theorem length_toBeBytes (n : Nat) : (toBeBytes n).length = 8 := by simp [toBeBytes]

theorem fromBeBytes_toBeBytes {n : Nat} (h : n < 2 ^ 64) : fromBeBytes (toBeBytes n) = n := by
  rw [fromBeBytes, toBeBytes, List.reverse_reverse, leValue_leBytes (h.trans_le (by decide))]

def tcpReceivePacket {τ : Type} (S : TcpStream τ) : Exec Error (τ × Bytes) Nat := do
  let lengthPrefix ← zoom (fun s => (s.1, List.replicate 8 0)) (fun s p => (p.1, s.2))
    (S.readExact >>= fun _ => Prod.snd <$> get)
  let packetSize := fromBeBytes lengthPrefix
  let s ← get
  if s.2.length < packetSize then lift (err .invalidInput)
  else do
    zoom (fun s => (s.1, s.2.take packetSize)) (fun s p => (p.1, p.2 ++ s.2.drop packetSize)) S.readExact
    pure packetSize

def tcpTransport {τ : Type} (S : TcpStream τ) : Transport τ where
  receivePacket := tcpReceivePacket S
  sendPacket := fun packet => do
    S.writeExact (toBeBytes packet.length)
    S.writeExact packet

structure ByteStream where
  input : Bytes
  output : Bytes
  deriving DecidableEq, Repr

def byteStream : TcpStream ByteStream where
  readExact := fun (t, out) =>
    if out.length ≤ t.input.length then
      (.ok (), ({ t with input := t.input.drop out.length }, t.input.take out.length))
    else (.error .hang, (t, out))
  writeExact := fun data => modify fun t => { t with output := t.output ++ data }

def frame (p : Bytes) : Bytes := toBeBytes p.length ++ p

theorem byteStream_readExact {t : ByteStream} {out d rest : Bytes} (ht : t.input = d ++ rest)
    (hlen : d.length = out.length) :
    byteStream.readExact (t, out) = (.ok (), ({ t with input := rest }, d)) := by
  simp [byteStream, ht, ← hlen]

theorem tcp_receivePacket {t : ByteStream} {p rest : Bytes} (ht : t.input = frame p ++ rest)
    (hp : p.length < 2 ^ 64) (out : Bytes) :
    tcpReceivePacket byteStream (t, out) =
      if out.length < p.length then (err .invalidInput, ({ t with input := p ++ rest }, out))
      else (.ok p.length, ({ t with input := rest }, p ++ out.drop p.length)) := by
  have hprefix : byteStream.readExact (t, List.replicate 8 0) =
      (.ok (), ({ t with input := p ++ rest }, toBeBytes p.length)) :=
    byteStream_readExact (by rw [ht, frame, List.append_assoc]) (by simp)
  have hbody (hfits : ¬ out.length < p.length) :
      byteStream.readExact ({ t with input := p ++ rest }, out.take p.length) =
        (.ok (), ({ t with input := rest }, p)) :=
    byteStream_readExact rfl (by simp; omega)
  have hrun : (zoom (fun s : ByteStream × Bytes => (s.1, List.replicate 8 0)) (fun s p => (p.1, s.2))
      (byteStream.readExact >>= fun _ => Prod.snd <$> get)) (t, out) =
        (.ok (toBeBytes p.length), ({ t with input := p ++ rest }, out)) := by
    rw [zoom, bind_run_ok hprefix]
    rfl
  refine (bind_run_ok hrun).trans ?_
  rw [fromBeBytes_toBeBytes hp]
  show (if out.length < p.length then lift (err .invalidInput) else _ :
    Exec Error (ByteStream × Bytes) Nat) ({ t with input := p ++ rest }, out) = _
  by_cases hlong : out.length < p.length
  · rw [if_pos hlong, if_pos hlong]
    rfl
  · rw [if_neg hlong, if_neg hlong]
    have hread : zoom (fun u : ByteStream × Bytes => (u.1, u.2.take p.length))
        (fun u v => (v.1, v.2 ++ u.2.drop p.length)) byteStream.readExact ({ t with input := p ++ rest }, out) =
        (.ok (), ({ t with input := rest }, p ++ out.drop p.length)) := by
      rw [zoom]
      simp only [hbody hlong]
    exact (bind_run_ok hread).trans rfl

def tcpLink : Link (tcpTransport byteStream) where
  Incoming t ps := t.input = ps.flatMap frame ∧ ∀ p ∈ ps, p.length < 2 ^ 64
  Sent t sent := t.output = sent.flatMap frame
  receive := by
    rintro t p out ps ⟨ht, hlen⟩ hfits
    have hrun := tcp_receivePacket ht (hlen p (List.mem_cons_self ..)) out
    rw [if_neg (Nat.not_lt.mpr hfits)] at hrun
    exact ⟨_, hrun, ⟨rfl, fun q hq => hlen q (List.mem_cons_of_mem p hq)⟩, fun _ h => h⟩
  refuse := by
    rintro t p out ps ⟨ht, hlen⟩ hlong
    have hrun := tcp_receivePacket ht (hlen p (List.mem_cons_self ..)) out
    rw [if_pos hlong] at hrun
    exact ⟨_, _, _, hrun, trivial, rfl, fun _ h => h⟩
  wait := by
    rintro t out ⟨ht, -⟩
    have hempty : byteStream.readExact (t, List.replicate 8 0) = (.error .hang, (t, List.replicate 8 0)) := by
      rw [List.flatMap_nil] at ht
      simp [byteStream, ht]
    have hlength : zoom (fun s : ByteStream × Bytes => (s.1, List.replicate 8 0)) (fun s p => (p.1, s.2))
        (byteStream.readExact >>= fun _ => Prod.snd <$> get) (t, out) = (.error .hang, (t, out)) := by
      rw [zoom, bind_run_error hempty]
    exact bind_run_error hlength
  send := by
    rintro t p sent ht
    refine ⟨{ t with output := t.output ++ frame p }, ?_, ?_, fun _ h => h⟩
    · simp [tcpTransport, byteStream, frame, bind, List.append_assoc]
    · simp [ht]

end Gbl.Fastboot
