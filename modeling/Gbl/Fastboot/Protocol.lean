import Gbl.Fastboot.Transport
import Gbl.Lib.Dialogue

/-!
# The fastboot protocol (`libfastboot`)

`process_next_command` hands one packet to one of fifteen handlers. The backend is any implementation of `trait
FastbootImplementation`: what Rust's types allow it to do is what a `Dialogue` can express. The text of an `Error` is
a parameter, `display`, and `calls` records which backend methods were called, for specifications only.
-/

namespace Gbl.Fastboot

open Lib Lib.Exec

def maxCommandSize : Nat := 4096

def maxResponseSize : Nat := 256

def commandErrorLength : Nat := maxResponseSize - 4

structure CommandError where
  content : Bytes
  length_le : content.length ≤ commandErrorLength
  deriving DecidableEq, Repr

namespace CommandError

def ofText (t : Text) : CommandError where
  content := formatted commandErrorLength [t]
  length_le := by
    rw [formatted_eq]
    exact List.length_take_le _ _

def toStr (e : CommandError) : Text := if ValidUtf8 e.content then e.content else []

end CommandError

def commandError (s : String) : CommandError := .ofText (text s)

/-! ## Backends -/

abbrev Outcome (σ α : Type) := Res CommandError α × σ

abbrev Talk (Q α : Type) := Dialogue Q (fun _ => Except Error Unit) α

abbrev Call (σ α : Type) := σ → Talk Text (Outcome σ α)

structure Upload (σ : Type) where
  size : Nat
  size_lt : size < 2 ^ 64
  refused : Error → Outcome σ Unit
  payload : Talk Bytes (Outcome σ Unit)

abbrev UploadCall (σ : Type) := σ → Talk Text (Outcome σ Unit ⊕ Upload σ)

abbrev OkayCall (σ α : Type) := σ → Talk Text (Outcome σ α ⊕ Text × (Except Error Unit → Outcome σ α))

structure VarInfo where
  name : Text
  args : List Text
  val : Text
  deriving DecidableEq, Repr

inductive RebootMode where
  | normal
  | bootloader
  | fastboot
  | recovery
  deriving DecidableEq, Repr

structure Backend (σ : Type) where
  /-- The size of the value and the buffer of `maxResponseSize` bytes that it was written to. -/
  getVar : Text → List Text → Call σ (Nat × Bytes)
  getVarAll : σ → Talk VarInfo (Outcome σ Unit)
  /-- `get_download_buffer` makes the buffer available and lends it to the caller. -/
  getDownloadBuffer : Exec Error σ Unit
  buffer : σ → Bytes
  setBuffer : σ → Bytes → σ
  downloadComplete : Nat → Call σ Unit
  flash : Text → Call σ Unit
  erase : Text → Call σ Unit
  upload : UploadCall σ
  fetch : Text → Nat → Nat → UploadCall σ
  /-- Reboots; the error is what is reported if that was not possible. -/
  reboot : RebootMode → OkayCall σ CommandError
  «continue» : Call σ Unit
  setActive : Text → Call σ Unit
  boot : OkayCall σ Unit
  /-- The part of the buffer of `commandErrorLength` bytes that holds the output. -/
  oem : Text → Call σ Bytes

inductive Method where
  | getVar
  | getVarAll
  | downloadComplete (size : Nat)
  | flash
  | erase
  | upload
  | fetch
  | reboot
  | «continue»
  | setActive
  | boot
  | oem
  deriving DecidableEq, Repr

structure CallRecord where
  method : Method
  ok : Bool
  deriving DecidableEq, Repr

/-! ## The responder -/

structure Responder where
  transportError : Except Error Unit
  remainingUpload : Nat

def Responder.new : Responder := ⟨.ok (), 0⟩

structure Conn (τ σ : Type) where
  transport : τ
  backend : σ
  resp : Responder
  calls : List CallRecord

section Handlers

variable {τ σ α : Type} (T : Transport τ) (display : Error → Text) (B : Backend σ)

def onTransport (m : Exec Error τ α) : Exec Error (Conn τ σ) α :=
  zoom Conn.transport (fun s t => { s with transport := t }) m

def newResponder : Exec Error (Conn τ σ) Unit := modify fun s => { s with resp := .new }

def message (kind : String) (pieces : List Text) : Bytes := formatted maxResponseSize (text kind :: pieces)

def sendMsg (kind : String) (pieces : List Text) : Exec Error (Conn τ σ) Unit := do
  let s ← get
  lift (.ofExcept s.resp.transportError)
  assert ((message kind pieces).length < maxResponseSize)
  let sent ← attempt (onTransport (T.sendPacket (message kind pieces)))
  modify fun s => { s with resp := { s.resp with transportError := sent } }
  lift (.ofExcept sent)

def sendInfo (t : Text) : Exec Error (Conn τ σ) Unit := sendMsg T "INFO" [t]

def VarInfo.pieces (v : VarInfo) : List Text :=
  v.name :: v.args.map (fun a => text ":" ++ a) ++ [text ": " ++ v.val]

def sendVarInfo (v : VarInfo) : Exec Error (Conn τ σ) Unit := sendMsg T "INFO" v.pieces

def replyOkay (t : Text) : Exec Error (Conn τ σ) Unit := sendMsg T "OKAY" [t]

def replyFail (t : Text) : Exec Error (Conn τ σ) Unit := sendMsg T "FAIL" [t]

def sendDataMessage (n : Nat) : Exec Error (Conn τ σ) Unit := sendMsg T "DATA" [lowerHex 8 n]

def initiateUpload (n : Nat) : Exec Error (Conn τ σ) Unit := do
  sendDataMessage T n
  modify fun s => { s with resp := { s.resp with remainingUpload := n } }

def uploadData (data : Bytes) : Exec Error (Conn τ σ) Unit := do
  let s ← get
  lift (.ofExcept s.resp.transportError)
  lift (ensure (data.length ≤ s.resp.remainingUpload) (.other (some "Invalid size of upload data")))
  modify fun s => { s with resp := { s.resp with remainingUpload := s.resp.remainingUpload - data.length } }
  let sent ← attempt (onTransport (T.sendPacket data))
  modify fun s => { s with resp := { s.resp with transportError := sent } }

/-! ## Calling the backend -/

def finish (method : Method) (o : Outcome σ α) : Exec Error (Conn τ σ) (Except CommandError α) := do
  modify fun s => { s with backend := o.2, calls := s.calls ++ [⟨method, o.1.isOk⟩] }
  match o.1 with
  | .ok a => pure (.ok a)
  | .error (.err e) => pure (.error e)
  | .error .panic => lift (.error .panic)
  | .error .hang => lift (.error .hang)

def call (method : Method) (c : Call σ α) : Exec Error (Conn τ σ) (Except CommandError α) := do
  let s ← get
  let o ← (c s.backend).run fun t => attempt (sendInfo T t)
  finish method o

def callUpload (method : Method) (c : UploadCall σ) : Exec Error (Conn τ σ) (Except CommandError Unit) := do
  let s ← get
  match ← (c s.backend).run fun t => attempt (sendInfo T t) with
  | .inl o => finish method o
  | .inr u =>
    match ← attempt (initiateUpload T u.size) with
    | .error e => finish method (u.refused e)
    | .ok () =>
      let o ← u.payload.run fun data => attempt (uploadData T data)
      finish method o

def callOkay (method : Method) (c : OkayCall σ α) : Exec Error (Conn τ σ) (Except CommandError α) := do
  let s ← get
  match ← (c s.backend).run fun t => attempt (sendInfo T t) with
  | .inl o => finish method o
  | .inr (t, next) =>
    let sent ← attempt (replyOkay T t)
    finish method (next sent)

def reply : Except CommandError Text → Exec Error (Conn τ σ) Unit
  | .ok t => replyOkay T t
  | .error e => replyFail T e.toStr

def replyUnit (r : Except CommandError Unit) : Exec Error (Conn τ σ) Unit := reply T (r.map fun _ => [])

/-! ## The handlers -/

def cmdToCStringArgs (cmd : Bytes) : Result (List Text) :=
  if 0 ∈ cmd then .ok (split colon (cmd.takeWhile (· ≠ 0))) else panic

def downloadBufferLen : Exec Error (Conn τ σ) Nat := do
  zoom Conn.backend (fun s b => { s with backend := b }) B.getDownloadBuffer
  let s ← get
  pure (B.buffer s.backend).length

def varAsStr (v : Nat × Bytes) : Except CommandError Text :=
  if v.1 ≤ v.2.length then
    match fromUtf8 (v.2.take v.1) with
    | .ok t => .ok t
    | .error _ => .error (commandError "Value is not string")
  else .error (commandError "Invalid variable size")

def maxDownloadSizeName : Text := text "max-download-size"

def maxDownloadSizeInfo (n : Nat) : VarInfo :=
  ⟨maxDownloadSizeName, [], formatted 32 [text "0x", lowerHex 1 n]⟩

def getVarAllWithNative : Exec Error (Conn τ σ) (Except CommandError Unit) := do
  let n ← downloadBufferLen B
  match ← attempt (sendVarInfo T (maxDownloadSizeInfo n)) with
  | .error e => pure (.error (.ofText (display e)))
  | .ok () =>
    let s ← get
    let o ← (B.getVarAll s.backend).run fun v => attempt (sendVarInfo T v)
    finish .getVarAll o

def getVarAll : Exec Error (Conn τ σ) Unit := do
  newResponder
  replyUnit T (← getVarAllWithNative T display B)

def getVar (cmd : Bytes) : Exec Error (Conn τ σ) Unit := do
  newResponder
  let args ← lift (cmdToCStringArgs cmd)
  match args.drop 1 with
  | [] => replyFail T (text "Missing variable")
  | var :: args =>
    -- the name is decoded before it is looked at
    match fromUtf8 var with
    | .error _ => lift (err .invalidInput)
    | .ok var =>
      if var = text "all" then getVarAll T display B
      else if var = maxDownloadSizeName then do
        let n ← downloadBufferLen B
        sendMsg T "OKAY" [text "0x", lowerHex 1 n]
      else do
        let r ← call T .getVar (B.getVar var args)
        reply T (r.bind varAsStr)

def downloadSize (args : List Text) : Except CommandError Nat :=
  match nextArg args with
  | none => .error (commandError "Not enough argument")
  | some a => (hexToU64 a).mapError fun e => .ofText e.display

def receiveInto (lo hi : Nat) : Exec Error (Conn τ σ) Nat :=
  zoom (fun s => (s.transport, ((B.buffer s.backend).take hi).drop lo))
    (fun s p => { s with
      transport := p.1
      backend := B.setBuffer s.backend (splice (B.buffer s.backend) lo p.2) })
    T.receivePacket

def receiveAll : Nat → (total downloaded : Nat) → Exec Error (Conn τ σ) Bool
  | 0, _, _ => lift (.error .hang)
  | fuel + 1, total, downloaded =>
    if downloaded < total then do
      let v ← receiveInto T B downloaded total
      if v = 0 then receiveAll fuel total downloaded
      else if downloaded + v < 2 ^ 64 then
        if total < downloaded + v then pure false else receiveAll fuel total (downloaded + v)
      else lift (err (.other (some "Invalid read size from transport")))
    else pure true

def download (fuel : Nat) (args : List Text) : Exec Error (Conn τ σ) Unit := do
  newResponder
  match downloadSize args with
  | .error e => replyFail T e.toStr
  | .ok total =>
    let len ← downloadBufferLen B
    if len < total then replyFail T (text "Download size is too big")
    else if total = 0 then replyFail T (text "Zero download size")
    else do
      sendDataMessage T total
      if ← receiveAll T B fuel total 0 then
        let r ← call T (.downloadComplete total) (B.downloadComplete total)
        replyUnit T r
      else replyFail T (text "More data received then expected")

def withPartition (pre : String) (method : Method) (cmd : Text) (c : Text → Call σ Unit) :
    Exec Error (Conn τ σ) Unit := do
  newResponder
  match stripPrefix (text pre) cmd with
  | some part => replyUnit T (← call T method (c part))
  | none => reply T (.error (commandError "Missing partition"))

def flash (cmd : Text) : Exec Error (Conn τ σ) Unit := withPartition T "flash:" .flash cmd B.flash

def erase (cmd : Text) : Exec Error (Conn τ σ) Unit := withPartition T "erase:" .erase cmd B.erase

def replyUpload (r : Except CommandError Unit) : Exec Error (Conn τ σ) Unit := do
  let s ← get
  if 0 < s.resp.remainingUpload then lift (err .invalidInput) else replyUnit T r

def upload : Exec Error (Conn τ σ) Unit := do
  newResponder
  replyUpload T (← callUpload T .upload B.upload)

def fetchArgs (cmd : Text) (args : List Text) : Res CommandError (Text × Nat × Nat) := do
  let some rest := stripPrefix (text "fetch:") cmd | .err (commandError "Missing arguments")
  if args.length < 3 then .err (commandError "Not enough argments")
  else do
    let some sz := nextArg args.reverse | .err (commandError "Missing size")
    let some off := nextArg (args.reverse.drop 1) | .err (commandError "Invalid offset")
    -- a plain difference of lengths, then a slice
    if rest.length < off.length + sz.length + 2 then .panic
    else
      let part := rest.take (rest.length - (off.length + sz.length + 2))
      match hexToU64 off, hexToU64 sz with
      | .ok off, .ok sz => .ok (part, off, sz)
      | .error e, _ => .err (.ofText e.display)
      | .ok _, .error e => .err (.ofText e.display)

def fetch (cmd : Text) (args : List Text) : Exec Error (Conn τ σ) Unit := do
  newResponder
  match fetchArgs cmd args with
  | .ok (part, off, sz) => replyUpload T (← callUpload T .fetch (B.fetch part off sz))
  | .error (.err e) => replyUpload T (.error e)
  | .error .panic => lift (.error .panic)
  | .error .hang => lift (.error .hang)

def reboot (mode : RebootMode) : Exec Error (Conn τ σ) Unit := do
  newResponder
  match ← callOkay T .reboot (B.reboot mode) with
  | .ok e => replyFail T e.toStr
  | .error e => replyFail T e.toStr

def boot : Exec Error (Conn τ σ) Unit := do
  newResponder
  let r ← callOkay T .boot B.boot
  reply T (r.map fun _ => text "boot_command")

def «continue» : Exec Error (Conn τ σ) Unit := do
  newResponder
  replyUnit T (← call T .continue B.continue)

def setActive (args : List Text) : Exec Error (Conn τ σ) Unit := do
  newResponder
  match nextArg args with
  | none => reply T (.error (commandError "Missing slot"))
  | some slot => replyUnit T (← call T .setActive (B.setActive slot))

def oem (cmd : Text) : Exec Error (Conn τ σ) Unit := do
  newResponder
  match ← call T .oem (B.oem cmd) with
  | .error e => replyFail T e.toStr
  | .ok msg =>
    match fromUtf8 msg with
    | .ok t => replyOkay T t
    | .error e => sendMsg T "FAIL" [text "Invalid return string ", e.display]

/-! ## The dispatcher -/

inductive Command where
  | boot
  | «continue»
  | download
  | erase
  | fetch
  | flash
  | getvar
  | reboot (mode : RebootMode)
  | setActive
  | upload
  | oem
  | unknown
  deriving DecidableEq, Repr

def parseCommand (cmdStr cmd : Text) : Command :=
  if cmd = text "boot" then .boot
  else if cmd = text "continue" then .continue
  else if cmd = text "download" then .download
  else if cmd = text "erase" then .erase
  else if cmd = text "fetch" then .fetch
  else if cmd = text "flash" then .flash
  else if cmd = text "getvar" then .getvar
  else if cmd = text "reboot" then .reboot .normal
  else if cmd = text "reboot-bootloader" then .reboot .bootloader
  else if cmd = text "reboot-fastboot" then .reboot .fastboot
  else if cmd = text "reboot-recovery" then .reboot .recovery
  else if cmd = text "set_active" then .setActive
  else if cmd = text "upload" then .upload
  else if text "oem " <+: cmdStr then .oem
  else .unknown

def sendFail (t : String) : Exec Error (Conn τ σ) Unit :=
  onTransport (T.sendPacket (formatted (maxCommandSize + 1) [text "FAIL", text t]))

def handle (fuel : Nat) (packet : Bytes) (cmdStr : Text) (args : List Text) :
    Command → Exec Error (Conn τ σ) Bool
  | .boot => do
    boot T B
    pure true
  | .continue => do
    «continue» T B
    pure true
  | .download => do
    download T B fuel args
    pure false
  | .erase => do
    erase T B cmdStr
    pure false
  | .fetch => do
    fetch T B cmdStr args
    pure false
  | .flash => do
    flash T B cmdStr
    pure false
  | .getvar => do
    getVar T display B packet
    pure false
  | .reboot mode => do
    reboot T B mode
    pure false
  | .setActive => do
    setActive T B args
    pure false
  | .upload => do
    upload T B
    pure false
  | .oem => do
    oem T B (cmdStr.drop 4)
    pure false
  | .unknown => do
    sendFail T "Command not found"
    pure false

def processPacket (fuel : Nat) (packet : Bytes) (size : Nat) : Exec Error (Conn τ σ) Bool :=
  if size = 0 then pure false
  else do
    assert (size ≤ packet.length)
    match fromUtf8 (packet.take size) with
    | .error _ => do
      sendFail T "Invalid Command"
      pure false
    | .ok cmdStr =>
      match split colon cmdStr with
      | [] => do
        sendFail T "No command"
        pure false
      | cmd :: args => handle T display B fuel packet cmdStr args (parseCommand cmdStr cmd)

def processNextCommand (fuel : Nat) : Exec Error (Conn τ σ) Bool := do
  let (size, packet) ← zoom (fun s => (s.transport, List.replicate maxCommandSize (0 : UInt8)))
    (fun s p => { s with transport := p.1 })
    (do
      let size ← T.receivePacket
      let s ← get
      pure (size, s.2 ++ [0]))
  processPacket T display B fuel packet size

end Handlers

end Gbl.Fastboot
