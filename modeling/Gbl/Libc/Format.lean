import Gbl.Error

/-!
# The C formatter (`libc`, `format.c`)

`gbl_printf_buffer` expands a format string into a buffer. It is C, so nothing checks its accesses; the model does.
-/

namespace Gbl.Libc

open Lib

structure CStr where
  bytes : List UInt8
  noNul : (0 : UInt8) ∉ bytes

def CStr.withNul (s : CStr) : List UInt8 := s.bytes ++ [0]

def deref : List UInt8 → Result UInt8
  | [] => panic
  | c :: _ => .ok c

def storeByte (buffer : List UInt8) (pos : Nat) (c : UInt8) : Result (List UInt8) :=
  if pos < buffer.length then .ok (buffer.set pos c) else panic

/-! ## Arguments -/

structure Target where
  long : Nat
  size : Nat
  intmax : Nat
  ptrdiff : Nat
  long_eq : long = 4 ∨ long = 8

inductive Kind where
  | int
  | long
  | longLong
  deriving DecidableEq, Repr

def Target.bits (t : Target) : Kind → Nat
  | .int => 32
  | .long => 8 * t.long
  | .longLong => 64

inductive Arg (t : Target) where
  | num (k : Kind) (v : BitVec (t.bits k))
  | str (s : CStr)

def vaNum {t : Target} (k : Kind) : List (Arg t) → Result (BitVec (t.bits k) × List (Arg t))
  | .num k' v :: args => if h : k' = k then .ok (h ▸ v, args) else panic
  | _ => panic

def vaStr {t : Target} : List (Arg t) → Result (CStr × List (Arg t))
  | .str s :: args => .ok (s, args)
  | _ => panic

/-! ## Writing -/

def putAll : List UInt8 → Nat → Nat → List UInt8 → Result (Nat × List UInt8)
  | [], _, _, buffer => .ok (0, buffer)
  | _ :: _, 0, _, buffer => .ok (0, buffer)
  | c :: cs, room + 1, pos, buffer => do
    let buffer ← storeByte buffer pos c
    let (used, buffer) ← putAll cs room (pos + 1) buffer
    pure (used + 1, buffer)

def ullMaxDigits : Nat := 20

def numberAlphabet (d : Nat) : UInt8 := UInt8.ofNat (if d < 10 then 0x30 + d else 0x61 + (d - 10))

def fillTmp (base : Nat) : Nat → Nat → Result (List UInt8)
  | _, 0 => .ok []
  | 0, _ + 1 => panic
  | room + 1, value => do
    let tmp ← fillTmp base room (value / base)
    pure (numberAlphabet (value % base) :: tmp)

def formatNumberUnsigned (value : Nat) (buffer : List UInt8) (pos bufferLen base : Nat) :
    Result (Nat × List UInt8) :=
  if bufferLen = 0 then .ok (0, buffer)
  else if value = 0 then do
    let buffer ← storeByte buffer pos 0x30
    pure (1, buffer)
  else do
    let tmp ← fillTmp base ullMaxDigits value
    -- Copy reversed number to buffer
    putAll tmp.reverse bufferLen pos buffer

def formatNumberSigned (value : Int) (buffer : List UInt8) (pos bufferLen base : Nat) :
    Result (Nat × List UInt8) := do
  let (used, buffer) ← if value < 0 then putAll [0x2D] bufferLen pos buffer else pure (0, buffer)
  -- the absolute value, which the source takes care to compute for `LLONG_MIN` as well
  let (n, buffer) ← formatNumberUnsigned value.natAbs buffer (pos + used) (bufferLen - used) base
  pure (used + n, buffer)

def formatString (s : CStr) (buffer : List UInt8) (pos bufferLen : Nat) : Result (Nat × List UInt8) :=
  putAll s.bytes bufferLen pos buffer

def formatCharacter (c : UInt8) (buffer : List UInt8) (pos bufferLen : Nat) : Result (Nat × List UInt8) :=
  putAll [c] bufferLen pos buffer

def cannotHandle : List UInt8 :=
  "GBL print implementation cannot handle format string at symbol: ".toList.map fun c => UInt8.ofNat c.toNat

def appendCannotHandleError (buffer : List UInt8) (pos bufferLen : Nat) (current : UInt8) :
    Result (Nat × List UInt8) := do
  let (used, buffer) ← putAll cannotHandle bufferLen pos buffer
  let (n, buffer) ← formatCharacter current buffer (pos + used) (bufferLen - used)
  pure (used + n, buffer)

/-! ## Reading the format string -/

def strchr (str : List UInt8) (ch : UInt8) : Option Nat := (str ++ [0]).findIdx? (· == ch)

def isDigit (c : UInt8) : Bool := 0x30 ≤ c.toNat && c.toNat ≤ 0x39

def skipDigits : List UInt8 → Result Nat
  | [] => panic
  | c :: fmt => if isDigit c then do
      let used ← skipDigits fmt
      pure (used + 1)
    else pure 0

def skipFormatNumber (fmt : List UInt8) : Result Nat := do
  let c ← deref fmt
  if c = 0x2A then pure 1 else skipDigits fmt

def skipWidth (fmt : List UInt8) : Result Nat := skipFormatNumber fmt

def skipPrecision (fmt : List UInt8) : Result Nat := do
  let c ← deref fmt
  if c = 0x2E then do
    let used ← skipFormatNumber (fmt.drop 1)
    pure (1 + used)
  else pure 0

def flagSymbols : List UInt8 := [0x2D, 0x2B, 0x20, 0x23, 0x30]

def skipFlags : List UInt8 → Result Nat
  | [] => panic
  | c :: fmt => if (strchr flagSymbols c).isSome then do
      let used ← skipFlags fmt
      pure (used + 1)
    else pure 0

inductive Flags where
  | none
  | long
  | longLong
  | char
  | short
  deriving DecidableEq, Repr

def Flags.kind : Flags → Kind
  | .longLong => .longLong
  | .long => .long
  | _ => .int

def Target.flagFor (t : Target) (size : Nat) : Flags := if size = t.long then .long else .longLong

def parseLengthModifiers (t : Target) (fmt : List UInt8) : Result (Nat × Flags) := do
  let c ← deref fmt
  if c = 0x6C then do
    let c ← deref (fmt.drop 1)
    pure (if c = 0x6C then (2, .longLong) else (1, .long))
  else if c = 0x68 then do
    let c ← deref (fmt.drop 1)
    pure (if c = 0x68 then (2, .char) else (1, .short))
  else if c = 0x7A then pure (1, t.flagFor t.size)
  else if c = 0x6A then pure (1, t.flagFor t.intmax)
  else if c = 0x74 then pure (1, t.flagFor t.ptrdiff)
  else pure (0, .none)

/-! ## `gbl_printf_buffer` -/

structure PrintState (t : Target) where
  fmt : List UInt8
  args : List (Arg t)
  buffer : List UInt8
  i : Nat

inductive After where
  /-- `continue`. -/
  | next
  /-- Copy the symbol at `fmt`. -/
  | copy
  /-- `goto out`. -/
  | out
  deriving DecidableEq, Repr

variable {t : Target}

def baseFor (c : UInt8) : Nat := if c = 0x6F then 8 else if c = 0x78 then 16 else 10

def convert (available : Nat) (flags : Flags) (st : PrintState t) : Result (After × PrintState t) := do
  let c ← deref st.fmt
  if c = 0x73 then do
    let (s, args) ← vaStr st.args
    let (used, buffer) ← formatString s st.buffer st.i (available - st.i)
    pure (.next, ⟨st.fmt.drop 1, args, buffer, st.i + used⟩)
  else if c = 0x6F ∨ c = 0x78 ∨ c = 0x75 then do
    let (v, args) ← vaNum flags.kind st.args
    let (used, buffer) ← formatNumberUnsigned v.toNat st.buffer st.i (available - st.i) (baseFor c)
    pure (.next, ⟨st.fmt.drop 1, args, buffer, st.i + used⟩)
  else if c = 0x64 ∨ c = 0x69 then do
    let (v, args) ← vaNum flags.kind st.args
    let (used, buffer) ← formatNumberSigned v.toInt st.buffer st.i (available - st.i) 10
    pure (.next, ⟨st.fmt.drop 1, args, buffer, st.i + used⟩)
  else if c = 0x63 then do
    let (v, args) ← vaNum .int st.args
    let (used, buffer) ← formatCharacter (UInt8.ofNat v.toNat) st.buffer st.i (available - st.i)
    -- `break` and not `continue`
    pure (.copy, ⟨st.fmt.drop 1, args, buffer, st.i + used⟩)
  else do
    let (used, buffer) ← appendCannotHandleError st.buffer st.i (available - st.i) c
    pure (.out, { st with buffer, i := st.i + used })

def conversion (available : Nat) (st : PrintState t) : Result (After × PrintState t) := do
  let used ← skipFlags st.fmt
  let fmt := st.fmt.drop used
  let used ← skipWidth fmt
  let fmt := fmt.drop used
  let used ← skipPrecision fmt
  let fmt := fmt.drop used
  let (used, flags) ← parseLengthModifiers t fmt
  convert available flags { st with fmt := fmt.drop used }

def handlePercent (available : Nat) (st : PrintState t) : Result (After × PrintState t) := do
  let c ← deref st.fmt
  if c = 0x25 then do
    let d ← deref (st.fmt.drop 1)
    -- Skip one % to print another.
    if d = 0x25 then pure (.copy, { st with fmt := st.fmt.drop 1 })
    else conversion available { st with fmt := st.fmt.drop 1 }
  else pure (.copy, st)

def copySymbol (st : PrintState t) : Result (PrintState t) := do
  let c ← deref st.fmt
  let buffer ← storeByte st.buffer st.i c
  pure ⟨st.fmt.drop 1, st.args, buffer, st.i + 1⟩

def printfLoop (available : Nat) : Nat → PrintState t → Result (PrintState t)
  | 0, _ => .error .hang
  | fuel + 1, st => do
    let c ← deref st.fmt
    if c ≠ 0 ∧ st.i < available then do
      let (after, st) ← handlePercent available st
      match after with
      | .next => printfLoop available fuel st
      | .copy => do
        let st ← copySymbol st
        printfLoop available fuel st
      | .out => pure st
    else pure st

def gblPrintfBuffer (fmt : CStr) (args : List (Arg t)) (buffer : List UInt8) : Result (List UInt8) := do
  -- Ensure can nul terminate; a length of zero wraps around.
  let available := if buffer.length = 0 then 2 ^ 64 - 1 else buffer.length - 1
  let st ← printfLoop available (fmt.withNul.length + 1) ⟨fmt.withNul, args, buffer, 0⟩
  storeByte st.buffer st.i 0

end Gbl.Libc
