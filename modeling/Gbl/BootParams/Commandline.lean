import Gbl.BootParams.Bootconfig
import Gbl.BootParams.Entry

/-!
# The kernel command line (`libbootparams`, `commandline.rs`)

The builder keeps a text with a NUL behind it in a buffer.
-/

namespace Gbl.BootParams

open Lib Lib.Exec
open Fastboot (Bytes)

/-! ## Texts -/

/-- The UTF-8 encoding of a text. -/
def utf8 (cs : List Char) : Bytes := cs.flatMap String.utf8EncodeChar

/-- `CStr::to_str`. -/
def toStr (bytes : Bytes) : Option (List Char) := bytes.toByteArray.utf8Decode?.map Array.toList

theorem toStr_utf8 (cs : List Char) : toStr (utf8 cs) = some cs := by
  unfold toStr utf8
  rw [← List.utf8Encode.eq_1, List.utf8Decode?_utf8Encode, Option.map_some, List.toList_toArray]

theorem utf8_append (a b : List Char) : utf8 (a ++ b) = utf8 a ++ utf8 b := List.flatMap_append

theorem toStr_eq_some {d : Bytes} {cs : List Char} : toStr d = some cs ↔ d = utf8 cs := by
  refine ⟨fun h => ?_, fun h => h ▸ toStr_utf8 cs⟩
  obtain ⟨a, ha, rfl⟩ := Option.map_eq_some_iff.1 h
  obtain ⟨m, hm⟩ := ByteArray.isSome_utf8Decode?_iff.1 (Option.isSome_of_mem ha)
  have hd : d = utf8 m := List.toByteArray_inj.1 (hm.trans (List.utf8Encode.eq_1 m))
  rw [hd, toStr_utf8] at h
  rw [hd, Option.some.inj h]

/-- What stands behind a text is a text if the whole is one. -/
theorem exists_utf8_of_append {a cs : List Char} {d : Bytes} (h : utf8 a ++ d = utf8 cs) : ∃ cs', d = utf8 cs' := by
  induction a generalizing cs with
  | nil => exact ⟨cs, h⟩
  | cons c a ih =>
    have hvalid : ([c].utf8Encode ++ (utf8 a ++ d).toByteArray).IsValidUTF8 := by
      refine ⟨cs, ?_⟩
      rw [List.utf8Encode, List.utf8Encode, ← List.toByteArray_append, ← utf8, ← utf8, ← h, ← List.append_assoc,
        ← utf8_append, List.singleton_append]
    obtain ⟨m, hm⟩ := ByteArray.isValidUTF8_utf8Encode_singleton_append_iff.1 hvalid
    exact ih (List.toByteArray_inj.1 (hm.trans (List.utf8Encode.eq_1 m)))

theorem utf8_eq_nil {cs : List Char} : utf8 cs = [] ↔ cs = [] := by
  cases cs with
  | nil => simp [utf8]
  | cons c cs => simp [utf8, String.utf8EncodeChar_ne_nil]

/-- `str::trim`. -/
def trim (cs : List Char) : List Char := (cs.dropWhile isWhitespace).rdropWhile isWhitespace

/-- Nothing but white space. -/
def Blank (cs : List Char) : Prop := ∀ c ∈ cs, isWhitespace c = true

instance (cs : List Char) : Decidable (Blank cs) := List.decidableBAll _ cs

theorem blank_append {a b : List Char} : Blank (a ++ b) ↔ Blank a ∧ Blank b := List.forall_mem_append

theorem trim_blank_append {a : List Char} (h : Blank a) (b : List Char) : trim (a ++ b) = trim b := by
  rw [trim, List.dropWhile_append, if_pos (List.isEmpty_iff.2 (List.dropWhile_eq_nil_iff.2 h))]
  rfl

theorem rdropWhile_append_blank {b : List Char} (h : Blank b) (a : List Char) :
    (a ++ b).rdropWhile isWhitespace = a.rdropWhile isWhitespace := by
  have hb : (b.reverse.dropWhile isWhitespace).isEmpty :=
    List.isEmpty_iff.2 (List.dropWhile_eq_nil_iff.2 fun c hc => h c (List.mem_reverse.1 hc))
  rw [List.rdropWhile, List.reverse_append, List.dropWhile_append, if_pos hb]
  rfl

theorem trim_append_blank {b : List Char} (h : Blank b) (a : List Char) : trim (a ++ b) = trim a := by
  rw [trim, List.dropWhile_append]
  split
  · next ha =>
    rw [trim, List.isEmpty_iff.1 ha, List.dropWhile_eq_nil_iff.2 h]
  · exact rdropWhile_append_blank h _

theorem trim_append {a b : List Char} (ha : ¬ Blank a) (m : List Char) (hb : ¬ Blank b) :
    trim (a ++ (m ++ b)) = a.dropWhile isWhitespace ++ (m ++ b.rdropWhile isWhitespace) := by
  have hb : ¬ (b.reverse.dropWhile isWhitespace).isEmpty := fun h =>
    hb fun c hc => List.dropWhile_eq_nil_iff.1 (List.isEmpty_iff.1 h) c (List.mem_reverse.2 hc)
  rw [trim, List.dropWhile_append, if_neg fun h => ha (List.dropWhile_eq_nil_iff.1 (List.isEmpty_iff.1 h)),
    List.rdropWhile, List.reverse_append, List.reverse_append, List.append_assoc, List.dropWhile_append, if_neg hb]
  simp [List.rdropWhile]

theorem trim_eq_nil {cs : List Char} : trim cs = [] ↔ Blank cs := by
  refine ⟨fun h => ?_, fun h => ?_⟩
  · by_contra hblank
    have hne := List.rdropWhile_eq_nil_iff.1 h
    obtain ⟨c, rest, hrest⟩ := List.exists_cons_of_ne_nil (mt List.dropWhile_eq_nil_iff.1 hblank)
    have hhead := List.head?_dropWhile_not isWhitespace cs
    rw [hrest] at hhead
    rw [hrest] at hne
    exact absurd (hne c List.mem_cons_self) (by simpa using hhead)
  · rw [← List.append_nil cs, trim_blank_append h]
    rfl

/-- `CStr::from_bytes_with_nul`: the only NUL is the last byte. -/
def fromBytesWithNul (bytes : Bytes) : Result Bytes :=
  if bytes.getLast? = some 0 ∧ (0 : UInt8) ∉ bytes.dropLast then .ok bytes.dropLast else err .invalidInput

/-- `CStr::from_bytes_until_nul`, if there is a NUL. -/
def untilNul (bytes : Bytes) : Bytes := bytes.takeWhile (· ≠ 0)

theorem nul_not_mem_untilNul (bytes : Bytes) : (0 : UInt8) ∉ untilNul bytes :=
  fun hmem => by simpa using List.mem_takeWhile_imp hmem

/-! ## The builder -/

/-- A class for constructing commandline section. -/
structure CommandlineBuilder where
  currentSize : Nat
  buffer : Bytes
  deriving DecidableEq, Repr

namespace CommandlineBuilder

def updateNullTerminator (b : CommandlineBuilder) : Result CommandlineBuilder :=
  if b.currentSize < b.buffer.length then .ok { b with buffer := b.buffer.set b.currentSize 0 } else panic

/-- Initialize with a given buffer. -/
def new (buffer : Bytes) : Result CommandlineBuilder :=
  if buffer.length < 1 then err (.bufferTooSmall (some 1)) else updateNullTerminator ⟨0, buffer⟩

def newFromPrefix (buffer : Bytes) : Result CommandlineBuilder :=
  if (0 : UInt8) ∈ buffer then .ok ⟨(untilNul buffer).length, buffer⟩ else err .invalidInput

/-- Get the remaining capacity. -/
def remainingCapacity (b : CommandlineBuilder) : Result Nat := do
  let n ← subU64 b.buffer.length b.currentSize
  subU64 n 1

/-- Get the current command line. -/
def asStr (b : CommandlineBuilder) : Result (List Char) :=
  if b.currentSize + 1 ≤ b.buffer.length then do
    let t ← unwrap (fromBytesWithNul (b.buffer.take (b.currentSize + 1)))
    match toStr t with
    | some cs => .ok (trim cs)
    | none => panic
  else panic

/-- The bytes behind the terminator. -/
def space (b : CommandlineBuilder) : Bytes := b.buffer.drop (b.currentSize + 1)

section Operations

variable {ω : Type}

def fill (reader : Reader ω) (current : Bytes) : Exec Error (ω × CommandlineBuilder) Nat :=
  zoom (fun s => (s.1, s.2.space.dropLast))
    (fun s t => (t.1, { s.2 with buffer := splice s.2.buffer (s.2.currentSize + 1) t.2 })) (reader.run current)

/-- Make sure we request additional space for null terminator. -/
def requestMore : Error → Result Error
  | .bufferTooSmall (some requested) => (addU64 requested 1).map fun n => .bufferTooSmall (some n)
  | e => .ok e

def extend (n : Nat) : Exec Error (ω × CommandlineBuilder) Unit := do
  let s ← get
  assert (n ≤ s.2.space.dropLast.length)
  if (0 : UInt8) ∈ s.2.space.take n then lift (err .invalidInput)
  else do
    let b ← lift (updateNullTerminator ⟨s.2.currentSize + (n + 1), s.2.buffer.set s.2.currentSize 0x20⟩)
    modify fun s => (s.1, b)

/-- What is done with the result of the callback. -/
def append : Except Error Nat → Exec Error (ω × CommandlineBuilder) Unit
  | .error e => lift (requestMore e >>= err)
  | .ok 0 => pure ()
  | .ok (n + 1) => extend (n + 1)

/-- Append a new command line segment via a reader callback. -/
def addWith (reader : Reader ω) : Exec Error (ω × CommandlineBuilder) Unit := do
  let s ← get
  assert (s.2.currentSize + 1 ≤ s.2.buffer.length)
  let current ← lift (unwrap (fromBytesWithNul (s.2.buffer.take (s.2.currentSize + 1))))
  let size ← attempt (fill reader current)
  append size

/-- Append a new command line. -/
def add (commandline : Bytes) : Exec Error (ω × CommandlineBuilder) Unit :=
  if commandline = [] then pure ()
  else do
    let s ← get
    let remains ← lift s.2.remainingCapacity
    if remains < commandline.length + 1 then lift (err (.bufferTooSmall (some (commandline.length + 1))))
    else addWith (Reader.copy commandline .panic)

/-- `fmt::Write::write_str`. -/
def writeStr (s : Bytes) : Exec Error (ω × CommandlineBuilder) Unit := mapErr (fun _ => .unsupported) (add s)

/-- `write!`: the pieces of a formatted text, one after the other. -/
def writeFmt : List Bytes → Exec Error (ω × CommandlineBuilder) Unit
  | [] => pure ()
  | piece :: pieces => do
    writeStr piece
    writeFmt pieces

end Operations

/-! ## What the builder holds -/

/-- The builder with the text `t`, and `space` behind its NUL. -/
def hold (t space : Bytes) : CommandlineBuilder := ⟨t.length, t ++ 0 :: space⟩

variable {ω : Type} {w : ω} {t space s : Bytes} {reader : Reader ω} {cs : List Char} {b : CommandlineBuilder}
  {buffer : Bytes}

theorem take_hold (t space : Bytes) : (t ++ 0 :: space).take (t.length + 1) = t ++ [0] := by
  rw [List.append_cons, List.take_left' (by simp)]

theorem drop_hold (t space : Bytes) : (t ++ 0 :: space).drop (t.length + 1) = space := by
  rw [List.append_cons, List.drop_left' (by simp)]

theorem fromBytesWithNul_hold (h : (0 : UInt8) ∉ t) : fromBytesWithNul (t ++ [0]) = .ok t := by
  simp [fromBytesWithNul, h]

theorem asStr_hold (h : (0 : UInt8) ∉ t) : (hold t space).asStr = match toStr t with
      | some cs => .ok (trim cs)
      | none => panic := by
  unfold asStr hold
  simp only [take_hold, fromBytesWithNul_hold h, List.length_append, List.length_cons]
  rw [if_pos (by omega)]
  rfl

theorem space_hold (t space : Bytes) : (hold t space).space = space := drop_hold t space

theorem fill_hold {current filled : Bytes} {r : Result Nat} {w' : ω}
    (h : reader.run current (w, space.dropLast) = (r, (w', filled))) :
    ∃ space', fill reader current (w, hold t space) = (r, (w', hold t space')) ∧ space'.length = space.length ∧
      filled.length = space.length - 1 ∧ space'.take filled.length = filled := by
  have hlen : filled.length = space.length - 1 := by
    have hrun := reader.length_run current (w, space.dropLast)
    rwa [h, List.length_dropLast] at hrun
  have hsplice : splice (t ++ 0 :: space) (t.length + 1) filled = t ++ 0 :: (filled ++ space.drop filled.length) := by
    rw [splice, take_hold, ← List.drop_drop, drop_hold]
    simp
  refine ⟨filled ++ space.drop filled.length, ?_, ?_, hlen, List.take_left⟩
  · unfold fill zoom
    simp only [space_hold, h]
    simp only [hold, hsplice]
  · rw [List.length_append, List.length_drop]
    omega

theorem append_hold (w : ω) (t : Bytes) (x : UInt8) (rest : Bytes) {d : Bytes} (hd : d ≠ []) (hnul : (0 : UInt8) ∉ d) :
    append (.ok d.length) (w, hold t (d ++ x :: rest)) = (.ok (), (w, hold (t ++ 0x20 :: d) rest)) := by
  have hset : updateNullTerminator ⟨t.length + (d.length + 1), (t ++ 0 :: (d ++ x :: rest)).set t.length 0x20⟩ =
      .ok (hold (t ++ 0x20 :: d) rest) := by
    have hsize : t.length + (d.length + 1) = (t ++ 0x20 :: d).length := by rw [List.length_append, List.length_cons]
    have hbytes : (t ++ 0 :: (d ++ x :: rest)).set t.length 0x20 = (t ++ 0x20 :: d) ++ x :: rest := by simp
    unfold updateNullTerminator hold
    simp only [hbytes, hsize]
    rw [if_pos (by simp only [List.length_append, List.length_cons]; omega)]
    simp
  obtain ⟨n, hn⟩ : ∃ n, d.length = n + 1 := Nat.exists_eq_succ_of_ne_zero (by simpa using hd)
  have hread : (hold t (d ++ x :: rest)).space.take d.length = d := by rw [space_hold, List.take_left]
  rw [hn] at hread
  rw [hn]
  show extend (n + 1) _ = _
  unfold extend
  rw [bind_run_ok (get_run _), assert_bind_run_true (decide_eq_true (by simp [space_hold, hn]))]
  simp only [hread]
  rw [if_neg hnul, ← hn]
  exact bind_run_ok (lift_run_ok hset _)

theorem append_nul {n : Nat} (hpos : n ≠ 0) (hn : n ≤ space.length - 1) (hnul : (0 : UInt8) ∈ space.take n) :
    append (.ok n) (w, hold t space) = (err .invalidInput, (w, hold t space)) := by
  obtain ⟨n, rfl⟩ := Nat.exists_eq_succ_of_ne_zero hpos
  show extend (n + 1) _ = _
  unfold extend
  rw [bind_run_ok (get_run _)]
  simp only [space_hold, List.length_dropLast]
  rw [assert_bind_run_true (decide_eq_true hn), if_pos hnul]
  rfl

theorem append_error (w : ω) (t : Bytes) (size : Except Error Nat)
    (hsize : ∀ n, size = .ok n → n = 0 ∨ s.length - 1 < n ∨ (0 : UInt8) ∈ s.take n) :
    ∃ r, append size (w, hold t s) = (r, (w, hold t s)) := by
  match size with
  | .error e => exact ⟨_, rfl⟩
  | .ok 0 => exact ⟨_, rfl⟩
  | .ok (n + 1) =>
    by_cases hn : n + 1 ≤ s.length - 1
    · refine ⟨_, append_nul (Nat.succ_ne_zero n) hn ?_⟩
      rcases hsize (n + 1) rfl with hzero | hlong | hnul
      · cases hzero
      · omega
      · exact hnul
    · refine ⟨.error .panic, ?_⟩
      show extend (n + 1) _ = _
      unfold extend
      rw [bind_run_ok (get_run _)]
      simp only [space_hold, List.length_dropLast]
      rw [assert_bind_run_false (decide_eq_false hn)]

theorem exists_eq_take_append {n : Nat} (h : n < s.length) : ∃ x rest, s = s.take n ++ x :: rest :=
  ⟨s[n], s.drop (n + 1), by rw [List.getElem_cons_drop, List.take_append_drop]⟩

theorem addWith_run (h : (0 : UInt8) ∉ t) :
    addWith reader (w, hold t space) = (attempt (fill reader t) >>= append) (w, hold t space) := by
  unfold addWith
  rw [bind_run_ok (get_run _), assert_bind_run_true (by simp [hold])]
  simp only [hold, take_hold]
  rw [bind_run_ok (lift_run_ok (unwrap_eq_ok.2 (fromBytesWithNul_hold h)) _)]

theorem addWith_hold (reader : Reader ω) (w : ω) (space : Bytes) (h : (0 : UInt8) ∉ t) :
    (∃ r space', addWith reader (w, hold t space) = (r, ((reader.run t (w, space.dropLast)).2.1, hold t space')) ∧
      space'.length = space.length ∧ ∀ n ≤ space.length - 1, (reader.run t (w, space.dropLast)).1 = .ok n →
        n = 0 ∨ (0 : UInt8) ∈ (reader.run t (w, space.dropLast)).2.2.take n) ∨
    ∃ d rest, (reader.run t (w, space.dropLast)).1 = .ok d.length ∧
      d = (reader.run t (w, space.dropLast)).2.2.take d.length ∧ d ≠ [] ∧ (0 : UInt8) ∉ d ∧
      d.length + 1 + rest.length = space.length ∧
      addWith reader (w, hold t space) =
        (.ok (), ((reader.run t (w, space.dropLast)).2.1, hold (t ++ 0x20 :: d) rest)) := by
  obtain ⟨⟨r, w', filled⟩, hrun⟩ : ∃ out, reader.run t (w, space.dropLast) = out := ⟨_, rfl⟩
  obtain ⟨space', hfill, hlen, hfilled, htake⟩ := fill_hold (t := t) hrun
  rw [addWith_run h, hrun]
  cases r with
  | error e =>
    refine .inl ?_
    cases e with
    | err e =>
      rw [bind_run_ok (attempt_run_err hfill)]
      obtain ⟨r, happend⟩ := append_error (s := space') w' t (.error e) nofun
      exact ⟨r, space', happend, hlen, fun _ _ h => absurd h Res.error_ne_ok⟩
    | panic =>
      exact ⟨_, space', bind_run_error (show attempt _ _ = (.error .panic, _) by rw [attempt, hfill]), hlen,
        fun _ _ h => absurd h Res.error_ne_ok⟩
    | hang =>
      exact ⟨_, space', bind_run_error (show attempt _ _ = (.error .hang, _) by rw [attempt, hfill]), hlen,
        fun _ _ h => absurd h Res.error_ne_ok⟩
  | ok n =>
    rw [bind_run_ok (attempt_run_ok hfill)]
    by_cases hgood : 0 < n ∧ n ≤ space.length - 1 ∧ (0 : UInt8) ∉ space'.take n
    · obtain ⟨hpos, hn, hnul⟩ := hgood
      have hd : (space'.take n).length = n := List.length_take_of_le (by omega)
      obtain ⟨x, rest, hsplit⟩ := exists_eq_take_append (s := space') (n := n) (by omega)
      refine .inr ⟨space'.take n, rest, by rw [hd], ?_, List.ne_nil_of_length_pos (by omega), hnul, ?_, ?_⟩
      · rw [hd, ← htake, List.take_take, Nat.min_eq_left (by omega)]
      · have hcount := congrArg List.length hsplit
        rw [List.length_append, List.length_cons] at hcount
        omega
      · have happend := append_hold w' t x rest
          (List.ne_nil_of_length_pos (by omega : 0 < (space'.take n).length)) hnul
        rwa [hd, ← hsplit] at happend
    · have hbad : n = 0 ∨ space'.length - 1 < n ∨ (0 : UInt8) ∈ space'.take n := by
        rw [hlen]
        by_contra hno
        simp only [not_or, Nat.not_lt] at hno
        exact hgood ⟨Nat.pos_of_ne_zero hno.1, hno.2⟩
      obtain ⟨r, happend⟩ := append_error (s := space') w' t (.ok n) (by rintro _ ⟨⟩; exact hbad)
      refine .inl ⟨r, space', happend, hlen, ?_⟩
      rintro _ hn ⟨⟩
      rcases hbad with hzero | hlong | hnul
      · exact .inl hzero
      · omega
      · refine .inr ?_
        rwa [← htake, List.take_take, Nat.min_eq_left (by omega)]

theorem add_hold (w : ω) (space : Bytes) (h : (0 : UInt8) ∉ t) (hs : s ≠ []) :
    (s.length + 1 ≤ space.length ∧ (0 : UInt8) ∉ s ∧ ∃ rest, rest.length + (s.length + 1) = space.length ∧
      add s (w, hold t space) = (.ok (), (w, hold (t ++ 0x20 :: s) rest))) ∨
    (¬ (s.length + 1 ≤ space.length ∧ (0 : UInt8) ∉ s) ∧ ∃ e space', space'.length = space.length ∧
      add s (w, hold t space) = (err e, (w, hold t space'))) := by
  have hremains : (hold t space).remainingCapacity = .ok space.length := by
    simp [remainingCapacity, hold, subU64]
  unfold add
  rw [if_neg hs, bind_run_ok (get_run _), bind_run_ok (lift_run_ok hremains _)]
  by_cases hfits : space.length < s.length + 1
  · rw [if_pos hfits]
    exact .inr ⟨fun hboth => by omega, _, space, rfl, rfl⟩
  rw [if_neg hfits]
  have hlen : space.dropLast.length = space.length - 1 := List.length_dropLast
  have hcopy : (Reader.copy s .panic).run t (w, space.dropLast) = (.ok s.length, (w, splice space.dropLast 0 s)) :=
    if_pos (by simp only; omega)
  obtain ⟨space', hfill, hspace, hfilled, htake⟩ := fill_hold (t := t) hcopy
  have htake : space'.take s.length = s := by
    have hsome := congrArg (List.take s.length) htake
    rw [List.take_take, splice_zero, List.take_left, Nat.min_eq_left (by simp)] at hsome
    exact hsome
  rw [addWith_run h, bind_run_ok (attempt_run_ok hfill)]
  by_cases hnul : (0 : UInt8) ∈ s
  · exact .inr ⟨fun hboth => hboth.2 hnul, _, space', hspace,
      append_nul (by simpa using hs) (by omega) (by rwa [htake])⟩
  · obtain ⟨x, rest, hsplit⟩ := exists_eq_take_append (s := space') (n := s.length) (by omega)
    rw [htake] at hsplit
    rw [hsplit, List.length_append, List.length_cons] at hspace
    refine .inl ⟨by omega, hnul, rest, by omega, ?_⟩
    rw [hsplit]
    exact append_hold w t x rest hs hnul

theorem length_hold (t space : Bytes) : (hold t space).buffer.length = t.length + space.length + 1 := by
  rw [hold, List.length_append, List.length_cons, Nat.add_assoc]

theorem exists_hold_of_new (h : new buffer = .ok b) :
    ∃ space, b = hold (utf8 []) space ∧ b.buffer.length = buffer.length := by
  cases buffer with
  | nil => cases h
  | cons x rest => cases h; exact ⟨rest, rfl, rfl⟩

theorem exists_hold_of_newFromPrefix (h : newFromPrefix buffer = .ok b) :
    ∃ space, b = hold (untilNul buffer) space ∧ b.buffer.length = buffer.length := by
  unfold newFromPrefix at h
  split at h
  · next hmem =>
    cases h
    obtain ⟨x, rest, hrest⟩ := List.exists_cons_of_ne_nil (l := buffer.dropWhile (· ≠ 0)) (fun hnil => by
      have := List.dropWhile_eq_nil_iff.1 hnil 0 hmem
      simp at this)
    have hhead := List.head?_dropWhile_not (· ≠ (0 : UInt8)) buffer
    rw [hrest] at hhead
    have hx : x = 0 := by simpa using hhead
    subst hx
    refine ⟨rest, ?_, rfl⟩
    rw [hold, ← hrest, untilNul, List.takeWhile_append_dropWhile]
  · cases h

/-! ## Runs -/

/-- What a user of the builder can do to it. -/
inductive Op (ω : Type)
  | add (commandline : List Char)
  | addWith (reader : Reader ω)
  | write (pieces : List (List Char))

def Op.run : Op ω → Exec Error (ω × CommandlineBuilder) Unit
  | .add commandline => CommandlineBuilder.add (utf8 commandline)
  | .addWith reader => CommandlineBuilder.addWith reader
  | .write pieces => writeFmt (pieces.map utf8)

/-- The pieces in front of the first one that is refused. -/
def front : Nat → List (List Char) → List (List Char)
  | _, [] => []
  | room, p :: ps =>
    if p = [] then p :: front room ps
    else if (utf8 p).length + 1 ≤ room ∧ (0 : UInt8) ∉ utf8 p then p :: front (room - ((utf8 p).length + 1)) ps
    else []

/-- The bytes of a callback that are appended are UTF-8, and a formatted write that stops has written white space. -/
def Op.Careful (s : ω × CommandlineBuilder) : Op ω → Prop
  | .add _ => True
  | .addWith reader => ∀ n ≤ s.2.space.length - 1,
      (reader.run (s.2.buffer.take s.2.currentSize) (s.1, s.2.space.dropLast)).1 = .ok n →
        (0 : UInt8) ∈ (reader.run (s.2.buffer.take s.2.currentSize) (s.1, s.2.space.dropLast)).2.2.take n ∨
        ∃ cs, (reader.run (s.2.buffer.take s.2.currentSize) (s.1, s.2.space.dropLast)).2.2.take n = utf8 cs
  | .write pieces => front s.2.space.length pieces = pieces ∨ ∀ p ∈ front s.2.space.length pieces, Blank p

def CarefulRun : List (Op ω) → ω × CommandlineBuilder → Prop
  | [], _ => True
  | op :: ops, s => op.Careful s ∧ CarefulRun ops (op.run s).2

/-- The builder can be printed, its only NUL is behind the text, and the next text is added exactly if it fits. -/
structure InOrder (n : Nat) (s : ω × CommandlineBuilder) : Prop where
  length : s.2.buffer.length = n
  terminated : s.2.buffer[s.2.currentSize]? = some 0
  nul : (0 : UInt8) ∉ s.2.buffer.take s.2.currentSize
  prints : ∃ cs, toStr (s.2.buffer.take s.2.currentSize) = some cs ∧ s.2.asStr = .ok (trim cs) ∧
    ∀ c, c ≠ [] → (0 : UInt8) ∉ utf8 c →
      ((add (utf8 c) s).1 = .ok () ↔ s.2.currentSize + (utf8 c).length + 2 ≤ n) ∧
      ((add (utf8 c) s).1 = .ok () → (add (utf8 c) s).2.2.asStr = .ok (trim (cs ++ ' ' :: c)))

def PrintableRun (n : Nat) : List (Op ω) → ω × CommandlineBuilder → Prop
  | [], s => InOrder n s
  | op :: ops, s => InOrder n s ∧ (∀ e, (op.run s).1 = err e → (op.run s).2.2.asStr = s.2.asStr) ∧
      PrintableRun n ops (op.run s).2

/-- A builder with a buffer of `n` bytes that holds a text. -/
def Holds (n : Nat) (cs : List Char) (b : CommandlineBuilder) : Prop :=
  (0 : UInt8) ∉ utf8 cs ∧ b.buffer.length = n ∧ ∃ space, b = hold (utf8 cs) space

variable {n : Nat}

theorem asStr_text (space : Bytes) (h : (0 : UInt8) ∉ utf8 cs) : (hold (utf8 cs) space).asStr = .ok (trim cs) := by
  rw [asStr_hold h, toStr_utf8]

theorem utf8_grow (cs d : List Char) : utf8 (cs ++ ' ' :: d) = utf8 cs ++ 0x20 :: utf8 d := utf8_append cs (' ' :: d)

theorem nul_grow {d : List Char} (h : (0 : UInt8) ∉ utf8 cs) (hd : (0 : UInt8) ∉ utf8 d) :
    (0 : UInt8) ∉ utf8 (cs ++ ' ' :: d) := by
  rw [utf8_grow, List.mem_append, List.mem_cons]
  rintro (hmem | hmem | hmem)
  · exact h hmem
  · cases hmem
  · exact hd hmem

theorem Holds.inOrder (h : Holds n cs b) (w : ω) : InOrder n (w, b) := by
  obtain ⟨hnul, hlen, space, rfl⟩ := h
  rw [length_hold] at hlen
  refine ⟨by rw [length_hold, hlen], by simp [hold], by rwa [hold, List.take_left], cs, ?_, asStr_text _ hnul, ?_⟩
  · rw [hold, List.take_left, toStr_utf8]
  · intro c hc hcnul
    rcases add_hold w space hnul (mt utf8_eq_nil.1 hc) with
      ⟨hfits, hd, rest, hrest, hrun⟩ | ⟨hno, e, space', hspace, hrun⟩
    · rw [hrun, ← utf8_grow]
      exact ⟨iff_of_true rfl (by simp only [hold]; omega), fun _ => asStr_text _ (nul_grow hnul hd)⟩
    · rw [hrun]
      refine ⟨iff_of_false nofun fun hle => hno ⟨?_, hcnul⟩, nofun⟩
      simp only [hold] at hle
      omega

theorem PrintableRun.inOrder {ops : List (Op ω)} {s : ω × CommandlineBuilder} (h : PrintableRun n ops s) :
    InOrder n s := by
  cases ops with
  | nil => exact h
  | cons op ops => exact h.1

theorem InOrder.exists_text (h : InOrder n (w, hold t space)) : ∃ cs, t = utf8 cs := by
  obtain ⟨cs, htext, -⟩ := h.prints
  rw [hold, List.take_left] at htext
  exact ⟨cs, toStr_eq_some.1 htext⟩

theorem exists_hold {s : Bytes} (htake : b.buffer.take b.currentSize = s) (h : b.buffer[b.currentSize]? = some 0) :
    ∃ space, b = hold s space := by
  obtain ⟨hlt, hget⟩ := List.getElem?_eq_some_iff.1 h
  obtain ⟨size, buffer⟩ := b
  obtain rfl : buffer.take size = s := htake
  refine ⟨buffer.drop (size + 1), ?_⟩
  rw [hold, List.length_take_of_le (Nat.le_of_lt hlt), ← hget, List.getElem_cons_drop, List.take_append_drop]

theorem trim_word_eq_iff (t a : List Char) : trim (t ++ ' ' :: a) = trim t ↔ Blank a := by
  refine ⟨fun h => ?_, fun h => trim_append_blank (fun c hc => ?_) t⟩
  · by_contra ha
    by_cases ht : Blank t
    · rw [trim_blank_append ht, trim_eq_nil.2 ht] at h
      exact ha fun c hc => trim_eq_nil.1 h c (List.mem_cons_of_mem _ hc)
    · rw [show ' ' :: a = [' '] ++ a from rfl, trim_append ht [' '] ha] at h
      have hlen := congrArg List.length h
      have hle : (trim t).length ≤ (t.dropWhile isWhitespace).length := (List.rdropWhile_prefix _ _).length_le
      rw [List.length_append, List.length_append, List.length_singleton] at hlen
      omega
  · rcases List.mem_cons.1 hc with rfl | hc
    · rfl
    · exact h c hc

/-- The separator that each piece gets. -/
def words (ps : List (List Char)) : List Char := ps.flatMap fun p => if p = [] then [] else ' ' :: p

theorem blank_words {ps : List (List Char)} : Blank (words ps) ↔ ∀ p ∈ ps, Blank p := by
  simp only [Blank, words, List.mem_flatMap]
  refine ⟨fun h p hp c hc => h c ⟨p, hp, ?_⟩, ?_⟩
  · rw [if_neg (List.ne_nil_of_mem hc)]
    exact List.mem_cons_of_mem _ hc
  · rintro h c ⟨p, hp, hc⟩
    split at hc
    · cases hc
    · rcases List.mem_cons.1 hc with rfl | hc
      · rfl
      · exact h p hp c hc

theorem trim_words (t : List Char) (ps : List (List Char)) : trim (t ++ words ps) = trim t ↔ ∀ p ∈ ps, Blank p := by
  rw [← blank_words]
  induction ps with
  | nil => exact iff_of_true (by rw [words, List.flatMap_nil, List.append_nil]) nofun
  | cons p ps ih =>
    by_cases hp : p = []
    · have hskip : words (p :: ps) = words ps := by rw [words, List.flatMap_cons, if_pos hp]; rfl
      rw [hskip, ih]
    · have hcons : words (p :: ps) = ' ' :: (p ++ words ps) := by rw [words, List.flatMap_cons, if_neg hp]; rfl
      rw [hcons, trim_word_eq_iff]
      refine ⟨fun h c hc => ?_, fun h c hc => h c (List.mem_cons_of_mem _ hc)⟩
      rcases List.mem_cons.1 hc with rfl | hc
      · rfl
      · exact h c hc

/-- A formatted write appends the pieces in front of the first that is refused, and fails if there is one. -/
theorem writeFmt_hold (w : ω) (pieces : List (List Char)) : ∀ {cs space}, (0 : UInt8) ∉ utf8 cs →
    ∃ r rest, writeFmt (pieces.map utf8) (w, hold (utf8 cs) space) =
        (r, (w, hold (utf8 (cs ++ words (front space.length pieces))) rest)) ∧
      (0 : UInt8) ∉ utf8 (cs ++ words (front space.length pieces)) ∧
      (hold (utf8 (cs ++ words (front space.length pieces))) rest).buffer.length =
        (hold (utf8 cs) space).buffer.length ∧
      (front space.length pieces = pieces ∧ r = .ok () ∨
        front space.length pieces ≠ pieces ∧ r = err .unsupported) := by
  induction pieces with
  | nil =>
    intro cs space h
    refine ⟨.ok (), space, ?_, ?_, ?_, .inl ⟨rfl, rfl⟩⟩ <;> simp only [front, words, List.flatMap_nil, List.append_nil]
    · rfl
    · exact h
  | cons p ps ih =>
    intro cs space h
    rw [List.map_cons, writeFmt]
    by_cases hp : p = []
    · obtain ⟨r, rest, hrun, hnul, hlen, hr⟩ := @ih cs space h
      have hfront : front space.length (p :: ps) = p :: front space.length ps := by rw [front, if_pos hp]
      have hwords : words (p :: front space.length ps) = words (front space.length ps) := by
        rw [words, List.flatMap_cons, if_pos hp]
        rfl
      rw [hfront, hwords, List.cons_inj_right, hp, bind_run_ok (show writeStr (utf8 []) _ = _ from rfl)]
      exact ⟨r, rest, hrun, hnul, hlen, by rwa [Ne, List.cons_inj_right]⟩
    rcases add_hold w space h (mt utf8_eq_nil.1 hp) with ⟨hfits, hd, room, hroom, hadd⟩ | ⟨hno, e, space', hspace, hadd⟩
    · rw [← utf8_grow] at hadd
      obtain ⟨r, rest, hrun, hnul, hlen, hr⟩ := @ih (cs ++ ' ' :: p) room (nul_grow h hd)
      have hfront : front space.length (p :: ps) = p :: front room.length ps := by
        rw [front, if_neg hp, if_pos ⟨hfits, hd⟩, show space.length - ((utf8 p).length + 1) = room.length by omega]
      have hwords : cs ++ words (p :: front room.length ps) = cs ++ ' ' :: p ++ words (front room.length ps) := by
        rw [words, List.flatMap_cons, if_neg hp, ← List.append_assoc]
        rfl
      rw [hfront, hwords, bind_run_ok (show writeStr (utf8 p) _ = _ from mapErr_run_ok hadd)]
      refine ⟨r, rest, hrun, hnul, hlen.trans ?_, by rwa [Ne, List.cons_inj_right]⟩
      rw [length_hold, length_hold, utf8_grow, List.length_append, List.length_cons]
      omega
    · have hfront : front space.length (p :: ps) = [] := by rw [front, if_neg hp, if_neg hno]
      rw [hfront, show cs ++ words [] = cs from List.append_nil cs,
        bind_run_error (show writeStr (utf8 p) _ = _ from mapErr_run_err hadd)]
      exact ⟨_, space', rfl, h, by rw [length_hold, length_hold, hspace], .inr ⟨nofun, rfl⟩⟩

/-- One operation: where it is careful, and only there, it leaves a text, and the same text if it fails. -/
theorem careful_iff (h : Holds n cs b) (op : Op ω) (w : ω) :
    op.Careful (w, b) ↔ (∃ cs', Holds n cs' (op.run (w, b)).2.2) ∧
      ∀ e, (op.run (w, b)).1 = err e → (op.run (w, b)).2.2.asStr = b.asStr := by
  obtain ⟨hnul, hlen, space, rfl⟩ := h
  rw [length_hold] at hlen
  have hkept : ∀ {space' : Bytes}, space'.length = space.length → Holds n cs (hold (utf8 cs) space') :=
    fun hspace => ⟨hnul, by rw [length_hold]; omega, _, rfl⟩
  cases op with
  | add s =>
    refine iff_of_true trivial ?_
    show (∃ cs', Holds n cs' (add (utf8 s) (w, hold (utf8 cs) space)).2.2) ∧
      ∀ e, (add (utf8 s) (w, hold (utf8 cs) space)).1 = err e → (add (utf8 s) (w, hold (utf8 cs) space)).2.2.asStr = _
    by_cases hs : utf8 s = []
    · rw [add, if_pos hs]
      exact ⟨⟨cs, hkept rfl⟩, nofun⟩
    rcases add_hold w space hnul hs with ⟨-, hd, rest, hrest, hrun⟩ | ⟨-, e, space', hspace, hrun⟩
    · rw [hrun, ← utf8_grow]
      refine ⟨⟨_, nul_grow hnul hd, ?_, rest, rfl⟩, nofun⟩
      rw [length_hold, utf8_grow, List.length_append, List.length_cons]
      omega
    · rw [hrun]
      exact ⟨⟨cs, hkept hspace⟩, fun _ _ => by rw [asStr_text _ hnul, asStr_text _ hnul]⟩
  | addWith reader =>
    have htext : (hold (utf8 cs) space).buffer.take (hold (utf8 cs) space).currentSize = utf8 cs := by
      rw [hold, List.take_left]
    simp only [Op.Careful, Op.run, htext, space_hold]
    rcases addWith_hold reader w space hnul with
      ⟨r, space', hrun, hspace, hbad⟩ | ⟨d, rest, hok, hd, -, hdnul, hrest, hrun⟩
    · rw [hrun]
      refine iff_of_true (fun k hk hread => ?_) ⟨⟨cs, hkept hspace⟩, fun _ _ => ?_⟩
      · rcases hbad k hk hread with rfl | hmem
        · exact .inr ⟨[], List.take_zero⟩
        · exact .inl hmem
      · rw [asStr_text _ hnul, asStr_text _ hnul]
    · rw [hrun]
      constructor
      · intro hcareful
        obtain ⟨cs', hcs'⟩ := (hcareful _ (by omega) hok).resolve_left (hd ▸ hdnul)
        rw [← hd] at hcs'
        subst hcs'
        refine ⟨⟨cs ++ ' ' :: cs', nul_grow hnul hdnul, ?_, rest, by rw [utf8_grow]⟩, nofun⟩
        rw [length_hold, List.length_append, List.length_cons]
        omega
      · rintro ⟨⟨cs', hholds⟩, -⟩ k hk hread
        obtain ⟨cs'', htext⟩ := (hholds.inOrder w).exists_text
        obtain rfl := Except.ok.inj (hok.symm.trans hread)
        rw [← hd]
        rw [List.append_cons, show utf8 cs ++ [0x20] = utf8 (cs ++ [' ']) from (utf8_append cs [' ']).symm] at htext
        exact .inr (exists_utf8_of_append htext)
  | write pieces =>
    obtain ⟨r, rest, hrun, hnul', hsize, hr⟩ := @writeFmt_hold ω w pieces cs space hnul
    simp only [Op.Careful, Op.run, space_hold, hrun, asStr_text _ hnul, asStr_text _ hnul', Except.ok.injEq, trim_words]
    have hholds : ∃ cs', Holds n cs' (hold (utf8 (cs ++ words (front space.length pieces))) rest) :=
      ⟨_, hnul', hsize.trans ((length_hold _ _).trans hlen), rest, rfl⟩
    rcases hr with ⟨hall, rfl⟩ | ⟨hstop, rfl⟩
    · exact iff_of_true (.inl hall) ⟨hholds, nofun⟩
    · exact ⟨fun h => ⟨hholds, fun _ _ => h.resolve_left hstop⟩, fun h => .inr (h.2 _ rfl)⟩

theorem printableRun_iff (ops : List (Op ω)) :
    ∀ {cs s}, Holds n cs s.2 → (PrintableRun n ops s ↔ CarefulRun ops s) := by
  induction ops with
  | nil => exact fun h => iff_of_true (h.inOrder _) trivial
  | cons op ops ih =>
    intro cs s h
    rw [CarefulRun, careful_iff h op s.1]
    constructor
    · rintro ⟨-, hsame, hrest⟩
      -- what can be printed after the operation is a text again
      have hnext : ∃ cs', Holds n cs' (op.run s).2.2 := by
        obtain ⟨cs', htext, -⟩ := hrest.inOrder.prints
        have hdecode := toStr_eq_some.1 htext
        have hnul := hrest.inOrder.nul
        rw [hdecode] at hnul
        exact ⟨cs', hnul, hrest.inOrder.length, exists_hold hdecode hrest.inOrder.terminated⟩
      obtain ⟨cs', hcs'⟩ := hnext
      exact ⟨⟨⟨cs', hcs'⟩, hsame⟩, (ih hcs').1 hrest⟩
    · rintro ⟨⟨⟨cs', hcs'⟩, hsame⟩, hrest⟩
      exact ⟨h.inOrder _, hsame, (ih hcs').2 hrest⟩

/-- **The builder can always be printed**, and failures have no effect, in exactly the runs that start from a text and
whose operations are careful. -/
theorem printable_run_iff (ops : List (Op ω)) (hb : new buffer = .ok b ∨ newFromPrefix buffer = .ok b) (w : ω) :
    PrintableRun buffer.length ops (w, b) ↔ (∃ cs, b.buffer.take b.currentSize = utf8 cs) ∧ CarefulRun ops (w, b) := by
  obtain ⟨t, space, rfl, hnul, hlen⟩ :
      ∃ t space, b = hold t space ∧ (0 : UInt8) ∉ t ∧ b.buffer.length = buffer.length := by
    rcases hb with hnew | hnew
    · obtain ⟨space, rfl, hlen⟩ := exists_hold_of_new hnew
      exact ⟨_, space, rfl, nofun, hlen⟩
    · obtain ⟨space, rfl, hlen⟩ := exists_hold_of_newFromPrefix hnew
      exact ⟨_, space, rfl, nul_not_mem_untilNul buffer, hlen⟩
  rw [show (hold t space).buffer.take (hold t space).currentSize = t from List.take_left]
  constructor
  · intro h
    obtain ⟨cs, rfl⟩ := h.inOrder.exists_text
    exact ⟨⟨cs, rfl⟩, (printableRun_iff ops (show Holds _ cs _ from ⟨hnul, hlen, space, rfl⟩)).1 h⟩
  · rintro ⟨⟨cs, rfl⟩, hcareful⟩
    exact (printableRun_iff ops (show Holds _ cs _ from ⟨hnul, hlen, space, rfl⟩)).2 hcareful

def letterA : Reader Unit := Reader.copy (utf8 ['a']) .panic

/-- A callback, a write in two pieces, and a write that stops behind a space. -/
theorem printable_run_mixed :
    PrintableRun 9 [.addWith letterA, .write [['k', '='], ['v']], .write [[' '], ['l', 'o', 'n', 'g']]]
      ((), hold [] [0, 0, 0, 0, 0, 0, 0, 0]) := by
  refine (printable_run_iff _ (.inl (show new (List.replicate 9 0) = .ok (hold [] [0, 0, 0, 0, 0, 0, 0, 0])
    by decide +kernel)) ()).2 ⟨⟨[], rfl⟩, ?_, ?_, ?_, trivial⟩
  · rintro n - hread
    obtain rfl : (utf8 ['a']).length = n := Except.ok.inj (Eq.trans (by decide +kernel) hread)
    exact .inr ⟨['a'], by decide +kernel⟩
  · exact .inl (by decide +kernel)
  · exact .inr (by decide +kernel)

theorem unprintable_prefix :
    (∃ b, newFromPrefix [0xff, 0] = .ok b ∧ b.asStr = panic) ∧
    ∃ b, new [0, 0, 0] = .ok b ∧ b.asStr = .ok [] ∧
      ((Op.write [['a'], ['b']]).run ((), b)).1 = err .unsupported ∧
      ((Op.write [['a'], ['b']]).run ((), b)).2.2.asStr = .ok ['a'] :=
  ⟨⟨⟨1, [0xff, 0]⟩, by decide +kernel, by decide +kernel⟩,
    ⟨⟨0, [0, 0, 0]⟩, by decide +kernel, by decide +kernel, by decide +kernel, by decide +kernel⟩⟩

/-! ## Formatted writes -/

/-- When `a` and then `b` behind the text `t` print as `a ++ b` does. What contains a NUL is not written. -/
def SplitsAlike (t a b : List Char) : Prop :=
  a = [] ∨ if (0 : UInt8) ∈ utf8 a then (0 : UInt8) ∈ utf8 b ∨ Blank b
    else if (0 : UInt8) ∈ utf8 b then Blank a else Blank b ∨ Blank (t ++ a)

theorem writeStr_fits (w : ω) (space : Bytes) {a : List Char} (h : (0 : UInt8) ∉ utf8 cs) (ha : a ≠ [])
    (hnul : (0 : UInt8) ∉ utf8 a)
    (hfits : (utf8 a).length + 1 ≤ space.length) :
    ∃ rest, writeStr (utf8 a) (w, hold (utf8 cs) space) = (.ok (), (w, hold (utf8 (cs ++ ' ' :: a)) rest)) ∧
      (0 : UInt8) ∉ utf8 (cs ++ ' ' :: a) ∧ rest.length + ((utf8 a).length + 1) = space.length := by
  rcases add_hold w space h (mt utf8_eq_nil.1 ha) with ⟨-, hd, rest, hrest, hrun⟩ | ⟨hno, -⟩
  · refine ⟨rest, ?_, nul_grow h hd, hrest⟩
    rw [utf8_grow]
    exact mapErr_run_ok hrun
  · exact absurd ⟨hfits, hnul⟩ hno

theorem writeStr_nul (w : ω) (space : Bytes) {a : List Char} (h : (0 : UInt8) ∉ utf8 cs) (hnul : (0 : UInt8) ∈ utf8 a) :
    ∃ space', writeStr (utf8 a) (w, hold (utf8 cs) space) = (err .unsupported, (w, hold (utf8 cs) space')) ∧
      space'.length = space.length := by
  rcases add_hold w space h (List.ne_nil_of_mem hnul) with ⟨-, hd, -⟩ | ⟨-, e, space', hlen, hrun⟩
  · exact absurd hnul hd
  · exact ⟨space', mapErr_run_err hrun, hlen⟩

theorem trim_words_eq_iff (t a b : List Char) :
    trim ((t ++ ' ' :: a) ++ ' ' :: b) = trim (t ++ ' ' :: (a ++ b)) ↔ Blank b ∨ Blank (t ++ a) := by
  have hspace : Blank [' '] := by decide +kernel
  by_cases hb : Blank b
  · refine iff_of_true ?_ (.inl hb)
    rw [(trim_word_eq_iff _ b).2 hb, ← List.cons_append, ← List.append_assoc, trim_append_blank hb]
  · have hshape : t ++ ' ' :: (a ++ b) = (t ++ ' ' :: a) ++ b := by simp
    rw [hshape]
    by_cases hta : Blank (t ++ a)
    · obtain ⟨ht, ha⟩ := blank_append.1 hta
      have hword : Blank (t ++ ' ' :: a) := blank_append.2 ⟨ht, (blank_append (a := [' '])).2 ⟨hspace, ha⟩⟩
      rw [trim_blank_append hword, trim_blank_append hword]
      exact iff_of_true (trim_blank_append hspace b) (.inr hta)
    · have hword : ¬ Blank (t ++ ' ' :: a) := fun h => hta <| by
        obtain ⟨ht, ha⟩ := blank_append.1 h
        exact blank_append.2 ⟨ht, (blank_append (a := [' '])).1 ha |>.2⟩
      refine iff_of_false (fun h => ?_) (not_or.2 ⟨hb, hta⟩)
      have hlen := congrArg List.length ((trim_append hword [' '] hb).symm.trans (h.trans (trim_append hword [] hb)))
      simp only [List.length_append, List.length_singleton, List.length_nil] at hlen
      omega

/-- **Two writes and one.** With room for both, what `a` and then `b` leave prints as what `a ++ b` leaves exactly if
they split alike. A formatted write also does so if `a` stops it. -/
theorem writes_alike_iff (w : ω) {t a b : List Char} {space : Bytes} (h : (0 : UInt8) ∉ utf8 t)
    (hfits : (utf8 a).length + (utf8 b).length + 2 ≤ space.length) :
    ((writeStr (utf8 b) (writeStr (utf8 a) (w, hold (utf8 t) space)).2).2.2.asStr =
      (writeStr (utf8 (a ++ b)) (w, hold (utf8 t) space)).2.2.asStr ↔ SplitsAlike t a b) ∧
    ((writeFmt [utf8 a, utf8 b] (w, hold (utf8 t) space)).2.2.asStr =
      (writeStr (utf8 (a ++ b)) (w, hold (utf8 t) space)).2.2.asStr ↔ (0 : UInt8) ∈ utf8 a ∨ SplitsAlike t a b) := by
  have hone : ∀ (s : Bytes) (x : ω × CommandlineBuilder), (writeFmt [s] x).2 = (writeStr s x).2 := by
    intro s x
    rw [writeFmt, writeFmt, bind_pure]
  unfold SplitsAlike
  by_cases ha : a = []
  · subst ha
    rw [List.nil_append, writeFmt, show utf8 [] = [] from rfl, bind_run_ok (show writeStr [] _ = _ from rfl), hone]
    exact ⟨iff_of_true rfl (.inl rfl), iff_of_true rfl (.inr (.inl rfl))⟩
  have hab : utf8 (a ++ b) = utf8 a ++ utf8 b := utf8_append a b
  by_cases hnul : (0 : UInt8) ∈ utf8 a
  · obtain ⟨space₁, hrun₁, hlen₁⟩ := writeStr_nul w space h hnul
    obtain ⟨space₂, hrun₂, -⟩ := writeStr_nul w space (a := a ++ b) h (by rw [hab]; exact List.mem_append_left _ hnul)
    rw [writeFmt, bind_run_error hrun₁, hrun₁, hrun₂, asStr_text _ h, asStr_text _ h]
    refine ⟨?_, iff_of_true rfl (.inl hnul)⟩
    simp only [ha, hnul, false_or, if_true]
    by_cases hbnul : (0 : UInt8) ∈ utf8 b
    · obtain ⟨space₃, hrun₃, -⟩ := writeStr_nul w space₁ h hbnul
      rw [hrun₃, asStr_text _ h]
      exact iff_of_true rfl (.inl hbnul)
    · by_cases hb : b = []
      · subst hb
        rw [show writeStr (utf8 []) _ = (.ok (), (w, hold (utf8 t) space₁)) from rfl, asStr_text _ h]
        exact iff_of_true rfl (.inr nofun)
      · obtain ⟨rest₁, hrun₃, hnul₃, -⟩ := writeStr_fits w space₁ h hb hbnul (by omega)
        rw [hrun₃, asStr_text _ hnul₃, Except.ok.injEq, trim_word_eq_iff]
        simp only [hbnul, false_or]
  obtain ⟨rest, hrun, hnul', hrest⟩ := writeStr_fits w space h ha hnul (by omega)
  rw [writeFmt, bind_run_ok hrun, hone, hrun]
  simp only [ha, hnul, false_or, if_false, and_self]
  by_cases hbnul : (0 : UInt8) ∈ utf8 b
  · obtain ⟨space₁, hrun₁, -⟩ := writeStr_nul w rest hnul' hbnul
    obtain ⟨space₂, hrun₂, -⟩ := writeStr_nul w space (a := a ++ b) h (by rw [hab]; exact List.mem_append_right _ hbnul)
    rw [hrun₁, hrun₂, asStr_text _ hnul', asStr_text _ h, if_pos hbnul, Except.ok.injEq, trim_word_eq_iff]
  · obtain ⟨rest₂, hrun₂, hnul₂, -⟩ := writeStr_fits w space (a := a ++ b) h (by simp [ha])
      (by rw [hab, List.mem_append]; tauto) (by rw [hab, List.length_append]; omega)
    rw [hrun₂, asStr_text _ hnul₂, if_neg hbnul]
    by_cases hb : b = []
    · subst hb
      refine iff_of_true ?_ (.inl nofun)
      rw [show writeStr (utf8 []) _ = (.ok (), (w, hold (utf8 (t ++ ' ' :: a)) rest)) from rfl, asStr_text _ hnul',
        List.append_nil]
    · obtain ⟨rest₁, hrun₁, hnul₁, -⟩ := writeStr_fits w rest hnul' hb hbnul (by omega)
      rw [hrun₁, asStr_text _ hnul₁, Except.ok.injEq, trim_words_eq_iff]

theorem writes_alike_blank :
    (writeStr (utf8 [' ']) (writeStr (utf8 ['a']) ((), hold (utf8 []) [0, 0, 0, 0])).2).2.2.asStr =
      (writeStr (utf8 ['a', ' ']) ((), hold (utf8 []) [0, 0, 0, 0])).2.2.asStr :=
  (writes_alike_iff () (t := []) (a := ['a']) (b := [' ']) nofun (by decide +kernel)).1.2
    (.inr (by decide +kernel))

theorem formatted_value_split :
    (writeFmt [utf8 ['k', '='], utf8 ['v']] ((), hold (utf8 []) [0, 0, 0, 0, 0])).2.2.asStr = .ok ['k', '=', ' ', 'v'] ∧
    (writeStr (utf8 ['k', '=', 'v']) ((), hold (utf8 []) [0, 0, 0, 0, 0])).2.2.asStr = .ok ['k', '=', 'v'] := by
  decide +kernel

end CommandlineBuilder

end Gbl.BootParams
