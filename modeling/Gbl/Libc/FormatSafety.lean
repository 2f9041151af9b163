import Gbl.Libc.Format
import Gbl.Lib.Bytes

/-!
# Memory safety of the C formatter

A format string is taken apart the way the code does it (`specOf`); `SafeFormat` says which conversions the code can
handle with the arguments it is given.
-/

namespace Gbl.Libc

open Lib

/-! ## Writing -/

variable {buffer : List UInt8} {pos room base value : Nat} {l : List UInt8} {c : UInt8} {sp : Spec}
  {available : Nat} {k : Kind} {fmt : List UInt8} {i : Nat}

theorem storeByte_eq (c : UInt8) (h : pos < buffer.length) : storeByte buffer pos c = .ok (splice buffer pos [c]) := by
  rw [storeByte, if_pos h, List.set_eq_take_append_cons_drop, if_pos h]
  simp [splice]

theorem putAll_eq (cs : List UInt8) (h : pos + room ≤ buffer.length) :
    putAll cs room pos buffer = .ok (min room cs.length, splice buffer pos (cs.take room)) := by
  induction cs generalizing room pos buffer with
  | nil => simp [putAll]
  | cons c cs ih =>
    cases room with
    | zero => simp [putAll]
    | succ room =>
      have hlen : (splice buffer pos [c]).length = buffer.length :=
        length_splice (by simp only [List.length_singleton]; omega)
      have hsplice := splice_splice (l := buffer) (a := [c]) (b := cs.take room) (i := pos) (by omega)
      rw [List.length_singleton] at hsplice
      rw [putAll, storeByte_eq c (by omega), Res.ok_bind, ih (by rw [hlen]; omega), Res.ok_bind, hsplice]
      simp [Nat.succ_min_succ]
      rfl

theorem putAll_append (xs ys : List UInt8) (h : pos + room ≤ buffer.length) : (do
      let (used, buffer) ← putAll xs room pos buffer
      let (n, buffer) ← putAll ys (room - used) (pos + used) buffer
      pure (used + n, buffer)) = putAll (xs ++ ys) room pos buffer := by
  have hlen : (splice buffer pos (xs.take room)).length = buffer.length :=
    length_splice (by rw [List.length_take]; omega)
  have hsplice := splice_splice (l := buffer) (a := xs.take room) (b := ys.take (room - min room xs.length))
    (i := pos) (by omega)
  rw [List.length_take] at hsplice
  rw [putAll_eq xs h, Res.ok_bind]
  simp only
  rw [putAll_eq ys (by rw [hlen]; omega), Res.ok_bind, putAll_eq (xs ++ ys) h, hsplice, List.take_append]
  have htake : ys.take (room - min room xs.length) = ys.take (room - xs.length) := by
    rcases Nat.le_total room xs.length with hle | hle
    · rw [Nat.min_eq_left hle, Nat.sub_self, Nat.sub_eq_zero_of_le hle]
    · rw [Nat.min_eq_right hle]
  rw [htake, List.length_append]
  simp only [pure, Except.pure, Except.ok.injEq, Prod.mk.injEq, and_true]
  omega

/-! ## Numbers -/

def numberText (base value : Nat) : List UInt8 :=
  if value = 0 then [0x30] else ((Nat.digits base value).map numberAlphabet).reverse

def signedText (value : Int) : List UInt8 :=
  (if value < 0 then [0x2D] else []) ++ numberText 10 value.natAbs

theorem fillTmp_eq (hbase : 1 < base) (room value : Nat) : fillTmp base room value =
      if value < base ^ room then .ok ((Nat.digits base value).map numberAlphabet) else panic := by
  induction room generalizing value with
  | zero =>
    cases value with
    | zero => simp [fillTmp]
    | succ value => simp [fillTmp]
  | succ room ih =>
    by_cases hzero : value = 0
    · subst hzero
      simp [fillTmp, Nat.ne_of_gt (Nat.zero_lt_of_lt hbase)]
    · have hdiv : value / base < base ^ room ↔ value < base ^ (room + 1) := by
        rw [Nat.div_lt_iff_lt_mul (Nat.zero_lt_of_lt hbase), Nat.pow_succ]
      have hdigits : Nat.digits base value = value % base :: Nat.digits base (value / base) :=
        Nat.digits_def' hbase (Nat.pos_of_ne_zero hzero)
      rw [fillTmp, ih, hdigits]
      · by_cases hlt : value < base ^ (room + 1)
        · rw [if_pos (hdiv.2 hlt), if_pos hlt]
          rfl
        · rw [if_neg (fun h => hlt (hdiv.1 h)), if_neg hlt]
          rfl
      · exact fun h => hzero h

theorem formatNumberUnsigned_eq (hbase : 1 < base) (h : pos + room ≤ buffer.length) (hvalue : value < base ^ 20) :
    formatNumberUnsigned value buffer pos room base = putAll (numberText base value) room pos buffer := by
  unfold formatNumberUnsigned numberText
  cases room with
  | zero =>
    rw [if_pos rfl]
    split <;> simp [putAll_eq _ h]
  | succ room =>
    rw [if_neg (Nat.succ_ne_zero room)]
    by_cases hzero : value = 0
    · rw [if_pos hzero, if_pos hzero, putAll_eq _ h, storeByte_eq _ (by omega)]
      simp
    · rw [if_neg hzero, if_neg hzero, fillTmp_eq hbase, ullMaxDigits, if_pos hvalue, Res.ok_bind]

theorem formatNumberUnsigned_overflow (hbase : 1 < base) (hroom : 0 < room) (hvalue : base ^ 20 ≤ value) :
    formatNumberUnsigned value buffer pos room base = panic := by
  have hpos : 0 < base ^ 20 := Nat.pow_pos (Nat.zero_lt_of_lt hbase)
  rw [formatNumberUnsigned, if_neg (by omega), if_neg (by omega), fillTmp_eq hbase, ullMaxDigits, if_neg (by omega)]
  rfl

theorem formatNumberSigned_eq {value : Int} (h : pos + room ≤ buffer.length) (hvalue : value.natAbs < 10 ^ 20) :
    formatNumberSigned value buffer pos room 10 = putAll (signedText value) room pos buffer := by
  unfold formatNumberSigned signedText
  by_cases hneg : value < 0
  · have hlen : (splice buffer pos (List.take room [0x2D])).length = buffer.length :=
      length_splice (by rw [List.length_take]; omega)
    rw [if_pos hneg, if_pos hneg, ← putAll_append _ _ h, putAll_eq _ h]
    simp only [Res.ok_bind]
    rw [formatNumberUnsigned_eq (by decide) (by rw [hlen]; omega) hvalue]
  · rw [if_neg hneg, if_neg hneg, List.nil_append]
    simp only [pure, Except.pure, Res.ok_bind, Nat.zero_add, Nat.add_zero, Nat.sub_zero]
    rw [formatNumberUnsigned_eq (by decide) h hvalue, putAll_eq _ h]
    rfl

theorem appendCannotHandleError_eq (h : pos + room ≤ buffer.length) (c : UInt8) :
    appendCannotHandleError buffer pos room c = putAll (cannotHandle ++ [c]) room pos buffer :=
  putAll_append _ _ h

/-! ## Taking a format string apart -/

def isFlag (c : UInt8) : Bool := flagSymbols.contains c

def numberLen (l : List UInt8) : Nat := if l.head? = some 0x2A then 1 else (l.takeWhile isDigit).length

def precisionLen (l : List UInt8) : Nat := if l.head? = some 0x2E then 1 + numberLen (l.drop 1) else 0

def modifierOf (t : Target) (l : List UInt8) : Nat × Flags :=
  if l.head? = some 0x6C then if l[1]? = some 0x6C then (2, .longLong) else (1, .long)
  else if l.head? = some 0x68 then if l[1]? = some 0x68 then (2, .char) else (1, .short)
  else if l.head? = some 0x7A then (1, t.flagFor t.size)
  else if l.head? = some 0x6A then (1, t.flagFor t.intmax)
  else if l.head? = some 0x74 then (1, t.flagFor t.ptrdiff)
  else (0, .none)

structure Spec where
  /-- The asterisks, each of which stands for an argument. -/
  stars : Nat
  flags : Flags
  /-- The format string from the conversion specifier on. -/
  rest : List UInt8

def specFrom (t : Target) (l : List UInt8) : Spec :=
  let w := l.drop (numberLen l)
  let p := w.drop (precisionLen w)
  { stars := (if l.head? = some 0x2A then 1 else 0) +
      (if w.head? = some 0x2E ∧ w[1]? = some 0x2A then 1 else 0)
    flags := (modifierOf t p).2
    rest := p.drop (modifierOf t p).1 }

def specOf (t : Target) (l : List UInt8) : Option Spec :=
  if l.dropWhile isFlag = [] then none else some (specFrom t (l.dropWhile isFlag))

theorem isFlag_iff (c : UInt8) : (strchr flagSymbols c).isSome = (isFlag c || c == 0) := by
  rw [Bool.eq_iff_iff]
  simp only [strchr, isFlag, flagSymbols, List.findIdx?_isSome]
  simp [or_assoc, @eq_comm _ c]

theorem skipFlags_eq (hnul : (0 : UInt8) ∉ l) : skipFlags (l ++ [0]) =
      if l.dropWhile isFlag = [] then panic else .ok (l.takeWhile isFlag).length := by
  induction l with
  | nil => rfl
  | cons c l ih =>
    have hc : c ≠ 0 := fun h => hnul (h ▸ List.mem_cons_self)
    rw [List.cons_append, skipFlags, isFlag_iff, List.dropWhile_cons, List.takeWhile_cons]
    by_cases hflag : isFlag c = true
    · have ih := ih fun hmem => hnul (List.mem_cons_of_mem c hmem)
      simp only [hflag, Bool.true_or, if_true, ih]
      split <;> rfl
    · simp [hflag, hc]
      rfl

theorem skipDigits_eq (l : List UInt8) : skipDigits (l ++ [0]) = .ok (l.takeWhile isDigit).length := by
  induction l with
  | nil => rfl
  | cons c l ih =>
    rw [List.cons_append, skipDigits, List.takeWhile_cons]
    by_cases hdigit : isDigit c = true
    · simp only [hdigit, if_true, ih]
      rfl
    · simp [hdigit]
      rfl

theorem skipFormatNumber_eq (l : List UInt8) : skipFormatNumber (l ++ [0]) = .ok (numberLen l) := by
  unfold skipFormatNumber numberLen
  cases l with
  | nil => rfl
  | cons c l =>
    rw [List.head?_cons, List.cons_append, deref, Res.ok_bind, ← List.cons_append, skipDigits_eq]
    by_cases hc : c = 0x2A
    · simp [hc]
      rfl
    · simp [hc]

theorem skipPrecision_eq (l : List UInt8) : skipPrecision (l ++ [0]) = .ok (precisionLen l) := by
  unfold skipPrecision precisionLen
  cases l with
  | nil => rfl
  | cons c l =>
    rw [List.head?_cons, List.cons_append, deref, Res.ok_bind, List.drop_one, List.tail_cons, skipFormatNumber_eq]
    by_cases hc : c = 0x2E
    · simp [hc]
    · simp [hc]
      rfl

theorem deref_drop_one (c : UInt8) (l : List UInt8) : deref ((c :: l ++ [0]).drop 1) = .ok (l[0]?.getD 0) := by
  cases l <;> rfl

theorem getD_eq_iff {o : Option UInt8} (hc : c ≠ 0) : o.getD 0 = c ↔ o = some c := by
  cases o with
  | none => simp [hc.symm]
  | some d => simp

theorem parseLengthModifiers_eq (t : Target) (l : List UInt8) :
    parseLengthModifiers t (l ++ [0]) = .ok (modifierOf t l) := by
  unfold parseLengthModifiers modifierOf
  cases l with
  | nil => rfl
  | cons c l =>
    rw [deref_drop_one, List.cons_append, deref, Res.ok_bind]
    simp only [Res.ok_bind, List.head?_cons, Option.some.injEq, List.getElem?_cons_succ,
      getD_eq_iff (show (0x6C : UInt8) ≠ 0 by decide), getD_eq_iff (show (0x68 : UInt8) ≠ 0 by decide)]
    split
    · rfl
    · split
      · rfl
      · split
        · rfl
        · split
          · rfl
          · split <;> rfl

/-! ### The lengths stay within the string -/

theorem numberLen_le (l : List UInt8) : numberLen l ≤ l.length := by
  unfold numberLen
  split
  · cases l with
    | nil => simp at *
    | cons c l => simp
  · exact (List.takeWhile_prefix isDigit).length_le

theorem precisionLen_le (l : List UInt8) : precisionLen l ≤ l.length := by
  unfold precisionLen
  split
  · cases l with
    | nil => simp at *
    | cons c l =>
      have := numberLen_le l
      simp only [List.drop_one, List.tail_cons, List.length_cons]
      omega
  · exact Nat.zero_le _

theorem modifierOf_le (t : Target) (l : List UInt8) : (modifierOf t l).1 ≤ l.length := by
  match l with
  | [] => simp [modifierOf]
  | [c] => grind [modifierOf]
  | c :: d :: l => grind [modifierOf]

theorem rest_suffix {t : Target} (h : specOf t l = some sp) : sp.rest <:+ l := by
  unfold specOf at h
  split at h
  · cases h
  · cases h
    exact (((List.drop_suffix _ _).trans (List.drop_suffix _ _)).trans (List.drop_suffix _ _)).trans
      (List.dropWhile_suffix isFlag)

variable {t : Target}

theorem conversion_eq (hnul : (0 : UInt8) ∉ l) (args : List (Arg t)) (buffer : List UInt8) (i : Nat) :
    conversion available ⟨l ++ [0], args, buffer, i⟩ =
      match specOf t l with
      | none => panic
      | some sp => convert available sp.flags ⟨sp.rest ++ [0], args, buffer, i⟩ := by
  unfold conversion specOf
  simp only
  rw [skipFlags_eq hnul]
  by_cases hnil : l.dropWhile isFlag = []
  · rw [if_pos hnil, if_pos hnil]
    rfl
  · have hdrop : (l ++ [0]).drop (l.takeWhile isFlag).length = l.dropWhile isFlag ++ [0] := by
      rw [List.drop_append_of_le_length (List.takeWhile_prefix isFlag).length_le, drop_length_takeWhile]
    rw [if_neg hnil, if_neg hnil, Res.ok_bind, hdrop]
    simp only [specFrom]
    generalize l.dropWhile isFlag = l
    rw [skipWidth, skipFormatNumber_eq, Res.ok_bind, List.drop_append_of_le_length (numberLen_le l)]
    generalize l.drop (numberLen l) = w
    rw [skipPrecision_eq, Res.ok_bind, List.drop_append_of_le_length (precisionLen_le w)]
    generalize w.drop (precisionLen w) = p
    rw [parseLengthModifiers_eq, Res.ok_bind, List.drop_append_of_le_length (modifierOf_le t p)]

/-! ## Conversions -/

inductive ArgType where
  | num (k : Kind)
  | str
  deriving DecidableEq, Repr

def Arg.type : Arg t → ArgType
  | .num k _ => .num k
  | .str _ => .str

def argType (flags : Flags) (c : UInt8) : Option ArgType :=
  if c = 0x73 then some .str
  else if c = 0x6F ∨ c = 0x78 ∨ c = 0x75 ∨ c = 0x64 ∨ c = 0x69 then some (.num flags.kind)
  else if c = 0x63 then some (.num .int)
  else none

def textOf (c : UInt8) : Arg t → List UInt8
  | .str s => s.bytes
  | .num _ v => if c = 0x6F ∨ c = 0x78 ∨ c = 0x75 then numberText (baseFor c) v.toNat else signedText v.toInt

def Fits (c : UInt8) : Arg t → Prop
  | .str _ => True
  | .num _ v => c = 0x6F → v.toNat < 2 ^ 60

theorem Target.bits_le (t : Target) (k : Kind) : t.bits k ≤ 64 := by
  have := t.long_eq
  cases k <;> simp only [Target.bits] <;> omega

theorem toNat_lt_word (v : BitVec (t.bits k)) : v.toNat < 2 ^ 64 :=
  Nat.lt_of_lt_of_le v.isLt (Nat.pow_le_pow_right (by decide) (t.bits_le k))

theorem value_lt_of_fits {v : BitVec (t.bits k)} (h : Fits c (.num k v)) : v.toNat < baseFor c ^ 20 := by
  have hv := toNat_lt_word v
  unfold baseFor
  split
  · next hc => exact h hc
  · split <;> omega

theorem natAbs_toInt_lt (v : BitVec (t.bits k)) : v.toInt.natAbs < 10 ^ 20 := by
  have hv := toNat_lt_word v
  have hbits : 2 ^ t.bits k ≤ 2 ^ 64 := Nat.pow_le_pow_right (by decide) (t.bits_le k)
  have hlt := v.isLt
  rw [BitVec.toInt_eq_toNat_cond]
  split <;> omega

theorem baseFor_gt (c : UInt8) : 1 < baseFor c := by
  unfold baseFor
  split
  · decide
  · split <;> decide

theorem vaNum_cons (k : Kind) (v : BitVec (t.bits k)) (args : List (Arg t)) :
    vaNum k (.num k v :: args) = .ok (v, args) := by
  simp [vaNum]

theorem vaNum_eq_panic {args : List (Arg t)} (h : ∀ v rest, args ≠ .num k v :: rest) : vaNum k args = panic := by
  match args with
  | [] => rfl
  | .str _ :: _ => rfl
  | .num k' v :: rest =>
    have hne : k' ≠ k := by
      rintro rfl
      exact h v rest rfl
    simp [vaNum, hne]

section Convert

variable {available i : Nat} {buffer : List UInt8} (hlen : available < buffer.length) (hi : i < available)

include hlen hi

theorem fits_room : i + (available - i) ≤ buffer.length := by omega

variable {flags : Flags} {c : UInt8} {fmt : List UInt8} {a : Arg t} {args : List (Arg t)}

theorem convert_argument (hc : c ≠ 0x63) (htype : argType flags c = some a.type) (hfits : Fits c a) :
    convert available flags ⟨c :: fmt, a :: args, buffer, i⟩ =
      .ok (.next, ⟨fmt, args, splice buffer i ((textOf c a).take (available - i)),
        i + min (available - i) (textOf c a).length⟩) := by
  have hroom := fits_room hlen hi
  cases a with
  | str s =>
    have hs : c = 0x73 := by grind [argType, Arg.type]
    subst hs
    simp [convert, deref, vaStr, formatString, putAll_eq _ hroom, textOf]
  | num k v =>
    have hk : c ≠ 0x73 ∧ flags.kind = k ∧ ((c = 0x6F ∨ c = 0x78 ∨ c = 0x75) ∨ c = 0x64 ∨ c = 0x69) := by
      grind [argType, Arg.type]
    obtain ⟨hs, rfl, hconv⟩ := hk
    simp only [convert, deref, Res.ok_bind, if_neg hs, textOf]
    by_cases hunsigned : c = 0x6F ∨ c = 0x78 ∨ c = 0x75
    · rw [if_pos hunsigned, if_pos hunsigned, vaNum_cons, Res.ok_bind]
      simp only
      rw [formatNumberUnsigned_eq (baseFor_gt c) hroom (value_lt_of_fits hfits), putAll_eq _ hroom]
      rfl
    · rw [if_neg hunsigned, if_neg hunsigned, if_pos (hconv.resolve_left hunsigned), vaNum_cons, Res.ok_bind]
      simp only
      rw [formatNumberSigned_eq hroom (natAbs_toInt_lt v), putAll_eq _ hroom]
      rfl

theorem convert_unsupported {rest : List UInt8} (hno : ∀ c, rest.head? = some c → argType flags c = none) :
    ∃ st, convert available flags ⟨rest ++ [0], args, buffer, i⟩ = .ok (.out, st) ∧
      st.i ≤ available ∧ st.buffer.length = buffer.length := by
  have hroom := fits_room hlen hi
  obtain ⟨c, hderef, hc⟩ : ∃ c, deref (rest ++ [0]) = .ok c ∧ argType flags c = none := by
    cases rest with
    | nil => exact ⟨0, rfl, rfl⟩
    | cons c rest => exact ⟨c, rfl, hno c rfl⟩
  have hnone : c ≠ 0x73 ∧ ¬(c = 0x6F ∨ c = 0x78 ∨ c = 0x75) ∧ ¬(c = 0x64 ∨ c = 0x69) ∧ c ≠ 0x63 := by
    grind [argType]
  let text := cannotHandle ++ [c]
  refine ⟨⟨rest ++ [0], args, splice buffer i (text.take (available - i)), i + min (available - i) text.length⟩,
    ?_, ?_, ?_⟩
  · simp only [convert, hderef, Res.ok_bind, if_neg hnone.1, if_neg hnone.2.1, if_neg hnone.2.2.1,
      if_neg hnone.2.2.2, appendCannotHandleError_eq hroom, putAll_eq _ hroom]
    rfl
  · simp only
    omega
  · exact length_splice (by rw [List.length_take]; omega)

theorem convert_character {v : BitVec (t.bits .int)} :
    ∃ b, convert available flags ⟨0x63 :: fmt, .num .int v :: args, buffer, i⟩ =
        .ok (.copy, ⟨fmt, args, b, i + 1⟩) ∧ b.length = buffer.length := by
  have hroom := fits_room hlen hi
  refine ⟨splice buffer i [UInt8.ofNat v.toNat], ?_, length_splice ?_⟩
  · have hpos : available - i ≠ 0 := by omega
    obtain ⟨n, hn⟩ := Nat.exists_eq_succ_of_ne_zero hpos
    simp only [convert, deref, Res.ok_bind]
    rw [if_neg (by decide), if_neg (by decide), if_neg (by decide), if_pos trivial, vaNum_cons, Res.ok_bind]
    simp only
    rw [formatCharacter, putAll_eq _ hroom, hn]
    simp
  · simp only [List.length_singleton]
    omega

omit hlen hi in
theorem convert_mismatch {ty : ArgType} (htype : argType flags c = some ty)
    (hargs : ∀ a rest, args = a :: rest → a.type ≠ ty) :
    convert available flags ⟨c :: fmt, args, buffer, i⟩ = panic := by
  have hnum : ∀ k, ty = .num k → vaNum k args = panic := by
    rintro k rfl
    exact vaNum_eq_panic fun v rest h => hargs _ rest h rfl
  simp only [convert, deref, Res.ok_bind]
  by_cases hs : c = 0x73
  · have hty : ty = .str := by grind [argType]
    have hstr : vaStr args = panic := by
      match args with
      | [] => rfl
      | .num _ _ :: _ => rfl
      | .str s :: rest => exact absurd hty.symm (hargs _ rest rfl)
    rw [if_pos hs, hstr]
    rfl
  · by_cases hc : c = 0x63
    · have hty : ty = .num .int := by grind [argType]
      subst hc
      rw [if_neg hs, if_neg (by decide), if_neg (by decide), if_pos rfl, hnum _ hty]
      rfl
    · have hty : ty = .num flags.kind := by grind [argType]
      have hconv : (c = 0x6F ∨ c = 0x78 ∨ c = 0x75) ∨ c = 0x64 ∨ c = 0x69 := by grind [argType]
      rw [if_neg hs, hnum _ hty]
      by_cases hunsigned : c = 0x6F ∨ c = 0x78 ∨ c = 0x75
      · rw [if_pos hunsigned]
        rfl
      · rw [if_neg hunsigned, if_pos (hconv.resolve_left hunsigned)]
        rfl

omit hlen in
theorem convert_overflow (htype : argType flags c = some a.type) (hfits : ¬Fits c a) :
    convert available flags ⟨c :: fmt, a :: args, buffer, i⟩ = panic := by
  cases a with
  | str s => exact absurd trivial hfits
  | num k v =>
    obtain ⟨rfl, hge⟩ : c = 0x6F ∧ 2 ^ 60 ≤ v.toNat := by
      simpa [Fits] using hfits
    obtain rfl : flags.kind = k := by grind [argType, Arg.type]
    simp only [convert, deref, Res.ok_bind]
    rw [if_neg (by decide), if_pos (.inl trivial), vaNum_cons, Res.ok_bind]
    simp only
    rw [formatNumberUnsigned_overflow (baseFor_gt _) (by omega) (Nat.le_trans (by decide) hge)]
    rfl

end Convert

/-! ## Turns of the loop -/

def goOn (available fuel : Nat) : After × PrintState t → Result (PrintState t)
  | (.next, st) => printfLoop available fuel st
  | (.copy, st) => do
    let st ← copySymbol st
    printfLoop available fuel st
  | (.out, st) => .ok st

section Turn

variable {available i : Nat} {buffer : List UInt8} {args : List (Arg t)} {fmt : List UInt8}

variable {c : UInt8}

theorem printfLoop_done (fuel : Nat) (h : c = 0 ∨ available ≤ i) :
    printfLoop available (fuel + 1) ⟨c :: fmt, args, buffer, i⟩ = .ok ⟨c :: fmt, args, buffer, i⟩ := by
  rw [printfLoop, deref, Res.ok_bind, if_neg]
  · rfl
  · rintro ⟨hc, hi⟩
    rcases h with h | h
    · exact hc h
    · exact absurd hi (Nat.not_lt.2 h)

theorem printfLoop_turn (fuel : Nat) (hc : c ≠ 0) (hi : i < available) :
    printfLoop available (fuel + 1) ⟨c :: fmt, args, buffer, i⟩ =
      handlePercent available ⟨c :: fmt, args, buffer, i⟩ >>= goOn available fuel := by
  rw [printfLoop, deref, Res.ok_bind, if_pos ⟨hc, hi⟩]
  congr 1
  funext p
  obtain ⟨after, st⟩ := p
  cases after <;> rfl

theorem copySymbol_eq (h : i < buffer.length) :
    copySymbol ⟨c :: fmt, args, buffer, i⟩ = .ok ⟨fmt, args, splice buffer i [c], i + 1⟩ := by
  rw [copySymbol, deref, Res.ok_bind]
  simp only
  rw [storeByte_eq c h]
  rfl

variable (hlen : available < buffer.length) (hi : i < available)

include hlen hi

theorem printfLoop_symbol (fuel : Nat) (hc : c ≠ 0) (hpercent : c ≠ 0x25) :
    printfLoop available (fuel + 1) ⟨c :: fmt, args, buffer, i⟩ =
      printfLoop available fuel ⟨fmt, args, splice buffer i [c], i + 1⟩ := by
  have hhandle : handlePercent available ⟨c :: fmt, args, buffer, i⟩ = .ok (.copy, ⟨c :: fmt, args, buffer, i⟩) := by
    rw [handlePercent, deref, Res.ok_bind, if_neg hpercent]
    rfl
  rw [printfLoop_turn fuel hc hi, hhandle, Res.ok_bind, goOn, copySymbol_eq (by omega), Res.ok_bind]

theorem printfLoop_percent (fuel : Nat) : printfLoop available (fuel + 1) ⟨0x25 :: 0x25 :: fmt, args, buffer, i⟩ =
      printfLoop available fuel ⟨fmt, args, splice buffer i [0x25], i + 1⟩ := by
  have hhandle : handlePercent available ⟨0x25 :: 0x25 :: fmt, args, buffer, i⟩ =
      .ok (.copy, ⟨0x25 :: fmt, args, buffer, i⟩) := rfl
  rw [printfLoop_turn fuel (by decide) hi, hhandle, Res.ok_bind, goOn, copySymbol_eq (by omega), Res.ok_bind]

omit hlen in
theorem printfLoop_conversion (fuel : Nat) {l : List UInt8} (hnul : (0 : UInt8) ∉ l) (hne : l.head? ≠ some 0x25) :
    printfLoop available (fuel + 1) ⟨0x25 :: l ++ [0], args, buffer, i⟩ = (match specOf t l with
        | none => panic
        | some sp => convert available sp.flags ⟨sp.rest ++ [0], args, buffer, i⟩) >>= goOn available fuel := by
  have hhandle : handlePercent available ⟨0x25 :: l ++ [0], args, buffer, i⟩ =
      conversion available ⟨l ++ [0], args, buffer, i⟩ := by
    cases l with
    | nil => rfl
    | cons c l =>
      have hc : c ≠ 0x25 := fun h => hne (by rw [h, List.head?_cons])
      simp [handlePercent, deref, hc]
  rw [← conversion_eq hnul, List.cons_append, printfLoop_turn fuel (by decide) hi, ← List.cons_append, hhandle]

end Turn

/-! ## Formats that are safe -/

/-- `SafeFormat room fmt args`: with `room` bytes free in front of the place of the NUL, the rest `fmt` of a format
string is printed without undefined behaviour. Once the room is used up nothing more of the format is read. The symbol
behind `%c` is copied unseen: there has to be one, and room for it. -/
inductive SafeFormat : Nat → List UInt8 → List (Arg t) → Prop
  | nil {room args} : SafeFormat room [] args
  | full {fmt args} : SafeFormat 0 fmt args
  | symbol {room c fmt args} (hc : c ≠ 0x25) (hfmt : SafeFormat room fmt args) : SafeFormat (room + 1) (c :: fmt) args
  | percent {room fmt args} (hfmt : SafeFormat room fmt args) : SafeFormat (room + 1) (0x25 :: 0x25 :: fmt) args
  | argument {room l sp c fmt a args} (hspec : specOf t l = some sp) (hrest : sp.rest = c :: fmt) (hc : c ≠ 0x63)
      (htype : argType sp.flags c = some a.type) (hfits : Fits c a)
      (hfmt : SafeFormat (room + 1 - (textOf c a).length) fmt args) : SafeFormat (room + 1) (0x25 :: l) (a :: args)
  | character {room l sp d fmt v args} (hspec : specOf t l = some sp) (hrest : sp.rest = 0x63 :: d :: fmt)
      (hfmt : SafeFormat room fmt args) : SafeFormat (room + 2) (0x25 :: l) (.num .int v :: args)
  | unsupported {room l sp args} (hne : l.head? ≠ some 0x25) (hspec : specOf t l = some sp)
      (hno : ∀ c, sp.rest.head? = some c → argType sp.flags c = none) : SafeFormat (room + 1) (0x25 :: l) args

theorem head_ne_percent (hspec : specOf t l = some sp) (hrest : sp.rest = c :: fmt) {ty : ArgType}
    (htype : argType sp.flags c = some ty) : l.head? ≠ some 0x25 := by
  intro hhead
  obtain ⟨tail, rfl⟩ := List.head?_eq_some_iff.1 hhead
  have hspec' : specOf t (0x25 :: tail) = some (specFrom t (0x25 :: tail)) := rfl
  obtain rfl : specFrom t (0x25 :: tail) = sp := Option.some.inj (hspec'.symm.trans hspec)
  have hc : c = 0x25 := (List.cons.inj hrest).1.symm
  rw [hc] at htype
  cases htype

/-- A conversion takes at least its own symbol from the format. -/
theorem rest_shorter (hspec : specOf t l = some sp) (hrest : sp.rest = c :: fmt) (hnul : (0 : UInt8) ∉ l) :
    fmt.length < l.length ∧ (0 : UInt8) ∉ fmt := by
  have hsuffix := rest_suffix hspec
  rw [hrest] at hsuffix
  have hshort := hsuffix.length_le
  rw [List.length_cons] at hshort
  exact ⟨hshort, fun hmem => hnul (hsuffix.mem (List.mem_cons_of_mem c hmem))⟩

section Steps

variable {available i : Nat} {buffer : List UInt8} (hlen : available < buffer.length) (hi : i < available)

variable {l fmt : List UInt8} {sp : Spec} {c d : UInt8} {args : List (Arg t)} (hnul : (0 : UInt8) ∉ l)
  (hspec : specOf t l = some sp)

include hlen hi hnul hspec

theorem printfLoop_argument (fuel : Nat) (hrest : sp.rest = c :: fmt) {a : Arg t} (hc : c ≠ 0x63)
    (htype : argType sp.flags c = some a.type) (hfits : Fits c a) :
    printfLoop available (fuel + 1) ⟨0x25 :: l ++ [0], a :: args, buffer, i⟩ =
      printfLoop available fuel ⟨fmt ++ [0], args, splice buffer i ((textOf c a).take (available - i)),
        i + min (available - i) (textOf c a).length⟩ := by
  rw [printfLoop_conversion hi fuel hnul (head_ne_percent hspec hrest htype), hspec]
  simp only
  rw [hrest, List.cons_append, convert_argument hlen hi hc htype hfits, Res.ok_bind, goOn]

/-- `%c` prints its argument and copies the symbol `d` behind it, the NUL too. -/
theorem printfLoop_character {rest : List UInt8} (hrest : sp.rest = 0x63 :: rest) (htail : rest ++ [0] = d :: fmt)
    {v : BitVec (t.bits .int)} :
    ∃ b, b.length = buffer.length ∧ ∀ fuel,
      printfLoop available (fuel + 1) ⟨0x25 :: l ++ [0], .num .int v :: args, buffer, i⟩ =
        printfLoop available fuel ⟨fmt, args, b, i + 2⟩ := by
  obtain ⟨b, hconvert, hb⟩ : ∃ b, convert available sp.flags ⟨0x63 :: (d :: fmt), .num .int v :: args, buffer, i⟩ =
      .ok (.copy, ⟨d :: fmt, args, b, i + 1⟩) ∧ b.length = buffer.length :=
    convert_character hlen hi
  refine ⟨splice b (i + 1) [d], ?_, fun fuel => ?_⟩
  · rw [length_splice (by simp only [List.length_singleton]; omega), hb]
  · rw [printfLoop_conversion hi fuel hnul (head_ne_percent hspec hrest rfl), hspec]
    simp only
    rw [hrest, List.cons_append, htail, hconvert, Res.ok_bind, goOn, copySymbol_eq (by omega), Res.ok_bind]

end Steps

theorem exists_fuel {n fuel : Nat} (h : n < fuel) : ∃ k, fuel = k + 1 :=
  Nat.exists_eq_succ_of_ne_zero (Nat.ne_of_gt (Nat.zero_lt_of_lt h))

theorem printfLoop_safe {args : List (Arg t)} (h : SafeFormat room fmt args) (hnul : (0 : UInt8) ∉ fmt)
    {fuel : Nat} (hlen : available < buffer.length) (hi : i + room = available) (hfuel : fmt.length < fuel) :
    ∃ st, printfLoop available fuel ⟨fmt ++ [0], args, buffer, i⟩ = .ok st ∧ st.i ≤ available ∧
      st.buffer.length = buffer.length := by
  induction h generalizing i fuel buffer with
  | nil =>
    obtain ⟨fuel, rfl⟩ := exists_fuel hfuel
    exact ⟨_, printfLoop_done fuel (.inl rfl), Nat.le.intro hi, rfl⟩
  | @full fmt args =>
    obtain ⟨fuel, rfl⟩ := exists_fuel hfuel
    obtain ⟨c, tail, htail⟩ : ∃ c tail, fmt ++ [0] = c :: tail := List.exists_cons_of_ne_nil (by simp)
    rw [htail]
    exact ⟨_, printfLoop_done fuel (.inr (Nat.le_of_eq hi.symm)), Nat.le_of_eq hi, rfl⟩
  | @symbol room c fmt args hc hfmt ih =>
    obtain ⟨fuel, rfl⟩ := exists_fuel hfuel
    have hc0 : c ≠ 0 := fun h => hnul (h ▸ List.mem_cons_self)
    have hb : (splice buffer i [c]).length = buffer.length :=
      length_splice (by simp only [List.length_singleton]; omega)
    rw [List.cons_append, printfLoop_symbol hlen (by omega) fuel hc0 hc, ← hb]
    exact ih (fun hmem => hnul (List.mem_cons_of_mem c hmem)) (by omega) (by omega) (Nat.lt_of_succ_lt_succ hfuel)
  | @percent room fmt args hfmt ih =>
    obtain ⟨fuel, rfl⟩ := exists_fuel hfuel
    have hb : (splice buffer i [0x25]).length = buffer.length :=
      length_splice (by simp only [List.length_singleton]; omega)
    simp only [List.length_cons] at hfuel
    rw [List.cons_append, List.cons_append, printfLoop_percent hlen (by omega) fuel, ← hb]
    exact ih (fun hmem => hnul (List.mem_cons_of_mem _ (List.mem_cons_of_mem _ hmem))) (by omega) (by omega) (by omega)
  | @argument room l sp c fmt a args hspec hrest hc htype hfits hfmt ih =>
    obtain ⟨fuel, rfl⟩ := exists_fuel hfuel
    have hnul' : (0 : UInt8) ∉ l := fun hmem => hnul (List.mem_cons_of_mem _ hmem)
    obtain ⟨hshort, hnul''⟩ := rest_shorter hspec hrest hnul'
    rw [List.length_cons] at hfuel
    have hb : (splice buffer i ((textOf c a).take (available - i))).length = buffer.length :=
      length_splice (by rw [List.length_take]; omega)
    rw [printfLoop_argument hlen (by omega) hnul' hspec fuel hrest hc htype hfits, ← hb]
    exact ih hnul'' (by omega) (by omega) (by omega)
  | @character room l sp d fmt v args hspec hrest hfmt ih =>
    obtain ⟨fuel, rfl⟩ := exists_fuel hfuel
    have hnul' : (0 : UInt8) ∉ l := fun hmem => hnul (List.mem_cons_of_mem _ hmem)
    obtain ⟨hshort, hnul''⟩ := rest_shorter hspec hrest hnul'
    simp only [List.length_cons] at hfuel hshort
    obtain ⟨b, hb, hturn⟩ := printfLoop_character (i := i) hlen (by omega) hnul' hspec hrest
      List.cons_append (v := v)
    rw [hturn, ← hb]
    exact ih (fun hmem => hnul'' (List.mem_cons_of_mem d hmem)) (by omega) (by omega) (by omega)
  | @unsupported room l sp args hne hspec hno =>
    obtain ⟨fuel, rfl⟩ := exists_fuel hfuel
    have hnul' : (0 : UInt8) ∉ l := fun hmem => hnul (List.mem_cons_of_mem _ hmem)
    obtain ⟨st, hconvert, hst⟩ : ∃ st, convert available sp.flags ⟨sp.rest ++ [0], args, buffer, i⟩ =
        .ok (.out, st) ∧ st.i ≤ available ∧ st.buffer.length = buffer.length :=
      convert_unsupported hlen (by omega) hno
    rw [printfLoop_conversion (by omega) fuel hnul' hne, hspec]
    simp only
    rw [hconvert, Res.ok_bind, goOn]
    exact ⟨st, rfl, hst⟩

/-! ## Formats that are not -/

def Finishes (available : Nat) (st : PrintState t) : Prop :=
  ∃ fuel st' out, printfLoop available fuel st = .ok st' ∧ storeByte st'.buffer st'.i 0 = .ok out

theorem Finishes.of_turn {st st' : PrintState t} (h : Finishes available st)
    (hturn : ∀ fuel, printfLoop available (fuel + 1) st = printfLoop available fuel st') :
    Finishes available st' := by
  obtain ⟨fuel, last, out, hloop, hstore⟩ := h
  cases fuel with
  | zero => cases hloop
  | succ fuel => exact ⟨fuel, last, out, hturn fuel ▸ hloop, hstore⟩

theorem not_finishes_of_panic {st : PrintState t} (h : ∀ fuel, printfLoop available (fuel + 1) st = panic) :
    ¬Finishes available st := by
  rintro ⟨fuel, last, out, hloop, -⟩
  cases fuel with
  | zero => cases hloop
  | succ fuel =>
    rw [h fuel] at hloop
    cases hloop

theorem not_finishes_nil {args : List (Arg t)} : ¬Finishes available ⟨[], args, buffer, i⟩ :=
  not_finishes_of_panic fun _ => rfl

theorem not_finishes_outside {args : List (Arg t)} (hi : available ≤ i) (hlen : buffer.length ≤ i) :
    ¬Finishes available ⟨fmt, args, buffer, i⟩ := by
  cases fmt with
  | nil => exact not_finishes_nil
  | cons c fmt =>
    rintro ⟨fuel, last, out, hloop, hstore⟩
    cases fuel with
    | zero => cases hloop
    | succ fuel =>
      rw [printfLoop_done fuel (.inr hi)] at hloop
      cases hloop
      rw [storeByte, if_neg (Nat.not_lt.2 hlen)] at hstore
      cases hstore

section Finishes

variable {available i room : Nat} {buffer : List UInt8} (hlen : buffer.length = available + 1)
  (hi : i + (room + 1) = available)

variable {l fmt : List UInt8} {args : List (Arg t)} {c : UInt8} {sp : Spec} (hnul : (0 : UInt8) ∉ l)
  (hne : l.head? ≠ some 0x25) (h : Finishes available ⟨0x25 :: l ++ [0], args, buffer, i⟩)

include hi hnul hne h

theorem Finishes.exists_spec : ∃ sp, specOf t l = some sp := by
  by_contra hno
  have hspec : specOf t l = none := Option.eq_none_iff_forall_ne_some.2 fun sp hsp => hno ⟨sp, hsp⟩
  refine not_finishes_of_panic (fun fuel => ?_) h
  rw [printfLoop_conversion (by omega) fuel hnul hne, hspec]
  rfl

theorem Finishes.exists_argument (hspec : specOf t l = some sp) (hrest : sp.rest = c :: fmt) {ty : ArgType}
    (htype : argType sp.flags c = some ty) : ∃ a rest, args = a :: rest ∧ a.type = ty ∧ Fits c a := by
  have hturn : ∀ fuel, printfLoop available (fuel + 1) ⟨0x25 :: l ++ [0], args, buffer, i⟩ =
      convert available sp.flags ⟨c :: (fmt ++ [0]), args, buffer, i⟩ >>= goOn available fuel := by
    intro fuel
    rw [printfLoop_conversion (by omega) fuel hnul hne, hspec]
    simp only
    rw [hrest, List.cons_append]
  have hargs : ¬∀ a rest, args = a :: rest → a.type ≠ ty := by
    intro hargs
    refine not_finishes_of_panic (fun fuel => ?_) h
    rw [hturn, convert_mismatch htype hargs]
    rfl
  push Not at hargs
  obtain ⟨a, rest, rfl, rfl⟩ := hargs
  refine ⟨a, rest, rfl, rfl, ?_⟩
  by_contra hfits
  refine not_finishes_of_panic (fun fuel => ?_) h
  rw [hturn, convert_overflow (by omega) htype hfits]
  rfl

end Finishes

/-- A run that ends with its NUL inside of the buffer has a symbol behind `%c`, and room for it. -/
theorem Finishes.of_character (hlen : buffer.length = available + 1) (hi : i + (room + 1) = available)
    (hnul : (0 : UInt8) ∉ l) (hspec : specOf t l = some sp) (hrest : sp.rest = 0x63 :: fmt)
    {v : BitVec (t.bits .int)} {args : List (Arg t)}
    (h : Finishes available ⟨0x25 :: l ++ [0], .num .int v :: args, buffer, i⟩) :
    ∃ d tail b, fmt = d :: tail ∧ room ≠ 0 ∧ b.length = buffer.length ∧
      Finishes available ⟨tail ++ [0], args, b, i + 2⟩ := by
  cases fmt with
  | nil =>
    obtain ⟨b, -, hturn⟩ := printfLoop_character (v := v) (by omega : available < buffer.length)
      (by omega : i < available) hnul hspec hrest (List.nil_append [0])
    exact absurd (h.of_turn hturn) not_finishes_nil
  | cons d tail =>
    obtain ⟨b, hb, hturn⟩ := printfLoop_character (v := v) (by omega : available < buffer.length)
      (by omega : i < available) hnul hspec hrest List.cons_append
    refine ⟨d, tail, b, rfl, ?_, hb, h.of_turn hturn⟩
    rintro rfl
    exact not_finishes_outside (by omega) (by omega) (h.of_turn hturn)

theorem safeFormat_of_finishes {args : List (Arg t)} (hnul : (0 : UInt8) ∉ fmt) (hlen : buffer.length = available + 1)
    (hi : i + room = available) (h : Finishes available ⟨fmt ++ [0], args, buffer, i⟩) :
    SafeFormat room fmt args := by
  induction hn : fmt.length using Nat.strongRecOn generalizing i room buffer fmt args with
  | _ n ih =>
    cases room with
    | zero => exact .full
    | succ room =>
      cases fmt with
      | nil => exact .nil
      | cons c fmt =>
        have hnul' : (0 : UInt8) ∉ fmt := fun hmem => hnul (List.mem_cons_of_mem c hmem)
        have hone : ∀ d : UInt8, (splice buffer i [d]).length = available + 1 := fun d => by
          rw [length_splice (by simp only [List.length_singleton]; omega), hlen]
        rw [List.length_cons] at hn
        by_cases hc : c = 0x25
        · subst hc
          by_cases hpercent : fmt.head? = some 0x25
          · obtain ⟨tail, rfl⟩ := List.head?_eq_some_iff.1 hpercent
            rw [List.length_cons] at hn
            exact .percent (ih tail.length (by omega) (fun hmem => hnul' (List.mem_cons_of_mem _ hmem)) (hone _)
              (by omega) (h.of_turn fun fuel => printfLoop_percent (by omega) (by omega) fuel) rfl)
          · obtain ⟨sp, hspec⟩ := h.exists_spec hi hnul' hpercent
            cases hrest : sp.rest with
            | nil => exact .unsupported hpercent hspec (by simp [hrest])
            | cons k tail =>
              cases htype : argType sp.flags k with
              | none => exact .unsupported hpercent hspec (by simp [hrest, htype])
              | some ty =>
                obtain ⟨a, rest, rfl, rfl, hfits⟩ := h.exists_argument hi hnul' hpercent hspec hrest htype
                obtain ⟨hshort, hnul''⟩ := rest_shorter hspec hrest hnul'
                by_cases hk : k = 0x63
                · subst hk
                  match a, htype with
                  | .num .int v, _ =>
                    obtain ⟨d, tail, b, rfl, hroom, hb, hnext⟩ := h.of_character hlen hi hnul' hspec hrest
                    obtain ⟨room, rfl⟩ := Nat.exists_eq_succ_of_ne_zero hroom
                    rw [List.length_cons] at hshort
                    exact .character hspec hrest (ih tail.length (by omega)
                      (fun hmem => hnul'' (List.mem_cons_of_mem d hmem)) (hb.trans hlen) (by omega) hnext rfl)
                · refine .argument hspec hrest hk htype hfits (ih tail.length (by omega) hnul'' ?_ ?_
                    (h.of_turn fun fuel => printfLoop_argument (by omega) (by omega) hnul' hspec fuel hrest hk htype
                      hfits) rfl)
                  · rw [length_splice (by rw [List.length_take]; omega), hlen]
                  · omega
        · have hc0 : c ≠ 0 := fun h => hnul (h ▸ List.mem_cons_self)
          exact .symbol hc (ih fmt.length (by omega) hnul' (hone c) (by omega)
            (h.of_turn fun fuel => printfLoop_symbol (by omega) (by omega) fuel hc0 hc) rfl)

/-! ## Memory safety -/

def PrintsSafely (fmt : CStr) (args : List (Arg t)) (buffer : List UInt8) : Prop :=
  ∃ out, gblPrintfBuffer fmt args buffer = .ok out ∧ out.length = buffer.length ∧ (0 : UInt8) ∈ out

/-- The formatter is memory safe on exactly the formats and arguments that are safe for the length of the buffer. -/
theorem printf_safe_iff (fmt : CStr) (args : List (Arg t)) (buffer : List UInt8) :
    PrintsSafely fmt args buffer ↔ buffer ≠ [] ∧ SafeFormat (buffer.length - 1) fmt.bytes args := by
  constructor
  · rintro ⟨out, hout, hlen, hmem⟩
    have hpos : 0 < buffer.length := hlen ▸ List.length_pos_of_mem hmem
    rw [gblPrintfBuffer, if_neg (Nat.ne_of_gt hpos)] at hout
    obtain ⟨st, hloop, hstore⟩ := Res.bind_eq_ok.1 hout
    exact ⟨List.length_pos_iff.1 hpos, safeFormat_of_finishes fmt.noNul (Nat.sub_add_cancel hpos).symm
      (Nat.zero_add _) ⟨_, st, out, hloop, hstore⟩⟩
  · rintro ⟨hne, h⟩
    have hpos : 0 < buffer.length := List.length_pos_iff.2 hne
    have hfuel : fmt.bytes.length < fmt.withNul.length + 1 := by
      rw [CStr.withNul, List.length_append]
      omega
    obtain ⟨st, hloop, hi, hb⟩ := printfLoop_safe h fmt.noNul (Nat.sub_lt hpos Nat.one_pos) (Nat.zero_add _) hfuel
    refine ⟨st.buffer.set st.i 0, ?_, by rw [List.length_set, hb], List.mem_set (by omega) 0⟩
    have hloop' : printfLoop (buffer.length - 1) (fmt.withNul.length + 1) ⟨fmt.withNul, args, buffer, 0⟩ = .ok st :=
      hloop
    rw [gblPrintfBuffer, if_neg (Nat.ne_of_gt hpos), hloop', Res.ok_bind, storeByte, if_pos (by omega)]

/-! ### Arguments that match a format string -/

inductive FormatMatches : List UInt8 → List (Arg t) → Prop
  | nil : FormatMatches [] []
  | symbol {c fmt args} (hc : c ≠ 0x25) (hfmt : FormatMatches fmt args) : FormatMatches (c :: fmt) args
  | percent {fmt args} (hfmt : FormatMatches fmt args) : FormatMatches (0x25 :: 0x25 :: fmt) args
  | argument {l sp c fmt stars a args} (hspec : specOf t l = some sp) (hrest : sp.rest = c :: fmt)
      (hstars : stars.length = sp.stars) (hint : ∀ w ∈ stars, w.type = .num .int)
      (htype : argType sp.flags c = some a.type) (hfmt : FormatMatches fmt args) :
      FormatMatches (0x25 :: l) (stars ++ a :: args)
  | other {l args} (hne : l.head? ≠ some 0x25)
      (hno : ∀ sp, specOf t l = some sp → ∀ c, sp.rest.head? = some c → argType sp.flags c = none) :
      FormatMatches (0x25 :: l) args

def lp64 : Target := ⟨8, 8, 8, 8, .inr rfl⟩

/-- The format string `%` is read behind its NUL; so is `%c`. The number in `%llo` takes 21 digits. The width in
`%*s` is taken for the address of a string. -/
theorem printf_unsafe :
    (FormatMatches [0x25] ([] : List (Arg lp64)) ∧
      gblPrintfBuffer (t := lp64) ⟨[0x25], by decide⟩ [] [1, 1, 1] = panic) ∧
    (FormatMatches [0x25, 0x63] [(.num .int 0x41 : Arg lp64)] ∧
      gblPrintfBuffer (t := lp64) ⟨[0x25, 0x63], by decide⟩ [.num .int 0x41] [1, 1, 1] = panic) ∧
    (FormatMatches [0x25, 0x6C, 0x6C, 0x6F] [(.num .longLong (BitVec.ofNat 64 (2 ^ 60)) : Arg lp64)] ∧
      gblPrintfBuffer (t := lp64) ⟨[0x25, 0x6C, 0x6C, 0x6F], by decide⟩
        [.num .longLong (BitVec.ofNat 64 (2 ^ 60))] [1, 1, 1] = panic) ∧
    (FormatMatches [0x25, 0x2A, 0x73] [(.num .int 5 : Arg lp64), .str ⟨[0x41], by decide⟩] ∧
      gblPrintfBuffer (t := lp64) ⟨[0x25, 0x2A, 0x73], by decide⟩ [.num .int 5, .str ⟨[0x41], by decide⟩]
        [1, 1, 1] = panic) := by
  have hnone : ∀ w ∈ ([] : List (Arg lp64)), w.type = .num .int := by simp
  have hwidth : ∀ w ∈ [(.num .int 5 : Arg lp64)], w.type = .num .int := by simp [Arg.type]
  refine ⟨⟨.other (by decide) nofun, ?_⟩, ⟨.argument rfl rfl (List.length_nil (α := Arg lp64)) hnone rfl .nil, ?_⟩,
    ⟨.argument rfl rfl (List.length_nil (α := Arg lp64)) hnone rfl .nil, ?_⟩,
    ⟨.argument rfl rfl (List.length_singleton (a := (.num .int 5 : Arg lp64))) hwidth rfl .nil, ?_⟩⟩ <;>
    decide +kernel

end Gbl.Libc
