import Gbl.SafeMath
import Gbl.Lib.Bytes

/-!
# `strtoul` (`libc`, `strtoul.rs`)

C code parses numbers with a `strtoul` written in Rust.
-/

namespace Gbl.Libc

open Lib

/-! ## The code -/

def isAsciiWhitespace (c : UInt8) : Bool := c == 0x20 || c == 0x09 || c == 0x0A || c == 0x0C || c == 0x0D

def skipWhitespace : List UInt8 → Nat → Nat
  | [], pos => pos
  | c :: rest, pos => if isAsciiWhitespace c then skipWhitespace rest (pos + 1) else pos

def handleSign (bytes : List UInt8) (pos : Nat) : Nat × Bool :=
  match bytes[pos]? with
  | some 0x2B => (pos + 1, false)
  | some 0x2D => (pos + 1, true)
  | _ => (pos, false)

def handleHexPrefix (bytes : List UInt8) (pos base : Nat) : Result (Nat × Nat) :=
  if base = 16 ∨ base = 0 then do
    let last ← subU64 bytes.length 1
    if pos < last ∧ bytes[pos]? = some 0x30 ∧ (bytes[pos + 1]? = some 0x78 ∨ bytes[pos + 1]? = some 0x58) then
      pure (pos + 2, 16)
    else pure (pos, base)
  else pure (pos, base)

def handleOctalPrefix (bytes : List UInt8) (pos base : Nat) : Nat × Nat :=
  if (base = 8 ∨ base = 0) ∧ bytes[pos]? = some 0x30 then (pos + 1, 8)
  else (pos, if base = 0 then 10 else base)

def digitValue (base : Nat) (symbol : UInt8) : Option Nat :=
  if 0x30 ≤ symbol.toNat ∧ symbol.toNat ≤ 0x37 ∧ base = 8 then some (symbol.toNat - 0x30)
  else if 0x30 ≤ symbol.toNat ∧ symbol.toNat ≤ 0x39 ∧ (base = 10 ∨ base = 16) then some (symbol.toNat - 0x30)
  else if 0x61 ≤ symbol.toNat ∧ symbol.toNat ≤ 0x66 ∧ base = 16 then some (symbol.toNat - 0x61 + 10)
  else if 0x41 ≤ symbol.toNat ∧ symbol.toNat ≤ 0x46 ∧ base = 16 then some (symbol.toNat - 0x41 + 10)
  else none

def scanDigits (base : Nat) : List UInt8 → SafeNum → Nat → SafeNum × Nat
  | [], result, pos => (result, pos)
  | symbol :: rest, result, pos =>
    match digitValue base symbol with
    | some value => scanDigits base rest (result * base + value) (pos + 1)
    | none => (result, pos)

def toUlong (negative : Bool) (result : SafeNum) : Nat :=
  match result.toU64 with
  | .ok n => if negative then (2 ^ 64 - n) % 2 ^ 64 else n
  | .error _ => 2 ^ 64 - 1

def strtoul (bytes : List UInt8) (base : Int) : Result (Nat × Nat) :=
  -- `assert!`
  if base = 0 ∨ base = 8 ∨ base = 10 ∨ base = 16 then do
    let pos := skipWhitespace bytes 0
    let (pos, negative) := handleSign bytes pos
    let (pos, base) ← handleHexPrefix bytes pos base.toNat
    let (pos, base) := handleOctalPrefix bytes pos base
    let (result, pos) := scanDigits base (bytes.drop pos) (0 : SafeNum) pos
    pure (toUlong negative result, pos)
  else panic

/-! ## The standard -/

def isSpace (c : UInt8) : Bool := c == 0x20 || (0x09 ≤ c.toNat && c.toNat ≤ 0x0D)

def digitOf (c : UInt8) : Nat :=
  if 0x30 ≤ c.toNat ∧ c.toNat ≤ 0x39 then c.toNat - 0x30
  else if 0x61 ≤ c.toNat ∧ c.toNat ≤ 0x7A then c.toNat - 0x61 + 10
  else if 0x41 ≤ c.toNat ∧ c.toNat ≤ 0x5A then c.toNat - 0x41 + 10
  else 36

def isDigitIn (base : Nat) (c : UInt8) : Bool := digitOf c < base

def signOf : List UInt8 → Bool × Nat
  | 0x2B :: _ => (false, 1)
  | 0x2D :: _ => (true, 1)
  | _ => (false, 0)

def startsHex : List UInt8 → Bool
  | 0x30 :: c :: _ => c == 0x78 || c == 0x58
  | _ => false

def startsHexNumber (rest : List UInt8) : Bool := startsHex rest && (rest[2]?.any (isDigitIn 16))

def baseOf (base : Nat) (rest : List UInt8) : Nat × Nat :=
  if (base = 16 ∨ base = 0) ∧ startsHexNumber rest then (16, 2)
  else if base = 0 then (if rest.head? = some 0x30 then 8 else 10, 0)
  else (base, 0)

def subjectOf (s : List UInt8) : List UInt8 :=
  (s.dropWhile isSpace).drop (signOf (s.dropWhile isSpace)).2

def digitRun (number : Nat × Nat) (rest : List UInt8) : List UInt8 :=
  (rest.drop number.2).takeWhile (isDigitIn number.1)

def digitsOf (s : List UInt8) (base : Nat) : List UInt8 := digitRun (baseOf base (subjectOf s)) (subjectOf s)

def numberOf (base : Nat) (ds : List UInt8) : Nat := ds.foldl (fun v c => v * base + digitOf c) 0

def cStrtoul (s : List UInt8) (base : Nat) : Nat × Nat :=
  if digitsOf s base = [] then (0, 0)
  else
    let space := (s.takeWhile isSpace).length
    let sign := signOf (s.dropWhile isSpace)
    let subject := baseOf base (subjectOf s)
    let n := numberOf subject.1 (digitsOf s base)
    (if 2 ^ 64 ≤ n then 2 ^ 64 - 1 else if sign.1 then (2 ^ 64 - n) % 2 ^ 64 else n,
      space + sign.2 + subject.2 + (digitsOf s base).length)

/-! ## Digits -/

variable {base : Nat} {s rest : List UInt8}

theorem digitValue_eq (hbase : base = 8 ∨ base = 10 ∨ base = 16) (c : UInt8) :
    digitValue base c = if isDigitIn base c then some (digitOf c) else none := by
  unfold digitValue isDigitIn digitOf
  rcases hbase with rfl | rfl | rfl <;> grind

theorem ofNat_step (hpos : 0 < base) (hbase : base < 2 ^ 64) {d : Nat} (hd : d < 2 ^ 64) (v : Nat) :
    SafeNum.ofNat v * (base : SafeNum) + (d : SafeNum) = SafeNum.ofNat (v * base + d) := by
  rw [SafeNum.ofNat_of_lt hbase, SafeNum.ofNat_of_lt hd]
  have hle : v ≤ v * base := Nat.le_mul_of_pos_right v hpos
  by_cases hv : v < 2 ^ 64
  · rw [SafeNum.ofNat_of_lt hv, SafeNum.valid_mul]
    by_cases hmul : v * base < 2 ^ 64
    · rw [SafeNum.ofNat_of_lt hmul, SafeNum.valid_add]
    · rw [SafeNum.ofNat_of_ge (Nat.not_lt.1 hmul), SafeNum.error_add, SafeNum.ofNat_of_ge (by omega)]
  · rw [SafeNum.ofNat_of_ge (Nat.not_lt.1 hv), SafeNum.error_mul, SafeNum.error_add, SafeNum.ofNat_of_ge (by omega)]

theorem scanDigits_eq (hbase : base = 8 ∨ base = 10 ∨ base = 16) (l : List UInt8) (v pos : Nat) :
    scanDigits base l (SafeNum.ofNat v) pos =
      (SafeNum.ofNat ((l.takeWhile (isDigitIn base)).foldl (fun v c => v * base + digitOf c) v),
        pos + (l.takeWhile (isDigitIn base)).length) := by
  induction l generalizing v pos with
  | nil => simp [scanDigits]
  | cons c l ih =>
    rw [scanDigits, digitValue_eq hbase]
    by_cases hc : isDigitIn base c = true
    · have hd : digitOf c < 2 ^ 64 := by
        have : digitOf c < base := by simpa [isDigitIn] using hc
        omega
      rw [if_pos hc, List.takeWhile_cons_of_pos hc]
      simp only [List.foldl_cons, List.length_cons]
      rw [ofNat_step (by omega) (by omega) hd, ih]
      congr 1
      omega
    · rw [if_neg hc, List.takeWhile_cons_of_neg hc]
      simp

theorem toUlong_ofNat (negative : Bool) (n : Nat) : toUlong negative (SafeNum.ofNat n) =
      if 2 ^ 64 ≤ n then 2 ^ 64 - 1 else if negative then (2 ^ 64 - n) % 2 ^ 64 else n := by
  unfold toUlong
  by_cases h : n < 2 ^ 64
  · rw [SafeNum.toU64_ofNat_of_lt h, if_neg (by omega)]
  · rw [SafeNum.ofNat_of_ge (Nat.not_lt.1 h), SafeNum.toU64_error, if_pos (Nat.not_lt.1 h)]

/-! ## White space, sign and prefix -/

theorem skipWhitespace_eq (l : List UInt8) (pos : Nat) :
    skipWhitespace l pos = pos + (l.takeWhile isAsciiWhitespace).length := by
  induction l generalizing pos with
  | nil => simp [skipWhitespace]
  | cons c l ih =>
    rw [skipWhitespace, List.takeWhile_cons]
    split
    · rw [ih, List.length_cons]
      omega
    · simp

theorem handleSign_eq (bytes : List UInt8) (pos : Nat) :
    handleSign bytes pos = (pos + (signOf (bytes.drop pos)).2, (signOf (bytes.drop pos)).1) := by
  have hget : bytes[pos]? = (bytes.drop pos).head? := by simp [List.head?_drop]
  unfold handleSign
  rw [hget]
  cases bytes.drop pos with
  | nil => rfl
  | cons c rest =>
    simp only [List.head?_cons]
    split
    · next h => cases h; rfl
    · next h => cases h; rfl
    · next h₁ h₂ =>
      unfold signOf
      split
      · next h => cases h; exact absurd rfl h₁
      · next h => cases h; exact absurd rfl h₂
      · rfl

theorem startsHex_iff (rest : List UInt8) :
    startsHex rest = true ↔ rest[0]? = some 0x30 ∧ (rest[1]? = some 0x78 ∨ rest[1]? = some 0x58) := by
  unfold startsHex
  split
  · simp
  · next h =>
    refine iff_of_false nofun ?_
    rintro ⟨h0, h1⟩
    match rest with
    | [] => simp at h0
    | [a] => simp at h1
    | a :: c :: r =>
      obtain rfl : a = 0x30 := by simpa using h0
      exact h c r rfl

theorem handleHexPrefix_eq (bytes : List UInt8) (pos base : Nat) : handleHexPrefix bytes pos base =
      if base = 16 ∨ base = 0 then
        if bytes = [] then panic else .ok (if startsHex (bytes.drop pos) then (pos + 2, 16) else (pos, base))
      else .ok (pos, base) := by
  unfold handleHexPrefix
  by_cases hbase : base = 16 ∨ base = 0
  · rw [if_pos hbase, if_pos hbase]
    by_cases hnil : bytes = []
    · subst hnil
      rfl
    · have hlen : 1 ≤ bytes.length := List.length_pos_iff.2 hnil
      rw [if_neg hnil, subU64, if_pos hlen, Res.ok_bind]
      have hiff : (pos < bytes.length - 1 ∧ bytes[pos]? = some 0x30 ∧
          (bytes[pos + 1]? = some 0x78 ∨ bytes[pos + 1]? = some 0x58)) ↔ startsHex (bytes.drop pos) = true := by
        rw [startsHex_iff, List.getElem?_drop, List.getElem?_drop, Nat.add_zero]
        refine and_iff_right_of_imp ?_
        rintro ⟨-, h1⟩
        have hlt : pos + 1 < bytes.length := by
          rcases h1 with h1 | h1
          · exact (List.getElem?_eq_some_iff.1 h1).1
          · exact (List.getElem?_eq_some_iff.1 h1).1
        omega
      by_cases hhex : startsHex (bytes.drop pos) = true
      · rw [if_pos (hiff.2 hhex), if_pos hhex]
        rfl
      · rw [if_neg fun h => hhex (hiff.1 h), if_neg hhex]
        rfl
  · rw [if_neg hbase, if_neg hbase]
    rfl

theorem handleOctalPrefix_eq (bytes : List UInt8) (pos base : Nat) : handleOctalPrefix bytes pos base =
      if (base = 8 ∨ base = 0) ∧ (bytes.drop pos).head? = some 0x30 then (pos + 1, 8)
      else (pos, if base = 0 then 10 else base) := by
  unfold handleOctalPrefix
  rw [List.head?_drop]

/-! ## What the code reads -/

def codeBase (base : Nat) (rest : List UInt8) : Nat × Nat :=
  if (base = 16 ∨ base = 0) ∧ startsHex rest then (16, 2)
  else if (base = 8 ∨ base = 0) ∧ rest.head? = some 0x30 then (8, 1)
  else (if base = 0 then 10 else base, 0)

theorem codeBase_fst (hbase : base = 0 ∨ base = 8 ∨ base = 10 ∨ base = 16) (rest : List UInt8) :
    (codeBase base rest).1 = 8 ∨ (codeBase base rest).1 = 10 ∨ (codeBase base rest).1 = 16 := by
  grind [codeBase]

theorem prefixes_eq {bytes : List UInt8} (hne : bytes ≠ [] ∨ ¬(base = 16 ∨ base = 0)) (pos : Nat) :
    (handleHexPrefix bytes pos base >>= fun p => .ok (handleOctalPrefix bytes p.1 p.2)) =
      (.ok (pos + (codeBase base (bytes.drop pos)).2, (codeBase base (bytes.drop pos)).1) : Result _) := by
  rw [handleHexPrefix_eq]
  unfold codeBase
  by_cases hbase : base = 16 ∨ base = 0
  · have hnil : bytes ≠ [] := hne.resolve_right fun h => h hbase
    rw [if_pos hbase, if_neg hnil, Res.ok_bind]
    by_cases hhex : startsHex (bytes.drop pos) = true
    · rw [if_pos hhex, if_pos ⟨hbase, hhex⟩, handleOctalPrefix_eq]
      simp
    · rw [if_neg hhex, if_neg fun h => hhex h.2, handleOctalPrefix_eq]
      split <;> rfl
  · rw [if_neg hbase, if_neg fun h => hbase h.1, Res.ok_bind, handleOctalPrefix_eq]
    split <;> rfl

theorem strtoul_eq (hbase : base = 0 ∨ base = 8 ∨ base = 10 ∨ base = 16)
    (hne : s ≠ [] ∨ ¬(base = 16 ∨ base = 0)) {r : List UInt8} (hr : s.dropWhile isAsciiWhitespace = r)
    (hrest : r.drop (signOf r).2 = rest) :
    strtoul s base =
      .ok (toUlong (signOf r).1 (SafeNum.ofNat (numberOf (codeBase base rest).1 (digitRun (codeBase base rest) rest))),
        (s.takeWhile isAsciiWhitespace).length + (signOf r).2 + (codeBase base rest).2 +
          (digitRun (codeBase base rest) rest).length) := by
  have hskip : s.drop (skipWhitespace s 0) = r := by
    rw [skipWhitespace_eq, Nat.zero_add, drop_length_takeWhile, hr]
  have hdrop : s.drop (skipWhitespace s 0 + (signOf r).2) = rest := by
    rw [← List.drop_drop, hskip, hrest]
  have hint : (base : Int) = 0 ∨ (base : Int) = 8 ∨ (base : Int) = 10 ∨ (base : Int) = 16 := by omega
  have hprefixes := prefixes_eq hne (skipWhitespace s 0 + (signOf r).2)
  rw [hdrop] at hprefixes
  obtain ⟨p, hhex, hoctal⟩ := Res.bind_eq_ok.1 hprefixes
  have hdigits : s.drop (skipWhitespace s 0 + (signOf r).2 + (codeBase base rest).2) =
      rest.drop (codeBase base rest).2 := by
    rw [← List.drop_drop, hdrop]
  have hzero : (0 : SafeNum) = SafeNum.ofNat 0 := rfl
  rw [strtoul, if_pos hint]
  simp only [handleSign_eq, hskip, Int.toNat_natCast]
  rw [hhex, Res.ok_bind, Except.ok.inj hoctal]
  simp only
  rw [hdigits, hzero, scanDigits_eq (codeBase_fst hbase rest), skipWhitespace_eq, Nat.zero_add]
  rfl

/-! ## Where the two agree -/

def BareHex (base : Nat) (rest : List UInt8) : Prop :=
  (base = 16 ∨ base = 0) ∧ startsHex rest ∧ ¬startsHexNumber rest

instance (base : Nat) (rest : List UInt8) : Decidable (BareHex base rest) :=
  inferInstanceAs (Decidable (_ ∧ _ ∧ _))

theorem eq_cons_of_startsHex (h : startsHex rest = true) :
    ∃ c tail, rest = 0x30 :: c :: tail ∧ (c = 0x78 ∨ c = 0x58) := by
  obtain ⟨h0, h1⟩ := (startsHex_iff rest).1 h
  match rest with
  | [] => simp at h0
  | [a] => simp at h1
  | a :: c :: tail =>
    obtain rfl : a = 0x30 := by simpa using h0
    exact ⟨c, tail, rfl, by simpa using h1⟩

theorem digitRun_zero (hbase : 0 < base) (rest : List UInt8) :
    digitRun (base, 0) (0x30 :: rest) = 0x30 :: rest.takeWhile (isDigitIn base) := by
  have hdigit : isDigitIn base 0x30 = true := by simpa [isDigitIn, digitOf] using hbase
  exact List.takeWhile_cons_of_pos hdigit

theorem codeBase_agrees (hbare : ¬BareHex base rest) :
    numberOf (codeBase base rest).1 (digitRun (codeBase base rest) rest) =
        numberOf (baseOf base rest).1 (digitRun (baseOf base rest) rest) ∧
      (codeBase base rest).2 + (digitRun (codeBase base rest) rest).length =
        (baseOf base rest).2 + (digitRun (baseOf base rest) rest).length := by
  by_cases hhex : (base = 16 ∨ base = 0) ∧ startsHex rest = true
  · have hnumber : startsHexNumber rest = true := by
      by_contra h
      exact hbare ⟨hhex.1, hhex.2, h⟩
    have heq : baseOf base rest = codeBase base rest := by
      rw [baseOf, codeBase, if_pos hhex, if_pos ⟨hhex.1, hnumber⟩]
    rw [heq]
    exact ⟨rfl, rfl⟩
  · have hnumber : ¬((base = 16 ∨ base = 0) ∧ startsHexNumber rest = true) := by
      intro h
      have hstarts : startsHex rest = true := by
        have := h.2
        simp only [startsHexNumber, Bool.and_eq_true] at this
        exact this.1
      exact hhex ⟨h.1, hstarts⟩
    by_cases hoctal : (base = 8 ∨ base = 0) ∧ rest.head? = some 0x30
    · -- the prefix is the first digit
      obtain ⟨tail, rfl⟩ := List.head?_eq_some_iff.1 hoctal.2
      have hcode : codeBase base (0x30 :: tail) = (8, 1) := by
        rw [codeBase, if_neg hhex, if_pos hoctal]
      have hspec : baseOf base (0x30 :: tail) = (8, 0) := by
        rw [baseOf, if_neg hnumber]
        rcases hoctal.1 with rfl | rfl
        · rfl
        · simp
      have hrun : digitRun (8, 1) (0x30 :: tail) = tail.takeWhile (isDigitIn 8) := rfl
      rw [hcode, hspec, digitRun_zero (by decide), hrun]
      refine ⟨?_, ?_⟩
      · simp [numberOf, digitOf]
      · rw [List.length_cons]
        omega
    · have heq : baseOf base rest = codeBase base rest := by
        rw [baseOf, codeBase, if_neg hhex, if_neg hnumber, if_neg hoctal]
        grind
      rw [heq]
      exact ⟨rfl, rfl⟩

theorem codeBase_of_bareHex (hbare : BareHex base rest) :
    (codeBase base rest).2 + (digitRun (codeBase base rest) rest).length ≠
        (baseOf base rest).2 + (digitRun (baseOf base rest) rest).length ∧
      digitRun (baseOf base rest) rest ≠ [] := by
  obtain ⟨hbase, hhex, hnumber⟩ := hbare
  obtain ⟨c, tail, rfl, hc⟩ := eq_cons_of_startsHex hhex
  have hcode : codeBase base (0x30 :: c :: tail) = (16, 2) := by
    rw [codeBase, if_pos ⟨hbase, hhex⟩]
  have hempty : digitRun (16, 2) (0x30 :: c :: tail) = [] := by
    cases tail with
    | nil => rfl
    | cons d tail =>
      have hd : ¬isDigitIn 16 d = true := by simpa [startsHexNumber, hhex] using hnumber
      exact List.takeWhile_cons_of_neg hd
  obtain ⟨b, hb, hspec⟩ : ∃ b, (b = 8 ∨ b = 16) ∧ baseOf base (0x30 :: c :: tail) = (b, 0) := by
    rw [baseOf, if_neg fun h => hnumber h.2]
    rcases hbase with rfl | rfl
    · exact ⟨16, .inr rfl, rfl⟩
    · exact ⟨8, .inl rfl, rfl⟩
  -- the letter is a digit in neither base
  have hletter : ¬isDigitIn b c = true := by
    rcases hb with rfl | rfl <;> rcases hc with rfl | rfl <;> decide
  rw [hcode, hspec, hempty, digitRun_zero (by omega), List.takeWhile_cons_of_neg hletter]
  simp

theorem baseOf_of_digitRun_nil (h : digitRun (baseOf base rest) rest = []) : (baseOf base rest).2 = 0 := by
  by_contra hne
  have hnumber : (base = 16 ∨ base = 0) ∧ startsHexNumber rest = true := by
    by_contra hnot
    exact hne (by grind [baseOf])
  obtain ⟨d, hd, hdigit⟩ : ∃ d, rest[2]? = some d ∧ isDigitIn 16 d = true := by
    have := hnumber.2
    simp only [startsHexNumber, Bool.and_eq_true, Option.any_eq_true] at this
    exact this.2
  rw [baseOf, if_pos hnumber, digitRun] at h
  obtain ⟨hlt, rfl⟩ := List.getElem?_eq_some_iff.1 hd
  rw [List.drop_eq_getElem_cons hlt, List.takeWhile_cons_of_pos hdigit] at h
  exact absurd h (List.cons_ne_nil _ _)

/-! ## White space -/

theorem isSpace_iff (c : UInt8) : isSpace c = true ↔ isAsciiWhitespace c = true ∨ c = 0x0B := by
  simp only [isSpace, isAsciiWhitespace, Bool.or_eq_true, Bool.and_eq_true, beq_iff_eq, decide_eq_true_eq,
    ← UInt8.toNat_inj]
  simp
  omega

theorem takeWhile_of_no_tab (h : (0x0B : UInt8) ∉ s.takeWhile isSpace) :
    s.takeWhile isAsciiWhitespace = s.takeWhile isSpace ∧ s.dropWhile isAsciiWhitespace = s.dropWhile isSpace := by
  induction s with
  | nil => exact ⟨rfl, rfl⟩
  | cons c s ih =>
    by_cases hspace : isSpace c = true
    · rw [List.takeWhile_cons_of_pos hspace] at h
      have hc : isAsciiWhitespace c = true := ((isSpace_iff c).1 hspace).resolve_right fun heq =>
        h (heq ▸ List.mem_cons_self)
      have ih := ih fun hmem => h (List.mem_cons_of_mem c hmem)
      simp [hspace, hc, ih]
    · have hc : ¬isAsciiWhitespace c = true := fun hc => hspace ((isSpace_iff c).2 (.inl hc))
      simp [hspace, hc]

theorem dropWhile_of_tab (h : (0x0B : UInt8) ∈ s.takeWhile isSpace) :
    (∃ rest, s.dropWhile isAsciiWhitespace = 0x0B :: rest) ∧
      (s.takeWhile isAsciiWhitespace).length < (s.takeWhile isSpace).length := by
  induction s with
  | nil => simp at h
  | cons c s ih =>
    by_cases hspace : isSpace c = true
    · rw [List.takeWhile_cons_of_pos hspace] at h ⊢
      by_cases hc : isAsciiWhitespace c = true
      · have hne : (0x0B : UInt8) ≠ c := by
          rintro rfl
          exact absurd hc (by decide)
        obtain ⟨⟨rest, hrest⟩, hlt⟩ := ih ((List.mem_cons.1 h).resolve_left hne)
        rw [List.takeWhile_cons_of_pos hc, List.dropWhile_cons_of_pos hc]
        exact ⟨⟨rest, hrest⟩, Nat.succ_lt_succ hlt⟩
      · obtain rfl : c = 0x0B := ((isSpace_iff c).1 hspace).resolve_left hc
        rw [List.takeWhile_cons_of_neg hc, List.dropWhile_cons_of_neg hc]
        exact ⟨⟨s, rfl⟩, Nat.succ_pos _⟩
    · rw [List.takeWhile_cons_of_neg hspace] at h
      exact absurd h List.not_mem_nil

/-! ## Conformance -/

def Conforms (s : List UInt8) (base : Nat) : Prop :=
  if digitsOf s base = [] then
    (s = [] → ¬(base = 16 ∨ base = 0)) ∧ ∀ c, s.head? = some c → ¬isAsciiWhitespace c ∧ c ≠ 0x2B ∧ c ≠ 0x2D
  else (0x0B : UInt8) ∉ s.takeWhile isSpace ∧ ¬BareHex base (subjectOf s)

theorem signOf_snd_eq_zero_iff (r : List UInt8) : (signOf r).2 = 0 ↔ ∀ c, r.head? = some c → c ≠ 0x2B ∧ c ≠ 0x2D := by
  unfold signOf
  split <;> simp_all
  next h₁ h₂ =>
    cases r with
    | nil => simp
    | cons c r =>
      simp only [List.head?_cons, Option.some.injEq]
      rintro _ rfl
      exact ⟨fun h => h₁ r (by rw [h]), fun h => h₂ r (by rw [h])⟩

theorem nothing_skipped_iff (s : List UInt8) : (∀ c, s.head? = some c → ¬isAsciiWhitespace c ∧ c ≠ 0x2B ∧ c ≠ 0x2D) ↔
      (s.takeWhile isAsciiWhitespace).length + (signOf (s.dropWhile isAsciiWhitespace)).2 = 0 := by
  cases s with
  | nil => simp [signOf]
  | cons c s =>
    by_cases hc : isAsciiWhitespace c = true
    · simp [hc]
    · have hsign := signOf_snd_eq_zero_iff (c :: s)
      simp only [List.head?_cons, Option.some.injEq, forall_eq'] at hsign
      simp [hc, hsign]

theorem strtoul_of_no_tab (hbase : base = 0 ∨ base = 8 ∨ base = 10 ∨ base = 16)
    (hne : s ≠ [] ∨ ¬(base = 16 ∨ base = 0)) (htab : (0x0B : UInt8) ∉ s.takeWhile isSpace) :
    strtoul s base =
      .ok (toUlong (signOf (s.dropWhile isSpace)).1 (SafeNum.ofNat (numberOf (codeBase base (subjectOf s)).1
          (digitRun (codeBase base (subjectOf s)) (subjectOf s)))),
        (s.takeWhile isSpace).length + (signOf (s.dropWhile isSpace)).2 + (codeBase base (subjectOf s)).2 +
          (digitRun (codeBase base (subjectOf s)) (subjectOf s)).length) := by
  obtain ⟨htake, hdrop⟩ := takeWhile_of_no_tab htab
  rw [strtoul_eq hbase hne hdrop rfl, htake]
  rfl

theorem strtoul_of_tab (hbase : base = 0 ∨ base = 8 ∨ base = 10 ∨ base = 16)
    (htab : (0x0B : UInt8) ∈ s.takeWhile isSpace) :
    strtoul s base = .ok (0, (s.takeWhile isAsciiWhitespace).length) := by
  obtain ⟨⟨rest, hrest⟩, -⟩ := dropWhile_of_tab htab
  have hne : s ≠ [] := by
    rintro rfl
    simp at htab
  have hcode : codeBase base (0x0B :: rest) = (if base = 0 then 10 else base, 0) := by
    simp [codeBase, startsHex]
  have hrun : digitRun (codeBase base (0x0B :: rest)) (0x0B :: rest) = [] := by
    have hdigit : ¬isDigitIn (codeBase base (0x0B :: rest)).1 0x0B = true := by
      rcases codeBase_fst hbase (0x0B :: rest) with h | h | h <;> rw [h] <;> decide
    rw [digitRun, hcode]
    rw [hcode] at hdigit
    exact List.takeWhile_cons_of_neg hdigit
  have hsign : signOf (0x0B :: rest) = (false, 0) := rfl
  rw [strtoul_eq hbase (.inl hne) hrest (by rw [hsign, List.drop_zero]), hrun, hcode, hsign]
  rfl

theorem strtoul_of_no_digits (hbase : base = 0 ∨ base = 8 ∨ base = 10 ∨ base = 16)
    (hne : s ≠ [] ∨ ¬(base = 16 ∨ base = 0)) (hdigits : digitsOf s base = []) :
    strtoul s base = .ok (0, (s.takeWhile isAsciiWhitespace).length + (signOf (s.dropWhile isAsciiWhitespace)).2) := by
  by_cases htab : (0x0B : UInt8) ∈ s.takeWhile isSpace
  · obtain ⟨⟨rest, hrest⟩, -⟩ := dropWhile_of_tab htab
    rw [strtoul_of_tab hbase htab, hrest]
    rfl
  · have hbare : ¬BareHex base (subjectOf s) := fun h => (codeBase_of_bareHex h).2 hdigits
    obtain ⟨htake, hdrop⟩ := takeWhile_of_no_tab htab
    obtain ⟨hvalue, hlen⟩ := codeBase_agrees hbare
    have hrun : digitRun (baseOf base (subjectOf s)) (subjectOf s) = [] := hdigits
    rw [hrun, baseOf_of_digitRun_nil hrun] at hlen
    rw [hrun] at hvalue
    have hzero : ∀ b, numberOf b [] = 0 := fun _ => rfl
    rw [strtoul_of_no_tab hbase hne htab, hvalue, hzero, toUlong_ofNat, htake, hdrop, Nat.add_assoc _ _ (List.length _),
      hlen]
    cases (signOf (s.dropWhile isSpace)).1 <;> rfl

/-- `strtoul` conforms to the standard on exactly the inputs that `Conforms` describes. -/
theorem strtoul_conforms_iff (s : List UInt8) (base : Nat) (hbase : base = 0 ∨ base = 8 ∨ base = 10 ∨ base = 16) :
    strtoul s base = .ok (cStrtoul s base) ↔ Conforms s base := by
  by_cases hpanic : s = [] ∧ (base = 16 ∨ base = 0)
  · obtain ⟨rfl, hprefix⟩ := hpanic
    refine iff_of_false ?_ ?_
    · rcases hprefix with rfl | rfl <;> nofun
    · have hdigits : digitsOf [] base = [] := by simp [digitsOf, subjectOf, digitRun]
      rw [Conforms, if_pos hdigits]
      exact fun h => h.1 rfl hprefix
  · have hne : s ≠ [] ∨ ¬(base = 16 ∨ base = 0) := not_and_or.1 hpanic
    by_cases hdigits : digitsOf s base = []
    · rw [strtoul_of_no_digits hbase hne hdigits, cStrtoul, if_pos hdigits, Conforms, if_pos hdigits,
        nothing_skipped_iff]
      have hempty : s = [] → ¬(base = 16 ∨ base = 0) := fun h => hne.resolve_left fun hn => hn h
      rw [and_iff_right hempty, Except.ok.injEq, Prod.mk.injEq, and_iff_right rfl]
    · rw [Conforms, if_neg hdigits, cStrtoul, if_neg hdigits]
      by_cases htab : (0x0B : UInt8) ∈ s.takeWhile isSpace
      · -- the code stops before the standard has skipped the white space
        have hlt := (dropWhile_of_tab htab).2
        rw [strtoul_of_tab hbase htab]
        refine iff_of_false ?_ (fun h => h.1 htab)
        intro h
        have hpos := congrArg Prod.snd (Except.ok.inj h)
        simp only at hpos
        omega
      · rw [strtoul_of_no_tab hbase hne htab]
        by_cases hbare : BareHex base (subjectOf s)
        · refine iff_of_false ?_ (fun h => h.2 hbare)
          intro h
          have hpos := congrArg Prod.snd (Except.ok.inj h)
          have hread := (codeBase_of_bareHex hbare).1
          simp only [digitsOf] at hpos
          omega
        · obtain ⟨hvalue, hlen⟩ := codeBase_agrees hbare
          refine iff_of_true ?_ ⟨htab, hbare⟩
          rw [hvalue, toUlong_ofNat, Nat.add_assoc _ _ (List.length _), hlen, ← Nat.add_assoc]
          rfl

theorem strtoul_conforms_hex :
    strtoul [0x20, 0x2D, 0x30, 0x78, 0x31, 0x46, 0x21] 0 = .ok (2 ^ 64 - 31, 6) := by
  have h := (strtoul_conforms_iff [0x20, 0x2D, 0x30, 0x78, 0x31, 0x46, 0x21] 0 (.inl rfl)).2
    (by rw [Conforms]; decide)
  exact h

/-- The empty string panics in base 16; a vertical tab in front of a digit stops the code; the prefix `0x` is
read without a number behind it; and a sign without a digit is read as well. -/
theorem strtoul_deviates :
    strtoul [] 16 = panic ∧
    (strtoul [0x0B, 0x31] 10 = .ok (0, 0) ∧ cStrtoul [0x0B, 0x31] 10 = (1, 2)) ∧
    (strtoul [0x30, 0x78] 16 = .ok (0, 2) ∧ cStrtoul [0x30, 0x78] 16 = (0, 1)) ∧
    (strtoul [0x2B] 10 = .ok (0, 1) ∧ cStrtoul [0x2B] 10 = (0, 0)) := by
  decide

end Gbl.Libc
