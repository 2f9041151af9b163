import Gbl.Lib.Bytes

/-!
# Texts on the fastboot wire

A fastboot packet is a byte string, and so is a text: a `&str` is modelled by its bytes.
-/

namespace Gbl.Fastboot

open Lib

abbrev Bytes := List UInt8

abbrev Text := List UInt8

def text (s : String) : Text := s.toList.map fun c => c.toNat.toUInt8

/-! ## UTF-8 -/

inductive Utf8State where
  /-- Between two characters. -/
  | start
  /-- One, two or three continuation bytes are missing. -/
  | one
  | two
  | three
  /-- After `e0`, `ed`, `f0` and `f4`, which restrict the byte that follows. -/
  | e0
  | ed
  | f0
  | f4
  deriving DecidableEq, Repr

namespace Utf8State

def next : Utf8State → UInt8 → Option Utf8State
  | start, b =>
    if b < 0x80 then some start
    else if 0xc2 ≤ b ∧ b ≤ 0xdf then some one
    else if b = 0xe0 then some e0
    else if b = 0xed then some ed
    else if 0xe1 ≤ b ∧ b ≤ 0xef then some two
    else if b = 0xf0 then some f0
    else if b = 0xf4 then some f4
    else if 0xf1 ≤ b ∧ b ≤ 0xf3 then some three
    else none
  | one, b => if 0x80 ≤ b ∧ b ≤ 0xbf then some start else none
  | two, b => if 0x80 ≤ b ∧ b ≤ 0xbf then some one else none
  | three, b => if 0x80 ≤ b ∧ b ≤ 0xbf then some two else none
  | e0, b => if 0xa0 ≤ b ∧ b ≤ 0xbf then some one else none
  | ed, b => if 0x80 ≤ b ∧ b ≤ 0x9f then some one else none
  | f0, b => if 0x90 ≤ b ∧ b ≤ 0xbf then some two else none
  | f4, b => if 0x80 ≤ b ∧ b ≤ 0x8f then some two else none

end Utf8State

structure Utf8Error where
  validUpTo : Nat
  errorLen : Option Nat
  deriving DecidableEq, Repr

def Utf8Error.display (e : Utf8Error) : Text :=
  match e.errorLen with
  | some n => text "invalid utf-8 sequence of " ++ text (toString n) ++ text " bytes from index " ++
      text (toString e.validUpTo)
  | none => text "incomplete utf-8 byte sequence from index " ++ text (toString e.validUpTo)

def checkUtf8 (q : Utf8State) (valid pos : Nat) : Bytes → Except Utf8Error Unit
  | [] => if q = .start then .ok () else .error ⟨valid, none⟩
  | b :: bs =>
    match q.next b with
    | none => .error ⟨valid, some (max 1 (pos - valid))⟩
    | some .start => checkUtf8 .start (pos + 1) (pos + 1) bs
    | some q' => checkUtf8 q' valid (pos + 1) bs

def fromUtf8 (bs : Bytes) : Except Utf8Error Text := (checkUtf8 .start 0 0 bs).map fun _ => bs

variable {bs : Bytes} {t : Text} {q : Utf8State} {e : Utf8Error} {n : Nat} {c : UInt8} {acc : Nat} {s : Text}
  {k width : Nat}

theorem eq_of_fromUtf8_eq_ok (h : fromUtf8 bs = .ok t) : t = bs := by
  unfold fromUtf8 at h
  cases hc : checkUtf8 .start 0 0 bs with
  | ok u =>
    simp only [hc, Except.map, Except.ok.injEq] at h
    exact h.symm
  | error e => simp [hc, Except.map] at h

def ValidUtf8 (bs : Bytes) : Prop := fromUtf8 bs = .ok bs

instance (bs : Bytes) : Decidable (ValidUtf8 bs) :=
  match h : fromUtf8 bs with
  | .ok t => if ht : t = bs then isTrue (by rw [ValidUtf8, h, ht]) else
      isFalse (by rw [ValidUtf8, h]; intro he; exact ht (Except.ok.inj he))
  | .error e => isFalse (by rw [ValidUtf8, h]; nofun)

def Utf8State.Accepts (q : Utf8State) (bs : Bytes) : Prop := bs.foldlM next q = some .start

theorem checkUtf8_eq_ok (valid pos : Nat) : checkUtf8 q valid pos bs = .ok () ↔ q.Accepts bs := by
  induction bs generalizing q valid pos with
  | nil =>
    unfold checkUtf8 Utf8State.Accepts
    by_cases hq : q = .start
    · simp [hq]
    · simp [hq]
  | cons b bs ih =>
    have hstep : q.Accepts (b :: bs) ↔ ∃ q', q.next b = some q' ∧ q'.Accepts bs := by
      simp [Utf8State.Accepts, List.foldlM_cons, Option.bind_eq_some_iff]
    rw [hstep, checkUtf8]
    cases hnext : q.next b with
    | none => simp
    | some q' => cases q' <;> simp [ih]

theorem validUtf8_iff : ValidUtf8 bs ↔ Utf8State.start.Accepts bs := by
  rw [← checkUtf8_eq_ok 0 0, ValidUtf8, fromUtf8]
  cases checkUtf8 .start 0 0 bs <;> simp [Except.map]

theorem checkUtf8_error {valid pos : Nat} (hv : valid ≤ pos) (h : checkUtf8 q valid pos bs = .error e) :
    e.validUpTo ≤ pos + bs.length ∧ ∀ n, e.errorLen = some n → n ≤ pos + bs.length := by
  induction bs generalizing q valid pos with
  | nil =>
    unfold checkUtf8 at h
    split at h
    · cases h
    · cases h
      exact ⟨hv, nofun⟩
  | cons b bs ih =>
    rw [checkUtf8] at h
    have hgo : ∀ (q' : Utf8State) (v : Nat), v ≤ pos + 1 → checkUtf8 q' v (pos + 1) bs = .error e →
        e.validUpTo ≤ pos + (bs.length + 1) ∧ ∀ n, e.errorLen = some n → n ≤ pos + (bs.length + 1) := by
      intro q' v hv' h'
      have := ih hv' h'
      grind
    rw [List.length_cons]
    cases hnext : q.next b with
    | none =>
      simp only [hnext, Except.error.injEq] at h
      subst h
      refine ⟨by simp only; omega, ?_⟩
      intro n hn
      cases hn
      omega
    | some q' =>
      rw [hnext] at h
      cases q' with
      | start => exact hgo _ _ (Nat.le_refl _) h
      | one => exact hgo _ _ (Nat.le_succ_of_le hv) h
      | two => exact hgo _ _ (Nat.le_succ_of_le hv) h
      | three => exact hgo _ _ (Nat.le_succ_of_le hv) h
      | e0 => exact hgo _ _ (Nat.le_succ_of_le hv) h
      | ed => exact hgo _ _ (Nat.le_succ_of_le hv) h
      | f0 => exact hgo _ _ (Nat.le_succ_of_le hv) h
      | f4 => exact hgo _ _ (Nat.le_succ_of_le hv) h

theorem length_decimal_le {e : Nat} (he : 0 < e) (h : n < 10 ^ e) : (text (toString n)).length ≤ e := by
  rw [text, List.length_map, String.length_toList]
  exact Nat.repr_length n e he h

theorem length_utf8Error_le (hbs : bs.length < 1000) (h : fromUtf8 bs = .error e) : e.display.length ≤ 51 := by
  have hcheck : checkUtf8 .start 0 0 bs = .error e := by
    unfold fromUtf8 at h
    cases hc : checkUtf8 .start 0 0 bs with
    | ok u => simp [hc, Except.map] at h
    | error e' =>
      simp only [hc, Except.map, Except.error.injEq] at h
      rw [h]
  obtain ⟨hvalid, hlen⟩ := checkUtf8_error (Nat.le_refl 0) hcheck
  have hidx : (text (toString e.validUpTo)).length ≤ 3 := length_decimal_le (by decide) (by omega)
  have h₁ : (text "invalid utf-8 sequence of ").length = 26 := by decide
  have h₂ : (text " bytes from index ").length = 18 := by decide
  have h₃ : (text "incomplete utf-8 byte sequence from index ").length = 42 := by decide
  unfold Utf8Error.display
  cases herr : e.errorLen with
  | none =>
    simp only [List.length_append, h₃]
    omega
  | some n =>
    have hn : (text (toString n)).length ≤ 3 := length_decimal_le (by decide) (by have := hlen n herr; omega)
    simp only [List.length_append, h₁, h₂]
    omega

theorem Utf8State.next_ascii {q' : Utf8State} (hc : c < 0x80) (h : q.next c = some q') : q = .start ∧ q' = .start := by
  have hlow : ∀ lo : UInt8, 0x80 ≤ lo → ¬ lo ≤ c := by
    intro lo hlo hle
    exact absurd (UInt8.lt_of_lt_of_le hc (UInt8.le_trans hlo hle)) (UInt8.lt_irrefl c)
  cases q with
  | start =>
    simp only [next, hc, if_true, Option.some.injEq] at h
    exact ⟨rfl, h.symm⟩
  | one => simp [next, hlow 0x80 (by decide)] at h
  | two => simp [next, hlow 0x80 (by decide)] at h
  | three => simp [next, hlow 0x80 (by decide)] at h
  | e0 => simp [next, hlow 0xa0 (by decide)] at h
  | ed => simp [next, hlow 0x80 (by decide)] at h
  | f0 => simp [next, hlow 0x90 (by decide)] at h
  | f4 => simp [next, hlow 0x80 (by decide)] at h

theorem validUtf8_append_ascii {a b : Bytes} (hc : c < 0x80) (h : ValidUtf8 (a ++ c :: b)) :
    ValidUtf8 a ∧ ValidUtf8 b := by
  rw [validUtf8_iff, Utf8State.Accepts, List.foldlM_append] at h
  obtain ⟨q, ha, h⟩ := Option.bind_eq_some_iff.mp h
  rw [List.foldlM_cons] at h
  obtain ⟨q', hnext, hb⟩ := Option.bind_eq_some_iff.mp h
  obtain ⟨rfl, rfl⟩ := Utf8State.next_ascii hc hnext
  exact ⟨validUtf8_iff.mpr ha, validUtf8_iff.mpr hb⟩

/-! ## Splitting -/

def split (sep : UInt8) (t : Text) : List Text := t.splitOn sep

def colon : UInt8 := 0x3a

def slash : UInt8 := 0x2f

theorem split_ne_nil (sep : UInt8) (t : Text) : split sep t ≠ [] := List.splitOn_ne_nil sep t

theorem validUtf8_of_mem_split {sep : UInt8} {part : Text} (hsep : sep < 0x80) (ht : ValidUtf8 t)
    (hpart : part ∈ split sep t) : ValidUtf8 part := by
  induction hn : t.length using Nat.strong_induction_on generalizing t with
  | _ n ih =>
    by_cases hmem : sep ∈ t
    · -- the first separator cuts the text in two
      obtain ⟨a, b, rfl, ha⟩ := List.eq_append_cons_of_mem hmem
      obtain ⟨hva, hvb⟩ := validUtf8_append_ascii hsep ht
      rw [split, List.splitOn_append_cons_self_of_not_mem ha, List.mem_cons] at hpart
      rcases hpart with rfl | hpart
      · exact hva
      · exact ih b.length (by simp [← hn]; omega) hvb hpart rfl
    · rw [split, List.splitOn_eq_singleton hmem, List.mem_singleton] at hpart
      rwa [hpart]

theorem sum_length_split (sep : UInt8) (t : Text) :
    ((split sep t).map fun part => part.length + 1).sum = t.length + 1 := by
  induction t with
  | nil => rfl
  | cons c cs ih =>
    unfold split at ih ⊢
    rw [List.splitOn_cons_eq_if_modifyHead]
    split
    · simp only [List.map_cons, List.sum_cons, ih, List.length_nil, List.length_cons]
      omega
    · cases hparts : cs.splitOn sep with
      | nil => exact absurd hparts (List.splitOn_ne_nil sep cs)
      | cons p ps =>
        rw [hparts] at ih
        simp only [List.modifyHead_cons, List.map_cons, List.sum_cons, List.length_cons] at ih ⊢
        omega

theorem validUtf8_takeWhile (hc : c < 0x80) (ht : ValidUtf8 t) : ValidUtf8 (t.takeWhile (· ≠ c)) := by
  by_cases hmem : c ∈ t
  · obtain ⟨a, b, rfl, ha⟩ := List.eq_append_cons_of_mem hmem
    have hall : ∀ x ∈ a, (decide (x ≠ c)) = true := fun x hx => by
      simp only [decide_eq_true_eq]
      rintro rfl
      exact ha hx
    rw [List.takeWhile_append_of_pos hall]
    simpa using (validUtf8_append_ascii hc ht).1
  · have hall : ∀ x ∈ t, (decide (x ≠ c)) = true := fun x hx => by
      simp only [decide_eq_true_eq]
      rintro rfl
      exact hmem hx
    rwa [List.takeWhile_eq_self_iff.mpr hall]

def stripPrefix (pre t : Text) : Option Text := if pre <+: t then some (t.drop pre.length) else none

def nextArg : List Text → Option Text
  | [] => none
  | a :: _ => if a = [] then none else some a

/-! ## Hexadecimal numbers -/

def hexValue (c : UInt8) : Option Nat :=
  if 0x30 ≤ c ∧ c ≤ 0x39 then some (c.toNat - 0x30)
  else if 0x61 ≤ c ∧ c ≤ 0x66 then some (c.toNat - 0x61 + 10)
  else if 0x41 ≤ c ∧ c ≤ 0x46 then some (c.toNat - 0x41 + 10)
  else none

inductive ParseIntError where
  | empty
  | invalidDigit
  | posOverflow
  deriving DecidableEq, Repr

def ParseIntError.display : ParseIntError → Text
  | empty => text "cannot parse integer from empty string"
  | invalidDigit => text "invalid digit found in string"
  | posOverflow => text "number too large to fit in target type"

def parseHexDigits (acc : Nat) : Text → Except ParseIntError Nat
  | [] => .ok acc
  | c :: cs =>
    match hexValue c with
    | none => .error .invalidDigit
    | some d => if acc * 16 + d < 2 ^ 64 then parseHexDigits (acc * 16 + d) cs else .error .posOverflow

def fromStrRadix16 (s : Text) : Except ParseIntError Nat :=
  match s with
  | [] => .error .empty
  | 0x2b :: [] => .error .invalidDigit
  | 0x2b :: digits => parseHexDigits 0 digits
  | digits => parseHexDigits 0 digits

def hexToU64 (s : Text) : Except ParseIntError Nat :=
  fromStrRadix16 ((stripPrefix (text "0x") s).getD s)

theorem parseHexDigits_lt (hacc : acc < 2 ^ 64) (h : parseHexDigits acc s = .ok n) : n < 2 ^ 64 := by
  induction s generalizing acc with
  | nil =>
    cases h
    exact hacc
  | cons c cs ih =>
    rw [parseHexDigits] at h
    cases hd : hexValue c with
    | none => simp [hd] at h
    | some d =>
      simp only [hd] at h
      split at h
      · next hlt => exact ih hlt h
      · cases h

theorem fromStrRadix16_lt (h : fromStrRadix16 s = .ok n) : n < 2 ^ 64 := by
  unfold fromStrRadix16 at h
  split at h
  · cases h
  · cases h
  · exact parseHexDigits_lt (by decide) h
  · exact parseHexDigits_lt (by decide) h

theorem hexToU64_lt (h : hexToU64 s = .ok n) : n < 2 ^ 64 := fromStrRadix16_lt h

def hexChar (d : Nat) : UInt8 := if d < 10 then (0x30 + d).toUInt8 else (0x57 + d).toUInt8

def hexFixed : Nat → Nat → Text
  | 0, _ => []
  | k + 1, n => hexFixed k (n / 16) ++ [hexChar (n % 16)]

def trimZeros (width : Nat) : Text → Text
  | [] => []
  | c :: cs => if c = 0x30 ∧ width ≤ cs.length then trimZeros width cs else c :: cs

def lowerHex (width n : Nat) : Text := trimZeros width (hexFixed 16 n)

@[simp] theorem length_hexFixed (k n : Nat) : (hexFixed k n).length = k := by
  induction k generalizing n with
  | zero => rfl
  | succ k ih => simp [hexFixed, ih]

theorem length_trimZeros_le (width : Nat) (s : Text) : (trimZeros width s).length ≤ s.length := by
  induction s with
  | nil => rfl
  | cons c cs ih =>
    rw [trimZeros]
    split
    · exact Nat.le_succ_of_le ih
    · exact Nat.le_refl _

theorem length_lowerHex_le (width n : Nat) : (lowerHex width n).length ≤ 16 :=
  (length_trimZeros_le width _).trans (by simp)

theorem hexValue_hexChar {d : Nat} (h : d < 16) : hexValue (hexChar d) = some d := by
  revert d
  decide

theorem parseHexDigits_append {a b : Text} :
    parseHexDigits acc (a ++ b) = (parseHexDigits acc a).bind fun v => parseHexDigits v b := by
  induction a generalizing acc with
  | nil => rfl
  | cons c cs ih =>
    simp only [List.cons_append, parseHexDigits]
    cases hexValue c with
    | none => rfl
    | some d =>
      by_cases hlt : acc * 16 + d < 2 ^ 64
      · simp only [hlt, if_true]
        exact ih
      · simp only [hlt, if_false]
        rfl

theorem parseHexDigits_hexFixed (hk : k ≤ 16) (hn : n < 16 ^ k) : parseHexDigits 0 (hexFixed k n) = .ok n := by
  induction k generalizing n with
  | zero =>
    have : n = 0 := by simpa using hn
    subst this
    rfl
  | succ k ih =>
    have hdiv : n / 16 < 16 ^ k := by
      apply Nat.div_lt_of_lt_mul
      rwa [Nat.pow_succ, Nat.mul_comm] at hn
    have hlt : n / 16 * 16 + n % 16 < 2 ^ 64 := by
      rw [Nat.div_add_mod' n 16]
      exact hn.trans_le (Nat.pow_le_pow_right (by decide) hk |>.trans (by decide))
    rw [hexFixed, parseHexDigits_append, ih (by omega) hdiv]
    show parseHexDigits (n / 16) [hexChar (n % 16)] = _
    rw [parseHexDigits, hexValue_hexChar (Nat.mod_lt n (by decide))]
    simp only [hlt, if_true, parseHexDigits]
    rw [Nat.div_add_mod' n 16]

theorem parseHexDigits_trimZeros (width : Nat) (s : Text) :
    parseHexDigits 0 (trimZeros width s) = parseHexDigits 0 s := by
  induction s with
  | nil => rfl
  | cons c cs ih =>
    rw [trimZeros]
    split
    · next h =>
      rw [ih, h.1, parseHexDigits]
      rfl
    · rfl

theorem mem_hexFixed (h : c ∈ hexFixed k n) : ∃ d < 16, c = hexChar d := by
  induction k generalizing n with
  | zero => cases h
  | succ k ih =>
    rw [hexFixed, List.mem_append, List.mem_singleton] at h
    rcases h with h | rfl
    · exact ih h
    · exact ⟨n % 16, Nat.mod_lt n (by decide), rfl⟩

theorem trimZeros_suffix (width : Nat) (s : Text) : trimZeros width s <:+ s := by
  induction s with
  | nil => exact List.suffix_rfl
  | cons c cs ih =>
    rw [trimZeros]
    split
    · exact ih.trans (List.suffix_cons c cs)
    · exact List.suffix_rfl

theorem le_length_trimZeros (h : width ≤ s.length) : width ≤ (trimZeros width s).length := by
  induction s with
  | nil => exact h
  | cons c cs ih =>
    rw [trimZeros]
    split
    · next hc => exact ih hc.2
    · exact h

theorem fromStrRadix16_cons {cs : Text} (hc : c ≠ 0x2b) : fromStrRadix16 (c :: cs) = parseHexDigits 0 (c :: cs) := by
  unfold fromStrRadix16
  split
  · next h => cases h
  · next h => exact absurd (List.cons.inj h).1 hc
  · next h => exact absurd (List.cons.inj h).1 hc
  · rfl

theorem hexToU64_lowerHex (hpos : 0 < width) (hle : width ≤ 16) (hn : n < 2 ^ 64) :
    hexToU64 (lowerHex width n) = .ok n := by
  have hdigit : ∀ c ∈ lowerHex width n, ∃ d < 16, c = hexChar d := fun c hc =>
    mem_hexFixed ((trimZeros_suffix width _).subset hc)
  have hnot : ∀ c ∈ lowerHex width n, c ≠ 0x2b ∧ c ≠ 0x78 := by
    intro c hc
    obtain ⟨d, hd, rfl⟩ := hdigit c hc
    clear hc
    revert d
    decide
  have hlen : width ≤ (lowerHex width n).length := le_length_trimZeros (by simpa using hle)
  have hplain : stripPrefix (text "0x") (lowerHex width n) = none := by
    rw [stripPrefix, if_neg]
    intro hpre
    exact (hnot 0x78 (hpre.subset (by decide))).2 rfl
  have hvalue : parseHexDigits 0 (lowerHex width n) = .ok n := by
    rw [lowerHex, parseHexDigits_trimZeros]
    exact parseHexDigits_hexFixed (Nat.le_refl 16) (hn.trans_le (by decide))
  rw [hexToU64, hplain, Option.getD_none]
  cases hs : lowerHex width n with
  | nil =>
    rw [hs] at hlen
    exact absurd hlen (by simpa using Nat.ne_of_gt hpos)
  | cons c cs =>
    rw [fromStrRadix16_cons (hnot c (by simp [hs])).1, ← hs]
    exact hvalue

/-! ## Formatting into a fixed buffer -/

def appendFormatted (cap : Nat) (content bytes : Bytes) : Bytes :=
  content ++ bytes.take (cap - content.length)

def formatted (cap : Nat) (pieces : List Text) : Bytes := pieces.foldl (appendFormatted cap) []

theorem foldl_appendFormatted {cap : Nat} {content : Bytes} (pieces : List Text) (h : content.length ≤ cap) :
    pieces.foldl (appendFormatted cap) content = (content ++ pieces.flatten).take cap := by
  induction pieces generalizing content with
  | nil => simp [List.take_of_length_le h]
  | cons p ps ih =>
    have hstep : appendFormatted cap content p = (content ++ p).take cap := by
      rw [appendFormatted, List.take_append, List.take_of_length_le h]
    rw [List.foldl_cons, hstep, ih (List.length_take_le _ _)]
    -- a piece that was cut leaves no room for the next
    rw [List.flatten_cons, ← List.append_assoc]
    simp only [List.take_append, List.take_take, List.length_take, List.length_append]
    grind

theorem formatted_eq (cap : Nat) (pieces : List Text) : formatted cap pieces = pieces.flatten.take cap := by
  rw [formatted, foldl_appendFormatted pieces (Nat.zero_le cap), List.nil_append]

end Gbl.Fastboot
