import Gbl.BootParams.RoundTrip

/-!
# What the command line parser leaves out

An empty key ends the iteration, and so does a quote that is not closed.
-/

namespace Gbl.BootParams

open Lib CommandlineParser

def Entry.spellings (e : Entry) : List (List Char) :=
  match e.value with
  | none => [e.key]
  | some v => [e.key ++ '=' :: v, e.key ++ '=' :: '"' :: v ++ ['"']]

/-- Gaps and entries, as they are spelled, make up the text; what is left at the end is white space. -/
inductive Covered : List Char → Prop
  | stop {data rest} : next data = (none, rest) → (∀ c ∈ data, isWhitespace c = true) → Covered data
  | entry {data e rest gap raw} : next data = (some (.ok e), rest) → (∀ c ∈ gap, isWhitespace c = true) →
      raw ∈ e.spellings → data = gap ++ raw ++ rest → Covered rest → Covered data

inductive Mode where
  | key
  | inKey
  | value
  | word
  | quoted
  deriving DecidableEq, Repr

/-- An `=` where a key is expected, or a quote that is not closed. -/
def misplaced : Mode → List Char → Bool
  | .quoted, [] => true
  | _, [] => false
  | .key, c :: cs => if isWhitespace c then misplaced .key cs else if c = '=' then true else misplaced .inKey cs
  | .inKey, c :: cs =>
    if isWhitespace c then misplaced .key cs else if c = '=' then misplaced .value cs else misplaced .inKey cs
  | .value, c :: cs =>
    if c = '"' then misplaced .quoted cs else if isWhitespace c then misplaced .key cs else misplaced .word cs
  | .word, c :: cs => if isWhitespace c then misplaced .key cs else misplaced .word cs
  | .quoted, c :: cs => if c = '"' then misplaced .key cs else misplaced .quoted cs

variable {data rest key v tail : List Char} {e : Entry}

@[simp] theorem isWhitespace_eq : isWhitespace '=' = false := by decide

theorem misplaced_gap (data : List Char) : misplaced .key data = misplaced .key (data.dropWhile isWhitespace) := by
  induction data with
  | nil => rfl
  | cons c cs ih =>
    by_cases hc : isWhitespace c = true
    · rw [List.dropWhile_cons_of_pos hc, misplaced, if_pos hc, ih]
    · rw [List.dropWhile_cons_of_neg hc]

theorem misplaced_inKey (h : ∀ c ∈ key, (!isWhitespace c && c != '=') = true) :
    misplaced .inKey (key ++ tail) = misplaced .inKey tail := by
  induction key with
  | nil => rfl
  | cons c cs ih =>
    obtain ⟨hc, hcs⟩ := List.forall_mem_cons.1 h
    obtain ⟨hspace, heq⟩ : isWhitespace c = false ∧ c ≠ '=' := by simpa using hc
    rw [List.cons_append, misplaced, if_neg (by simp [hspace]), if_neg heq, ih hcs]

theorem misplaced_key (hne : key ≠ []) (h : ∀ c ∈ key, (!isWhitespace c && c != '=') = true) :
    misplaced .key (key ++ tail) = misplaced .inKey tail := by
  cases key with
  | nil => exact absurd rfl hne
  | cons c cs =>
    obtain ⟨hc, hcs⟩ := List.forall_mem_cons.1 h
    obtain ⟨hspace, heq⟩ : isWhitespace c = false ∧ c ≠ '=' := by simpa using hc
    rw [List.cons_append, misplaced, if_neg (by simp [hspace]), if_neg heq, misplaced_inKey hcs]

theorem misplaced_word (h : ∀ c ∈ v, isWhitespace c = false) : misplaced .word (v ++ tail) = misplaced .word tail := by
  induction v with
  | nil => rfl
  | cons c cs ih =>
    obtain ⟨hc, hcs⟩ := List.forall_mem_cons.1 h
    rw [List.cons_append, misplaced, if_neg (by simp [hc]), ih hcs]

theorem misplaced_quoted (h : ∀ c ∈ v, c ≠ '"') : misplaced .quoted (v ++ tail) = misplaced .quoted tail := by
  induction v with
  | nil => rfl
  | cons c cs ih =>
    obtain ⟨hc, hcs⟩ := List.forall_mem_cons.1 h
    rw [List.cons_append, misplaced, if_neg hc, ih hcs]

theorem misplaced_ends {m : Mode} (hm : m = .inKey ∨ m = .word) (h : Ends rest) :
    misplaced m rest = misplaced .key rest := by
  rcases hm with rfl | rfl <;> cases rest with
  | nil => rfl
  | cons c cs => rw [misplaced, misplaced, if_pos (h c rfl), if_pos (h c rfl)]

/-! ## One item -/

theorem ends_drop_takeWhile (t : List Char) : Ends (t.drop (t.takeWhile fun c => !isWhitespace c).length) := by
  intro c hc
  rw [drop_length_takeWhile] at hc
  have hnot := List.head?_dropWhile_not (fun c => !isWhitespace c) t
  rw [hc] at hnot
  simpa using hnot

theorem parseAssigned_covers {t : List Char} {r : Result (List Char)} (h : parseAssigned t = (r, rest)) :
    (∀ v, r = .ok v → (t = v ++ rest ∨ t = '"' :: v ++ '"' :: rest) ∧ misplaced .value t = misplaced .key rest) ∧
      ∀ e, r = .error e → misplaced .value t = true := by
  unfold parseAssigned at h
  split at h
  · next t =>
    have hplain : ∀ c ∈ t.takeWhile (· != '"'), c ≠ '"' := by
      intro c hc
      simpa using List.mem_takeWhile_imp hc
    have hsplit : t.takeWhile (· != '"') ++ t.drop (t.takeWhile (· != '"')).length = t := by
      rw [drop_length_takeWhile, List.takeWhile_append_dropWhile]
    have hvalue : misplaced .value ('"' :: t) = misplaced .quoted t := by rw [misplaced, if_pos rfl]
    simp only at h
    split at h
    · next rest hrest =>
      cases h
      rw [hrest] at hsplit
      refine ⟨?_, fun e he => by cases he⟩
      rintro v ⟨⟩
      refine ⟨.inr (by rw [List.cons_append, hsplit]), ?_⟩
      rw [hvalue, ← hsplit, misplaced_quoted hplain, misplaced, if_pos rfl]
    · next hno =>
      cases h
      refine ⟨fun v hv => (by cases hv), fun _ _ => ?_⟩
      -- there is no closing quote, so nothing is left
      have hnil : t.drop (t.takeWhile (· != '"')).length = [] := by
        have hhead := List.head?_dropWhile_not (· != '"') t
        rw [← drop_length_takeWhile] at hhead
        cases hdrop : t.drop (t.takeWhile (· != '"')).length with
        | nil => rfl
        | cons c cs =>
          rw [hdrop] at hhead
          have hc : c = '"' := by simpa using hhead
          exact absurd hdrop (by rw [hc]; exact hno cs)
      rw [hvalue, ← hsplit, misplaced_quoted hplain, hnil]
      rfl
  · next hquote =>
    cases h
    refine ⟨?_, fun e he => by cases he⟩
    rintro v ⟨⟩
    have hsplit :
      t.takeWhile (fun c => !isWhitespace c) ++ t.drop (t.takeWhile fun c => !isWhitespace c).length = t := by
      rw [drop_length_takeWhile, List.takeWhile_append_dropWhile]
    refine ⟨.inl hsplit.symm, ?_⟩
    have hplain : ∀ c ∈ t.takeWhile (fun c => !isWhitespace c), isWhitespace c = false := by
      intro c hc
      simpa using List.mem_takeWhile_imp hc
    rw [← misplaced_ends (.inr rfl) (ends_drop_takeWhile t), ← misplaced_word hplain, hsplit]
    cases t with
    | nil => rfl
    | cons c cs =>
      have hc : c ≠ '"' := fun hc => hquote cs (by rw [hc])
      rw [misplaced, misplaced, if_neg hc]

theorem parseValue_covers {r : Result (Option (List Char))} (h : parseValue tail = (r, rest))
    (hend : ∀ c cs, tail = c :: cs → isWhitespace c = true ∨ c = '=') :
    (r = .ok none → tail = rest) ∧
      (∀ v, r = .ok (some v) → tail = '=' :: (v ++ rest) ∨ tail = '=' :: ('"' :: v ++ '"' :: rest)) ∧
      (∀ v, r = .ok v → misplaced .inKey tail = misplaced .key rest) ∧
      ∀ e, r = .error e → misplaced .inKey tail = true := by
  cases tail with
  | nil =>
    cases h
    exact ⟨fun _ => rfl, fun v hv => (by cases hv), fun _ _ => rfl, fun e he => (by cases he)⟩
  | cons c cs =>
    unfold parseValue at h
    by_cases hc : c = '='
    · subst hc
      have hvalue : misplaced .inKey ('=' :: cs) = misplaced .value cs := by
        rw [misplaced, if_neg (by simp), if_pos rfl]
      simp only [if_true] at h
      obtain ⟨rfl, hrest⟩ := Prod.mk.inj h
      have hcovers :=
        parseAssigned_covers (show parseAssigned cs = ((parseAssigned cs).1, rest) from Prod.ext rfl hrest)
      rw [hvalue]
      cases hr : (parseAssigned cs).1 with
      | error e =>
        exact ⟨fun hv => (by cases hv), fun v hv => (by cases hv), fun v hv => (by cases hv), fun _ _ => hcovers.2 e hr⟩
      | ok v =>
        obtain ⟨hspelt, hmode⟩ := hcovers.1 v hr
        refine ⟨fun hv => (by cases hv), ?_, fun _ _ => hmode, fun e he => (by cases he)⟩
        rintro _ ⟨⟩
        rcases hspelt with heq | heq
        · exact .inl (congrArg ('=' :: ·) heq)
        · exact .inr (congrArg ('=' :: ·) heq)
    · have hspace := (hend c cs rfl).resolve_right hc
      simp only [if_neg hc, if_pos hspace] at h
      cases h
      exact ⟨fun _ => rfl, fun v hv => (by cases hv),
        fun _ _ => misplaced_ends (.inl rfl) fun x hx => (by cases hx; exact hspace), fun e he => (by cases he)⟩

theorem next_covers {item : Option (Result Entry)} (h : next data = (item, rest)) :
    (item = none → (misplaced .key data = false ↔ ∀ c ∈ data, isWhitespace c = true)) ∧
      (∀ e, item = some (.error e) → misplaced .key data = true) ∧
      ∀ e, item = some (.ok e) → (∃ gap raw, (∀ c ∈ gap, isWhitespace c = true) ∧ raw ∈ e.spellings ∧
        data = gap ++ raw ++ rest) ∧ misplaced .key data = misplaced .key rest := by
  obtain ⟨gap, remains, hgap, hdata, hremains⟩ : ∃ gap remains, (∀ c ∈ gap, isWhitespace c = true) ∧
      gap ++ remains = data ∧ data.dropWhile isWhitespace = remains :=
    ⟨_, _, fun c hc => List.mem_takeWhile_imp hc, List.takeWhile_append_dropWhile, rfl⟩
  have hhead : ∀ c cs, remains = c :: cs → isWhitespace c = false := by
    intro c cs hcons
    have hnot := List.head?_dropWhile_not isWhitespace data
    rw [hremains, hcons] at hnot
    simpa using hnot
  obtain ⟨key, tail, hkey, htail, hsplit⟩ : ∃ key tail, remains.takeWhile (fun c => !isWhitespace c && c != '=') = key ∧
      remains.drop key.length = tail ∧ key ++ tail = remains := by
    refine ⟨_, _, rfl, rfl, ?_⟩
    rw [drop_length_takeWhile, List.takeWhile_append_dropWhile]
  have hplain : ∀ c ∈ key, (!isWhitespace c && c != '=') = true := by
    intro c hc
    rw [← hkey] at hc
    exact List.mem_takeWhile_imp (p := fun c => !isWhitespace c && c != '=') hc
  have hend : ∀ c cs, tail = c :: cs → isWhitespace c = true ∨ c = '=' := by
    intro c cs hcons
    have hnot := List.head?_dropWhile_not (fun c => !isWhitespace c && c != '=') remains
    rw [← drop_length_takeWhile, hkey, htail, hcons] at hnot
    by_cases hc : c = '='
    · exact .inr hc
    · exact .inl (by simpa [hc] using hnot)
  unfold next parseKey at h
  simp only [hremains, hkey, htail] at h
  rw [misplaced_gap, hremains]
  by_cases hnil : key = []
  · subst hnil
    rw [List.nil_append] at hsplit
    subst hsplit
    simp only [List.isEmpty_nil, if_true] at h
    cases h
    refine ⟨fun _ => ?_, fun e he => (by cases he), fun e he => (by cases he)⟩
    cases rest with
    | nil =>
      rw [List.append_nil] at hdata
      exact iff_of_true rfl (hdata ▸ hgap)
    | cons c cs =>
      have hspace := hhead c cs rfl
      have hc := (hend c cs rfl).resolve_left (by simp [hspace])
      refine iff_of_false (by rw [misplaced, if_neg (by simp [hspace]), if_pos hc]; simp) fun hall => ?_
      have htrue := hall c (hdata ▸ List.mem_append_right gap List.mem_cons_self)
      rw [hspace] at htrue
      cases htrue
  · have hmode : misplaced .key remains = misplaced .inKey tail := by rw [← hsplit, misplaced_key hnil hplain]
    simp only [List.isEmpty_iff, hnil, if_false] at h
    obtain ⟨hitem, hrest⟩ := Prod.mk.inj h
    obtain ⟨hnone, hsome, hok, herror⟩ :=
      parseValue_covers (show parseValue tail = ((parseValue tail).1, rest) from Prod.ext rfl hrest) hend
    rw [hmode, ← hitem]
    cases hr : (parseValue tail).1 with
    | error e => exact ⟨fun he => (by cases he), fun _ _ => herror e hr, fun e he => (by cases he)⟩
    | ok value =>
      refine ⟨fun he => (by cases he), fun e he => (by cases he), ?_⟩
      rintro _ ⟨⟩
      refine ⟨?_, hok value hr⟩
      cases value with
      | none =>
        refine ⟨gap, key, hgap, List.mem_singleton_self key, ?_⟩
        rw [← hnone hr, List.append_assoc, hsplit, hdata]
      | some v =>
        rcases hsome v hr with heq | heq
        · refine ⟨gap, key ++ '=' :: v, hgap, List.mem_cons_self, ?_⟩
          rw [← hdata, ← hsplit, heq]
          simp
        · refine ⟨gap, key ++ '=' :: '"' :: v ++ ['"'], hgap, List.mem_cons_of_mem _ (List.mem_singleton_self _), ?_⟩
          rw [← hdata, ← hsplit, heq]
          simp

theorem length_items_le (data : List Char) : (items data).length ≤ data.length := by
  induction hn : data.length using Nat.strongRecOn generalizing data with
  | _ n ih =>
    rw [items]
    split
    · exact Nat.zero_le _
    · next e rest hnext =>
      have hlt := length_next_lt hnext
      have hle := ih rest.length (by omega) rest rfl
      rw [List.length_cons]
      omega
    · next e rest hnext =>
      have hlt := length_next_lt hnext
      rw [List.length_singleton]
      omega

theorem covered_iff_not_misplaced (data : List Char) : Covered data ↔ misplaced .key data = false := by
  induction hn : data.length using Nat.strongRecOn generalizing data with
  | _ n ih =>
    rcases hnext : next data with ⟨item, rest⟩
    obtain ⟨hnone, herror, hok⟩ := next_covers hnext
    rcases item with _ | r
    · rw [hnone rfl]
      constructor
      · intro h
        cases h with
        | stop _ hall => exact hall
        | entry hentry => cases hnext.symm.trans hentry
      · exact .stop hnext
    · cases r with
      | error e =>
        refine iff_of_false (fun h => ?_) (by rw [herror e rfl]; nofun)
        cases h with
        | stop hstop => cases hnext.symm.trans hstop
        | entry hentry => cases hnext.symm.trans hentry
      | ok e =>
        obtain ⟨⟨gap, raw, hgap, hraw, hdata⟩, hmode⟩ := hok e rfl
        rw [hmode, ← ih rest.length (hn ▸ length_next_lt hnext) rest rfl]
        constructor
        · intro h
          cases h with
          | stop hstop => cases hnext.symm.trans hstop
          | entry hentry _ _ _ hrest =>
            cases hnext.symm.trans hentry
            exact hrest
        · exact .entry hnext hgap hraw hdata

/-- **Nothing is dropped, unless an `=` stands where a key is expected or a quote is left open.** At the first the
parser finds an empty key, which it takes for the end; at the second it reports an error and the rest is lost. -/
theorem covered_iff (data : List Char) :
    (items data).length ≤ data.length ∧ (Covered data ↔ misplaced .key data = false) :=
  ⟨length_items_le data, covered_iff_not_misplaced data⟩

/-- What is behind the space before `=` is lost, and no error is reported. -/
theorem stray_equals_sign :
    items "a =b c".toList = [.ok ⟨['a'], none⟩] ∧ ¬ Covered "a =b c".toList := by
  refine ⟨by decide +kernel, fun h => ?_⟩
  cases ((covered_iff_not_misplaced _).1 h).symm.trans (show misplaced .key "a =b c".toList = true by decide +kernel)

end Gbl.BootParams
