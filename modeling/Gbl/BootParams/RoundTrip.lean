import Gbl.BootParams.Entry
import Gbl.Lib.Bytes

/-!
# Printing entries and parsing them again

`Display` writes a value without the quotes that the parser removed. So an entry is read back from its
text if its value has no white space in it, and is cut short otherwise.
-/

namespace Gbl.BootParams

open Lib CommandlineParser

def Entry.display (e : Entry) : List Char := e.pieces.flatten

def printed : List Entry → List Char
  | [] => []
  | [e] => e.display
  | e :: es => e.display ++ ' ' :: printed es

/-! ## What the parser yields -/

structure Entry.Parsed (e : Entry) : Prop where
  key_ne : e.key ≠ []
  key_plain : ∀ c ∈ e.key, (!isWhitespace c && c != '=') = true
  unquoted : ∀ v, e.value = some v → v.head? ≠ some '"'

variable {data rest v : List Char} {e : Entry} {es : List Entry}

theorem head?_parseAssigned (h : parseAssigned data = (.ok v, rest)) : v.head? ≠ some '"' := by
  unfold parseAssigned at h
  split at h
  · next data =>
    simp only at h
    split at h
    · cases h
      intro hhead
      have hmem := List.mem_takeWhile_imp (List.mem_of_head? hhead)
      simp at hmem
    · cases h
  · next hquote =>
    cases h
    cases data with
    | nil => simp
    | cons c data =>
      have hc : c ≠ '"' := fun hc => hquote data (by rw [hc])
      rw [List.takeWhile_cons]
      split <;> simp [hc]

theorem parsed_of_next (h : next data = (some (.ok e), rest)) : e.Parsed := by
  unfold next at h
  split at h
  · cases h
  · next key remains hkey =>
    obtain ⟨hvalue, -⟩ := Prod.mk.inj h
    obtain ⟨hsome, -⟩ := Prod.mk.inj hkey
    split at hsome
    · cases hsome
    · next hne =>
      cases hsome
      cases hparsed : (parseValue remains).1 with
      | error e => simp [hparsed, Except.map] at hvalue
      | ok value =>
        simp only [hparsed, Except.map, Option.some.injEq, Except.ok.injEq] at hvalue
        subst hvalue
        refine ⟨by simpa using hne, fun c hc => ?_, ?_⟩
        · exact List.mem_takeWhile_imp (p := fun c => !isWhitespace c && c != '=') hc
        rintro v rfl
        unfold parseValue at hparsed
        split at hparsed
        · cases hparsed
        · split at hparsed
          · next c remains hc =>
            cases hassigned : parseAssigned remains with
            | mk r out =>
              cases r with
              | error e => simp [hassigned, Except.map] at hparsed
              | ok w =>
                simp only [hassigned, Except.map, Except.ok.injEq, Option.some.injEq] at hparsed
                subst hparsed
                exact head?_parseAssigned hassigned
          · split at hparsed <;> cases hparsed

theorem items_of_next (h : next data = (some (.ok e), rest)) : items data = .ok e :: items rest := by
  rw [items]
  split <;> simp_all

theorem items_of_blank (h : data.dropWhile isWhitespace = []) : items data = [] := by
  have hnext : next data = (none, []) := by simp [next, parseKey, h]
  rw [items]
  split <;> simp_all

theorem parsed_of_items (h : items data = es.map .ok) : ∀ e ∈ es, e.Parsed := by
  induction es generalizing data with
  | nil => simp
  | cons e es ih =>
    rw [items] at h
    split at h
    · cases h
    · next e' rest hnext =>
      obtain ⟨he, htail⟩ := List.cons.inj h
      cases he
      intro x hx
      rcases List.mem_cons.1 hx with rfl | hx
      · exact parsed_of_next hnext
      · exact ih htail x hx
    · cases h

/-! ## Reading an entry back -/

def Ends (rest : List Char) : Prop := ∀ c, rest.head? = some c → isWhitespace c = true

theorem takeWhile_append_ends {p : Char → Bool} (hp : ∀ c, isWhitespace c = true → p c = false)
    (hv : ∀ c ∈ v, p c = true) (hrest : Ends rest) : (v ++ rest).takeWhile p = v := by
  rw [List.takeWhile_append_of_pos hv]
  cases rest with
  | nil => simp
  | cons c rest => rw [List.takeWhile_cons_of_neg (by simp [hp c (hrest c rfl)]), List.append_nil]

theorem parseAssigned_append (hquote : v.head? ≠ some '"') (hrest : Ends rest) : parseAssigned (v ++ rest) =
      (.ok ((v ++ rest).takeWhile fun c => !isWhitespace c), (v ++ rest).dropWhile fun c => !isWhitespace c) := by
  have hhead : ∀ data, v ++ rest ≠ '"' :: data := by
    intro data heq
    cases v with
    | nil =>
      have hspace := hrest '"' (by rw [← List.nil_append rest, heq, List.head?_cons])
      exact absurd hspace (by decide)
    | cons c v => exact hquote (by rw [(List.cons.inj heq).1, List.head?_cons])
  unfold parseAssigned
  split
  · next data heq => exact absurd heq (hhead data)
  · simp only [drop_length_takeWhile]

theorem next_display (h : e.Parsed) (hrest : Ends rest) :
    next (e.display ++ rest) = match e.value with
      | none => (some (.ok e), rest)
      | some v => (some (.ok ⟨e.key, some ((v ++ rest).takeWhile fun c => !isWhitespace c)⟩),
          (v ++ rest).dropWhile fun c => !isWhitespace c) := by
  obtain ⟨key, value⟩ := e
  have hkey : ∀ tail, (tail = rest ∨ ∃ l, tail = '=' :: l) → parseKey (key ++ tail) = (some key, tail) := by
    intro tail htail
    have hskip : (key ++ tail).dropWhile isWhitespace = key ++ tail := by
      cases key with
      | nil => exact absurd rfl h.key_ne
      | cons c key =>
        have hc := h.key_plain c List.mem_cons_self
        rw [List.cons_append, List.dropWhile_cons_of_neg (by simp_all)]
    have htake : (key ++ tail).takeWhile (fun c => !isWhitespace c && c != '=') = key := by
      rcases htail with rfl | ⟨l, rfl⟩
      · exact takeWhile_append_ends (fun c hc => by simp [hc]) h.key_plain hrest
      · rw [List.takeWhile_append_of_pos h.key_plain, List.takeWhile_cons_of_neg (by simp), List.append_nil]
    unfold parseKey
    simp only [hskip, htake]
    rw [if_neg (by simpa using h.key_ne), List.drop_left]
  cases value with
  | none =>
    have hvalue : parseValue rest = (.ok none, rest) := by
      unfold parseValue
      cases rest with
      | nil => rfl
      | cons c rest =>
        have hc := hrest c rfl
        have hne : c ≠ '=' := by
          rintro rfl
          exact absurd hc (by decide)
        simp [hne, hc]
    simp [next, Entry.display, Entry.pieces, hkey rest (.inl rfl), hvalue, Except.map]
  | some v =>
    have hassigned := parseAssigned_append (h.unquoted v rfl) hrest
    simp [next, Entry.display, Entry.pieces, hkey _ (.inr ⟨v ++ rest, rfl⟩), parseValue, hassigned, Except.map]

def Entry.Plain (e : Entry) : Prop := ∀ v, e.value = some v → ∀ c ∈ v, isWhitespace c = false

theorem next_display_of_plain (h : e.Parsed) (hplain : e.Plain) (hrest : Ends rest) :
    next (e.display ++ rest) = (some (.ok e), rest) := by
  rw [next_display h hrest]
  obtain ⟨key, value⟩ := e
  cases value with
  | none => rfl
  | some v =>
    have hv : ∀ c ∈ v, (!isWhitespace c) = true := fun c hc => by simp [hplain v rfl c hc]
    have htake := takeWhile_append_ends (p := fun c => !isWhitespace c) (by simp) hv hrest
    have hdrop : (v ++ rest).dropWhile (fun c => !isWhitespace c) = rest := by
      rw [← drop_length_takeWhile, htake, List.drop_left]
    simp only [htake, hdrop]

theorem next_display_of_not_plain (h : e.Parsed) (hplain : ¬ e.Plain) (hrest : Ends rest) :
    ∃ e' tail, next (e.display ++ rest) = (some (.ok e'), tail) ∧ e' ≠ e := by
  rw [next_display h hrest]
  obtain ⟨key, value⟩ := e
  unfold Entry.Plain at hplain
  simp only [not_forall] at hplain
  obtain ⟨v, hv, c, hc, hspace⟩ := hplain
  cases hv
  refine ⟨_, _, rfl, fun heq => ?_⟩
  have htake := Option.some.inj (congrArg Entry.value heq)
  have hplain := List.mem_takeWhile_imp (htake ▸ hc)
  simp_all

theorem items_space (data : List Char) : items (' ' :: data) = items data := by
  have hnext : next (' ' :: data) = next data := by
    have hskip : (' ' :: data).dropWhile isWhitespace = data.dropWhile isWhitespace := rfl
    simp only [next, parseKey, hskip]
  rw [items, items.eq_def data]
  split <;> split <;> simp_all

theorem items_printed_cons (h : e.Parsed) (hplain : e.Plain) :
    items (printed (e :: es)) = .ok e :: items (printed es) := by
  cases es with
  | nil =>
    have hnext := next_display_of_plain h hplain (show Ends [] from nofun)
    rw [List.append_nil] at hnext
    exact items_of_next hnext
  | cons e' es =>
    have hspace : Ends (' ' :: printed (e' :: es)) := by
      rintro c hc
      cases hc
      rfl
    rw [printed, items_of_next (next_display_of_plain h hplain hspace), items_space]
    exact nofun

theorem items_printed_ne (h : e.Parsed) (hplain : ¬ e.Plain) : items (printed (e :: es)) ≠ (e :: es).map .ok := by
  obtain ⟨rest, hprinted, hrest⟩ : ∃ rest, printed (e :: es) = e.display ++ rest ∧ Ends rest := by
    cases es with
    | nil => exact ⟨[], (List.append_nil _).symm, nofun⟩
    | cons e' es =>
      refine ⟨_, rfl, ?_⟩
      rintro c hc
      cases hc
      rfl
  obtain ⟨e', tail, hnext, hne⟩ := next_display_of_not_plain h hplain hrest
  rw [hprinted, items_of_next hnext]
  intro heq
  exact hne (Except.ok.inj (List.cons.inj heq).1)

/-- **Entries survive printing exactly if no value has white space in it.** Values that are empty or contain
equals signs do; a quoted value with a space does not. -/
theorem entries_survive_iff (data : List Char) (es : List Entry) (h : items data = es.map .ok) :
    items (printed es) = es.map .ok ↔ ∀ e ∈ es, ∀ v, e.value = some v → ∀ c ∈ v, isWhitespace c = false := by
  have hparsed := parsed_of_items h
  clear h
  induction es with
  | nil =>
    have hnil : items (printed []) = [] := items_of_blank rfl
    simp [hnil]
  | cons e es ih =>
    have he := hparsed e List.mem_cons_self
    have htail := ih fun x hx => hparsed x (List.mem_cons_of_mem e hx)
    by_cases hplain : e.Plain
    · rw [items_printed_cons he hplain, List.map_cons, List.cons.injEq, List.forall_mem_cons]
      exact and_congr (iff_of_true rfl hplain) htail
    · exact iff_of_false (items_printed_ne he hplain) fun hall => hplain (hall e List.mem_cons_self)

theorem entries_survive_empty :
    items (printed [⟨['a'], some []⟩, ⟨['b'], some ['=']⟩]) = [.ok ⟨['a'], some []⟩, .ok ⟨['b'], some ['=']⟩] :=
  (entries_survive_iff "a=\"\" b==".toList [⟨['a'], some []⟩, ⟨['b'], some ['=']⟩] (by decide +kernel)).2 <| by
    intro e he v hv
    rcases List.mem_pair.1 he with rfl | rfl
    · cases hv
      exact nofun
    · cases hv
      intro c hc
      cases List.mem_singleton.1 hc
      decide

/-- The quotes around a space are lost. -/
theorem quoted_space_lost :
    items "a=\"b c\"".toList = [.ok ⟨['a'], some ['b', ' ', 'c']⟩] ∧
      items (printed [⟨['a'], some ['b', ' ', 'c']⟩]) = [.ok ⟨['a'], some ['b']⟩, .ok ⟨['c'], none⟩] := by
  decide +kernel

end Gbl.BootParams
