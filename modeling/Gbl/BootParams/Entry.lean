import Gbl.Error

/-!
# Command line entries (`libbootparams`, `entry.rs`)

A command line is a list of `key` and `key=value`, separated by white space; a value may be quoted.
-/

namespace Gbl.BootParams

open Lib

def isWhitespace (c : Char) : Bool :=
  (0x9 ≤ c.toNat && c.toNat ≤ 0xd) || c.toNat == 0x20 || c.toNat == 0x85 || c.toNat == 0xa0 || c.toNat == 0x1680 ||
    (0x2000 ≤ c.toNat && c.toNat ≤ 0x200a) || c.toNat == 0x2028 || c.toNat == 0x2029 || c.toNat == 0x202f ||
    c.toNat == 0x205f || c.toNat == 0x3000

structure Entry where
  key : List Char
  value : Option (List Char)
  deriving DecidableEq, Repr

def Entry.pieces (e : Entry) : List (List Char) :=
  match e.value with
  | some value => [e.key, ['='], value]
  | none => [e.key]

namespace CommandlineParser

def parseKey (data : List Char) : Option (List Char) × List Char :=
  let remains := data.dropWhile isWhitespace
  let key := remains.takeWhile fun c => !isWhitespace c && c != '='
  (if key.isEmpty then none else some key, remains.drop key.length)

def parseAssigned (data : List Char) : Result (List Char) × List Char :=
  match data with
  | '"' :: data =>
    let value := data.takeWhile (· != '"')
    match data.drop value.length with
    | '"' :: rest => (.ok value, rest)
    | _ => (err .invalidInput, [])
  | _ =>
    let value := data.takeWhile fun c => !isWhitespace c
    (.ok value, data.drop value.length)

def parseValue (data : List Char) : Result (Option (List Char)) × List Char :=
  match data with
  | [] => (.ok none, [])
  | c :: rest =>
    if c = '=' then
      let value := parseAssigned rest
      (value.1.map some, value.2)
    else if isWhitespace c then (.ok none, data)
    else (err .invalidInput, [])

def next (data : List Char) : Option (Result Entry) × List Char :=
  match parseKey data with
  | (none, remains) => (none, remains)
  | (some key, remains) =>
    let value := parseValue remains
    (some (value.1.map fun value => ⟨key, value⟩), value.2)

theorem length_parseAssigned (data : List Char) : (parseAssigned data).2.length ≤ data.length := by
  unfold parseAssigned
  split
  · next data =>
    simp only
    split
    · next rest hrest =>
      have hlen := congrArg List.length hrest
      simp only [List.length_drop, List.length_cons] at hlen ⊢
      omega
    · exact Nat.zero_le _
  · simp

theorem length_parseValue (data : List Char) : (parseValue data).2.length ≤ data.length := by
  cases data with
  | nil => exact Nat.le_refl _
  | cons c rest =>
    have hassigned := length_parseAssigned rest
    simp only [parseValue]
    split
    · rw [List.length_cons]
      exact Nat.le_succ_of_le hassigned
    · split
      · exact Nat.le_refl _
      · exact Nat.zero_le _

theorem length_parseKey_lt {data key remains : List Char} (h : parseKey data = (some key, remains)) :
    remains.length < data.length := by
  unfold parseKey at h
  obtain ⟨hkey, rfl⟩ := Prod.mk.inj h
  have hskip : (data.dropWhile isWhitespace).length ≤ data.length := (List.dropWhile_suffix _).length_le
  split at hkey
  · cases hkey
  · next hne =>
    have htake : 0 < ((data.dropWhile isWhitespace).takeWhile fun c => !isWhitespace c && c != '=').length :=
      List.length_pos_iff.2 (by simpa using hne)
    have hle := (List.takeWhile_sublist (l := data.dropWhile isWhitespace)
      (fun c => !isWhitespace c && c != '=')).length_le
    rw [List.length_drop]
    omega

theorem length_next_lt {data remains : List Char} {item : Result Entry} (h : next data = (some item, remains)) :
    remains.length < data.length := by
  unfold next at h
  split at h
  · cases h
  · next key rest hkey =>
    have hlt := length_parseKey_lt hkey
    have hle := length_parseValue rest
    obtain ⟨-, rfl⟩ := Prod.mk.inj h
    exact Nat.lt_of_le_of_lt hle hlt

def items (data : List Char) : List (Result Entry) :=
  match _h : next data with
  | (none, _) => []
  | (some (.ok entry), remains) => .ok entry :: items remains
  | (some (.error e), _) => [.error e]
termination_by data.length
decreasing_by exact length_next_lt _h

end CommandlineParser
end Gbl.BootParams
