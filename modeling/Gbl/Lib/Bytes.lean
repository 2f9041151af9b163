import Mathlib

/-!
# Byte stores, slices and little-endian words

A device is addressed by byte position, so its content is a function from positions to bytes; a buffer is a list of
bytes.
-/

namespace Gbl.Lib

/-- The content of a byte-addressed medium. -/
abbrev Content := Nat → UInt8

/-! ## Slices of a store -/

/-- The `len` bytes of `c` from position `off` on. -/
def slice (c : Content) (off len : Nat) : List UInt8 := (List.range len).map fun i => c (off + i)

@[simp] theorem length_slice (c : Content) (off len : Nat) : (slice c off len).length = len := by
  simp [slice]

@[simp] theorem slice_zero (c : Content) (off : Nat) : slice c off 0 = [] := rfl

theorem slice_add (c : Content) (off m n : Nat) : slice c off (m + n) = slice c off m ++ slice c (off + m) n := by
  unfold slice
  rw [List.range_add, List.map_append, List.map_map]
  congr 2
  funext i
  simp [Nat.add_assoc]

variable {len i k n : Nat} {c : Content} {off : Nat} {d : List UInt8}

theorem getElem?_slice (c : Content) (off : Nat) (h : i < len) : (slice c off len)[i]? = some (c (off + i)) := by
  simp [slice, h]

theorem take_slice (c : Content) (off : Nat) (h : k ≤ n) : (slice c off n).take k = slice c off k := by
  obtain ⟨d, rfl⟩ := Nat.exists_eq_add_of_le h
  rw [slice_add, List.take_left' (length_slice c off k)]

theorem drop_slice (c : Content) (off : Nat) (h : k ≤ n) : (slice c off n).drop k = slice c (off + k) (n - k) := by
  obtain ⟨d, rfl⟩ := Nat.exists_eq_add_of_le h
  rw [slice_add, List.drop_left' (length_slice c off k), Nat.add_sub_cancel_left]

theorem take_drop_of_take_eq_slice {l : List UInt8} (hl : l.take n = slice c off n) (h : i + k ≤ n) :
    (l.drop i).take k = slice c (off + i) k := by
  rw [← take_slice c (off + i) (show k ≤ n - i by omega), ← drop_slice c off (by omega), ← hl,
    List.drop_take, List.take_take, Nat.min_eq_left (by omega)]

theorem slice_congr {d : Content} (h : ∀ i, off ≤ i → i < off + len → c i = d i) :
    slice c off len = slice d off len := by
  unfold slice
  apply List.map_congr_left
  intro i hi
  rw [List.mem_range] at hi
  exact h _ (by omega) (by omega)

/-! ## Overwriting a part of a buffer -/

section Splice

variable {α : Type}

/-- `l` with the elements from position `i` on replaced by `d`. -/
def splice (l : List α) (i : Nat) (d : List α) : List α := l.take i ++ d ++ l.drop (i + d.length)

variable {l : List α} {i : Nat} {d : List α}

theorem length_splice (h : i + d.length ≤ l.length) : (splice l i d).length = l.length := by
  simp only [splice, List.length_append, List.length_take, List.length_drop]
  omega

@[simp] theorem splice_nil (l : List α) (i : Nat) : splice l i [] = l := by
  simp [splice]

theorem splice_zero (l d : List α) : splice l 0 d = d ++ l.drop d.length := by
  simp [splice]

theorem splice_tail (h : i + d.length = l.length) : splice l i d = l.take i ++ d := by
  simp [splice, h]

theorem splice_take_drop (l : List α) (i n : Nat) (h : i + n ≤ l.length) : splice l i ((l.drop i).take n) = l := by
  have hlen : ((l.drop i).take n).length = n := by simp; omega
  unfold splice
  rw [hlen, List.append_assoc, ← List.drop_drop, List.take_append_drop, List.take_append_drop]

theorem getElem?_splice (h : i + d.length ≤ l.length) (j : Nat) :
    (splice l i d)[j]? = if i ≤ j ∧ j < i + d.length then d[j - i]? else l[j]? := by
  have hi : (l.take i).length = i := by rw [List.length_take]; omega
  unfold splice
  rcases Nat.lt_or_ge j i with hji | hij
  · rw [if_neg (by omega), List.append_assoc, List.getElem?_append_left (by omega), List.getElem?_take_of_lt hji]
  · rcases Nat.lt_or_ge j (i + d.length) with hjd | hdj
    · rw [if_pos ⟨hij, hjd⟩, List.getElem?_append_left (by rw [List.length_append]; omega),
        List.getElem?_append_right (by omega), hi]
    · rw [if_neg (by omega), List.getElem?_append_right (by rw [List.length_append]; omega),
        List.getElem?_drop, List.length_append, hi]
      congr 1
      omega

theorem take_drop_splice (h : i + d.length ≤ l.length) : ((splice l i d).drop i).take d.length = d := by
  have hi : (l.take i).length = i := by rw [List.length_take]; omega
  unfold splice
  rw [List.append_assoc, List.drop_left' hi, List.take_left]

theorem take_drop_splice_of_le {k j : Nat} (hij : i + k ≤ j) (h : j + d.length ≤ l.length) :
    ((splice l j d).drop i).take k = (l.drop i).take k := by
  apply List.ext_getElem?
  intro n
  rw [List.getElem?_take, List.getElem?_take]
  split
  · rw [List.getElem?_drop, List.getElem?_drop, getElem?_splice h, if_neg (by omega)]
  · rfl

theorem take_splice_end (h : i ≤ l.length) : (splice l i d).take (i + d.length) = l.take i ++ d :=
  List.take_left' (by rw [List.length_append, List.length_take, Nat.min_eq_left h])

theorem drop_splice_end (h : i ≤ l.length) : (splice l i d).drop (i + d.length) = l.drop (i + d.length) :=
  List.drop_left' (by rw [List.length_append, List.length_take, Nat.min_eq_left h])

theorem splice_splice {a b : List α} (h : i ≤ l.length) :
    splice (splice l i a) (i + a.length) b = splice l i (a ++ b) := by
  rw [splice, take_splice_end h, ← List.drop_drop, drop_splice_end h, List.drop_drop, splice,
    List.length_append, List.append_assoc (l.take i), Nat.add_assoc]

theorem splice_window {p : List α} {lo hi : Nat} (h : lo + p.length ≤ hi) (hhi : hi ≤ l.length) :
    splice l lo (p ++ ((l.take hi).drop lo).drop p.length) = splice l lo p := by
  have hkeep : l.drop (lo + p.length) = (l.take hi).drop (lo + p.length) ++ l.drop hi := by
    conv_lhs => rw [← List.take_append_drop hi l]
    rw [List.drop_append_of_le_length (by rw [List.length_take]; omega)]
  unfold splice
  rw [List.drop_drop, hkeep, List.length_append, List.length_drop, List.length_take,
    show lo + (p.length + (min hi l.length - (lo + p.length))) = hi by omega]
  simp only [List.append_assoc]

theorem drop_length_takeWhile (p : α → Bool) (l : List α) : l.drop (l.takeWhile p).length = l.dropWhile p := by
  have h : (l.takeWhile p ++ l.dropWhile p).drop (l.takeWhile p).length = l.dropWhile p := List.drop_left
  rwa [List.takeWhile_append_dropWhile] at h

theorem drop_splice (l d : List α) (k : Nat) (h : i + k ≤ l.length) :
    (splice l (i + k) d).drop i = splice (l.drop i) k d := by
  have hlen : i ≤ (l.take (i + k)).length := by
    rw [List.length_take]
    omega
  unfold splice
  rw [List.append_assoc, List.drop_append_of_le_length hlen, List.append_assoc, List.drop_take,
    Nat.add_sub_cancel_left, List.drop_drop, Nat.add_assoc]

theorem take_splice {n : Nat} (h : i + d.length ≤ n) (hn : n ≤ l.length) :
    (splice l i d).take n = splice (l.take n) i d := by
  have hlen : (l.take n).length = n := by rw [List.length_take]; omega
  apply List.ext_getElem?
  intro j
  rw [List.getElem?_take, getElem?_splice (by omega), getElem?_splice (by omega), List.getElem?_take]
  split
  · rfl
  · rw [if_neg (by omega)]

end Splice

/-! ## Writing to a store -/

/-- `c` with the bytes from position `off` on replaced by `d`. -/
def store (c : Content) (off : Nat) (d : List UInt8) : Content := fun i =>
  if off ≤ i ∧ i < off + d.length then d.getD (i - off) 0 else c i

theorem store_apply_of_not_mem (c : Content) (h : ¬ (off ≤ i ∧ i < off + d.length)) : store c off d i = c i := if_neg h

theorem store_apply_of_mem (c : Content) (h : off ≤ i ∧ i < off + d.length) :
    store c off d i = d[i - off]?.getD 0 := by
  unfold store
  rw [if_pos h, List.getD_eq_getElem?_getD]

@[simp] theorem store_nil (c : Content) (off : Nat) : store c off [] = c := by
  funext i
  exact store_apply_of_not_mem c (by simp only [List.length_nil]; omega)

theorem store_append (c : Content) (off : Nat) (a b : List UInt8) :
    store c off (a ++ b) = store (store c off a) (off + a.length) b := by
  funext i
  by_cases ha : off ≤ i ∧ i < off + a.length
  · rw [store_apply_of_mem c (d := a ++ b) (by simp; omega), store_apply_of_not_mem _ (by omega),
      store_apply_of_mem c ha, List.getElem?_append_left (by omega)]
  · by_cases hb : off + a.length ≤ i ∧ i < off + a.length + b.length
    · rw [store_apply_of_mem c (d := a ++ b) (by simp; omega), store_apply_of_mem _ hb,
        List.getElem?_append_right (by omega)]
      congr 2
      omega
    · rw [store_apply_of_not_mem c (d := a ++ b) (by simp; omega), store_apply_of_not_mem _ hb,
        store_apply_of_not_mem _ ha]

theorem store_comm (c : Content) {j : Nat} {a b : List UInt8} (h : i + a.length ≤ j ∨ j + b.length ≤ i) :
    store (store c i a) j b = store (store c j b) i a := by
  funext k
  by_cases ha : i ≤ k ∧ k < i + a.length
  · rw [store_apply_of_not_mem _ (by omega), store_apply_of_mem _ ha, store_apply_of_mem _ ha]
  · rw [store_apply_of_not_mem _ ha]
    by_cases hb : j ≤ k ∧ k < j + b.length
    · rw [store_apply_of_mem _ hb, store_apply_of_mem _ hb]
    · rw [store_apply_of_not_mem _ hb, store_apply_of_not_mem _ hb, store_apply_of_not_mem _ ha]

theorem slice_store (c : Content) (off : Nat) (d : List UInt8) : slice (store c off d) off d.length = d := by
  apply List.ext_getElem?
  intro i
  rcases Nat.lt_or_ge i d.length with hi | hi
  · rw [getElem?_slice _ _ hi, store_apply_of_mem c (by omega), Nat.add_sub_cancel_left,
      List.getElem?_eq_getElem hi, Option.getD_some]
  · rw [List.getElem?_eq_none (by rw [length_slice]; exact hi), List.getElem?_eq_none hi]

theorem slice_store_of_disjoint (c : Content) {off' : Nat} (h : off' + d.length ≤ off ∨ off + len ≤ off') :
    slice (store c off' d) off len = slice c off len :=
  slice_congr fun _ _ _ => store_apply_of_not_mem c (by omega)

theorem slice_store_prefix (c : Content) (off : Nat) (h : n ≤ d.length) : slice (store c off d) off n = d.take n := by
  rw [← take_slice _ _ h, slice_store]

theorem store_splice_slice (c : Content) (k : Nat) {rel : Nat} (h : rel + d.length ≤ n) :
    store c k (splice (slice c k n) rel d) = store c (k + rel) d := by
  have hle : rel + d.length ≤ (slice c k n).length := by rw [length_slice]; exact h
  have hlen : (splice (slice c k n) rel d).length = n := by
    rw [length_splice hle, length_slice]
  funext i
  by_cases hi : k ≤ i ∧ i < k + n
  · rw [store_apply_of_mem c (by rw [hlen]; exact hi), getElem?_splice hle]
    split
    · next hd =>
      rw [store_apply_of_mem c (by omega)]
      congr 2
      omega
    · next hd =>
      rw [store_apply_of_not_mem c (by omega), getElem?_slice c k (by omega), Option.getD_some]
      congr 1
      omega
  · rw [store_apply_of_not_mem c (by rw [hlen]; exact hi), store_apply_of_not_mem c (by omega)]

/-! ## Interrupted writes -/

def tear (c : Content) (off : Nat) (d : List UInt8) (done : Nat → Bool) : Content := fun i =>
  if done (i - off) then store c off d i else c i

def Torn (c : Content) (off : Nat) (d : List UInt8) (c' : Content) : Prop :=
  ∀ i, c' i = c i ∨ c' i = store c off d i

namespace Torn

variable {c c' : Content} {off : Nat} {a b d : List UInt8}

theorem refl (c : Content) (off : Nat) (d : List UInt8) : Torn c off d c := fun _ => Or.inl rfl

theorem of_store (c : Content) (off : Nat) (d : List UInt8) : Torn c off d (store c off d) := fun _ => Or.inr rfl

theorem of_tear (c : Content) (off : Nat) (d : List UInt8) (done : Nat → Bool) : Torn c off d (tear c off d done) := by
  intro i
  unfold tear
  split
  · exact Or.inr rfl
  · exact Or.inl rfl

theorem eq_of_not_mem (h : Torn c off d c') {i : Nat} (hi : ¬ (off ≤ i ∧ i < off + d.length)) : c' i = c i := by
  rcases h i with h | h
  · exact h
  · rw [h, store_apply_of_not_mem c hi]

theorem append_left (h : Torn c off a c') (b : List UInt8) : Torn c off (a ++ b) c' := by
  intro i
  by_cases hi : off ≤ i ∧ i < off + a.length
  · rcases h i with h | h
    · exact Or.inl h
    · refine Or.inr ?_
      rw [h, store_append, store_apply_of_not_mem (store c off a) (by omega)]
  · exact Or.inl (h.eq_of_not_mem hi)

theorem append_right (h : Torn c (off + a.length) b c') : Torn c off (a ++ b) c' := by
  intro i
  by_cases hi : off + a.length ≤ i ∧ i < off + a.length + b.length
  · rcases h i with h | h
    · exact Or.inl h
    · refine Or.inr ?_
      rw [h, store_append, store_apply_of_mem _ hi, store_apply_of_mem _ hi]
  · exact Or.inl (h.eq_of_not_mem hi)

theorem store_then (h : Torn (store c off a) (off + a.length) b c') : Torn c off (a ++ b) c' := by
  intro i
  rcases h i with h | h
  · rw [h]; exact (of_store c off a).append_left b i
  · rw [h, store_append]; exact Or.inr rfl

theorem then_store (h : Torn (store c (off + a.length) b) off a c') : Torn c off (a ++ b) c' := by
  intro i
  rcases h i with h | h
  · rw [h]; exact (of_store c (off + a.length) b).append_right i
  · rw [h, store_append, store_comm c (Or.inl (Nat.le_refl _))]; exact Or.inr rfl

end Torn

/-! ## Little-endian words -/

/-- The value of a byte string, least significant byte first. -/
def leValue : List UInt8 → Nat
  | [] => 0
  | b :: bs => b.toNat + 256 * leValue bs

/-- The `k` low bytes of `n`, least significant byte first. -/
def leBytes : Nat → Nat → List UInt8
  | 0, _ => []
  | k + 1, n => UInt8.ofNat n :: leBytes k (n / 256)

@[simp] theorem length_leBytes (k n : Nat) : (leBytes k n).length = k := by
  induction k generalizing n with
  | zero => rfl
  | succ k ih => rw [leBytes, List.length_cons, ih]

theorem leValue_lt (bs : List UInt8) : leValue bs < 256 ^ bs.length := by
  induction bs with
  | nil => decide
  | cons b bs ih =>
    have hb := b.toNat_lt
    rw [leValue, List.length_cons, Nat.pow_succ]
    omega

theorem leValue_leBytes (h : n < 256 ^ k) : leValue (leBytes k n) = n := by
  induction k generalizing n with
  | zero => simp only [Nat.pow_zero, Nat.lt_one_iff] at h; subst h; rfl
  | succ k ih =>
    rw [Nat.pow_succ] at h
    have hq : n / 256 < 256 ^ k := Nat.div_lt_of_lt_mul (by rw [Nat.mul_comm]; exact h)
    rw [leBytes, leValue, ih hq, UInt8.toNat_ofNat']
    omega

theorem leBytes_leValue (bs : List UInt8) : leBytes bs.length (leValue bs) = bs := by
  induction bs with
  | nil => rfl
  | cons b bs ih =>
    have hb := b.toNat_lt
    have hlow : UInt8.ofNat (b.toNat + 256 * leValue bs) = b := by
      apply UInt8.toNat_inj.mp
      rw [UInt8.toNat_ofNat']
      omega
    have hhigh : (b.toNat + 256 * leValue bs) / 256 = leValue bs := by omega
    rw [List.length_cons, leValue, leBytes, hlow, hhigh, ih]

end Gbl.Lib
