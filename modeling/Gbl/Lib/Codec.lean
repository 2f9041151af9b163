import Gbl.Lib.Bytes

/-!
# Fixed-width binary layouts

A packed record in memory is its bytes: every byte string of the right length is one and writing the record back gives
the bytes again.
-/

namespace Gbl.Lib

/-- A bijection between `α` and the byte strings of length `width`. -/
structure Codec (α : Type) where
  width : Nat
  enc : α → List UInt8
  dec : List UInt8 → α
  length_enc : ∀ a, (enc a).length = width
  dec_enc : ∀ a, dec (enc a) = a
  enc_dec : ∀ bs, bs.length = width → enc (dec bs) = bs

namespace Codec

variable {α β : Type}

/-- A record of two fields. -/
def pair (c : Codec α) (d : Codec β) : Codec (α × β) where
  width := c.width + d.width
  enc p := c.enc p.1 ++ d.enc p.2
  dec bs := (c.dec (bs.take c.width), d.dec (bs.drop c.width))
  length_enc p := by rw [List.length_append, c.length_enc, d.length_enc]
  dec_enc p := by
    rw [List.take_left' (c.length_enc _), List.drop_left' (c.length_enc _), c.dec_enc, d.dec_enc]
  enc_dec bs h := by
    rw [c.enc_dec _ (by rw [List.length_take]; omega), d.enc_dec _ (by rw [List.length_drop]; omega),
      List.take_append_drop]

/-- The same layout for another presentation of the same values. -/
def iso (c : Codec α) (e : β ≃ α) : Codec β where
  width := c.width
  enc b := c.enc (e b)
  dec bs := e.symm (c.dec bs)
  length_enc b := c.length_enc _
  dec_enc b := by rw [c.dec_enc, e.symm_apply_apply]
  enc_dec bs h := by rw [e.apply_symm_apply, c.enc_dec bs h]

def reversed (c : Codec α) : Codec α where
  width := c.width
  enc a := (c.enc a).reverse
  dec bs := c.dec bs.reverse
  length_enc a := by rw [List.length_reverse, c.length_enc]
  dec_enc a := by rw [List.reverse_reverse, c.dec_enc]
  enc_dec bs h := by rw [c.enc_dec _ (by rw [List.length_reverse, h]), List.reverse_reverse]

/-- A little-endian word of `k` bytes. -/
def word (k : Nat) (toNat : α → Nat) (ofNat : Nat → α) (hlt : ∀ a, toNat a < 256 ^ k)
    (hof : ∀ a, ofNat (toNat a) = a) (hto : ∀ n, n < 256 ^ k → toNat (ofNat n) = n) : Codec α where
  width := k
  enc a := leBytes k (toNat a)
  dec bs := ofNat (leValue bs)
  length_enc a := length_leBytes _ _
  dec_enc a := by rw [leValue_leBytes (hlt a), hof]
  enc_dec bs h := by
    subst h
    rw [hto _ (leValue_lt bs), leBytes_leValue]

def u8 : Codec UInt8 :=
  word 1 UInt8.toNat UInt8.ofNat (fun a => a.toNat_lt) (fun _ => UInt8.ofNat_toNat)
    (fun _ h => UInt8.toNat_ofNat_of_lt' h)

def u16 : Codec UInt16 :=
  word 2 UInt16.toNat UInt16.ofNat (fun a => a.toNat_lt) (fun _ => UInt16.ofNat_toNat)
    (fun _ h => UInt16.toNat_ofNat_of_lt' h)

/-- A word of 16 bits, where the bits are what matters. -/
def bits16 : Codec (BitVec 16) :=
  word 2 BitVec.toNat (BitVec.ofNat 16) (fun a => a.isLt) (fun a => BitVec.ofNat_toNat 16 a |>.trans (by simp))
    (fun _ h => by simp only [BitVec.toNat_ofNat]; exact Nat.mod_eq_of_lt h)

def u32 : Codec UInt32 :=
  word 4 UInt32.toNat UInt32.ofNat (fun a => a.toNat_lt) (fun _ => UInt32.ofNat_toNat)
    (fun _ h => UInt32.toNat_ofNat_of_lt' h)

def u64 : Codec UInt64 :=
  word 8 UInt64.toNat UInt64.ofNat (fun a => a.toNat_lt) (fun _ => UInt64.ofNat_toNat)
    (fun _ h => UInt64.toNat_ofNat_of_lt' h)

/-! ## Arrays -/

section Arrays

variable (c : Codec α)

/-- The bytes of an array. -/
def encAll (l : List α) : List UInt8 := l.flatMap c.enc

/-- The `n` elements that `bs` starts with. -/
def decAll : Nat → List UInt8 → List α
  | 0, _ => []
  | n + 1, bs => c.dec (bs.take c.width) :: decAll n (bs.drop c.width)

@[simp] theorem encAll_nil : c.encAll [] = [] := rfl

@[simp] theorem encAll_cons (a : α) (l : List α) : c.encAll (a :: l) = c.enc a ++ c.encAll l := by
  simp [encAll]

theorem encAll_append (l m : List α) : c.encAll (l ++ m) = c.encAll l ++ c.encAll m := by
  simp [encAll]

@[simp] theorem length_encAll (l : List α) : (c.encAll l).length = l.length * c.width := by
  induction l with
  | nil => simp
  | cons a l ih => simp [ih, c.length_enc, Nat.add_mul, Nat.add_comm]

@[simp] theorem length_decAll (n : Nat) (bs : List UInt8) : (c.decAll n bs).length = n := by
  induction n generalizing bs with
  | zero => rfl
  | succ n ih => simp [decAll, ih]

theorem decAll_encAll_append (l : List α) (rest : List UInt8) : c.decAll l.length (c.encAll l ++ rest) = l := by
  induction l with
  | nil => rfl
  | cons a l ih =>
    rw [List.length_cons, decAll, encAll_cons, List.append_assoc, List.take_left' (c.length_enc a),
      List.drop_left' (c.length_enc a), c.dec_enc, ih]

theorem decAll_encAll (l : List α) : c.decAll l.length (c.encAll l) = l := by
  have h := c.decAll_encAll_append l []
  rwa [List.append_nil] at h

theorem encAll_decAll (n : Nat) (bs : List UInt8) (h : bs.length = n * c.width) : c.encAll (c.decAll n bs) = bs := by
  induction n generalizing bs with
  | zero =>
    rw [Nat.zero_mul] at h
    rw [List.eq_nil_of_length_eq_zero h]
    rfl
  | succ n ih =>
    rw [Nat.succ_mul] at h
    rw [decAll, encAll_cons, c.enc_dec _ (by rw [List.length_take]; omega),
      ih _ (by rw [List.length_drop]; omega), List.take_append_drop]

theorem decAll_append {n : Nat} {bs : List UInt8} (rest : List UInt8) (h : bs.length = n * c.width) :
    c.decAll n (bs ++ rest) = c.decAll n bs := by
  have hself := c.decAll_encAll_append (c.decAll n bs) rest
  rwa [length_decAll, c.encAll_decAll n bs h] at hself

theorem decAll_splice_encAll {l : List α} {k : Nat} {bs : List UInt8} (hk : k ≤ l.length)
    (hbs : bs.length = k * c.width) :
    c.decAll l.length (splice (c.encAll l) 0 bs) = c.decAll k bs ++ l.drop k := by
  have hsplit : c.encAll l = c.encAll (l.take k) ++ c.encAll (l.drop k) := by
    rw [← encAll_append, List.take_append_drop]
  have hlen : (c.encAll (l.take k)).length = k * c.width := by
    rw [length_encAll, List.length_take, Nat.min_eq_left hk]
  have hcount : l.length = (c.decAll k bs ++ l.drop k).length := by
    rw [List.length_append, length_decAll, List.length_drop, Nat.add_sub_cancel' hk]
  rw [splice_zero, hbs, hsplit, List.drop_left' hlen, ← c.encAll_decAll k bs hbs, ← encAll_append,
    hcount, c.encAll_decAll k bs hbs]
  exact c.decAll_encAll _

/-- An array whose length is part of its type. -/
def vector (n : Nat) : Codec (Vector α n) where
  width := n * c.width
  enc v := c.encAll v.toList
  dec bs := ⟨(c.decAll n bs).toArray, by simp⟩
  length_enc v := by simp
  dec_enc v := by
    have h := c.decAll_encAll v.toList
    rw [Vector.length_toList] at h
    apply Vector.toList_inj.mp
    simp [h]
  enc_dec bs h := by simpa using c.encAll_decAll n bs h

end Arrays

end Codec

end Gbl.Lib
