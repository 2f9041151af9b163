import Gbl.Slots.Basic

/-!
# The order in which slots are tried

A manager's slots, sorted by priority and then by suffix, are a list of options to fall back along: a successful slot
may be booted for ever, a retriable one as often as its counter says.
-/

namespace Gbl.Slots

open Lib

def Bootability.usability : Bootability → Usability
  | .successful => .good
  | .unbootable _ => .left 0
  | .retriable tries => .left tries

namespace Bootability

theorem eq_successful {b : Bootability} (h : b.usability = .good) : b = .successful := by
  cases b <;> simp_all [usability]

theorem eq_retriable {b : Bootability} {n : Nat} (h : b.usability = .left (n + 1)) : b = .retriable (n + 1) := by
  cases b <;> simp_all [usability]

end Bootability

namespace Slot

def Sound (s : Slot) : Prop := s.bootability ≠ .retriable 0

def option (s : Slot) : Char × Usability := (s.suffix, s.bootability.usability)

theorem isBootable_eq {s : Slot} (h : s.Sound) : s.isBootable = s.bootability.usability.usable := by
  unfold Sound at h
  unfold isBootable Bootability.usability Usability.usable
  cases hs : s.bootability with
  | successful => rfl
  | unbootable reason => rfl
  | retriable tries => simp_all; omega

theorem suffix_eq_of_key {s t : Slot} (h : s.key = t.key) : s.suffix = t.suffix := by
  have hrank : s.rank = t.rank := congrArg (fun k => (ofLex k).2) h
  have hnat : s.suffix.toNat = t.suffix.toNat := by
    unfold rank at hrank
    omega
  exact Char.toNat_inj.mp hnat

end Slot

def ordered (slots : List Slot) : List Slot := slots.insertionSort fun a b => b.key ≤ a.key

def ranking (slots : List Slot) : Options Char := (ordered slots).map Slot.option

structure Proper (slots : List Slot) : Prop where
  nodup : (slots.map Slot.suffix).Nodup
  sound : ∀ s ∈ slots, s.Sound

variable {slots : List Slot}

theorem ordered_perm (slots : List Slot) : (ordered slots).Perm slots := List.perm_insertionSort _ _

theorem ordered_sorted (slots : List Slot) : (ordered slots).Pairwise fun a b => b.key ≤ a.key :=
  List.pairwise_insertionSort (fun a b : Slot => b.key ≤ a.key) slots

theorem next_map_option (hs : ∀ s ∈ slots, s.Sound) :
    Options.next (slots.map Slot.option) = (slots.filter Slot.isBootable).head?.map Slot.option := by
  induction slots with
  | nil => rfl
  | cons s rest ih =>
    have hb := Slot.isBootable_eq (hs s (List.mem_cons_self ..))
    have hrest := ih fun t ht => hs t (List.mem_cons_of_mem s ht)
    simp only [List.map_cons, Slot.option, Options.next, ← hb]
    cases hcase : s.isBootable with
    | true => simp [hcase, Slot.option]
    | false => simpa [hcase] using hrest

theorem bestBootable_eq (h : Proper slots) : (bestBootable slots).map Slot.option = (ranking slots).next := by
  have hperm := (ordered_perm slots).filter Slot.isBootable
  have hsorted := (ordered_sorted slots).filter Slot.isBootable
  have hinj : ∀ a ∈ slots.filter Slot.isBootable, ∀ b ∈ slots.filter Slot.isBootable, a.key = b.key → a = b := by
    intro a ha b hb hkey
    exact List.inj_on_of_nodup_map h.nodup (List.mem_of_mem_filter ha) (List.mem_of_mem_filter hb)
      (Slot.suffix_eq_of_key hkey)
  rw [bestBootable, maxByKey_eq_head? hperm hsorted hinj, ranking, next_map_option]
  intro s hs
  exact h.sound s ((ordered_perm slots).mem_iff.mp hs)

structure Attempted (suffix : Char) (s t : Slot) : Prop where
  suffix_eq : t.suffix = s.suffix
  priority_eq : t.priority = s.priority
  option_eq : t.option = Options.spendAt suffix s.option

theorem ranking_map {f : Slot → Slot} {suffix : Char} (hf : ∀ s ∈ slots, Attempted suffix s (f s)) :
    ranking (slots.map f) = (ranking slots).map (Options.spendAt suffix) := by
  have hkey : ∀ s ∈ slots, (f s).key = s.key := by
    intro s hs
    simp only [Slot.key, Slot.rank, (hf s hs).suffix_eq, (hf s hs).priority_eq]
  have hsort : ordered (slots.map f) = (ordered slots).map f := by
    refine (List.map_insertionSort (fun a b : Slot => b.key ≤ a.key) (fun a b : Slot => b.key ≤ a.key) f
      slots ?_).symm
    intro a ha b hb
    rw [hkey a ha, hkey b hb]
  rw [ranking, ranking, hsort, List.map_map, List.map_map]
  refine List.map_congr_left fun s hs => ?_
  exact (hf s ((ordered_perm slots).mem_iff.mp hs)).option_eq

theorem nodup_ranking (h : Proper slots) : ((ranking slots).map Prod.fst).Nodup := by
  have hmap : (ranking slots).map Prod.fst = (ordered slots).map Slot.suffix := by
    rw [ranking, List.map_map]
    rfl
  rw [hmap]
  exact ((ordered_perm slots).map Slot.suffix).nodup_iff.mpr h.nodup

def totalTries (slots : List Slot) : Nat := (slots.map fun s => s.bootability.usability.counter).sum

theorem length_attempts_ranking_le (slots : List Slot) : (ranking slots).attempts.length ≤ totalTries slots := by
  refine (Options.length_attempts_le _).trans_eq ?_
  rw [ranking, List.map_map]
  exact ((ordered_perm slots).map _).sum_nat

theorem settled_ranking_eq_none_iff (slots : List Slot) :
    (ranking slots).settled = none ↔ ∀ s ∈ slots, s.bootability ≠ .successful := by
  have hgood : ∀ s : Slot, s.option.2 = .good ↔ s.bootability = .successful := by
    intro s
    unfold Slot.option Bootability.usability
    cases s.bootability <;> simp
  rw [Options.settled_eq_none_iff, ranking]
  simp only [List.mem_map, forall_exists_index, and_imp, forall_apply_eq_imp_iff₂, ne_eq, hgood,
    (ordered_perm slots).mem_iff]

end Gbl.Slots
