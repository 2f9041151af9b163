import Gbl.Error

/-!
# The pool of download buffers (`libgbl/src/fastboot/buffer_pool.rs`)

A slot of the pool that is lent out holds an empty buffer, and so does a slot that was empty from the start.
-/

namespace Gbl.Fastboot.BufferPool

open Lib
open scoped List

structure BufferType (β : Type) where
  len : β → Nat
  empty : β
  len_empty : len empty = 0

section Model

variable {β : Type} (T : BufferType β)

/-- The first buffer that is not empty, and the pool without it. The argument of `then_some` is evaluated first, so
`take` also leaves the default in the empty slots that are passed over. -/
def allocate : List β → Option β × List β
  | [] => (none, [])
  | v :: vs =>
    if 0 < T.len v then (some v, T.empty :: vs)
    else ((allocate vs).1, T.empty :: (allocate vs).2)

def deallocate (buf : β) : List β → Result (List β)
  | [] => panic
  | v :: vs =>
    if T.len v = 0 then .ok (buf :: vs)
    else do
      let vs ← deallocate buf vs
      pure (v :: vs)

structure Shared (β : Type) where
  pool : List β
  live : List β

inductive Op where
  | allocate
  /-- One of the live buffers goes out of scope. -/
  | drop (i : Nat)
  deriving DecidableEq, Repr

def step (s : Shared β) : Op → Result (Shared β)
  | .allocate =>
    match allocate T s.pool with
    | (some b, pool) => .ok ⟨pool, s.live ++ [b]⟩
    | (none, pool) => .ok ⟨pool, s.live⟩
  | .drop i =>
    match s.live[i]? with
    | some b => do
      let pool ← deallocate T b s.pool
      pure ⟨pool, s.live.eraseIdx i⟩
    | none => .ok s

def run (s : Shared β) : List Op → Result (Shared β)
  | [] => .ok s
  | op :: ops => do
    let s ← step T s op
    run s ops

def stock (pool : List β) : List β := pool.filter fun b => 0 < T.len b

end Model

variable {β : Type} {T : BufferType β} {b : β} {pool pool' init : List β} {s s' : Shared β}

@[simp] theorem stock_cons_of_pos {vs : List β} (h : 0 < T.len b) : stock T (b :: vs) = b :: stock T vs := by
  simp [stock, h]

@[simp] theorem stock_cons_of_empty {vs : List β} (h : T.len b = 0) : stock T (b :: vs) = stock T vs := by
  simp [stock, h]

theorem allocate_pool (T : BufferType β) (pool : List β) : (allocate T pool).2.length = pool.length ∧
    ((allocate T pool).1.toList ++ stock T (allocate T pool).2).Perm (stock T pool) := by
  induction pool with
  | nil => exact ⟨rfl, .refl _⟩
  | cons v vs ih =>
    unfold allocate
    split
    · next hv =>
      rw [stock_cons_of_empty T.len_empty, stock_cons_of_pos hv]
      exact ⟨rfl, .refl _⟩
    · next hv =>
      rw [stock_cons_of_empty T.len_empty, stock_cons_of_empty (Nat.eq_zero_of_not_pos hv), List.length_cons,
        List.length_cons, ih.1]
      exact ⟨rfl, ih.2⟩

theorem allocate_pos (h : (allocate T pool).1 = some b) : 0 < T.len b := by
  induction pool with
  | nil => cases h
  | cons v vs ih =>
    unfold allocate at h
    split at h
    · next hv =>
      cases h
      exact hv
    · exact ih h

theorem allocate_eq_none_iff : (allocate T pool).1 = none ↔ stock T pool = [] := by
  induction pool with
  | nil => exact iff_of_true rfl rfl
  | cons v vs ih =>
    unfold allocate
    split
    · next hv =>
      rw [stock_cons_of_pos hv]
      exact iff_of_false (Option.some_ne_none _) (List.cons_ne_nil _ _)
    · next hv => rw [stock_cons_of_empty (Nat.eq_zero_of_not_pos hv), ih]

theorem deallocate_run (hb : 0 < T.len b) (h : (stock T pool).length < pool.length) :
    ∃ pool', deallocate T b pool = .ok pool' ∧ pool'.length = pool.length ∧
      (stock T pool').Perm (b :: stock T pool) := by
  induction pool with
  | nil => exact absurd h (Nat.lt_irrefl 0)
  | cons v vs ih =>
    unfold deallocate
    by_cases hv : T.len v = 0
    · rw [if_pos hv, stock_cons_of_empty hv]
      exact ⟨_, rfl, rfl, by rw [stock_cons_of_pos hb]⟩
    · have hpos : 0 < T.len v := Nat.pos_of_ne_zero hv
      rw [stock_cons_of_pos hpos] at h ⊢
      obtain ⟨vs', hrun, hlen, hperm⟩ := ih (Nat.lt_of_succ_lt_succ h)
      rw [if_neg hv, hrun, Res.ok_bind]
      refine ⟨_, rfl, by rw [List.length_cons, List.length_cons, hlen], ?_⟩
      rw [stock_cons_of_pos hpos]
      exact (hperm.cons v).trans (.swap ..)

structure Accounts (T : BufferType β) (init : List β) (s : Shared β) : Prop where
  slots : s.pool.length = init.length
  live_pos : ∀ b ∈ s.live, 0 < T.len b
  perm : (stock T s.pool ++ s.live).Perm (stock T init)

theorem Accounts.step_allocate (h : Accounts T init s) : ∃ s', step T s .allocate = .ok s' ∧ Accounts T init s' := by
  obtain ⟨hlen, hperm⟩ := allocate_pool T s.pool
  have hpos : ∀ b, (allocate T s.pool).1 = some b → 0 < T.len b := fun _ => allocate_pos
  unfold step
  generalize allocate T s.pool = r at hlen hperm hpos ⊢
  obtain ⟨_ | b, pool⟩ := r
  · exact ⟨⟨pool, s.live⟩, rfl, hlen.trans h.slots, h.live_pos, (hperm.append_right _).trans h.perm⟩
  · refine ⟨⟨pool, s.live ++ [b]⟩, rfl, hlen.trans h.slots, ?_, ?_⟩
    · intro x hx
      rcases List.mem_append.1 hx with hx | hx
      · exact h.live_pos x hx
      · cases List.mem_singleton.1 hx
        exact hpos b rfl
    · calc stock T pool ++ (s.live ++ [b])
          _ ~ b :: (stock T pool ++ s.live) := by
            rw [← List.append_assoc]
            exact List.perm_append_singleton ..
          _ ~ stock T s.pool ++ s.live := hperm.append_right _
          _ ~ stock T init := h.perm

theorem Accounts.step_drop (h : Accounts T init s) (i : Nat) :
    ∃ s', step T s (.drop i) = .ok s' ∧ Accounts T init s' := by
  cases hi : s.live[i]? with
  | none => exact ⟨s, by simp only [step, hi], h⟩
  | some b =>
    obtain ⟨hlt, hget⟩ := List.getElem?_eq_some_iff.1 hi
    have herase : (b :: s.live.eraseIdx i).Perm s.live := hget ▸ List.getElem_cons_eraseIdx_perm hlt
    have hroom : (stock T s.pool).length < s.pool.length := by
      have hcount := h.perm.length_eq
      have hle : (stock T init).length ≤ init.length := List.length_filter_le ..
      rw [List.length_append] at hcount
      rw [h.slots]
      omega
    obtain ⟨pool, hrun, hlen, hperm⟩ := deallocate_run (h.live_pos b (List.mem_of_getElem? hi)) hroom
    refine ⟨⟨pool, s.live.eraseIdx i⟩, by simp only [step, hi, hrun, Res.ok_bind]; rfl, hlen.trans h.slots, ?_, ?_⟩
    · intro x hx
      exact h.live_pos x (List.mem_of_mem_eraseIdx hx)
    · calc stock T pool ++ s.live.eraseIdx i
          _ ~ b :: stock T s.pool ++ s.live.eraseIdx i := hperm.append_right _
          _ ~ stock T s.pool ++ b :: s.live.eraseIdx i := List.perm_middle.symm
          _ ~ stock T s.pool ++ s.live := herase.append_left _
          _ ~ stock T init := h.perm

theorem Accounts.run (h : Accounts T init s) (ops : List Op) : ∃ s', run T s ops = .ok s' ∧ Accounts T init s' := by
  induction ops generalizing s with
  | nil => exact ⟨s, rfl, h⟩
  | cons op ops ih =>
    obtain ⟨s₁, hstep, h₁⟩ : ∃ s₁, step T s op = .ok s₁ ∧ Accounts T init s₁ := by
      cases op with
      | allocate => exact h.step_allocate
      | drop i => exact h.step_drop i
    obtain ⟨s', hrun, h'⟩ := ih h₁
    exact ⟨s', by rw [BufferPool.run, hstep, Res.ok_bind, hrun], h'⟩

/-- **Buffers are neither lost nor duplicated.** Whatever is allocated and dropped, in any order: no drop panics, what
is in the pool and what is in use are together the initial buffers, and `allocate` fails only if all are in use. -/
theorem buffers_conserved (T : BufferType β) (init : List β) (ops : List Op) :
    ∃ s, run T ⟨init, []⟩ ops = .ok s ∧ (stock T s.pool ++ s.live).Perm (stock T init) ∧
      s.pool.length = init.length ∧ ((allocate T s.pool).1 = none ↔ s.live.Perm (stock T init)) ∧
      (s.live = [] → (stock T s.pool).Perm (stock T init)) := by
  have hinit : Accounts T init ⟨init, []⟩ := ⟨rfl, fun b hb => absurd hb List.not_mem_nil, by rw [List.append_nil]⟩
  obtain ⟨s, hrun, h⟩ := hinit.run ops
  refine ⟨s, hrun, h.perm, h.slots, ?_, ?_⟩
  · rw [allocate_eq_none_iff]
    constructor
    · intro hnone
      have hperm := h.perm
      rwa [hnone, List.nil_append] at hperm
    · intro hall
      have hlen := (h.perm.trans hall.symm).length_eq
      rw [List.length_append] at hlen
      exact List.length_eq_zero_iff.1 (by omega)
  · intro hnone
    have hperm := h.perm
    rwa [hnone, List.append_nil] at hperm

end Gbl.Fastboot.BufferPool
