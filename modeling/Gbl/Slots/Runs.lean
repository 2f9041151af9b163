import Gbl.Slots.Calls

/-!
# Boot attempts in a run of a manager

A block has one boot token, and a boot attempt that is marked is paid with it.
-/

namespace Gbl.Slots

open Lib

inductive Step (σ : Type) where
  | call (c : Call)
  | writeBack (persist : List UInt8 → Exec Error σ (List UInt8))

structure Mark (α : Type) where
  before : SlotBlock α
  result : Result Unit
  after : SlotBlock α

def Mark.paid {α : Type} (m : Mark α) : Bool :=
  match m.result with
  | .ok _ => true
  | .error _ => false

namespace SlotManager

variable {α σ : Type} (M : SlotManager α)

def step : Step σ → Exec Error (SlotBlock α × σ) Unit
  | .call c => Exec.zoom (fun s => s.1) (fun s b => (b, s.2)) (M.call c)
  | .writeBack persist => SlotBlock.syncToDisk M.bytes persist

def mark (b : SlotBlock α) : Mark α := ⟨b, (M.markBootAttempt b).1, (M.markBootAttempt b).2⟩

def markOf (b : SlotBlock α) : Step σ → List (Mark α)
  | .call .markBootAttempt => [M.mark b]
  | _ => []

def marks : List (Step σ) → SlotBlock α × σ → List (Mark α)
  | [], _ => []
  | step :: rest, s =>
    M.markOf s.1 step ++ if (M.step step s).1.Returns then marks rest (M.step step s).2 else []

def consumed (m : Mark α) : Nat :=
  totalTries (M.slots m.before.data) - totalTries (M.slots m.after.data)

structure Economical (l : List (Mark α)) : Prop where
  /-- An attempt that is refused leaves the metadata and the cache status unchanged. -/
  refused : ∀ m ∈ l, m.paid = false →
    m.after.data = m.before.data ∧ m.after.cacheStatus = m.before.cacheStatus
  tries : (l.map M.consumed).sum ≤ l.countP Mark.paid
  once : l.countP Mark.paid ≤ 1

def Burns (m : Mark α) : Prop :=
  m.before.bootToken = false ∧ M.modifies .markBootAttempt m.before.data = true

/-! ## One attempt -/

section One

variable {M} {Inv : α → Prop}

theorem paid_token {b b' : SlotBlock α} : Mark.paid ⟨b, tokenResult b, b'⟩ = b.bootToken := by
  unfold Mark.paid tokenResult
  cases b.bootToken <;> rfl

theorem mark_fair (hM : M.Lawful Inv) {b : SlotBlock α} (h : ¬ M.Burns (M.mark b)) : ((M.mark b).paid = false →
      (M.mark b).after.data = b.data ∧ (M.mark b).after.cacheStatus = b.cacheStatus) ∧
    M.consumed (M.mark b) ≤ (M.mark b).paid.toNat := by
  have hdid : M.Did Inv .markBootAttempt b (M.markBootAttempt b).1 (M.markBootAttempt b).2 := hM.did .markBootAttempt b
  unfold mark consumed at *
  generalize (M.markBootAttempt b).1 = r, (M.markBootAttempt b).2 = b' at hdid h ⊢
  cases hdid with
  | nothing hmod hr hc => simp
  | token hmod hc => simp
  | edited hmod hc hd => exact absurd rfl hc
  | tried hmod hc hd =>
    have htoken : b.bootToken = true := by
      by_contra hno
      exact h ⟨by simpa using hno, hmod⟩
    have htries := hd.tries rfl
    refine ⟨fun hpaid => ?_, ?_⟩
    · rw [paid_token, htoken] at hpaid
      cases hpaid
    · rw [paid_token, htoken]
      simp only [Bool.toNat_true]
      omega

theorem mark_burns (hM : M.Lawful Inv) {b : SlotBlock α} (h : M.Burns (M.mark b)) :
    (M.mark b).paid = false ∧ (M.mark b).after.data ≠ b.data := by
  have hdid : M.Did Inv .markBootAttempt b (M.markBootAttempt b).1 (M.markBootAttempt b).2 := hM.did .markBootAttempt b
  obtain ⟨htoken, hmod⟩ := h
  replace htoken : b.bootToken = false := htoken
  replace hmod : M.modifies .markBootAttempt b.data = true := hmod
  unfold mark at *
  generalize (M.markBootAttempt b).1 = r, (M.markBootAttempt b).2 = b' at hdid ⊢
  cases hdid with
  | nothing hno => simp [hmod] at hno
  | token hno => simp [hmod] at hno
  | edited _ hc => exact absurd rfl hc
  | tried _ _ hd =>
    have htries := hd.tries rfl
    refine ⟨by rw [paid_token, htoken], fun hsame => ?_⟩
    dsimp only at hsame
    rw [hsame] at htries
    omega

theorem mark_token (hM : M.Lawful Inv) (b : SlotBlock α) :
    (M.mark b).paid.toNat + (M.mark b).after.bootToken.toNat ≤ b.bootToken.toNat := by
  have hdid : M.Did Inv .markBootAttempt b (M.markBootAttempt b).1 (M.markBootAttempt b).2 := hM.did .markBootAttempt b
  unfold mark at *
  generalize (M.markBootAttempt b).1 = r, (M.markBootAttempt b).2 = b' at hdid ⊢
  cases hdid with
  | nothing hmod hr hc =>
    have hpaid : Mark.paid ⟨b, r, b⟩ = false := by
      unfold Mark.paid
      cases r with
      | ok _ => exact absurd rfl (hc rfl)
      | error _ => rfl
    simp [hpaid]
  | token => simp [paid_token]
  | edited _ hc => exact absurd rfl hc
  | tried => simp [paid_token]

theorem call_token (hM : M.Lawful Inv) {c : Call} (hc : c ≠ .markBootAttempt) (b : SlotBlock α) :
    (M.call c b).2.bootToken = b.bootToken := by
  have hdid := hM.did c b
  generalize (M.call c b).1 = r, (M.call c b).2 = b' at hdid ⊢
  cases hdid with
  | nothing => rfl
  | token _ hmark => exact absurd hmark hc
  | edited => rfl
  | tried _ hmark => exact absurd hmark hc

end One

/-! ## A run -/

section Run

variable {M} {Inv : α → Prop}

theorem mem_marks_cases {p : Mark α → Prop} (hp : ∀ b, p (M.mark b)) (steps : List (Step σ))
    (s : SlotBlock α × σ) : ∀ m ∈ M.marks steps s, p m := by
  induction steps generalizing s with
  | nil => simp [marks]
  | cons step rest ih =>
    intro m hm
    rw [marks, List.mem_append] at hm
    rcases hm with hm | hm
    · unfold markOf at hm
      split at hm
      · rw [List.mem_singleton.mp hm]
        exact hp s.1
      · cases hm
    · split at hm
      · exact ih _ m hm
      · cases hm

theorem step_token (hM : M.Lawful Inv) (step : Step σ) (s : SlotBlock α × σ) :
    (M.markOf s.1 step).countP Mark.paid + (M.step step s).2.1.bootToken.toNat ≤ s.1.bootToken.toNat := by
  cases step with
  | writeBack persist =>
    have htoken := Manager.bootToken_syncToDisk (M := M.toManager) persist s
    have hstep : (M.step (.writeBack persist) s).2.1.bootToken = s.1.bootToken := htoken
    rw [hstep]
    exact (Nat.zero_add _).le
  | call c =>
    by_cases hc : c = .markBootAttempt
    · subst hc
      have hmark := mark_token hM s.1
      have hcount : (M.markOf s.1 (.call .markBootAttempt : Step σ)).countP Mark.paid = (M.mark s.1).paid.toNat := by
        rw [markOf, List.countP_singleton]
        cases (M.mark s.1).paid <;> rfl
      rw [hcount]
      exact hmark
    · have hnone : M.markOf s.1 (.call c : Step σ) = [] := by
        unfold markOf
        split
        · rename_i heq
          exact absurd (Step.call.inj heq) hc
        · rfl
      have hstep : (M.step (.call c) s).2.1.bootToken = s.1.bootToken := call_token hM hc s.1
      rw [hnone, hstep]
      exact (Nat.zero_add _).le

theorem countP_marks_le (hM : M.Lawful Inv) (steps : List (Step σ)) (s : SlotBlock α × σ) :
    (M.marks steps s).countP Mark.paid ≤ s.1.bootToken.toNat := by
  induction steps generalizing s with
  | nil => simp [marks]
  | cons step rest ih =>
    have hstep := step_token hM step s
    rw [marks, List.countP_append]
    split
    · have hrest := ih (M.step step s).2
      omega
    · simp only [List.countP_nil]
      omega

theorem sum_consumed_le {l : List (Mark α)} (h : ∀ m ∈ l, M.consumed m ≤ m.paid.toNat) :
    (l.map M.consumed).sum ≤ l.countP Mark.paid := by
  induction l with
  | nil => simp
  | cons m l ih =>
    have hm := h m List.mem_cons_self
    have hl := ih fun x hx => h x (List.mem_cons_of_mem m hx)
    have hcount : (m :: l).countP Mark.paid = l.countP Mark.paid + m.paid.toNat := by
      rw [List.countP_cons]
      cases m.paid <;> rfl
    rw [List.map_cons, List.sum_cons, hcount]
    omega

theorem economical_iff (hM : M.Lawful Inv) (steps : List (Step σ)) (s : SlotBlock α × σ) :
    M.Economical (M.marks steps s) ↔ ∀ m ∈ M.marks steps s, ¬ M.Burns m := by
  constructor
  · intro h m hm hburns
    have hchanged := mem_marks_cases (M := M) (p := fun m => M.Burns m → m.paid = false ∧
      m.after.data ≠ m.before.data) (fun b => mark_burns hM) steps s m hm hburns
    exact hchanged.2 (h.refused m hm hchanged.1).1
  · intro h
    have hfair := mem_marks_cases (M := M) (p := fun m => ¬ M.Burns m →
      (m.paid = false → m.after.data = m.before.data ∧ m.after.cacheStatus = m.before.cacheStatus) ∧
      M.consumed m ≤ m.paid.toNat) (fun b => mark_fair hM) steps s
    refine ⟨fun m hm => (hfair m hm (h m hm)).1, ?_, ?_⟩
    · exact sum_consumed_le fun m hm => (hfair m hm (h m hm)).2
    · exact (countP_marks_le hM steps s).trans (Bool.toNat_le _)

end Run

end SlotManager

/-- One boot token pays for one boot attempt, in exactly the runs in which no attempt is marked without a
token at a slot that counts its tries. -/
theorem one_token_one_attempt_iff (crc32 : List UInt8 → UInt32) (σ : Type) :
    (∀ (steps : List (Step σ)) (s : SlotBlock Android.BootloaderControl × σ),
      (Android.slotManager crc32).Economical ((Android.slotManager crc32).marks steps s) ↔
        ∀ m ∈ (Android.slotManager crc32).marks steps s, ¬ (Android.slotManager crc32).Burns m) ∧
    ∀ (steps : List (Step σ)) (s : SlotBlock Fuchsia.AbrData × σ),
      (Fuchsia.slotManager crc32).Economical ((Fuchsia.slotManager crc32).marks steps s) ↔
        ∀ m ∈ (Fuchsia.slotManager crc32).marks steps s, ¬ (Fuchsia.slotManager crc32).Burns m :=
  ⟨fun steps s => SlotManager.economical_iff (Android.slotManager_lawful crc32) steps s,
    fun steps s => SlotManager.economical_iff (Fuchsia.slotManager_lawful crc32) steps s⟩

/-- A second attempt on a fresh block is refused, and costs a try all the same. -/
theorem second_attempt_burns_a_try :
    (¬ (Android.slotManager fun _ => 0).Economical ((Android.slotManager fun _ => 0).marks
      [.call .markBootAttempt, .call .markBootAttempt]
      ((Android.slotManager fun _ => 0).load [], ()))) ∧
    ¬ (Fuchsia.slotManager fun _ => 0).Economical ((Fuchsia.slotManager fun _ => 0).marks
      [.call .markBootAttempt, .call .markBootAttempt]
      ((Fuchsia.slotManager fun _ => 0).load [], ())) :=
  ⟨fun h => absurd h.tries (by decide +kernel), fun h => absurd h.tries (by decide +kernel)⟩

end Gbl.Slots
