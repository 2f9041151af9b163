import Mathlib

/-!
# Programs that change a state and may stop early

Systems code updates state in place, returns early with an error value, and can die. `Exec ε σ α` is its state-passing
reading: the final state is there on every path, the failing ones included.
-/

namespace Gbl.Lib

/-- Why a call did not return a value. -/
inductive Stop (ε : Type) where
  /-- An error value handed back to the caller. -/
  | err (e : ε)
  /-- An index out of range, a failed `unwrap` or assertion, an overflow. -/
  | panic
  /-- A loop that makes no progress. -/
  | hang
  deriving DecidableEq, Repr

/-- The outcome of a call: a value, or the reason there is none. -/
abbrev Res (ε α : Type) := Except (Stop ε) α

namespace Res

variable {ε α : Type}

/-- An error value handed to the caller. -/
def err (e : ε) : Res ε α := .error (.err e)

def ofExcept : Except ε α → Res ε α
  | .ok a => .ok a
  | .error e => .error (.err e)

/-- The outcome of code that dies. -/
def panic : Res ε α := .error .panic

def Returns : Res ε α → Prop
  | .ok _ => True
  | .error (.err _) => True
  | .error .panic => False
  | .error .hang => False

instance : (r : Res ε α) → Decidable r.Returns
  | .ok _ => isTrue trivial
  | .error (.err _) => isTrue trivial
  | .error .panic => isFalse id
  | .error .hang => isFalse id

/-- The outcome is an error value. -/
def IsErr : Res ε α → Prop
  | .error (.err _) => True
  | _ => False

instance : (r : Res ε α) → Decidable r.IsErr
  | .ok _ => isFalse id
  | .error (.err _) => isTrue trivial
  | .error .panic => isFalse id
  | .error .hang => isFalse id

@[simp] theorem isErr_err (e : ε) : IsErr (.error (.err e) : Res ε α) := trivial
@[simp] theorem not_isErr_ok (a : α) : ¬ IsErr (.ok a : Res ε α) := id

theorem ofExcept_injective : Function.Injective (ofExcept : Except ε α → Res ε α) := by
  intro x y h
  cases x <;> cases y <;> cases h <;> rfl

variable {a : α} {e : Stop ε} {β : Type} {r : Res ε α} {f : α → Res ε β} {b : β}

@[simp] theorem ofExcept_eq_ok {x : Except ε α} : ofExcept x = .ok a ↔ x = .ok a := by
  cases x with
  | error e => exact iff_of_false nofun nofun
  | ok b =>
    constructor
    · intro h
      rw [Except.ok.inj h]
    · intro h
      rw [Except.ok.inj h]
      rfl

theorem error_ne_ok : (.error e : Res ε α) ≠ .ok a := nofun

theorem not_exists_ok : ¬ ∃ a, (.error e : Res ε α) = .ok a := fun ⟨_, h⟩ => error_ne_ok h

@[simp] theorem ok_bind (a : α) (f : α → Res ε β) : ((.ok a : Res ε α) >>= f) = f a := rfl

@[simp] theorem error_bind (e : Stop ε) (f : α → Res ε β) : ((.error e : Res ε α) >>= f) = .error e := rfl

theorem bind_eq_ok : (r >>= f) = .ok b ↔ ∃ a, r = .ok a ∧ f a = .ok b := by
  cases r with
  | error e =>
    constructor
    · intro h; cases h
    · rintro ⟨a, h, -⟩; cases h
  | ok a =>
    constructor
    · intro h; exact ⟨a, rfl, h⟩
    · rintro ⟨a', h, hf⟩; cases h; exact hf

theorem returns_error_iff : Returns (.error e : Res ε α) ↔ Returns (.error e : Res ε β) := by
  cases e <;> exact Iff.rfl

theorem returns_bind_iff : (r >>= f).Returns ↔ r.Returns ∧ ∀ a, r = .ok a → (f a).Returns := by
  rcases r with (e | _ | _) | a
  · exact iff_of_true trivial ⟨trivial, nofun⟩
  · exact iff_of_false id fun h => h.1
  · exact iff_of_false id fun h => h.1
  · constructor
    · intro h
      refine ⟨trivial, ?_⟩
      intro b hb
      cases hb
      exact h
    · intro h
      exact h.2 a rfl

theorem bind_ne_hang (hr : r ≠ .error .hang) (hf : ∀ a, f a ≠ .error .hang) : (r >>= f) ≠ .error .hang := by
  rcases r with (e | _ | _) | a
  · exact nofun
  · exact nofun
  · exact absurd rfl hr
  · exact hf a

theorem map_eq_ok {f : α → β} : (f <$> r) = .ok b ↔ ∃ a, r = .ok a ∧ f a = b := by
  cases r with
  | error e => exact iff_of_false (fun h => by cases h) (fun ⟨a, h, _⟩ => by cases h)
  | ok a =>
    constructor
    · intro h; exact ⟨a, rfl, Except.ok.inj h⟩
    · rintro ⟨a', h, rfl⟩; cases h; rfl

theorem IsErr.exists_err (h : r.IsErr) : ∃ e, r = .error (.err e) := by
  rcases r with (e | _ | _) | a
  · exact ⟨e, rfl⟩
  · exact absurd h id
  · exact absurd h id
  · exact absurd h id

theorem IsErr.returns (h : r.IsErr) : r.Returns := by
  rcases r with (e | _ | _) | a <;> simp_all [IsErr, Returns]

theorem Returns.isErr_of_not_ok (h : r.Returns) (hno : ∀ a, r ≠ .ok a) : r.IsErr := by
  rcases r with (e | _ | _) | a
  · trivial
  · exact h
  · exact h
  · exact absurd rfl (hno a)

end Res

/-- A computation on a state `σ`. -/
def Exec (ε σ α : Type) := σ → Res ε α × σ

namespace Exec

variable {ε σ τ α β : Type}

instance : Monad (Exec ε σ) where
  pure a := fun s => (.ok a, s)
  bind m f := fun s =>
    match m s with
    | (.ok a, s') => f a s'
    | (.error e, s') => (.error e, s')

instance : LawfulMonad (Exec ε σ) := LawfulMonad.mk' _
  (by
    intro α x
    funext s
    show (match x s with
        | (.ok a, s') => (.ok a, s')
        | (.error e, s') => (.error e, s')) = x s
    rcases x s with ⟨_ | a, s'⟩ <;> rfl)
  (by intro α β x f; rfl)
  (by
    intro α β γ x f g
    funext s
    show (match (match x s with
          | (.ok a, s') => f a s'
          | (.error e, s') => (.error e, s')) with
        | (.ok b, s') => g b s'
        | (.error e, s') => (.error e, s')) = match x s with
        | (.ok a, s') => (f a >>= g) s'
        | (.error e, s') => (.error e, s')
    rcases x s with ⟨_ | a, s'⟩ <;> rfl)

/-- The current state. -/
def get : Exec ε σ σ := fun s => (.ok s, s)

/-- Replace the state. -/
def modify (f : σ → σ) : Exec ε σ Unit := fun s => (.ok (), f s)

/-- Run a computation that needs no state. -/
def lift (r : Res ε α) : Exec ε σ α := fun s => (r, s)

def zoom (look : σ → τ) (put : σ → τ → σ) (m : Exec ε τ α) : Exec ε σ α := fun s =>
  ((m (look s)).1, put s (m (look s)).2)

/-- Die unless `c` holds. -/
def assert (c : Bool) : Exec ε σ Unit := lift (if c then .ok () else .error .panic)

/-- Run `m` if `c` holds. -/
def when (c : Prop) [Decidable c] (m : Exec ε σ Unit) : Exec ε σ Unit := if c then m else pure ()

def attempt (m : Exec ε σ α) : Exec ε σ (Except ε α) := fun s =>
  match m s with
  | (.ok a, s') => (.ok (.ok a), s')
  | (.error (.err e), s') => (.ok (.error e), s')
  | (.error .panic, s') => (.error .panic, s')
  | (.error .hang, s') => (.error .hang, s')

/-- Run `m` and hand its error over as another. -/
def mapErr {ε' : Type} (f : ε → ε') (m : Exec ε σ α) : Exec ε' σ α := fun s =>
  match m s with
  | (.ok a, s') => (.ok a, s')
  | (.error (.err e), s') => (.error (.err (f e)), s')
  | (.error .panic, s') => (.error .panic, s')
  | (.error .hang, s') => (.error .hang, s')

/-! ## Weakest preconditions -/

def wp (m : Exec ε σ α) (s : σ) (Q : Res ε α → σ → Prop) : Prop := Q (m s).1 (m s).2

section Rules

variable {m : Exec ε σ α} {s : σ} {Q R : Res ε α → σ → Prop}

theorem wp_mono (h : wp m s R) (hRQ : ∀ r s', R r s' → Q r s') : wp m s Q := hRQ _ _ h

theorem wp_and (hQ : wp m s Q) (hR : wp m s R) : wp m s (fun r s' => Q r s' ∧ R r s') := ⟨hQ, hR⟩

variable {a : α} {r : Res ε α} {f : α → Exec ε σ β} {g : σ → σ} {c : Prop}

theorem wp_pure (h : Q (.ok a) s) : wp (pure a) s Q := h

theorem wp_lift (h : Q r s) : wp (lift r) s Q := h

theorem wp_bind {Q : Res ε β → σ → Prop} (h : wp m s R) (hok : ∀ a s', R (.ok a) s' → wp (f a) s' Q)
    (herr : ∀ e s', R (.error e) s' → Q (.error e) s') : wp (m >>= f) s Q := by
  show Q ((m >>= f) s).1 ((m >>= f) s).2
  have hbind : (m >>= f) s = match m s with
      | (.ok a, s') => f a s'
      | (.error e, s') => (.error e, s') := rfl
  rw [hbind]
  unfold wp at h
  rcases hm : m s with ⟨_ | a, s'⟩
  · rw [hm] at h; exact herr _ _ h
  · rw [hm] at h; exact hok _ _ h

theorem wp_lift_bind {Q : Res ε β → σ → Prop} (hok : ∀ a, r = .ok a → wp (f a) s Q)
    (herr : ∀ e, r = .error e → Q (.error e) s) : wp (lift r >>= f) s Q :=
  wp_bind (R := fun r' s' => r' = r ∧ s' = s) ⟨rfl, rfl⟩
    (by rintro a s' ⟨h, rfl⟩; exact hok a h.symm) (by rintro e s' ⟨h, rfl⟩; exact herr e h.symm)

theorem wp_lift_ok_bind {Q : Res ε β → σ → Prop} (hr : r = .ok a) (h : wp (f a) s Q) : wp (lift r >>= f) s Q := by
  subst hr; exact h

theorem wp_get_bind {f : σ → Exec ε σ β} {Q : Res ε β → σ → Prop} (h : wp (f s) s Q) : wp (get >>= f) s Q := h

theorem wp_modify_bind {f : Unit → Exec ε σ β} {Q : Res ε β → σ → Prop} (h : wp (f ()) (g s) Q) :
    wp (modify g >>= f) s Q := h

theorem wp_modify {Q : Res ε Unit → σ → Prop} (h : Q (.ok ()) (g s)) : wp (modify g) s Q := h

theorem wp_zoom {look : σ → τ} {put : σ → τ → σ} {m : Exec ε τ α}
    (h : wp m (look s) fun r t => Q r (put s t)) : wp (zoom look put m) s Q := h

theorem wp_assert_bind {c : Bool} {f : Unit → Exec ε σ β} {Q : Res ε β → σ → Prop} (hc : c = true)
    (h : wp (f ()) s Q) : wp (assert c >>= f) s Q := by
  subst hc; exact h

theorem wp_ite [Decidable c] {m₁ m₂ : Exec ε σ α} (ht : c → wp m₁ s Q) (he : ¬ c → wp m₂ s Q) :
    wp (if c then m₁ else m₂) s Q := by
  split
  · exact ht ‹_›
  · exact he ‹_›

theorem wp_when [Decidable c] {m : Exec ε σ Unit} {Q : Res ε Unit → σ → Prop} (ht : c → wp m s Q)
    (he : ¬ c → Q (.ok ()) s) : wp (when c m) s Q :=
  wp_ite ht he

theorem wp_attempt {Q : Res ε (Except ε α) → σ → Prop} (h : wp m s R) (hok : ∀ a s', R (.ok a) s' → Q (.ok (.ok a)) s')
    (herr : ∀ e s', R (.error (.err e)) s' → Q (.ok (.error e)) s')
    (hpanic : ∀ s', R (.error .panic) s' → Q (.error .panic) s')
    (hhang : ∀ s', R (.error .hang) s' → Q (.error .hang) s') : wp (attempt m) s Q := by
  unfold wp attempt at *
  rcases hm : m s with ⟨(e | _ | _) | a, s'⟩ <;> rw [hm] at h
  · exact herr e s' h
  · exact hpanic s' h
  · exact hhang s' h
  · exact hok a s' h

end Rules

/-! ## Invariants -/

def Keeps (I : σ → Prop) (m : Exec ε σ α) : Prop := ∀ s, I s → I (m s).2

section Invariants

variable {I : σ → Prop} {m : Exec ε σ α}

theorem wp_of_keeps (h : Keeps I m) {s : σ} (hs : I s) : wp m s fun _ s' => I s' := h s hs

theorem keeps_pure (a : α) : Keeps I (pure a : Exec ε σ α) := fun _ h => h

theorem keeps_lift (r : Res ε α) : Keeps I (lift r : Exec ε σ α) := fun _ h => h

theorem keeps_get : Keeps I (get : Exec ε σ σ) := fun _ h => h

theorem keeps_modify {f : σ → σ} (h : ∀ s, I s → I (f s)) : Keeps I (modify f : Exec ε σ Unit) := h

theorem keeps_bind {f : α → Exec ε σ β} (hm : Keeps I m) (hf : ∀ a, Keeps I (f a)) : Keeps I (m >>= f) := by
  intro s hs
  have h : wp (m >>= f) s fun _ s' => I s' :=
    wp_bind (R := fun _ s' => I s') (hm s hs) (fun a s' h => hf a s' h) (fun _ _ h => h)
  exact h

theorem keeps_zoom {look : σ → τ} {put : σ → τ → σ} {m : Exec ε τ α} (h : ∀ s t, I s → I (put s t)) :
    Keeps I (zoom look put m) := fun s hs => h s _ hs

theorem keeps_when {c : Prop} [Decidable c] {m : Exec ε σ Unit} (h : Keeps I m) : Keeps I (when c m) := by
  unfold when
  split
  · exact h
  · exact keeps_pure ()

theorem keeps_attempt (h : Keeps I m) : Keeps I (attempt m) := by
  intro s hs
  have hm := h s hs
  unfold attempt
  rcases hrun : m s with ⟨(e | _ | _) | a, s'⟩ <;> rw [hrun] at hm <;> exact hm

end Invariants

/-! ## Running -/

@[simp] theorem pure_run (a : α) (s : σ) : (pure a : Exec ε σ α) s = (.ok a, s) := rfl

@[simp] theorem lift_run (r : Res ε α) (s : σ) : (lift r : Exec ε σ α) s = (r, s) := rfl

@[simp] theorem get_run (s : σ) : (get : Exec ε σ σ) s = (.ok s, s) := rfl

@[simp] theorem modify_run (f : σ → σ) (s : σ) : (modify f : Exec ε σ Unit) s = (.ok (), f s) := rfl

variable {c : Bool} {f : α → Exec ε σ β} {s : σ} {m : Exec ε σ α} {s' : σ} {a : α} {r : Res ε α} {e : Stop ε}
  {Q : Res ε β → σ → Prop} {b : β} {ε' : Type}

theorem assert_bind_run_true {f : Unit → Exec ε σ β} (hc : c = true) : (assert c >>= f) s = f () s := by
  subst hc; rfl

theorem assert_bind_run_false {f : Unit → Exec ε σ β} (hc : c = false) : (assert c >>= f) s = (.error .panic, s) := by
  subst hc; rfl

theorem bind_run_ok (h : m s = (.ok a, s')) : (m >>= f) s = f a s' := by
  show (match m s with
      | (.ok a, s') => f a s'
      | (.error e, s') => (.error e, s')) = _
  rw [h]

theorem lift_run_ok (h : r = .ok a) (s : σ) : (lift r : Exec ε σ α) s = (.ok a, s) := by
  rw [lift_run, h]

theorem bind_run_error (h : m s = (.error e, s')) : (m >>= f) s = (.error e, s') := by
  show (match m s with
      | (.ok a, s') => f a s'
      | (.error e, s') => (.error e, s')) = _
  rw [h]

theorem bind_run_congr {m' : Exec ε σ α} (h : m s = m' s') : (m >>= f) s = (m' >>= f) s' := by
  show (match m s with
      | (.ok a, s') => f a s'
      | (.error e, s') => (.error e, s')) = _
  rw [h]
  rfl

theorem wp_bind_of_run_ok (h : m s = (.ok a, s')) (hf : wp (f a) s' Q) : wp (m >>= f) s Q := by
  rw [wp, bind_run_ok h]
  exact hf

theorem wp_bind_of_run_error (h : m s = (.error e, s')) (hQ : Q (.error e) s') : wp (m >>= f) s Q := by
  rw [wp, bind_run_error h]
  exact hQ

theorem bind_run_eq_ok (h : (m >>= f) s = (.ok b, s')) : ∃ a t, m s = (.ok a, t) ∧ f a t = (.ok b, s') := by
  rcases hm : m s with ⟨e | a, t⟩
  · rw [bind_run_error hm] at h
    exact absurd (congrArg Prod.fst h) Res.error_ne_ok
  · rw [bind_run_ok hm] at h
    exact ⟨a, t, rfl, h⟩

theorem bind_pure_fst_eq_error {f : α → β} (h : ((m >>= fun a => pure (f a)) s).1 = .error e) :
    (m s).1 = .error e := by
  rcases hm : m s with ⟨e' | a, s'⟩
  · rw [bind_run_error hm] at h
    cases h
    rfl
  · rw [bind_run_ok hm] at h
    cases h

theorem bind_returns (hm : (m s).1.Returns) (hf : ∀ a s', m s = (.ok a, s') → (f a s').1.Returns) :
    ((m >>= f) s).1.Returns := by
  rcases hrun : m s with ⟨e | a, s'⟩
  · rw [hrun] at hm
    rw [bind_run_error hrun]
    exact Res.returns_error_iff.mp hm
  · rw [bind_run_ok hrun]
    exact hf a s' hrun

theorem lift_bind_run_eq_ok (h : (lift r >>= f) s = (.ok b, s')) : ∃ a, r = .ok a ∧ f a s = (.ok b, s') := by
  obtain ⟨a, t, hr, hf⟩ := bind_run_eq_ok h
  obtain ⟨rfl, rfl⟩ := Prod.mk.inj hr
  exact ⟨a, rfl, hf⟩

theorem attempt_snd (m : Exec ε σ α) (s : σ) : (attempt m s).2 = (m s).2 := by
  unfold attempt
  rcases m s with ⟨(e | _ | _) | a, s'⟩ <;> rfl

theorem bind_snd_of_const (hf : ∀ a t, (f a t).2 = t) (s : σ) : ((m >>= f) s).2 = (m s).2 := by
  rcases hm : m s with ⟨e | a, t⟩
  · rw [bind_run_error hm]
  · rw [bind_run_ok hm, hf]

theorem mapErr_run_ok {f : ε → ε'} (h : m s = (.ok a, s')) : mapErr f m s = (.ok a, s') := by
  unfold mapErr
  rw [h]

theorem mapErr_run_err {f : ε → ε'} {e : ε} (h : m s = (.error (.err e), s')) :
    mapErr f m s = (.error (.err (f e)), s') := by
  unfold mapErr
  rw [h]

theorem mapErr_snd (f : ε → ε') (m : Exec ε σ α) (s : σ) : (mapErr f m s).2 = (m s).2 := by
  unfold mapErr
  rcases m s with ⟨(e | _ | _) | a, s'⟩
  · rfl
  · rfl
  · rfl
  · rfl

theorem mapErr_run_eq_ok {f : ε → ε'} (h : mapErr f m s = (.ok a, s')) : m s = (.ok a, s') := by
  unfold mapErr at h
  split at h
  · next hm =>
    cases h
    exact hm
  · cases h
  · cases h
  · cases h

theorem attempt_run_ok (h : m s = (.ok a, s')) : attempt m s = (.ok (.ok a), s') := by
  unfold attempt
  rw [h]

theorem attempt_run_err {e : ε} (h : m s = (.error (.err e), s')) : attempt m s = (.ok (.error e), s') := by
  unfold attempt
  rw [h]

theorem attempt_run_returns (h : (m s).1.Returns) : ∃ v, attempt m s = (.ok v, (m s).2) := by
  rcases hrun : m s with ⟨(e | _ | _) | a, s'⟩
  · exact ⟨_, attempt_run_err hrun⟩
  · rw [hrun] at h
    exact h.elim
  · rw [hrun] at h
    exact h.elim
  · exact ⟨_, attempt_run_ok hrun⟩

theorem attempt_run_eq_ok {v : Except ε α} (h : attempt m s = (.ok v, s')) : m s = (.ofExcept v, s') := by
  unfold attempt at h
  rcases hrun : m s with ⟨(e | _ | _) | a, t⟩ <;> rw [hrun] at h <;> cases h <;> rfl

/-! ## Succeeding -/

/-- The code returns a value. -/
def Succeeds (m : Exec ε σ α) (s : σ) : Prop := ∃ a s', m s = (.ok a, s')

theorem succeeds_pure (a : α) (s : σ) : Succeeds (pure a : Exec ε σ α) s := ⟨a, s, rfl⟩

theorem Succeeds.of_run (h : m s = (.ok a, s')) : Succeeds m s := ⟨a, s', h⟩

theorem Succeeds.bind (h : Succeeds m s) (hf : ∀ a s', m s = (.ok a, s') → Succeeds (f a) s') :
    Succeeds (m >>= f) s := by
  obtain ⟨a, s', hm⟩ := h
  obtain ⟨b, s'', hrest⟩ := hf a s' hm
  exact ⟨b, s'', (bind_run_ok hm).trans hrest⟩

theorem succeeds_bind (h : m s = (.ok a, s')) (hf : Succeeds (f a) s') : Succeeds (m >>= f) s := by
  obtain ⟨b, s'', hrest⟩ := hf
  exact ⟨b, s'', (bind_run_ok h).trans hrest⟩

theorem succeeds_lift_bind (h : r = .ok a) (hf : Succeeds (f a) s) :
    Succeeds (lift r >>= f) s := succeeds_bind (lift_run_ok h s) hf

theorem Succeeds.mapErr {f : ε → ε'} (h : Succeeds m s) : Succeeds (Exec.mapErr f m) s := by
  obtain ⟨a, s', hm⟩ := h
  exact ⟨a, s', mapErr_run_ok hm⟩

theorem Succeeds.zoom {τ : Type} {look : σ → τ} {put : σ → τ → σ} {m : Exec ε τ α} (h : Succeeds m (look s)) :
    Succeeds (Exec.zoom look put m) s := by
  obtain ⟨a, t, hm⟩ := h
  refine ⟨a, put s t, ?_⟩
  show ((m (look s)).1, put s (m (look s)).2) = _
  rw [hm]

end Exec
end Gbl.Lib
