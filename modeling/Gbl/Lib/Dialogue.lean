import Gbl.Lib.Exec

/-!
# Programs that talk to their environment

A component that is handed a callback, or that gives up the processor and is resumed later, does not compute a value
in one go: it asks, waits for an answer and goes on in a way that depends on it.
-/

namespace Gbl.Lib

/-- A program that asks questions and ends with a value. -/
inductive Dialogue (Q : Type) (A : Q → Type) (α : Type) where
  | done (a : α)
  | ask (q : Q) (next : A q → Dialogue Q A α)

namespace Dialogue

variable {Q : Type} {A : Q → Type} {α β ε τ : Type}

/-- Answer every question by `h`. -/
def run (h : (q : Q) → Exec ε τ (A q)) : Dialogue Q A α → Exec ε τ α
  | .done a => pure a
  | .ask q next => h q >>= fun a => (next a).run h

def answered (answer : (q : Q) → A q) : Dialogue Q A α → α
  | .done a => a
  | .ask q next => (next (answer q)).answered answer

/-- The questions it asks on the way. -/
def asked (answer : (q : Q) → A q) : Dialogue Q A α → List Q
  | .done _ => []
  | .ask q next => q :: (next (answer q)).asked answer

def Always (P : Q → Prop) (Admits : (q : Q) → A q → Prop) (R : α → Prop) : Dialogue Q A α → Prop
  | .done a => R a
  | .ask q next => P q ∧ ∀ a, Admits q a → (next a).Always P Admits R

section Rules

variable {P P' : Q → Prop} {Admits : (q : Q) → A q → Prop} {R R' : α → Prop} {d : Dialogue Q A α}

theorem Always.answered {answer : (q : Q) → A q} (h : d.Always P Admits R)
    (hadmits : ∀ q, Admits q (answer q)) : R (d.answered answer) := by
  induction d with
  | done a => exact h
  | ask q next ih => exact ih _ (h.2 _ (hadmits q))

theorem Always.asked {answer : (q : Q) → A q} (h : d.Always P Admits R)
    (hadmits : ∀ q, Admits q (answer q)) : ∀ q ∈ d.asked answer, P q := by
  induction d with
  | done a => intro q hq; cases hq
  | ask q next ih =>
    intro q' hq'
    rcases List.mem_cons.mp hq' with rfl | hq'
    · exact h.1
    · exact ih _ (h.2 _ (hadmits q)) q' hq'

end Rules

end Dialogue
end Gbl.Lib
