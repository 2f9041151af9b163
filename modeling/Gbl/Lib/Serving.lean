import Gbl.Lib.Exec

/-!
# Requests, one after the other

A component answers each request and goes on from the state that it has reached. It is as good as a simpler one if
the two give the same answers, whatever they are asked.
-/

namespace Gbl.Lib

variable {ρ α σ τ : Type} {f : ρ → σ → α × σ} {P : ρ → Prop} {l : List ρ}

def serve (f : ρ → σ → α × σ) : List ρ → σ → List α × σ
  | [], s => ([], s)
  | r :: rest, s =>
    let (a, s') := f r s
    let (as, s'') := serve f rest s'
    (a :: as, s'')

@[simp] theorem serve_cons (r : ρ) (rest : List ρ) (s : σ) : serve f (r :: rest) s =
    ((f r s).1 :: (serve f rest (f r s).2).1, (serve f rest (f r s).2).2) := rfl

theorem serve_keeps {I : σ → Prop} (hstep : ∀ r s, P r → I s → I (f r s).2) (hl : ∀ r ∈ l, P r) {s : σ}
    (hs : I s) : I (serve f l s).2 := by
  induction l generalizing s with
  | nil => exact hs
  | cons r rest ih =>
    obtain ⟨hr, hrest⟩ := List.forall_mem_cons.1 hl
    exact ih hrest (hstep r s hr hs)

theorem serve_simulates {g : ρ → τ → α × τ} {R : σ → τ → Prop}
    (hstep : ∀ r s t, P r → R s t → (f r s).1 = (g r t).1 ∧ R (f r s).2 (g r t).2)
    (hl : ∀ r ∈ l, P r) {s : σ} {t : τ} (h : R s t) :
    (serve f l s).1 = (serve g l t).1 ∧ R (serve f l s).2 (serve g l t).2 := by
  induction l generalizing s t with
  | nil => exact ⟨rfl, h⟩
  | cons r rest ih =>
    obtain ⟨hr, hrest⟩ := List.forall_mem_cons.1 hl
    obtain ⟨hanswer, hnext⟩ := hstep r s t hr h
    obtain ⟨hanswers, hend⟩ := ih hrest hnext
    rw [serve_cons, serve_cons, hanswer, hanswers]
    exact ⟨rfl, hend⟩

end Gbl.Lib
