import Mathlib.Data.List.Forall2

/-!
# Lib.Simulation

Machines that answer every input, and one of them simulating another.

* `simulates`: where related states give related answers and related states, so do all runs from related states.
-/

namespace AppNG
namespace Simulation

variable {σ τ ε ω θ : Type}

def final (f : σ → ε → σ × ω) (s : σ) (es : List ε) : σ := es.foldl (fun s e => (f s e).1) s

def answers (f : σ → ε → σ × ω) : σ → List ε → List ω
  | _, [] => []
  | s, e :: es => (f s e).2 :: answers f (f s e).1 es

variable {f : σ → ε → σ × ω} {g : τ → ε → τ × θ} {R : σ → τ → Prop} {S : ω → θ → Prop}

theorem simulates (hstep : ∀ s t e, R s t → S (f s e).2 (g t e).2 ∧ R (f s e).1 (g t e).1) (es : List ε) :
    ∀ {s t}, R s t → List.Forall₂ S (answers f s es) (answers g t es) ∧ R (final f s es) (final g t es) := by
  induction es with
  | nil => exact fun h => ⟨.nil, h⟩
  | cons e es ih =>
    intro s t h
    obtain ⟨hanswer, hnext⟩ := hstep s t e h
    obtain ⟨hanswers, hfinal⟩ := ih hnext
    exact ⟨.cons hanswer hanswers, hfinal⟩

end Simulation
end AppNG
