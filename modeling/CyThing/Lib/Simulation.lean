import CyThing.Lib.Trace

/-! Machines that answer every event, and when one of them simulates another: related states
give the same answer and stay related. -/

namespace Simulation
open Trace

variable {σ τ ε ω : Type*}

def advance (step : σ → ε → ω × σ) (s : σ) (e : ε) : σ := (step s e).2

def answers (step : σ → ε → ω × σ) : σ → List ε → List ω
  | _, [] => []
  | s, e :: es => (step s e).1 :: answers step (step s e).2 es

def Simulates (R : σ → τ → Prop) (f : σ → ε → ω × σ) (g : τ → ε → ω × τ) : Prop :=
  ∀ s t e, R s t → (f s e).1 = (g t e).1 ∧ R (f s e).2 (g t e).2

variable {R : σ → τ → Prop} {f : σ → ε → ω × σ} {g : τ → ε → ω × τ} {s : σ} {t : τ}

theorem Simulates.run (h : Simulates R f g) (hst : R s t) (es : List ε) :
    answers f s es = answers g t es ∧ R (run (advance f) s es) (run (advance g) t es) := by
  induction es generalizing s t with
  | nil => exact ⟨rfl, hst⟩
  | cons e es ih =>
    obtain ⟨hanswer, hnext⟩ := h s t e hst
    obtain ⟨hanswers, hfinal⟩ := ih hnext
    refine ⟨?_, hfinal⟩
    rw [answers, answers, hanswer, hanswers]

end Simulation
