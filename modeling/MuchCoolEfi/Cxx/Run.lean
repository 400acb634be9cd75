import Mathlib.Tactic.Common

/-! # Runs of a state machine

`run step s os` is the state after the operations `os`, and `Allowed step G s os` says that each of
them met the condition `G` in the state it was applied to. What one allowed step preserves, an
allowed run preserves (`run_inv`), also between two machines that take the same operations
(`run_sim`). -/

namespace MuchCoolEfi.Cxx.Run

variable {σ τ ω : Type*}

/-- The state after the operations, in order. -/
def run (step : σ → ω → σ) : σ → List ω → σ
  | s, [] => s
  | s, o :: os => run step (step s o) os

/-- Every operation meets the condition `G` in the state it is applied to. -/
def Allowed (step : σ → ω → σ) (G : σ → ω → Prop) : σ → List ω → Prop
  | _, [] => True
  | s, o :: os => G s o ∧ Allowed step G (step s o) os

instance decidableAllowed (step : σ → ω → σ) (G : σ → ω → Prop) [∀ s o, Decidable (G s o)] :
    ∀ (s : σ) (os : List ω), Decidable (Allowed step G s os)
  | _, [] => isTrue trivial
  | s, o :: os =>
    have := decidableAllowed step G (step s o) os
    inferInstanceAs (Decidable (G s o ∧ Allowed step G (step s o) os))

variable {step : σ → ω → σ} {step' : τ → ω → τ} {G : σ → ω → Prop}

theorem run_append : ∀ (os os' : List ω) (s : σ),
    run step s (os ++ os') = run step (run step s os) os'
  | [], _, _ => rfl
  | o :: os, os', s => run_append os os' (step s o)

/-- A condition on the operations alone. -/
theorem allowed_of_mem {P : ω → Prop} : ∀ (os : List ω) (s : σ), (∀ o ∈ os, P o) →
    Allowed step (fun _ o => P o) s os
  | [], _, _ => trivial
  | o :: os, _, h =>
    ⟨h o List.mem_cons_self, allowed_of_mem os _ fun o' ho => h o' (List.mem_cons_of_mem o ho)⟩

/-- **Simulation**: a relation that every allowed step preserves holds after every allowed run. -/
theorem run_sim {R : σ → τ → Prop} (hR : ∀ s t o, R s t → G s o → R (step s o) (step' t o)) :
    ∀ (os : List ω) (s : σ) (t : τ), R s t → Allowed step G s os →
      R (run step s os) (run step' t os)
  | [], _, _, h, _ => h
  | o :: os, s, t, h, ha => run_sim hR os _ _ (hR s t o h ha.1) ha.2

/-- **Invariants**: what every allowed step preserves holds after every allowed run. -/
theorem run_inv {I : σ → Prop} (hI : ∀ s o, I s → G s o → I (step s o)) (os : List ω) {s : σ}
    (h : I s) (ha : Allowed step G s os) : I (run step s os) :=
  @run_sim σ Unit ω step (fun t _ => t) G (fun s _ => I s) (fun s _ o => hI s o) os s () h ha

/-- An invariant of all steps holds after every run. -/
theorem run_inv_of_forall {I : σ → Prop} (hI : ∀ s o, I s → I (step s o)) (os : List ω) {s : σ}
    (h : I s) : I (run step s os) :=
  run_inv (G := fun _ _ => True) (fun s o hs _ => hI s o hs) os h
    (allowed_of_mem os s fun _ _ => trivial)

end MuchCoolEfi.Cxx.Run
