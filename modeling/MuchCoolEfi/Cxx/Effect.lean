import Mathlib.Tactic.Common

/-! # Computations with a memory and a record of broken preconditions

`Exec μ ε α` is a function body over a memory `μ`: it delivers a value and the memory it leaves, and
records, as values of `ε`, which preconditions of the language or of its library it broke on the
way. A body that broke none has defined behaviour; one that broke some goes on as the compiled code
of a flat address space does, so that both questions (does it break a precondition, what does it do
then) can be asked of one model. -/

namespace MuchCoolEfi.Cxx.Effect

/-- What a computation delivers. -/
structure Outcome (μ ε α : Type) where
  value : α
  memory : μ
  violations : List ε

/-- A computation over the memory `μ`. -/
def Exec (μ ε α : Type) := μ → Outcome μ ε α

variable {μ ε α β : Type}

instance : Monad (Exec μ ε) where
  pure a := fun m => ⟨a, m, []⟩
  bind x f := fun m =>
    ⟨(f (x m).value (x m).memory).value, (f (x m).value (x m).memory).memory,
      (x m).violations ++ (f (x m).value (x m).memory).violations⟩

/-- Look at the memory. -/
def inspect (f : μ → α) : Exec μ ε α := fun m => ⟨f m, m, []⟩

/-- Change the memory. -/
def update (f : μ → μ) : Exec μ ε Unit := fun m => ⟨(), f m, []⟩

/-- Record `e` unless the precondition `P` holds. -/
def require (P : Prop) [Decidable P] (e : ε) : Exec μ ε Unit :=
  fun m => ⟨(), m, if P then [] else [e]⟩

@[simp] theorem pure_apply (a : α) (m : μ) : (pure a : Exec μ ε α) m = ⟨a, m, []⟩ := rfl

@[simp] theorem bind_apply (x : Exec μ ε α) (f : α → Exec μ ε β) (m : μ) :
    (x >>= f) m =
      ⟨(f (x m).value (x m).memory).value, (f (x m).value (x m).memory).memory,
        (x m).violations ++ (f (x m).value (x m).memory).violations⟩ := rfl

@[simp] theorem inspect_apply (f : μ → α) (m : μ) :
    (inspect f : Exec μ ε α) m = ⟨f m, m, []⟩ := rfl

@[simp] theorem update_apply (f : μ → μ) (m : μ) :
    (update f : Exec μ ε Unit) m = ⟨(), f m, []⟩ := rfl

@[simp] theorem require_apply (P : Prop) [Decidable P] (e : ε) (m : μ) :
    (require P e : Exec μ ε Unit) m = ⟨(), m, if P then [] else [e]⟩ := rfl

@[simp] theorem ite_apply (P : Prop) [Decidable P] (x y : Exec μ ε α) (m : μ) :
    (if P then x else y : Exec μ ε α) m = if P then x m else y m := by
  split_ifs <;> rfl

end MuchCoolEfi.Cxx.Effect
