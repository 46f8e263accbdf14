import Mathlib.Tactic.Common

/-!
# Logged — computations that leave a log

A pure computation that also lists the events it caused, in order.  `Yields P x a` says that `x`
returns `a` and that every event of its log satisfies `P`; there is one rule for each way of
putting computations together.
-/

namespace ToonVpu
namespace Foundation

/-- A value and the events that computing it caused. -/
structure Logged (ε α : Type) where
  value : α
  log : List ε

namespace Logged

variable {ε α β : Type}

instance : Monad (Logged ε) where
  pure a := ⟨a, []⟩
  bind x f := ⟨(f x.value).value, x.log ++ (f x.value).log⟩

/-- `x` returns `a`, and all it does on the way satisfies `P`. -/
def Yields (P : ε → Prop) (x : Logged ε α) (a : α) : Prop :=
  x.value = a ∧ ∀ e ∈ x.log, P e

variable {P : ε → Prop}

theorem Yields.pure (a : α) : Yields P (pure a : Logged ε α) a :=
  ⟨rfl, fun _ he => absurd he List.not_mem_nil⟩

theorem Yields.bind {x : Logged ε α} {a : α} {f : α → Logged ε β} {b : β} (hx : Yields P x a)
    (hf : Yields P (f a) b) : Yields P (x >>= f) b := by
  obtain ⟨rfl, hlog⟩ := hx
  refine ⟨hf.1, ?_⟩
  intro e he
  rcases List.mem_append.1 he with hx | hf'
  · exact hlog e hx
  · exact hf.2 e hf'

theorem Yields.ite {c : Prop} [Decidable c] {x y : Logged ε α} {a b : α}
    (hx : c → Yields P x a) (hy : ¬ c → Yields P y b) :
    Yields P (if c then x else y) (if c then a else b) := by
  by_cases h : c
  · rw [if_pos h, if_pos h]
    exact hx h
  · rw [if_neg h, if_neg h]
    exact hy h

/-- Two ways of writing the value. -/
theorem Yields.of_eq {x : Logged ε α} {a b : α} (hx : Yields P x a) (h : a = b) : Yields P x b :=
  h ▸ hx

end Logged

end Foundation
end ToonVpu
