import Mathlib.Data.List.Basic
import Mathlib.Tactic.Common

/-!
# Monitor — safety of a trace

A monitor reads a trace from its start and keeps what it needs of the past.  A trace is watched when
the monitor allows every entry after what came before it.
-/

namespace ToonVpu
namespace Foundation
namespace Monitor

variable {γ α : Type*} (next : γ → α → γ) (allows : γ → α → Prop)

/-- From the state `g` of the monitor on, every entry is allowed when it comes. -/
def Watched (g : γ) (trace : List α) : Prop :=
  ∀ pre a post, trace = pre ++ a :: post → allows (pre.foldl next g) a

@[simp] theorem watched_nil (g : γ) : Watched next allows g [] := by
  intro pre a post heq
  simp at heq

@[simp] theorem watched_cons (g : γ) (a : α) (trace : List α) :
    Watched next allows g (a :: trace) ↔ allows g a ∧ Watched next allows (next g a) trace := by
  constructor
  · intro h
    refine ⟨h [] a trace rfl, ?_⟩
    intro pre b post heq
    exact h (a :: pre) b post (by rw [heq]; rfl)
  · rintro ⟨hfirst, hrest⟩ pre b post heq
    cases pre with
    | nil =>
      obtain ⟨rfl, -⟩ := List.cons_eq_cons.mp heq
      exact hfirst
    | cons a' pre =>
      obtain ⟨rfl, htail⟩ := List.cons_eq_cons.mp heq
      exact hrest pre b post htail

theorem watched_append (g : γ) (xs ys : List α) :
    Watched next allows g (xs ++ ys) ↔
      Watched next allows g xs ∧ Watched next allows (xs.foldl next g) ys := by
  induction xs generalizing g with
  | nil => simp
  | cons x xs ih => simp [ih, and_assoc]

def decideWatched [∀ g a, Decidable (allows g a)] : (g : γ) → (trace : List α) →
    Decidable (Watched next allows g trace)
  | g, [] => .isTrue (watched_nil next allows g)
  | g, a :: trace =>
    have := decideWatched (next g a) trace
    decidable_of_iff _ (watched_cons next allows g a trace).symm

instance [∀ g a, Decidable (allows g a)] (g : γ) (trace : List α) :
    Decidable (Watched next allows g trace) :=
  decideWatched next allows g trace

variable {next allows}

/-- Entries that are always allowed. -/
theorem watched_of_forall {trace : List α} (h : ∀ a ∈ trace, ∀ g, allows g a) (g : γ) :
    Watched next allows g trace := by
  rintro pre a post rfl
  exact h a (by simp) _

/-- Entries that the monitor does not look at. -/
theorem foldl_of_forall {trace : List α} (h : ∀ a ∈ trace, ∀ g, next g a = g) (g : γ) :
    trace.foldl next g = g := by
  induction trace with
  | nil => rfl
  | cons a trace ih =>
    rw [List.foldl_cons, h a List.mem_cons_self]
    exact ih fun b hb => h b (List.mem_cons_of_mem _ hb)

end Monitor
end Foundation
end ToonVpu
