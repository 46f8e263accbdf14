import Mathlib.Data.List.Basic
import Mathlib.Tactic.Common

/-!
# Runs — a state machine driven by a list of actions

A run applies `step` to one action after another.  `stateAt` is the state before action `n`, and
`Along` says that every action is taken in a state where it is allowed.
-/

namespace ToonVpu
namespace Foundation
namespace Runs

variable {σ α : Type*} (step : σ → α → σ) (s : σ) (acts : List α)

/-- The state after the first `n` actions. -/
def stateAt (n : ℕ) : σ := (acts.take n).foldl step s

/-- Every action of the run meets `ok` in the state it is taken in. -/
def Along (ok : σ → α → Prop) : Prop :=
  ∀ n a, acts[n]? = some a → ok (stateAt step s acts n) a

@[simp] theorem stateAt_zero : stateAt step s acts 0 = s := by
  simp [stateAt]

theorem stateAt_succ {n : ℕ} {a : α} (ha : acts[n]? = some a) :
    stateAt step s acts (n + 1) = step (stateAt step s acts n) a := by
  simp [stateAt, List.take_add_one, ha]

theorem stateAt_past {n : ℕ} (hn : acts[n]? = none) :
    stateAt step s acts (n + 1) = stateAt step s acts n := by
  simp [stateAt, List.take_add_one, hn]

variable {step s acts}

/-- The induction along a run: an invariant that each action keeps, as long as the invariant itself
shows that the action is allowed. -/
theorem invariant_of_next {ok : σ → α → Prop} {Inv : σ → Prop} (hinit : Inv s)
    (hstep : ∀ s a, Inv s → ok s a → Inv (step s a))
    (hnext : ∀ n a, acts[n]? = some a → Inv (stateAt step s acts n) →
      ok (stateAt step s acts n) a) (n : ℕ) :
    Inv (stateAt step s acts n) := by
  induction n with
  | zero =>
    rw [stateAt_zero]
    exact hinit
  | succ n ih =>
    cases ha : acts[n]? with
    | none =>
      rw [stateAt_past step s acts ha]
      exact ih
    | some a =>
      rw [stateAt_succ step s acts ha]
      exact hstep _ a ih (hnext n a ha ih)

/-- What holds at first and is kept by every allowed action holds along the whole run. -/
theorem Along.invariant {ok : σ → α → Prop} {Inv : σ → Prop} (hrun : Along step s acts ok)
    (hinit : Inv s) (hstep : ∀ s a, Inv s → ok s a → Inv (step s a)) (n : ℕ) :
    Inv (stateAt step s acts n) :=
  invariant_of_next hinit hstep (fun n a ha _ => hrun n a ha) n

/-- Where an action that is not allowed can be told by the state it leads to, a run whose states are
all good is one whose actions are all allowed. -/
theorem forall_good_iff_along {ok : σ → α → Prop} {Inv good : σ → Prop} (hinit : Inv s)
    (hstep : ∀ s a, Inv s → ok s a → Inv (step s a)) (hgood : ∀ s, Inv s → good s)
    (hok : ∀ s a, Inv s → good (step s a) → ok s a) :
    (∀ n, good (stateAt step s acts n)) ↔ Along step s acts ok := by
  constructor
  · intro hall
    have hnext : ∀ n a, acts[n]? = some a → Inv (stateAt step s acts n) →
        ok (stateAt step s acts n) a := by
      intro n a ha hinv
      apply hok _ a hinv
      rw [← stateAt_succ step s acts ha]
      exact hall (n + 1)
    intro n a ha
    exact hnext n a ha (invariant_of_next hinit hstep hnext n)
  · intro hrun n
    exact hgood _ (hrun.invariant hinit hstep n)

/-- Where, under an invariant, an action does right exactly when it is allowed, a run does right in
every step exactly when every action of it is allowed. -/
theorem along_iff_along {ok right : σ → α → Prop} {Inv : σ → Prop} (hinit : Inv s)
    (hstep : ∀ s a, Inv s → ok s a → Inv (step s a))
    (hiff : ∀ s a, Inv s → (right s a ↔ ok s a)) :
    Along step s acts right ↔ Along step s acts ok := by
  constructor
  · intro hright
    have hnext : ∀ n a, acts[n]? = some a → Inv (stateAt step s acts n) →
        ok (stateAt step s acts n) a :=
      fun n a ha hinv => (hiff _ a hinv).mp (hright n a ha)
    intro n a ha
    exact hnext n a ha (invariant_of_next hinit hstep hnext n)
  · intro hrun n a ha
    exact (hiff _ a (hrun.invariant hinit hstep n)).mpr (hrun n a ha)

end Runs
end Foundation
end ToonVpu
