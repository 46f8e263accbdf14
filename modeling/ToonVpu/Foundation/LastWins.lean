import Mathlib.Data.List.Induction
import Mathlib.Tactic.Common

/-!
# LastWins — settings that are read one after another

A loop goes through entries and keeps what it read.  A part of its state that every entry either sets
or leaves alone is, in the end, what the last entry that sets it says.
-/

namespace ToonVpu
namespace Foundation
namespace LastWins

variable {σ ε β : Type*}

/-- What the last entry with a value says. -/
def lastOf (value : ε → Option β) (entries : List ε) : Option β :=
  (entries.filterMap value).getLast?

variable {value : ε → Option β}

@[simp] theorem lastOf_nil : lastOf value [] = none := rfl

theorem lastOf_append (xs ys : List ε) :
    lastOf value (xs ++ ys) = (lastOf value ys).or (lastOf value xs) := by
  simp [lastOf, List.getLast?_append]

theorem lastOf_concat (xs : List ε) (e : ε) :
    lastOf value (xs ++ [e]) = (value e).or (lastOf value xs) := by
  rw [lastOf_append]
  cases h : value e <;> simp [lastOf, h]

/-- A value in another form. -/
theorem lastOf_map {γ : Type*} (f : β → γ) (entries : List ε) :
    lastOf (fun e => (value e).map f) entries = (lastOf value entries).map f := by
  simp [lastOf, ← List.map_filterMap, List.getLast?_map]

/-- **The last entry wins.** `get` is what the loop keeps of the entries that have a value. -/
theorem foldl_eq_lastOf {step : σ → ε → σ} (get : σ → β)
    (hstep : ∀ s e, get (step s e) = (value e).getD (get s)) (entries : List ε) (s : σ) :
    get (entries.foldl step s) = (lastOf value entries).getD (get s) := by
  induction entries using List.reverseRecOn with
  | nil => rfl
  | append_singleton entries e ih =>
    rw [List.foldl_append, List.foldl_cons, List.foldl_nil, hstep, ih, lastOf_concat]
    cases value e with
    | none => rfl
    | some b => rfl

end LastWins
end Foundation
end ToonVpu
