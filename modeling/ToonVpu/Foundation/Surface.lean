import Mathlib.Tactic.Common

/-!
# Surface — marks that grow old

A surface has a mark at some of its places.  A mark is fresh when it is made, and when a new epoch
begins every mark there is becomes stale.  Only some of the places may be visible.

* `Current` — no visible mark is stale;
* `Blank` — there is no visible mark;
* `Old` — no visible mark is fresh.

An epoch that begins over a current surface leaves it current only if it is blank
(`current_age_iff`).
-/

namespace ToonVpu
namespace Foundation
namespace Surface

inductive Shade
  | blank
  | fresh
  | stale
  deriving DecidableEq, Repr

variable {π : Type*}

/-- The marks `w` are made. -/
def paint (w : π → Bool) (s : π → Shade) : π → Shade := fun p => if w p then .fresh else s p

/-- A new epoch begins. -/
def age (s : π → Shade) : π → Shade := fun p => if s p = .fresh then .stale else s p

def Current (visible : π → Prop) (s : π → Shade) : Prop := ∀ p, visible p → s p ≠ .stale

def Blank (visible : π → Prop) (s : π → Shade) : Prop := ∀ p, visible p → s p = .blank

def Old (visible : π → Prop) (s : π → Shade) : Prop := ∀ p, visible p → s p ≠ .fresh

variable {visible : π → Prop} {s : π → Shade}

theorem age_eq_blank_iff (p : π) : age s p = .blank ↔ s p = .blank := by
  unfold age
  cases s p <;> simp

theorem blank_clear : Blank visible fun _ : π => .blank := fun _ _ => rfl

theorem Blank.current (h : Blank visible s) : Current visible s := by
  intro p hp
  rw [h p hp]
  decide

theorem Blank.old (h : Blank visible s) : Old visible s := by
  intro p hp
  rw [h p hp]
  decide

theorem blank_age_iff : Blank visible (age s) ↔ Blank visible s :=
  forall_congr' fun p => imp_congr_right fun _ => age_eq_blank_iff p

theorem old_age : Old visible (age s) := by
  intro p _
  unfold age
  cases s p <;> simp

theorem Current.paint (h : Current visible s) (w : π → Bool) : Current visible (paint w s) := by
  intro p hp
  unfold Surface.paint
  split
  · decide
  · exact h p hp

/-- Where no mark is fresh, a current surface is blank. -/
theorem Old.current_iff (h : Old visible s) : Current visible s ↔ Blank visible s := by
  refine ⟨?_, Blank.current⟩
  intro hcurrent p hp
  cases hshade : s p with
  | blank => rfl
  | fresh => exact absurd hshade (h p hp)
  | stale => exact absurd hshade (hcurrent p hp)

theorem current_age_iff : Current visible (age s) ↔ Blank visible s := by
  rw [old_age.current_iff, blank_age_iff]

end Surface
end Foundation
end ToonVpu
