import ToonVpu.Foundation.Monitor

/-!
# Custody — things that are received, used and given back

A custodian receives things, makes use of them while they are held, and gives each of them back
before it closes.  The same name may be received again while it is held; a use and a return then
concern the oldest.

This file defines the monitor of such a trace and proves that in a kept trace nothing is held at a
close: every name was given back as often as it was received (`Kept.settled`).
-/

namespace ToonVpu
namespace Foundation
namespace Custody

open Monitor

inductive Act (ι υ : Type*)
  | receive (i : ι)
  | use (i : ι) (u : υ)
  | giveBack (i : ι)
  | close
  deriving DecidableEq, Repr

section Monitors

variable {ι υ : Type*} [DecidableEq ι]

/-- A use is entered with the oldest thing of its name. -/
def enter (i : ι) (u : υ) : List (ι × List υ) → List (ι × List υ)
  | [] => []
  | (j, uses) :: held =>
    if j = i then (j, uses ++ [u]) :: held else (j, uses) :: enter i u held

/-- What is held, oldest first, with the uses that were made of it. -/
def next (held : List (ι × List υ)) : Act ι υ → List (ι × List υ)
  | .receive i => held ++ [(i, [])]
  | .use i u => enter i u held
  | .giveBack i => held.eraseP fun x => decide (x.1 = i)
  | .close => held

/-- Only what is held is used or given back, and nothing is held at a close; `may` says which use
may follow the uses before it. -/
def Allowed (may : List υ → υ → Prop) (held : List (ι × List υ)) : Act ι υ → Prop
  | .receive _ => True
  | .use i u => ∃ x, held.find? (fun x => decide (x.1 = i)) = some x ∧ may x.2 u
  | .giveBack i => i ∈ held.map Prod.fst
  | .close => held = []

/-- A trace that starts with nothing held. -/
def Kept (may : List υ → υ → Prop) (trace : List (Act ι υ)) : Prop :=
  Watched next (Allowed may) [] trace

/-! ## The oldest thing -/

variable {may : List υ → υ → Prop} {i : ι} {u : υ} {uses : List υ} {held : List (ι × List υ)}

@[simp] theorem next_receive : next held (.receive i) = held ++ [(i, [])] := rfl

@[simp] theorem next_use_head :
    next ((i, uses) :: held) (.use i u) = (i, uses ++ [u]) :: held := by
  simp [next, enter]

@[simp] theorem next_giveBack_head :
    next ((i, uses) :: held) (.giveBack i : Act ι υ) = held := by
  simp [next]

@[simp] theorem next_close : next held (.close : Act ι υ) = held := rfl

@[simp] theorem allowed_receive : Allowed may held (.receive i) := trivial

@[simp] theorem allowed_use_head :
    Allowed may ((i, uses) :: held) (.use i u) ↔ may uses u := by
  simp [Allowed]

@[simp] theorem allowed_giveBack_head : Allowed may ((i, uses) :: held) (.giveBack i) := by
  simp [Allowed]

@[simp] theorem allowed_close : Allowed may held (.close : Act ι υ) ↔ held = [] := Iff.rfl

/-! ## What is held -/

theorem map_enter : (enter i u held).map Prod.fst = held.map Prod.fst := by
  induction held with
  | nil => rfl
  | cons x held ih =>
    unfold enter
    split <;> simp [ih]

theorem map_giveBack : (next held (.giveBack i : Act ι υ)).map Prod.fst =
    (held.map Prod.fst).erase i := by
  induction held with
  | nil => rfl
  | cons x held ih =>
    by_cases hx : x.1 = i
    · simp [next, hx]
    · have hne : ¬ (x.1 == i) = true := by simpa using hx
      simp only [next] at ih
      simp [next, hx, hne, ih]

variable [DecidableEq υ]

/-- The balance of one name: what was received is given back or held. -/
theorem balance {trace : List (Act ι υ)} (h : Watched next (Allowed may) held trace) (i : ι) :
    (held.map Prod.fst).count i + trace.count (.receive i) =
      trace.count (.giveBack i) + ((trace.foldl next held).map Prod.fst).count i := by
  induction trace generalizing held with
  | nil => simp
  | cons a trace ih =>
    obtain ⟨hfirst, hrest⟩ := (watched_cons _ _ _ _ _).mp h
    have hbalance := ih hrest
    rw [List.foldl_cons]
    cases a with
    | receive j =>
      rw [next_receive, List.map_append, List.count_append] at hbalance
      by_cases hj : j = i
      · subst hj
        simp at hbalance ⊢
        omega
      · simp [hj] at hbalance ⊢
        exact hbalance
    | use j u =>
      have hkeys : (next held (.use j u)).map Prod.fst = held.map Prod.fst := map_enter
      rw [hkeys] at hbalance
      simpa using hbalance
    | giveBack j =>
      rw [map_giveBack] at hbalance
      by_cases hj : j = i
      · subst hj
        -- the name was held, so one of it is gone
        have hheld : 0 < (held.map Prod.fst).count j := List.count_pos_iff.mpr hfirst
        rw [List.count_erase_self] at hbalance
        simp at hbalance ⊢
        omega
      · rw [List.count_erase_of_ne (Ne.symm hj)] at hbalance
        simp [hj] at hbalance ⊢
        exact hbalance
    | close => simpa using hbalance

/-- At a close every name was given back as often as it was received. -/
theorem Kept.settled {pre post : List (Act ι υ)} (h : Kept may (pre ++ .close :: post)) (i : ι) :
    pre.count (.receive i) = pre.count (.giveBack i) := by
  obtain ⟨hpre, hpost⟩ := (watched_append _ _ _ _ _).mp h
  obtain ⟨hclose, -⟩ := (watched_cons _ _ _ _ _).mp hpost
  have hnone : pre.foldl next [] = [] := hclose
  have hbalance := balance hpre i
  rw [hnone] at hbalance
  simpa using hbalance

end Monitors

end Custody
end Foundation
end ToonVpu
