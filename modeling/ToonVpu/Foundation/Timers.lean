import Mathlib.Logic.Function.Basic
import Mathlib.Tactic.Common

/-!
# Timers — one-shot timers

A timer is made, started, and expires at some time after that, which calls its function.
Cancelling a timer keeps it from expiring.  It has no effect on a timer that has expired, even when
its function still has to wait before it can do anything.
-/

namespace ToonVpu
namespace Foundation

inductive TimerPhase
  | made
  | armed
  | cancelled
  | expired
  | served
  deriving DecidableEq, Repr

namespace TimerPhase

def start : TimerPhase → TimerPhase
  | made => armed
  | phase => phase

def cancel : TimerPhase → TimerPhase
  | made => cancelled
  | armed => cancelled
  | phase => phase

def expire : TimerPhase → TimerPhase
  | armed => expired
  | phase => phase

/-- The function has its turn. -/
def serve : TimerPhase → TimerPhase
  | expired => served
  | phase => phase

end TimerPhase

/-- Timers by their number, in the order in which they are made. -/
structure Timers where
  count : ℕ
  phase : ℕ → TimerPhase

namespace Timers

variable (ts : Timers) (k j : ℕ)

/-- The new timer has the number `ts.count`. -/
def make : Timers := ⟨ts.count + 1, Function.update ts.phase ts.count .made⟩

def move (f : TimerPhase → TimerPhase) : Timers :=
  { ts with phase := Function.update ts.phase k (f (ts.phase k)) }

def start : Timers := ts.move k .start

def cancel : Timers := ts.move k .cancel

def expire : Timers := ts.move k .expire

def serve : Timers := ts.move k .serve

/-- Still to expire. -/
def Armed : Prop := ts.phase j = .armed

/-- Expired, and its function waits for its turn. -/
def Waiting : Prop := ts.phase j = .expired

instance : Decidable (ts.Armed j) := inferInstanceAs (Decidable (ts.phase j = .armed))

instance : Decidable (ts.Waiting j) := inferInstanceAs (Decidable (ts.phase j = .expired))

/-- No timer is still to expire. -/
def Quiet : Prop := ∀ j, ¬ ts.Armed j

variable {ts k j}

/-! ## Moves -/

section Move

variable {f : TimerPhase → TimerPhase} {p : TimerPhase}

theorem phase_move :
    (ts.move k f).phase j = p ↔ (j ≠ k ∧ ts.phase j = p) ∨ (j = k ∧ f (ts.phase k) = p) := by
  unfold move
  rcases eq_or_ne j k with rfl | hne
  · simp
  · simp [hne]

/-- No timer gets into the phase or out of it. -/
theorem phase_move_of_iff (hiff : ∀ q, f q = p ↔ q = p) :
    (ts.move k f).phase j = p ↔ ts.phase j = p := by
  rw [phase_move, hiff]
  rcases eq_or_ne j k with rfl | hne
  · simp
  · simp [hne]

/-- The timer leaves the phase. -/
theorem phase_move_of_ne (hne : ∀ q, f q ≠ p) :
    (ts.move k f).phase j = p ↔ ts.phase j = p ∧ j ≠ k := by
  rw [phase_move]
  simp [hne, and_comm]

end Move

@[simp] theorem phase_make_count : ts.make.phase ts.count = .made := by
  simp [make]

theorem phase_make {p : TimerPhase} (hp : p ≠ .made) :
    ts.make.phase j = p ↔ ts.phase j = p ∧ j ≠ ts.count := by
  unfold make
  rcases eq_or_ne j ts.count with rfl | hne
  · simp [hp.symm]
  · simp [hne]

@[simp] theorem armed_make : ts.make.Armed j ↔ ts.Armed j ∧ j ≠ ts.count :=
  phase_make (by decide)

@[simp] theorem waiting_make : ts.make.Waiting j ↔ ts.Waiting j ∧ j ≠ ts.count :=
  phase_make (by decide)

theorem Armed.of_start (h : (ts.start k).Armed j) : ts.Armed j ∨ j = k := by
  rcases phase_move.mp h with ⟨-, harmed⟩ | ⟨heq, -⟩
  · exact .inl harmed
  · exact .inr heq

@[simp] theorem waiting_start : (ts.start k).Waiting j ↔ ts.Waiting j :=
  phase_move_of_iff fun q => by cases q <;> decide

@[simp] theorem armed_cancel : (ts.cancel k).Armed j ↔ ts.Armed j ∧ j ≠ k :=
  phase_move_of_ne fun q => by cases q <;> decide

@[simp] theorem waiting_cancel : (ts.cancel k).Waiting j ↔ ts.Waiting j :=
  phase_move_of_iff fun q => by cases q <;> decide

@[simp] theorem armed_expire : (ts.expire k).Armed j ↔ ts.Armed j ∧ j ≠ k :=
  phase_move_of_ne fun q => by cases q <;> decide

theorem made_expire (h : ts.phase j = .made) : (ts.expire k).phase j = .made :=
  (phase_move_of_iff fun q => by cases q <;> decide).mpr h

theorem Waiting.of_expire (h : (ts.expire k).Waiting j) : ts.Waiting j ∨ ts.Armed j := by
  rcases phase_move.mp h with ⟨-, hwaiting⟩ | ⟨rfl, hexpired⟩
  · exact .inl hwaiting
  · unfold Waiting Armed
    revert hexpired
    cases ts.phase j <;> decide

@[simp] theorem armed_serve : (ts.serve k).Armed j ↔ ts.Armed j :=
  phase_move_of_iff fun q => by cases q <;> decide

@[simp] theorem waiting_serve : (ts.serve k).Waiting j ↔ ts.Waiting j ∧ j ≠ k :=
  phase_move_of_ne fun q => by cases q <;> decide

/-! ## Quiet -/

/-- Cancelling the only timer that can be armed leaves none. -/
theorem quiet_cancel (honly : ∀ j, ts.Armed j → j = k) : (ts.cancel k).Quiet := by
  intro j hj
  rcases armed_cancel.mp hj with ⟨harmed, hne⟩
  exact hne (honly j harmed)

theorem Quiet.make (h : ts.Quiet) : ts.make.Quiet := fun j hj => h j (armed_make.mp hj).1

end Timers
end Foundation
end ToonVpu
