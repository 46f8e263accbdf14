import ToonVpu.Doorbell.Outline

/-!
# Shutdown — a signal while the main thread has the lock

`signal_handler` runs on the main thread, on top of whatever that is doing, and `state.lock` is not
reentrant.  A handler that interrupts a `with` block waits for the frame below it.
-/

namespace ToonVpu
namespace Doorbell

open Foundation
open Foundation.Runs

/-- The main thread has `state.lock`. -/
def Service.MainLocks (s : Service) : Prop := s.lock.map Holder.thread = some .main

/-- The handler's `stop_streaming` waits for the lock that the frame it has interrupted holds. -/
def SelfDeadlock (s : Service) : Prop := s.main = .shutdown ∧ s.MainLocks

/-- The handler does not wait for the frame that it has interrupted. -/
def ShutdownFree (s : Service) : Prop := ¬ SelfDeadlock s

instance (s : Service) : Decidable (SelfDeadlock s) :=
  inferInstanceAs (Decidable (s.main = .shutdown ∧ s.lock.map Holder.thread = some .main))

instance (s : Service) : Decidable (ShutdownFree s) :=
  inferInstanceAs (Decidable (¬ SelfDeadlock s))

/-- A signal comes while the main thread does not have the lock. -/
def SignalsOutside (s : Service) : Act → Prop
  | .signal => ¬ s.MainLocks
  | _ => True

theorem shutdownFree_of_lock {s : Service} (hlock : s.lock = none) : ShutdownFree s := by
  rintro ⟨-, hheld⟩
  unfold Service.MainLocks at hheld
  rw [hlock] at hheld
  exact nomatch hheld

/-- A step in which no signal interrupts a `with` block. -/
theorem ShutdownFree.step {cfg : Config} {s : Service} (h : ShutdownFree s) (a : Act)
    (houtside : SignalsOutside s a) : ShutdownFree (Doorbell.step cfg s a) := by
  have hmove := step_move cfg s a
  generalize Doorbell.step cfg s a = s' at hmove ⊢
  cases hmove with
  | same => exact h
  | receive msg camera hmain => exact fun hdead => absurd hdead.1 nofun
  | start camera pt ans hlock hmain =>
    rcases startStreaming_control cfg s camera pt ans with ⟨hsame, -⟩ | hfree
    · exact fun hdead => absurd (hmain.symm.trans (hsame.symm.trans hdead.1)) nofun
    · exact shutdownFree_of_lock hfree
  | stop t pt ans hlock hmain =>
    rcases stopStreaming_control cfg s t pt ans with ⟨hsame, pt', hheld⟩ | hfree
    · -- the main thread is in the block itself, and a timer thread keeps the lock to itself
      rintro ⟨hshutdown, hlocks⟩
      unfold Service.MainLocks at hlocks
      rw [hheld] at hlocks
      have ht : t = .main := Option.some.inj hlocks
      exact absurd ((hmain ht).symm.trans (hsame.symm.trans hshutdown)) nofun
    · exact shutdownFree_of_lock hfree
  | enter camera ans hlock hmain => exact fun hdead => absurd hdead.1 nofun
  | shutdown ans hlock hmain => exact fun hdead => absurd hdead.1 nofun
  | serve k ans hlock hwaiting => exact fun hdead => absurd hdead.2 nofun
  | expire k => exact h
  | exit p => exact h
  | signal => exact fun hdead => houtside hdead.2

/-- The shutdown waits for itself in no state of a run exactly when no signal of the run comes while
the main thread has the lock. -/
theorem shutdown_never_waits_for_itself_iff (cfg : Config) (acts : List Act) :
    (∀ n, ShutdownFree (stateAt (step cfg) Service.init acts n)) ↔
      Along (step cfg) Service.init acts SignalsOutside := by
  have hinit : ShutdownFree Service.init := shutdownFree_of_lock rfl
  refine forall_good_iff_along hinit (fun s a h houtside => h.step a houtside) (fun _ h => h) ?_
  intro s a _ hfree
  cases a with
  | signal => exact fun hlocks => hfree ⟨rfl, hlocks⟩
  | _ => trivial

/-! ## What comes of it -/

/-- A shutdown that waits for itself goes on waiting, whatever happens. -/
theorem SelfDeadlock.step {s : Service} (h : SelfDeadlock s) (cfg : Config) (a : Act) :
    SelfDeadlock (Doorbell.step cfg s a) := by
  rcases h with ⟨hmain, hlocks⟩
  have hmove := step_move cfg s a
  generalize Doorbell.step cfg s a = s' at hmove ⊢
  cases hmove with
  | same => exact ⟨hmain, hlocks⟩
  | receive msg camera hidle => exact absurd (hidle.symm.trans hmain) nofun
  | start camera pt ans hlock hwithin => exact absurd (hwithin.symm.trans hmain) nofun
  | stop t pt ans hlock hwithin =>
    unfold Service.MainLocks at hlocks
    rw [hlock] at hlocks
    exact absurd ((hwithin (Option.some.inj hlocks)).symm.trans hmain) nofun
  | enter camera ans hlock hstarting => exact absurd (hstarting.symm.trans hmain) nofun
  | shutdown ans hlock _ =>
    unfold Service.MainLocks at hlocks
    rw [hlock] at hlocks
    exact nomatch hlocks
  | serve k ans hlock hwaiting =>
    unfold Service.MainLocks at hlocks
    rw [hlock] at hlocks
    exact nomatch hlocks
  | expire k => exact ⟨hmain, hlocks⟩
  | exit p => exact ⟨hmain, hlocks⟩
  | signal => exact ⟨rfl, hlocks⟩

theorem SelfDeadlock.forever {s : Service} (h : SelfDeadlock s) (cfg : Config) (more : List Act) :
    SelfDeadlock (more.foldl (Doorbell.step cfg) s) := by
  induction more generalizing s with
  | nil => exact h
  | cons a more ih => exact ih (h.step cfg a)

/-- A trigger, and a signal while `start_streaming` waits for the Toon to answer. -/
def interruptedTrigger : List Act :=
  .receive motion :: List.replicate 3 goMain ++ [.signal]

theorem interrupted_trigger_deadlocks :
    ¬ ∀ cfg acts n, ShutdownFree (stateAt (step cfg) Service.init acts n) := fun h =>
  absurd (h config interruptedTrigger interruptedTrigger.length) (by decide +kernel)

end Doorbell
end ToonVpu
