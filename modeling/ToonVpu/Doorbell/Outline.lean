import ToonVpu.Foundation.Runs
import ToonVpu.Doorbell.Sender

/-!
# Outline — what is known at each statement

The invariant of the service gives an assertion for each statement of `start_streaming` and
`stop_streaming`, and one for the time in which nobody has the lock.
-/

namespace ToonVpu
namespace Doorbell

open Foundation
open Foundation.Runs
open Foundation.Timers

/-! ## Assertions -/

/-- Without a recorded process no timer is armed. -/
def Service.Settled (s : Service) : Prop := s.activeProcess = none → s.timers.Quiet

def Service.AtStart (s : Service) : StartPoint → Prop
  | .examine => s.Settled
  | .extendCancel => s.activeProcess.isSome
  | .switchTest => s.Settled
  | .switchKill => True
  | .switchForgetProcess => True
  | .switchForgetCamera => s.activeProcess = none
  | .switchCancel => s.activeProcess = none
  | .switchForgetTimer => s.activeProcess = none ∧ s.timers.Quiet
  | .show => s.activeProcess = none ∧ s.timers.Quiet
  | .spawn => s.activeProcess = none ∧ s.timers.Quiet
  | .record _ => s.timers.Quiet
  | .recordCamera => s.activeProcess.isSome ∧ s.timers.Quiet
  | .makeTimer => s.activeProcess.isSome ∧ s.timers.Quiet
  | .startTimer =>
    s.activeProcess.isSome ∧ ∃ k, s.stopTimer = some k ∧ s.timers.phase k = .made
  | .hide => s.timers.Quiet
  | .leave true => s.activeProcess.isSome
  | .leave false => s.timers.Quiet

def Service.AtStop (s : Service) : StopPoint → Prop
  | .check => s.Settled
  | .terminate => True
  | .forgetProcess => True
  | .forgetCamera => s.activeProcess = none
  | .hide => s.activeProcess = none
  | .cancel => s.activeProcess = none
  | .forgetTimer => s.timers.Quiet
  | .leave => s.timers.Quiet

def Service.At (s : Service) : Option Holder → Prop
  | none => s.Settled
  | some (.start _ pt) => s.AtStart pt
  | some (.stop _ pt) => s.AtStop pt

structure Placed (s : Service) : Prop where
  armed : ∀ j, s.timers.Armed j → s.stopTimer = some j
  place : s.At s.lock

theorem Placed.init : Placed Service.init :=
  ⟨fun _ => nofun, fun _ _ => nofun⟩

/-- A timer that is armed is the one that is recorded, so cancelling that one leaves none. -/
theorem quiet_cancelStop {s : Service} (harmed : ∀ j, s.timers.Armed j → s.stopTimer = some j) :
    s.cancelStop.timers.Quiet := by
  unfold Service.cancelStop
  cases hstop : s.stopTimer with
  | none =>
    intro j hj
    exact absurd ((harmed j hj).symm.trans hstop) nofun
  | some k =>
    refine quiet_cancel fun j hj => ?_
    exact Option.some.inj ((harmed j hj).symm.trans hstop)

theorem quiet_of_stopTimer {s : Service} (harmed : ∀ j, s.timers.Armed j → s.stopTimer = some j)
    (hstop : s.stopTimer.isSome ≠ true) : s.timers.Quiet := by
  intro j hj
  rw [harmed j hj] at hstop
  exact hstop rfl

theorem Placed.start {cfg : Config} {s : Service} (h : Placed s) {camera : String}
    {pt : StartPoint} (hlock : s.lock = some (.start camera pt)) (ans : Answer) :
    Placed (s.startStreaming cfg camera ans pt) := by
  rcases h with ⟨harmed, hplace⟩
  rw [hlock] at hplace
  -- What a place asks for is what the places before it have left.
  cases pt with
  | examine =>
    simp only [Service.startStreaming]
    split
    · rename_i p hactive
      split_ifs
      · exact ⟨harmed, congrArg Option.isSome hactive⟩
      · exact ⟨harmed, hplace⟩
    · exact ⟨harmed, hplace⟩
  | extendCancel =>
    refine ⟨fun j hj => absurd hj (quiet_cancelStop harmed j), hplace, quiet_cancelStop harmed⟩
  | switchTest =>
    simp only [Service.startStreaming]
    split_ifs with hactive
    · exact ⟨harmed, trivial⟩
    · have hnone : s.activeProcess = none := Option.not_isSome_iff_eq_none.mp hactive
      exact ⟨harmed, hnone, hplace hnone⟩
  | switchKill =>
    simp only [Service.startStreaming, Service.terminate]
    split
    · exact ⟨harmed, trivial⟩
    · exact ⟨harmed, trivial⟩
  | switchForgetProcess => exact ⟨harmed, rfl⟩
  | switchForgetCamera => exact ⟨harmed, hplace⟩
  | switchCancel =>
    simp only [Service.startStreaming]
    split_ifs with hstop
    · exact ⟨fun j hj => absurd hj (quiet_cancelStop harmed j), hplace, quiet_cancelStop harmed⟩
    · exact ⟨harmed, hplace, quiet_of_stopTimer harmed hstop⟩
  | switchForgetTimer => exact ⟨fun j hj => absurd hj (hplace.2 j), hplace⟩
  | «show» => exact ⟨harmed, hplace⟩
  | spawn =>
    simp only [Service.startStreaming]
    split_ifs
    · exact ⟨harmed, hplace.2⟩
    · exact ⟨harmed, hplace.2⟩
  | record proc => exact ⟨harmed, rfl, hplace⟩
  | recordCamera => exact ⟨harmed, hplace⟩
  | makeTimer =>
    exact ⟨fun j hj => absurd hj (hplace.2.make j), hplace.1, _, rfl, phase_make_count⟩
  | startTimer =>
    rcases hplace with ⟨hactive, k, hstop, hmade⟩
    simp only [Service.startStreaming, Service.startStop, hstop]
    refine ⟨fun j hj => ?_, hactive⟩
    rcases hj.of_start with hold | rfl
    · exact hstop.symm.trans (harmed j hold)
    · rfl
  | hide => exact ⟨harmed, hplace⟩
  | leave handled =>
    refine ⟨harmed, fun hnone => ?_⟩
    cases handled with
    | true => exact absurd hplace (Option.not_isSome_iff_eq_none.mpr hnone)
    | false => exact hplace

theorem Placed.stop {cfg : Config} {s : Service} (h : Placed s) {t : Thread} {pt : StopPoint}
    (hlock : s.lock = some (.stop t pt)) (ans : Answer) :
    Placed (s.stopStreaming cfg t ans pt) := by
  rcases h with ⟨harmed, hplace⟩
  rw [hlock] at hplace
  cases pt with
  | check =>
    simp only [Service.stopStreaming]
    split
    · exact ⟨harmed, trivial⟩
    · exact ⟨harmed, ‹_›⟩
  | terminate =>
    simp only [Service.stopStreaming, Service.terminate]
    split
    · exact ⟨harmed, trivial⟩
    · exact ⟨harmed, trivial⟩
  | forgetProcess => exact ⟨harmed, rfl⟩
  | forgetCamera => exact ⟨harmed, hplace⟩
  | hide => exact ⟨harmed, hplace⟩
  | cancel =>
    simp only [Service.stopStreaming]
    split_ifs with hstop
    · exact ⟨fun j hj => absurd hj (quiet_cancelStop harmed j), quiet_cancelStop harmed⟩
    · exact ⟨harmed, quiet_of_stopTimer harmed hstop⟩
  | forgetTimer => exact ⟨fun j hj => absurd hj (hplace j), hplace⟩
  | leave => exact ⟨harmed, fun _ => hplace⟩

/-- What is known at a statement stays known when a timer expires or has its turn. -/
theorem Service.At.of_timers {s : Service} {ts : Timers} {l : Option Holder} (h : s.At l)
    (harmed : ∀ j, ts.Armed j → s.timers.Armed j)
    (hmade : ∀ k, s.timers.phase k = .made → ts.phase k = .made) :
    { s with timers := ts }.At l := by
  have hquiet : s.timers.Quiet → ts.Quiet := fun hquiet j hj => hquiet j (harmed j hj)
  rcases l with _ | ⟨camera, pt⟩ | ⟨t, pt⟩
  · exact fun hnone => hquiet (h hnone)
  · cases pt with
    | examine => exact fun hnone => hquiet (h hnone)
    | switchTest => exact fun hnone => hquiet (h hnone)
    | startTimer =>
      rcases h with ⟨hactive, k, hstop, hphase⟩
      exact ⟨hactive, k, hstop, hmade k hphase⟩
    | leave handled =>
      cases handled with
      | true => exact h
      | false => exact hquiet h
    | _ => first | exact h | exact hquiet h | exact ⟨h.1, hquiet h.2⟩
  · cases pt with
    | check => exact fun hnone => hquiet (h hnone)
    | _ => first | exact h | exact hquiet h

theorem Placed.step {cfg : Config} {s : Service} (h : Placed s) (a : Act) :
    Placed (Doorbell.step cfg s a) := by
  have hmove := step_move cfg s a
  generalize Doorbell.step cfg s a = s' at hmove ⊢
  cases hmove with
  | same => exact h
  | receive msg camera hmain => exact ⟨h.armed, h.place⟩
  | start camera pt ans hlock hmain => exact h.start hlock ans
  | stop t pt ans hlock hmain => exact h.stop hlock ans
  | enter camera ans hlock hmain =>
    have hplace := h.place
    rw [hlock] at hplace
    exact ⟨h.armed, hplace⟩
  | shutdown ans hlock hmain =>
    have hplace := h.place
    rw [hlock] at hplace
    exact ⟨h.armed, hplace⟩
  | serve k ans hlock hwaiting =>
    have hplace := h.place
    rw [hlock] at hplace
    exact ⟨fun j hj => h.armed j (armed_serve.mp hj),
      fun hnone j hj => hplace hnone j (armed_serve.mp hj)⟩
  | expire k =>
    refine ⟨fun j hj => h.armed j (armed_expire.mp hj).1, ?_⟩
    exact h.place.of_timers (fun j hj => (armed_expire.mp hj).1) fun j hj => made_expire hj
  | exit p => exact ⟨h.armed, h.place⟩
  | signal => exact ⟨h.armed, h.place⟩

theorem placed (cfg : Config) (acts : List Act) (n : ℕ) :
    Placed (stateAt (Doorbell.step cfg) Service.init acts n) :=
  have hrun : Along (Doorbell.step cfg) Service.init acts fun _ _ => True := fun _ _ _ => trivial
  hrun.invariant Placed.init (fun _ a h _ => h.step a) n

/-! ## Steps of one thread -/

theorem step_start {cfg : Config} {s : Service} {camera : String} {pt : StartPoint} (ans : Answer)
    (hlock : s.lock = some (.start camera pt)) (hmain : s.main = .within) :
    step cfg s (.go .main ans) = s.startStreaming cfg camera ans pt := by
  simp [step, hlock, Holder.thread, Service.proceed, hmain]

theorem step_stop_timer {cfg : Config} {s : Service} {k : ℕ} (pt : StopPoint) (ans : Answer)
    (hlock : s.lock = some (.stop (.timer k) pt)) :
    step cfg s (.go (.timer k) ans) = s.stopStreaming cfg (.timer k) ans pt := by
  simp [step, hlock, Holder.thread, Service.proceed]

theorem step_serve {cfg : Config} {s : Service} {k : ℕ} (ans : Answer) (hlock : s.lock = none)
    (hwaiting : s.timers.Waiting k) :
    step cfg s (.go (.timer k) ans) =
      { s with timers := s.timers.serve k, lock := some (.stop (.timer k) .check) } := by
  simp [step, hlock, Service.acquire, hwaiting]

/-! ## Triggers -/

/-- Somebody moves in front of the camera. -/
def motion : Message := ⟨"ring/home/camera/FRONT_CAMERA_ID/motion/state", some "ON"⟩

/-- The main thread goes on, and what it asks for works. -/
def goMain : Act := .go .main ⟨true, true⟩

/-- A trigger that starts the stream. -/
def firstTrigger : List Act := .receive motion :: List.replicate 10 goMain

/-- A trigger for the same camera while the stream is active. -/
def nextTrigger : List Act := .receive motion :: List.replicate 6 goMain

end Doorbell
end ToonVpu
