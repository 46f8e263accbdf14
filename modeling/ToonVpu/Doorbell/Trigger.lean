import ToonVpu.Foundation.Monitor
import ToonVpu.Doorbell.Outline

/-!
# Trigger — whether a trigger leaves a stream behind

The child can exit while it is still recorded as the active process.  `start_streaming` looks only
at the record, and then extends the cooldown of a stream that has ended.
-/

namespace ToonVpu
namespace Doorbell

open Foundation
open Foundation.Monitor
open Foundation.Runs

/-! ## What a trigger has seen -/

structure Seen where
  /-- The processes that this call of `start_streaming` has found running or has made. -/
  live : List ℕ
  /-- The last request to the Toon. -/
  http : Option ToonAction

def Seen.next (g : Seen) : Event → Seen
  | .entered _ => { g with live := [] }
  | .extending p running => { g with live := if running then p :: g.live else g.live }
  | .spawned p _ => { g with live := p :: g.live }
  | .http action _ => { g with http := some action }
  | _ => g

/-- What is extended is running, and what a trigger leaves behind is a process that it has seen
running, with the Toon told to show it. -/
def Seen.Allows (g : Seen) : Event → Prop
  | .extending _ running => running = true
  | .handled active => ∃ p ∈ g.live, active = some p ∧ g.http = some .show
  | _ => True

instance (g : Seen) : ∀ e, Decidable (g.Allows e)
  | .extending _ running => inferInstanceAs (Decidable (running = true))
  | .handled active =>
    inferInstanceAs (Decidable (∃ p ∈ g.live, active = some p ∧ g.http = some .show))
  | .entered _ => .isTrue trivial
  | .spawned _ _ => .isTrue trivial
  | .armed _ => .isTrue trivial
  | .stopping _ _ => .isTrue trivial
  | .sigterm _ => .isTrue trivial
  | .sigkill _ => .isTrue trivial
  | .http _ _ => .isTrue trivial

def Service.seen (s : Service) : Seen := s.trace.foldl Seen.next ⟨[], none⟩

def LeavesStream (s : Service) : Prop := Watched Seen.next Seen.Allows ⟨[], none⟩ s.trace

instance (s : Service) : Decidable (LeavesStream s) :=
  inferInstanceAs (Decidable (Watched Seen.next Seen.Allows ⟨[], none⟩ s.trace))

/-- When `start_streaming` tests for an active stream of the same camera, its process has not
exited. -/
def FindsRunning (s : Service) : Act → Prop
  | .go .main _ =>
    ∀ camera p, s.lock = some (.start camera .examine) → s.main = .within →
      s.activeProcess = some p → s.activeCameraId = some camera → s.running p = true
  | _ => True

/-- What `start_streaming` can vouch for at each statement. -/
def Seen.Vouches (g : Seen) (active : Option ℕ) : Option Holder → Prop
  | some (.start _ .extendCancel) => ∃ p ∈ g.live, active = some p
  | some (.start _ .spawn) => g.http = some .show
  | some (.start _ (.record p)) => p ∈ g.live ∧ g.http = some .show
  | some (.start _ .recordCamera) => ∃ p ∈ g.live, active = some p
  | some (.start _ .makeTimer) => ∃ p ∈ g.live, active = some p
  | some (.start _ .startTimer) => ∃ p ∈ g.live, active = some p
  | some (.start _ .hide) => active = none
  | some (.start _ (.leave true)) => ∃ p ∈ g.live, active = some p
  | _ => True

structure Vouched (s : Service) : Prop where
  placed : Placed s
  leaves : LeavesStream s
  shown : s.activeProcess.isSome → s.seen.http = some .show
  vouches : s.seen.Vouches s.activeProcess s.lock

theorem Vouched.init : Vouched Service.init := ⟨Placed.init, watched_nil _ _ _, nofun, trivial⟩

/-- An event that the monitor does not look at. -/
def Event.Ignored (e : Event) : Prop := ∀ g : Seen, g.next e = g ∧ g.Allows e

/-- A step that logs nothing of interest. -/
theorem Vouched.of_ignored {s s' : Service} (h : Vouched s) (hplaced : Placed s')
    {es : List Event} (htrace : s'.trace = s.trace ++ es) (hes : ∀ e ∈ es, e.Ignored)
    (hactive : s'.activeProcess.isSome → s.seen.http = some .show)
    (hvouches : s.seen.Vouches s'.activeProcess s'.lock) : Vouched s' := by
  have hseen : s'.seen = s.seen := by
    unfold Service.seen
    rw [htrace, List.foldl_append]
    exact foldl_of_forall (fun e he g => (hes e he g).1) _
  refine ⟨hplaced, ?_, fun hsome => ?_, ?_⟩
  · unfold LeavesStream
    rw [htrace, watched_append]
    exact ⟨h.leaves, watched_of_forall (fun e he g => (hes e he g).2) _⟩
  · rw [hseen]
    exact hactive hsome
  · rw [hseen]
    exact hvouches

/-- A step that logs nothing. -/
theorem Vouched.of_same {s s' : Service} (h : Vouched s) (hplaced : Placed s')
    (htrace : s'.trace = s.trace)
    (hactive : s'.activeProcess.isSome → s.seen.http = some .show)
    (hvouches : s.seen.Vouches s'.activeProcess s'.lock) : Vouched s' :=
  h.of_ignored hplaced (htrace.trans (List.append_nil _).symm) (List.forall_mem_nil _) hactive
    hvouches

/-- A step that logs one event. -/
theorem Vouched.of_say {s s' : Service} (h : Vouched s) (hplaced : Placed s') {e : Event}
    (htrace : s'.trace = s.trace ++ [e]) (hallowed : s.seen.Allows e)
    (hactive : s'.activeProcess.isSome → (s.seen.next e).http = some .show)
    (hvouches : (s.seen.next e).Vouches s'.activeProcess s'.lock) : Vouched s' := by
  have hseen : s'.seen = s.seen.next e := by
    unfold Service.seen
    rw [htrace, List.foldl_append]
    rfl
  refine ⟨hplaced, ?_, fun hsome => ?_, ?_⟩
  · unfold LeavesStream
    rw [htrace, watched_append]
    exact ⟨h.leaves, (watched_cons _ _ _ _ _).mpr ⟨hallowed, watched_nil _ _ _⟩⟩
  · rw [hseen]
    exact hactive hsome
  · rw [hseen]
    exact hvouches

/-- The process is told to end, and it is still recorded. -/
theorem Vouched.terminate {s : Service} (h : Vouched s) {closes force : Bool} {holder : Holder}
    (hplaced : Placed ((s.terminate closes force).goto holder))
    (hvouches : ∀ g : Seen, ∀ active, g.Vouches active (some holder)) :
    Vouched ((s.terminate closes force).goto holder) := by
  revert hplaced
  unfold Service.terminate
  split
  · intro hplaced
    refine h.of_ignored hplaced rfl ?_ h.shown (hvouches _ _)
    split_ifs
    · simp [Event.Ignored, Seen.next, Seen.Allows]
    · simp [Event.Ignored, Seen.next, Seen.Allows]
  · exact fun hplaced => h.of_same hplaced rfl h.shown (hvouches _ _)

theorem Vouched.start {cfg : Config} {s : Service} (h : Vouched s) {camera : String}
    {pt : StartPoint} {ans : Answer} (hlock : s.lock = some (.start camera pt))
    (hmain : s.main = .within) (hruns : FindsRunning s (.go .main ans)) :
    Vouched (s.startStreaming cfg camera ans pt) := by
  have hplaced : Placed (s.startStreaming cfg camera ans pt) := h.placed.start hlock ans
  have hplace := h.placed.place
  have hvouches := h.vouches
  rw [hlock] at hplace hvouches
  -- Most places log nothing and pass on what the next place has to know.
  revert hplaced
  cases pt with
  | examine =>
    simp only [Service.startStreaming]
    split
    · rename_i p hactive
      split_ifs with hcamera
      · intro hplaced
        have hrunning := hruns camera p hlock hmain hactive hcamera
        refine h.of_say hplaced rfl hrunning (fun hsome => h.shown hsome) ⟨p, ?_, hactive⟩
        simp [Seen.next, hrunning]
      · exact fun hplaced => h.of_same hplaced rfl h.shown trivial
    · exact fun hplaced => h.of_same hplaced rfl h.shown trivial
  | extendCancel => exact fun hplaced => h.of_same hplaced rfl h.shown hvouches
  | switchTest =>
    simp only [Service.startStreaming]
    split_ifs
    · exact fun hplaced => h.of_same hplaced rfl h.shown trivial
    · exact fun hplaced => h.of_same hplaced rfl h.shown trivial
  | switchKill => exact fun hplaced => h.terminate hplaced fun _ _ => trivial
  | switchForgetProcess =>
    intro hplaced
    exact h.of_same hplaced rfl (fun hsome => absurd hsome Bool.false_ne_true) trivial
  | switchForgetCamera => exact fun hplaced => h.of_same hplaced rfl h.shown trivial
  | switchCancel =>
    simp only [Service.startStreaming]
    split_ifs
    · exact fun hplaced => h.of_same hplaced rfl h.shown trivial
    · exact fun hplaced => h.of_same hplaced rfl h.shown trivial
  | switchForgetTimer => exact fun hplaced => h.of_same hplaced rfl h.shown trivial
  | «show» => exact fun hplaced => h.of_say hplaced rfl trivial (fun _ => rfl) rfl
  | spawn =>
    simp only [Service.startStreaming]
    split_ifs
    · intro hplaced
      exact h.of_say hplaced rfl trivial (fun _ => hvouches) ⟨List.mem_cons_self, hvouches⟩
    · exact fun hplaced => h.of_same hplaced rfl h.shown hplace.1
  | record proc =>
    exact fun hplaced => h.of_same hplaced rfl (fun _ => hvouches.2) ⟨proc, hvouches.1, rfl⟩
  | recordCamera => exact fun hplaced => h.of_same hplaced rfl h.shown hvouches
  | makeTimer => exact fun hplaced => h.of_same hplaced rfl h.shown hvouches
  | startTimer =>
    rcases hplace with ⟨-, k, hstop, -⟩
    simp only [Service.startStreaming, Service.startStop, hstop]
    exact fun hplaced => h.of_say hplaced rfl trivial h.shown hvouches
  | hide =>
    intro hplaced
    refine h.of_say hplaced rfl trivial (fun hsome => ?_) trivial
    exact absurd hsome (Option.not_isSome_iff_eq_none.mpr hvouches)
  | leave handled =>
    cases handled with
    | false =>
      exact fun hplaced => h.of_same hplaced (List.append_nil _) h.shown trivial
    | true =>
      intro hplaced
      rcases hvouches with ⟨p, hp, hactive⟩
      refine h.of_say hplaced rfl ⟨p, hp, hactive, h.shown ?_⟩ h.shown trivial
      rw [hactive]
      rfl

theorem Vouched.stop {cfg : Config} {s : Service} (h : Vouched s) {t : Thread} {pt : StopPoint}
    {ans : Answer} (hlock : s.lock = some (.stop t pt)) :
    Vouched (s.stopStreaming cfg t ans pt) := by
  have hplaced : Placed (s.stopStreaming cfg t ans pt) := h.placed.stop hlock ans
  have hplace := h.placed.place
  rw [hlock] at hplace
  revert hplaced
  cases pt with
  | check =>
    simp only [Service.stopStreaming]
    split
    · exact fun hplaced => h.of_say hplaced rfl trivial h.shown trivial
    · exact fun hplaced => h.of_same hplaced rfl h.shown trivial
  | terminate => exact fun hplaced => h.terminate hplaced fun _ _ => trivial
  | forgetProcess =>
    intro hplaced
    exact h.of_same hplaced rfl (fun hsome => absurd hsome Bool.false_ne_true) trivial
  | forgetCamera => exact fun hplaced => h.of_same hplaced rfl h.shown trivial
  | hide =>
    intro hplaced
    refine h.of_say hplaced rfl trivial (fun hsome => ?_) trivial
    exact absurd hsome (Option.not_isSome_iff_eq_none.mpr hplace)
  | cancel =>
    simp only [Service.stopStreaming]
    split_ifs
    · exact fun hplaced => h.of_same hplaced rfl h.shown trivial
    · exact fun hplaced => h.of_same hplaced rfl h.shown trivial
  | forgetTimer => exact fun hplaced => h.of_same hplaced rfl h.shown trivial
  | leave => exact fun hplaced => h.of_same hplaced rfl h.shown trivial

theorem Vouched.step {cfg : Config} {s : Service} (h : Vouched s) (a : Act)
    (hruns : FindsRunning s a) : Vouched (Doorbell.step cfg s a) := by
  have hplaced : Placed (Doorbell.step cfg s a) := h.placed.step a
  have hmove := step_move cfg s a
  generalize Doorbell.step cfg s a = s' at hmove hplaced ⊢
  cases hmove with
  | same => exact h
  | receive msg camera hmain => exact h.of_same hplaced rfl h.shown h.vouches
  | start camera pt ans hlock hmain => exact h.start hlock hmain hruns
  | stop t pt ans hlock hmain => exact h.stop hlock
  | enter camera ans hlock hmain => exact h.of_say hplaced rfl trivial h.shown trivial
  | shutdown ans hlock hmain => exact h.of_same hplaced rfl h.shown trivial
  | serve k ans hlock hwaiting => exact h.of_same hplaced rfl h.shown trivial
  | expire k => exact h.of_same hplaced rfl h.shown h.vouches
  | exit p => exact h.of_same hplaced rfl h.shown h.vouches
  | signal => exact h.of_same hplaced rfl h.shown h.vouches

/-- A trigger that finds an exited process extends its stream all the same. -/
theorem FindsRunning.of_leaves {cfg : Config} {s : Service} {a : Act}
    (hleaves : LeavesStream (Doorbell.step cfg s a)) : FindsRunning s a := by
  cases a with
  | go t ans =>
    cases t with
    | main =>
      intro camera p hlock hmain hactive hcamera
      rw [step_start ans hlock hmain] at hleaves
      simp only [Service.startStreaming, hactive, hcamera, if_true] at hleaves
      have hlast := ((watched_append _ _ _ _ _).mp hleaves).2
      exact ((watched_cons _ _ _ _ _).mp hlast).1
    | timer k => trivial
  | _ => trivial

/-- Every trigger of a run leaves a stream that it has seen running exactly when no trigger of the
run finds an active process that has exited. -/
theorem trigger_leaves_stream_iff (cfg : Config) (acts : List Act) :
    (∀ n, LeavesStream (stateAt (step cfg) Service.init acts n)) ↔
      Along (step cfg) Service.init acts FindsRunning := by
  apply forall_good_iff_along Vouched.init
  · exact fun s a h hruns => h.step a hruns
  · exact fun s h => h.leaves
  · exact fun s a _ hleaves => FindsRunning.of_leaves hleaves

/-- The child exits within the cooldown, and there is another trigger. -/
def triggerAfterExit : List Act := firstTrigger ++ [.exit 0] ++ nextTrigger

theorem exited_stream_extended :
    ¬ ∀ cfg acts n, LeavesStream (stateAt (step cfg) Service.init acts n) := fun h =>
  absurd (h config triggerAfterExit triggerAfterExit.length) (by decide +kernel)

end Doorbell
end ToonVpu
