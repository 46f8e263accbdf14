import ToonVpu.Foundation.Monitor
import ToonVpu.Doorbell.Outline

/-!
# Cooldown — which timer stops the stream

Each trigger arms a timer, and cancels the one of the trigger before.  A timer that has expired by
then is out of reach: its thread waits for `state.lock`, and stops the stream once it has it.
-/

namespace ToonVpu
namespace Doorbell

open Foundation
open Foundation.Monitor
open Foundation.Runs
open Foundation.Timers

/-! ## The timer of the latest trigger -/

/-- The timer that a trigger arms. -/
def Event.arms : Event → Option ℕ
  | .armed k => some k
  | _ => none

/-- The timer that stops the stream. -/
def Event.stopsBy : Event → Option ℕ
  | .stopping (.timer k) _ => some k
  | _ => none

/-- The timer that the latest trigger has armed. -/
def latest (g : Option ℕ) (e : Event) : Option ℕ := e.arms.or g

/-- A timer stops the stream only when it is the latest. -/
def StoppedByLatest (g : Option ℕ) (e : Event) : Prop := ∀ k ∈ e.stopsBy, g = some k

instance (g : Option ℕ) (e : Event) : Decidable (StoppedByLatest g e) :=
  inferInstanceAs (Decidable (∀ k ∈ e.stopsBy, g = some k))

def Service.latestTimer (s : Service) : Option ℕ := s.trace.foldl latest none

def KeepsCooldown (s : Service) : Prop := Watched latest StoppedByLatest none s.trace

instance (s : Service) : Decidable (KeepsCooldown s) :=
  inferInstanceAs (Decidable (Watched latest StoppedByLatest none s.trace))

/-- When a trigger starts its timer, no timer that has expired waits for the lock. -/
def ArmsAlone (s : Service) : Act → Prop
  | .go .main _ =>
    ∀ camera, s.lock = some (.start camera .startTimer) → s.main = .within →
      ∀ k, ¬ s.timers.Waiting k
  | _ => True

/-- The timer whose thread tests next whether there is a stream to stop. -/
def Service.checking (s : Service) : Option ℕ :=
  match s.lock with
  | some (.stop t .check) =>
    match t with
    | .main => none
    | .timer k => some k
  | _ => none

structure Kept (s : Service) : Prop where
  placed : Placed s
  keeps : KeepsCooldown s
  live : ∀ j, s.timers.Armed j ∨ s.timers.Waiting j → s.latestTimer = some j
  check : ∀ k, s.checking = some k → s.latestTimer = some k

/-- An event that the monitor does not look at. -/
def Event.Silent (e : Event) : Prop := e.arms = none ∧ e.stopsBy = none

/-- A step that arms no timer, and in which no timer stops the stream. -/
structure Quietly (s s' : Service) : Prop where
  trace : ∃ es, s'.trace = s.trace ++ es ∧ ∀ e ∈ es, e.Silent
  live : ∀ j, s'.timers.Armed j ∨ s'.timers.Waiting j → s.timers.Armed j ∨ s.timers.Waiting j
  check : ∀ k, s'.checking = some k → s.timers.Waiting k ∨ s.checking = some k

theorem Event.Silent.latest {e : Event} (h : e.Silent) (g : Option ℕ) : latest g e = g := by
  rw [Doorbell.latest, h.1, Option.none_or]

theorem allowed_of_stopsBy {e : Event} (h : e.stopsBy = none) (g : Option ℕ) :
    StoppedByLatest g e := by
  intro k hk
  rw [h] at hk
  exact nomatch hk

theorem checking_of_lock {s : Service} {k : ℕ} (hlock : s.lock = some (.stop (.timer k) .check)) :
    s.checking = some k := by
  unfold Service.checking
  rw [hlock]

theorem Quietly.latestTimer {s s' : Service} (h : Quietly s s') :
    s'.latestTimer = s.latestTimer := by
  rcases h.trace with ⟨es, htrace, hsilent⟩
  unfold Service.latestTimer
  rw [htrace, List.foldl_append]
  exact foldl_of_forall (fun e he => (hsilent e he).latest) _

theorem Kept.quietly {s s' : Service} (h : Kept s) (hplaced : Placed s') (hq : Quietly s s') :
    Kept s' := by
  refine ⟨hplaced, ?_, fun j hj => ?_, fun k hk => ?_⟩
  · rcases hq.trace with ⟨es, htrace, hsilent⟩
    unfold KeepsCooldown
    rw [htrace, watched_append]
    exact ⟨h.keeps, watched_of_forall (fun e he => allowed_of_stopsBy (hsilent e he).2) _⟩
  · rw [hq.latestTimer]
    exact h.live j (hq.live j hj)
  · rw [hq.latestTimer]
    rcases hq.check k hk with hwaiting | hcheck
    · exact h.live k (.inr hwaiting)
    · exact h.check k hcheck

/-- A step that logs nothing. -/
theorem Quietly.of_trace {s s' : Service} (htrace : s'.trace = s.trace)
    (hlive : ∀ j, s'.timers.Armed j ∨ s'.timers.Waiting j → s.timers.Armed j ∨ s.timers.Waiting j)
    (hcheck : ∀ k, s'.checking = some k → s.timers.Waiting k ∨ s.checking = some k) :
    Quietly s s' :=
  ⟨⟨[], htrace.trans (List.append_nil _).symm, List.forall_mem_nil _⟩, hlive, hcheck⟩

theorem not_checking {s : Service} {p : ℕ → Prop} (hcheck : s.checking = none) (k : ℕ)
    (hk : s.checking = some k) : p k :=
  absurd (hcheck.symm.trans hk) (Option.some_ne_none k).symm

/-- A statement that leaves the timers and the trace. -/
theorem Quietly.of_same {s s' : Service} (htrace : s'.trace = s.trace)
    (htimers : s'.timers = s.timers) (hcheck : s'.checking = none) : Quietly s s' :=
  .of_trace htrace (fun _ hj => htimers ▸ hj) (not_checking hcheck)

/-- A statement that leaves the timers and logs something else. -/
theorem Quietly.of_say {s s' : Service} {es : List Event} (htrace : s'.trace = s.trace ++ es)
    (hsilent : ∀ e ∈ es, e.arms = none ∧ e.stopsBy = none) (htimers : s'.timers = s.timers)
    (hcheck : s'.checking = none) : Quietly s s' :=
  ⟨⟨es, htrace, hsilent⟩, fun _ hj => htimers ▸ hj, not_checking hcheck⟩

/-- A statement that cancels the timer. -/
theorem Quietly.of_cancel {s s' : Service} (htrace : s'.trace = s.trace)
    (htimers : s'.timers = s.cancelStop.timers) (hcheck : s'.checking = none) : Quietly s s' := by
  refine .of_trace htrace (fun j hj => ?_) (not_checking hcheck)
  rw [htimers] at hj
  unfold Service.cancelStop at hj
  cases hstop : s.stopTimer with
  | none =>
    rw [hstop] at hj
    exact hj
  | some k =>
    rw [hstop] at hj
    exact hj.imp (fun h => (armed_cancel.mp h).1) waiting_cancel.mp

theorem terminate_quietly {s : Service} {closes force : Bool} {h : Holder}
    (hcheck : ∀ s' : Service, (s'.goto h).checking = none) :
    Quietly s ((s.terminate closes force).goto h) := by
  unfold Service.terminate
  cases s.activeProcess with
  | none => exact .of_same rfl rfl (hcheck s)
  | some p =>
    refine .of_say rfl ?_ rfl (hcheck _)
    split_ifs
    · simp [Event.arms, Event.stopsBy]
    · simp [Event.arms, Event.stopsBy]

theorem start_quietly {cfg : Config} {s : Service} {camera : String} {pt : StartPoint}
    {ans : Answer} (hpt : pt ≠ .startTimer) : Quietly s (s.startStreaming cfg camera ans pt) := by
  cases pt with
  | startTimer => exact absurd rfl hpt
  | examine =>
    simp only [Service.startStreaming]
    split
    · split_ifs
      · exact .of_say rfl (List.forall_mem_singleton.mpr ⟨rfl, rfl⟩) rfl rfl
      · exact .of_same rfl rfl rfl
    · exact .of_same rfl rfl rfl
  | extendCancel => exact .of_cancel rfl rfl rfl
  | switchTest =>
    simp only [Service.startStreaming]
    split_ifs
    · exact .of_same rfl rfl rfl
    · exact .of_same rfl rfl rfl
  | switchKill => exact terminate_quietly fun _ => rfl
  | switchCancel =>
    simp only [Service.startStreaming]
    split_ifs
    · exact .of_cancel rfl rfl rfl
    · exact .of_same rfl rfl rfl
  | «show» => exact .of_say rfl (List.forall_mem_singleton.mpr ⟨rfl, rfl⟩) rfl rfl
  | spawn =>
    simp only [Service.startStreaming]
    split_ifs
    · exact .of_say rfl (List.forall_mem_singleton.mpr ⟨rfl, rfl⟩) rfl rfl
    · exact .of_same rfl rfl rfl
  | makeTimer =>
    refine .of_trace rfl (fun j hj => ?_) (not_checking rfl)
    exact hj.imp (fun h => (armed_make.mp h).1) fun h => (waiting_make.mp h).1
  | hide => exact .of_say rfl (List.forall_mem_singleton.mpr ⟨rfl, rfl⟩) rfl rfl
  | leave handled =>
    refine .of_say rfl ?_ rfl rfl
    split_ifs
    · exact List.forall_mem_singleton.mpr ⟨rfl, rfl⟩
    · exact List.forall_mem_nil _
  | _ => exact .of_same rfl rfl rfl

theorem stop_quietly {cfg : Config} {s : Service} {t : Thread} {pt : StopPoint} {ans : Answer}
    (hpt : pt ≠ .check) : Quietly s (s.stopStreaming cfg t ans pt) := by
  cases pt with
  | check => exact absurd rfl hpt
  | terminate => exact terminate_quietly fun _ => rfl
  | hide => exact .of_say rfl (List.forall_mem_singleton.mpr ⟨rfl, rfl⟩) rfl rfl
  | cancel =>
    simp only [Service.stopStreaming]
    split_ifs
    · exact .of_cancel rfl rfl rfl
    · exact .of_same rfl rfl rfl
  | _ => exact .of_same rfl rfl rfl

/-- The test at the start of `stop_streaming`; a timer thread is there only for the latest
trigger. -/
theorem Kept.check_stop {cfg : Config} {s : Service} (h : Kept s) {t : Thread} {ans : Answer}
    (hlock : s.lock = some (.stop t .check)) :
    Kept (s.stopStreaming cfg t ans .check) := by
  have hplaced : Placed (s.stopStreaming cfg t ans .check) := h.placed.stop hlock ans
  revert hplaced
  simp only [Service.stopStreaming]
  split
  · rename_i p hactive
    intro hplaced
    refine ⟨hplaced, ?_, fun j hj => ?_, not_checking rfl⟩
    · refine (watched_append _ _ _ _ _).mpr ⟨h.keeps, ?_⟩
      simp only [watched_cons, watched_nil, and_true]
      cases t with
      | main => exact allowed_of_stopsBy rfl _
      | timer j =>
        intro k hk
        rw [← Option.some.inj hk]
        exact h.check j (checking_of_lock hlock)
    · have hlatest := h.live j hj
      unfold Service.latestTimer at hlatest ⊢
      simp only [Service.goto, Service.say, List.foldl_append, List.foldl_cons, List.foldl_nil]
      rw [hlatest]
      rfl
  · intro hplaced
    exact h.quietly hplaced (.of_same rfl rfl rfl)

/-- A trigger starts its timer while no other is left. -/
theorem Kept.start_timer {cfg : Config} {s : Service} (h : Kept s) {camera : String}
    {ans : Answer} (hlock : s.lock = some (.start camera .startTimer))
    (halone : ∀ k, ¬ s.timers.Waiting k) :
    Kept (s.startStreaming cfg camera ans .startTimer) := by
  have hplaced : Placed (s.startStreaming cfg camera ans .startTimer) := h.placed.start hlock ans
  have hplace := h.placed.place
  rw [hlock] at hplace
  rcases hplace with ⟨-, k, hstop, hmade⟩
  have harmed := h.placed.armed
  revert hplaced
  simp only [Service.startStreaming, Service.startStop, hstop]
  intro hplaced
  refine ⟨hplaced, ?_, fun j hj => ?_, not_checking rfl⟩
  · refine (watched_append _ _ _ _ _).mpr ⟨h.keeps, ?_⟩
    simp only [watched_cons, watched_nil, and_true]
    exact allowed_of_stopsBy rfl _
  · have hlatest : ∀ g : Option ℕ, latest g (.armed k) = some k := fun _ => rfl
    unfold Service.latestTimer
    simp only [Service.goto, List.foldl_append, List.foldl_cons, List.foldl_nil, hlatest]
    rcases hj with hj | hj
    · rcases hj.of_start with hold | rfl
      · exact hstop.symm.trans (harmed j hold)
      · rfl
    · exact absurd (waiting_start.mp hj) (halone j)

theorem Kept.step {cfg : Config} {s : Service} (h : Kept s) (a : Act) (halone : ArmsAlone s a) :
    Kept (Doorbell.step cfg s a) := by
  have hplaced : Placed (Doorbell.step cfg s a) := h.placed.step a
  have hmove := step_move cfg s a
  generalize Doorbell.step cfg s a = s' at hmove hplaced ⊢
  cases hmove with
  | same => exact h
  | receive msg camera hmain =>
    exact h.quietly hplaced (.of_trace rfl (fun _ => id) fun _ => .inr)
  | start camera pt ans hlock hmain =>
    rcases eq_or_ne pt .startTimer with rfl | hne
    · exact h.start_timer hlock (halone camera hlock hmain)
    · exact h.quietly hplaced (start_quietly hne)
  | stop t pt ans hlock hmain =>
    rcases eq_or_ne pt .check with rfl | hne
    · exact h.check_stop hlock
    · exact h.quietly hplaced (stop_quietly hne)
  | enter camera ans hlock hmain =>
    exact h.quietly hplaced
      (.of_say rfl (List.forall_mem_singleton.mpr ⟨rfl, rfl⟩) rfl rfl)
  | shutdown ans hlock hmain => exact h.quietly hplaced (.of_same rfl rfl rfl)
  | serve k ans hlock hwaiting =>
    refine h.quietly hplaced (.of_trace rfl (fun j hj => ?_) fun j hj => ?_)
    · exact hj.imp armed_serve.mp fun h => (waiting_serve.mp h).1
    · exact .inl (Option.some.inj hj ▸ hwaiting)
  | expire k =>
    refine h.quietly hplaced (.of_trace rfl (fun j hj => ?_) fun _ => .inr)
    rcases hj with hj | hj
    · exact .inl (armed_expire.mp hj).1
    · exact hj.of_expire.symm
  | exit p =>
    exact h.quietly hplaced (.of_trace rfl (fun _ => id) fun _ => .inr)
  | signal =>
    exact h.quietly hplaced (.of_trace rfl (fun _ => id) fun _ => .inr)

theorem Kept.init : Kept Service.init :=
  ⟨Placed.init, watched_nil _ _ _, fun _ hj => hj.elim nofun nofun, not_checking rfl⟩

/-- A timer that is not the latest and gets the lock stops the stream. -/
theorem serve_stops {cfg : Config} {s : Service} {p k : ℕ} (hlock : s.lock = none)
    (hactive : s.activeProcess = some p) (hwaiting : s.timers.Waiting k)
    (hlatest : s.latestTimer ≠ some k) (ans : Answer) :
    ¬ KeepsCooldown (step cfg (step cfg s (.go (.timer k) ans)) (.go (.timer k) ans)) := by
  rw [step_serve ans hlock hwaiting, step_stop_timer .check ans]
  · simp only [Service.stopStreaming, Service.goto, Service.say, hactive]
    intro hkeeps
    have hlast := ((watched_append _ _ _ _ _).mp hkeeps).2
    rw [watched_cons] at hlast
    exact hlatest (hlast.1 k rfl)
  · rfl

/-- The main thread leaves `start_streaming`, and the timer gets the lock before anybody else. -/
def overtake (k : ℕ) (ans : Answer) : List Act :=
  [.go .main ans, .go (.timer k) ans, .go (.timer k) ans]

/-- A timer that waits when a trigger is done can stop the stream next. -/
theorem overtake_stops {cfg : Config} {s : Service} {camera : String} {p k : ℕ}
    (hlock : s.lock = some (.start camera (.leave true))) (hmain : s.main = .within)
    (hactive : s.activeProcess = some p) (hwaiting : s.timers.Waiting k)
    (hlatest : s.latestTimer ≠ some k) (ans : Answer) :
    ¬ KeepsCooldown ((overtake k ans).foldl (step cfg) s) := by
  simp only [overtake, List.foldl_cons, List.foldl_nil]
  rw [step_start ans hlock hmain]
  apply serve_stops
  · rfl
  · exact hactive
  · exact hwaiting
  · simp only [Service.latestTimer, Service.startStreaming, List.foldl_append]
    exact hlatest

/-- Where a trigger starts its timer while an earlier one waits, that one can stop the stream. -/
theorem late_start_stops {cfg : Config} {s : Service} (h : Placed s) {camera : String}
    (hlock : s.lock = some (.start camera .startTimer)) (hmain : s.main = .within) {k : ℕ}
    (hwaiting : s.timers.Waiting k) (ans : Answer) :
    ¬ KeepsCooldown ((overtake k ans).foldl (step cfg) (step cfg s (.go .main ans))) := by
  have hplace := h.place
  rw [hlock] at hplace
  rcases hplace with ⟨hactive, j, hstop, hmade⟩
  rcases Option.isSome_iff_exists.mp hactive with ⟨p, hp⟩
  rw [step_start ans hlock hmain]
  simp only [Service.startStreaming, Service.startStop, hstop]
  apply overtake_stops
  · rfl
  · exact hmain
  · exact hp
  · exact waiting_start.mpr hwaiting
  · simp only [Service.latestTimer, Service.goto, List.foldl_append, List.foldl_cons,
      List.foldl_nil]
    -- the timer of the trigger has not been started before, so it is not the one that waits
    intro heq
    have hsame : j = k := Option.some.inj heq
    rw [← hsame] at hwaiting
    exact absurd (hmade.symm.trans hwaiting) (by decide)

/-- Along a run in which every trigger arms its timer alone, a timer stops the stream only when it
is that of the latest trigger.  Whenever a trigger does not, an earlier timer can. -/
theorem cooldown_kept (cfg : Config) (acts : List Act) :
    (Along (step cfg) Service.init acts ArmsAlone →
      ∀ n, KeepsCooldown (stateAt (step cfg) Service.init acts n)) ∧
    ∀ n a, ¬ ArmsAlone (stateAt (step cfg) Service.init acts n) a →
      ∃ more : List Act, ¬ KeepsCooldown
        (more.foldl (step cfg) (step cfg (stateAt (step cfg) Service.init acts n) a)) := by
  constructor
  · intro hrun n
    exact (hrun.invariant Kept.init (fun s a h halone => h.step a halone) n).keeps
  · intro n a hlate
    have hplaced := placed cfg acts n
    generalize stateAt (step cfg) Service.init acts n = s at hlate hplaced ⊢
    cases a with
    | go t ans =>
      cases t with
      | main =>
        simp only [ArmsAlone, not_forall, not_not] at hlate
        rcases hlate with ⟨camera, hlock, hmain, k, hwaiting⟩
        exact ⟨overtake k ans, late_start_stops hplaced hlock hmain hwaiting ans⟩
      | timer k => exact absurd trivial hlate
    | _ => exact absurd trivial hlate

/-! ## A timer that has already expired -/

/-- The cooldown of the first trigger is over when the next trigger has the lock. -/
def lateTrigger : List Act :=
  firstTrigger ++ [.expire 0] ++ nextTrigger ++ List.replicate 2 (.go (.timer 0) ⟨true, true⟩)

theorem extended_stream_stopped :
    ¬ ∀ cfg acts n, KeepsCooldown (stateAt (step cfg) Service.init acts n) := fun h =>
  absurd (h config lateTrigger lateTrigger.length) (by decide +kernel)

end Doorbell
end ToonVpu
