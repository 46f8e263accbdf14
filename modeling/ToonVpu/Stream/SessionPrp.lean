import ToonVpu.Foundation.Monitor
import ToonVpu.Stream.Screen
import ToonVpu.Stream.SessionLock

/-!
# SessionPrp — the PrP stays away from the decoder

The PrP cannot run while the decoder does: its interrupt would never come.  So `main` renders the
previous frame during a decode with `allow_prp = 0`.  `render_frame` looks at that flag where it falls
back from the PP to the PrP, but not where it brings the bounce buffer to a plane of 32-bit pixels.
-/

namespace ToonVpu
namespace Stream

open Foundation
open Foundation.Monitor
open Foundation.Runs
open Lib

/-! ## The trace -/

/-- Whether a frame is being decoded. -/
def decodingNext (decoding : Bool) : Moment → Bool
  | .startFrame => true
  | .output => false
  | _ => decoding

/-- A request to the PrP comes while no frame is decoded. -/
def PrpAllowed (decoding : Bool) : Moment → Prop
  | .ioctl (.prpConvert _) => decoding = false
  | _ => True

instance (decoding : Bool) (m : Moment) : Decidable (PrpAllowed decoding m) :=
  match m with
  | .ioctl (.prpConvert _) => inferInstanceAs (Decidable (decoding = false))
  | .ioctl (.ppConvert _) | .signal _ | .connect | .startFrame | .output | .render _
  | .displayed _ => .isTrue trivial

/-- No request to the PrP comes between the start of a frame and its output. -/
def PrpApart (decoding : Bool) (trace : List Moment) : Prop :=
  Watched decodingNext PrpAllowed decoding trace

section Traces

variable {decoding : Bool}

theorem prpApart_append (xs ys : List Moment) :
    PrpApart decoding (xs ++ ys) ↔
      PrpApart decoding xs ∧ PrpApart (xs.foldl decodingNext decoding) ys :=
  watched_append _ _ _ xs ys

theorem prpApart_signals (signals : List Signal) : PrpApart decoding (signals.map .signal) := by
  apply watched_of_forall
  intro m hm g
  obtain ⟨sig, -, rfl⟩ := List.mem_map.mp hm
  trivial

theorem decoding_signals (signals : List Signal) :
    (signals.map Moment.signal).foldl decodingNext decoding = decoding := by
  apply foldl_of_forall
  intro m hm g
  obtain ⟨sig, -, rfl⟩ := List.mem_map.mp hm
  rfl

/-- A call of `render_frame`: its requests matter only while a frame is decoded. -/
theorem prpApart_render (idx : ℤ) (ioctls : List Ioctl) :
    PrpApart decoding (renderMoments idx ioctls) ↔ (decoding = true → ¬ AsksPrp ioctls) := by
  have hrequests : PrpApart decoding (ioctls.map .ioctl) ↔
      (decoding = true → ¬ AsksPrp ioctls) := by
    induction ioctls with
    | nil => simp [PrpApart, AsksPrp]
    | cons x ioctls ih =>
      unfold PrpApart at ih ⊢
      rw [List.map_cons, watched_cons]
      simp only [decodingNext]
      rw [ih]
      cases x <;> cases decoding <;> simp [PrpAllowed, AsksPrp, Ioctl.isPrp]
  unfold PrpApart renderMoments at *
  rw [watched_cons]
  exact (and_iff_right trivial).trans hrequests

end Traces

/-! ## Turns -/

section Turns

variable {c : Config} {dev : Device} {bs : BitstreamMem}

/-- What a turn does before its output is in order exactly when the pipelined call asks the PP
only. -/
theorem prpApart_beforeOutput (s : Session) (x : RenderTurn) {decoding : Bool} :
    PrpApart decoding (beforeOutput c dev s x) ↔
      (rendersPipelined c s (x.toTurn c dev s) = true →
        ¬ AsksPrp (x.pipelinedCall c dev s).ioctls) := by
  have hstart : PrpApart decoding (beforeOutput c dev s x) ↔
      PrpApart true ((x.turn.signals 1).map .signal ++
        (if rendersPipelined c s (x.toTurn c dev s) then
          renderMoments s.pendingIdx (x.pipelinedCall c dev s).ioctls else [])) := by
    unfold PrpApart beforeOutput
    rw [watched_cons]
    exact and_iff_right trivial
  rw [hstart, prpApart_append, decoding_signals]
  refine (and_iff_right (prpApart_signals _)).trans ?_
  split
  · rename_i hrenders
    simp [prpApart_render, hrenders]
  · rename_i hrenders
    simp [PrpApart, hrenders]

theorem prpApart_display (s : Session) (t : Turn) {decoding : Bool} :
    PrpApart decoding (displayMoments s t) := by
  unfold displayMoments
  rw [prpApart_append]
  refine ⟨prpApart_signals _, ?_⟩
  split <;> simp [PrpApart, PrpAllowed]

/-- After the output everything is allowed. -/
theorem prpApart_afterOutput (s : Session) (x : RenderTurn) {decoding : Bool} :
    PrpApart decoding (afterOutput c dev s x) := by
  have hout : PrpApart false ((x.turn.signals 2).map .signal ++
      (if rendersSequential c s (x.toTurn c dev s) then
        renderMoments s.pendingIdx (x.sequentialCall c dev s).ioctls else []) ++
      displayMoments s (x.toTurn c dev s)) := by
    rw [prpApart_append, prpApart_append, decoding_signals]
    refine ⟨⟨prpApart_signals _, ?_⟩, prpApart_display s _⟩
    split
    · rw [prpApart_render]
      simp
    · simp [PrpApart]
  unfold PrpApart afterOutput at *
  rw [watched_cons]
  exact ⟨trivial, hout⟩

/-- No request to the PrP has come while a frame was decoded. -/
def KeepsPrpApart (scr : Screen) : Prop := PrpApart false scr.trace

/-- The pipelined call of a turn brings no bounce buffer to the plane. -/
def PipelineAvoidsPrp (c : Config) (dev : Device) (scr : Screen) (a : ScreenStep) : Prop :=
  ∀ x, a = .turn x → scr.session.phase = .decoding →
    rendersPipelined c scr.session (x.toTurn c dev scr.session) = true →
      ¬ TakesSecondPass c.cpuRender (renderState c dev scr.session x.pipelinedQp) true x.pipelined

theorem keepsPrpApart_step_iff (scr : Screen) (h : KeepsPrpApart scr) (a : ScreenStep) :
    KeepsPrpApart (scr.step c dev bs a) ↔ PipelineAvoidsPrp c dev scr a := by
  unfold KeepsPrpApart at h ⊢
  -- steps that are no turns make no request
  have hother : ∀ ms : List Moment, PrpApart (scr.trace.foldl decodingNext false) ms →
      (∀ x, a ≠ .turn x) → (scr.step c dev bs a).trace = scr.trace ++ ms →
      (PrpApart false (scr.step c dev bs a).trace ↔ PipelineAvoidsPrp c dev scr a) := by
    intro ms hms hne heq
    rw [heq, prpApart_append]
    exact ⟨fun _ x hx => absurd hx (hne x), fun _ => ⟨h, hms⟩⟩
  cases a with
  | connect con =>
    refine hother _ ?_ (by simp) rfl
    split <;> simp [PrpApart, PrpAllowed]
  | prime t => exact hother [] (by simp [PrpApart]) (by simp) (by simp [Screen.step])
  | enter e => exact hother [] (by simp [PrpApart]) (by simp) (by simp [Screen.step])
  | signal sig => exact hother _ (prpApart_signals [sig]) (by simp) rfl
  | turn x =>
    by_cases hphase : scr.session.phase = .decoding
    · rw [step_turn scr x hphase]
      simp only
      rw [prpApart_append, prpApart_append, decoding_signals]
      simp only [h, prpApart_signals, true_and]
      have hcall : AsksPrp (x.pipelinedCall c dev scr.session).ioctls ↔
          TakesSecondPass c.cpuRender (renderState c dev scr.session x.pipelinedQp)
            (true && scr.session.ppOk) x.pipelined :=
        renderFrame_asksPrp_iff _ _ _ _ _ _ _
      have hmeans : PipelineAvoidsPrp c dev scr (.turn x) ↔
          (rendersPipelined c scr.session (x.toTurn c dev scr.session) = true →
            ¬ AsksPrp (x.pipelinedCall c dev scr.session).ioctls) := by
        rw [hcall]
        unfold PipelineAvoidsPrp
        constructor
        · intro hok hrenders
          have hpp : scr.session.ppOk = true := by
            simp only [rendersPipelined, Bool.and_eq_true] at hrenders
            exact hrenders.1.2
          rw [hpp]
          exact hok x rfl hphase hrenders
        · rintro hok x' ⟨⟩ - hrenders
          have hpp : scr.session.ppOk = true := by
            simp only [rendersPipelined, Bool.and_eq_true] at hrenders
            exact hrenders.1.2
          have hnot := hok hrenders
          rw [hpp] at hnot
          exact hnot
      rw [hmeans]
      split
      · rw [prpApart_append, prpApart_beforeOutput]
        refine and_iff_left ?_
        split
        · exact prpApart_afterOutput _ _
        · simp [PrpApart]
      · rename_i hstarts
        refine ⟨fun _ hrenders => ?_, fun _ => by simp [PrpApart]⟩
        simp [rendersPipelined, hstarts] at hrenders
    · rw [step_turn_of_ne scr x hphase]
      exact ⟨fun _ x' _ hdecoding => absurd hdecoding hphase, fun _ => h⟩

end Turns

/-! ## Runs -/

/-- **The PrP stays away from the decoder.** In every run no request to the PrP comes between the
start of a frame and its output, exactly when no pipelined call takes the second pass; and a call
with `allow_prp = 0` asks the PP only, exactly when it does not take it. -/
theorem prp_stays_away_from_decode (c : Config) (dev : Device) (bs : BitstreamMem) (warm : Bool)
    (v : Vpu) (steps : List ScreenStep) :
    ((∀ n, KeepsPrpApart (stateAt (Screen.step c dev bs) (Screen.init warm v) steps n)) ↔
      Along (Screen.step c dev bs) (Screen.init warm v) steps (PipelineAvoidsPrp c dev)) ∧
    ∀ (cpuRender : Bool) (r : RenderState) (idx : ℤ) (allowPp disable ppOk : Bool)
      (env : ConvertEnv),
      ¬ AsksPrp (renderFrame cpuRender r idx allowPp false disable ppOk env).ioctls ↔
        ¬ TakesSecondPass cpuRender r (allowPp && ppOk) env := by
  refine ⟨?_, ?_⟩
  · have hinit : KeepsPrpApart (Screen.init warm v) := by
      simp [KeepsPrpApart, PrpApart, Screen.init]
    apply forall_good_iff_along hinit
    · exact fun scr a h hok => (keepsPrpApart_step_iff scr h a).mpr hok
    · exact fun scr h => h
    · exact fun scr a h hgood => (keepsPrpApart_step_iff scr h a).mp hgood
  · intro cpuRender r idx allowPp disable ppOk env
    rw [renderFrame_asksPrp_iff]

/-- A stream of 352x288 shown on all of a plane of 32-bit pixels. -/
def scaledConfig : Config :=
  { tcpConfig with
    fb := { tcpConfig.fb with bpp := 32, depth := by decide }
    rectX := 0
    rectY := 0
    rectW := 800
    rectH := 480 }

/-- The eMMA refuses to scale to 32-bit pixels and converts to the bounce buffer. -/
def scalesToBounce : ConvertEnv :=
  { pp := fun pass => if pass = 0 then some 95 else none
    prp := fun _ => some 95
    toPlane := some 95
    errno := 0 }

/-- A connection whose first picture is displayed and rendered while the next one is decoded. -/
def scaledSession : List ScreenStep :=
  [.connect ⟨0, true, true, fun _ => 0, []⟩,
    .prime ⟨[], true, .bytes [0, 0, 1], ⟨false, true, 352 * 1024 + 288, 3, 0, 0⟩⟩,
    .enter ⟨⟨4, List.replicate 7 (some 0), true, true, true⟩, true, 0⟩,
    .turn ⟨quietTurn 0 [], scalesToBounce, 0, scalesToBounce, 0⟩,
    .turn ⟨quietTurn 1 [], scalesToBounce, 0, scalesToBounce, 0⟩]

/-- The second turn starts a frame, and before its output the PrP is asked. -/
theorem prp_asked_while_decoding :
    ¬ ∀ n, KeepsPrpApart (stateAt (Screen.step scaledConfig ⟨3, 3200, 2684354560, 20971520⟩
      ⟨4096, by decide⟩) (Screen.init false (startedVpu Semaphore.zero false true)) scaledSession
      n) := by
  intro hall
  have hfive := hall 5
  unfold KeepsPrpApart PrpApart at hfive
  revert hfive
  decide +kernel

end Stream
end ToonVpu
