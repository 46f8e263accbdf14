import ToonVpu.Foundation.Monitor
import ToonVpu.Stream.Screen
import ToonVpu.Stream.SessionLock

/-!
# SessionGate — showing and hiding

`SIGUSR1` shows the video from the next I-frame on and `SIGUSR2` hides it.  `main` looks at `g_show`
and `g_armed` when a picture comes to be displayed, and queues it if both are set.  The picture is
rendered a turn later without looking again, so a signal in between comes too late for it.
-/

namespace ToonVpu
namespace Stream

open Foundation
open Foundation.Monitor
open Foundation.Runs
open Lib

/-! ## The gate -/

/-- Whether the last signal was a show, and whether an I-frame has come to be displayed since the
latest show or connection. -/
def gateNext : Bool × Bool → Moment → Bool × Bool
  | gate, .signal sig => receiveFlags gate sig
  | (shown, _), .connect => (shown, false)
  | (shown, seen), .displayed picType => (shown, seen || decide (picType = 0))
  | gate, _ => gate

/-- A frame is rendered only while the gate is open. -/
def RenderAllowed (gate : Bool × Bool) : Moment → Prop
  | .render _ => gate = (true, true)
  | _ => True

instance (gate : Bool × Bool) (m : Moment) : Decidable (RenderAllowed gate m) :=
  match m with
  | .render _ => inferInstanceAs (Decidable (gate = (true, true)))
  | .ioctl _ | .signal _ | .connect | .startFrame | .output | .displayed _ => .isTrue trivial

/-- The gate before the first signal. -/
def gateInit (warm : Bool) : Bool × Bool := (!warm, false)

def RendersGated (gate : Bool × Bool) (trace : List Moment) : Prop :=
  Watched gateNext RenderAllowed gate trace

/-- Whether no signal has arrived since a picture was last displayed. -/
def calmNext (calm : Bool) : Moment → Bool
  | .signal _ => false
  | .displayed _ => true
  | _ => calm

def isCalm (trace : List Moment) : Bool := trace.foldl calmNext true

section Traces

variable {gate : Bool × Bool}

theorem rendersGated_append (xs ys : List Moment) :
    RendersGated gate (xs ++ ys) ↔
      RendersGated gate xs ∧ RendersGated (xs.foldl gateNext gate) ys :=
  watched_append _ _ _ xs ys

/-- The gate is open only in a calm. -/
theorem calm_of_open {calm : Bool} (trace : List Moment) (h : gate = (true, true) → calm = true) :
    trace.foldl gateNext gate = (true, true) → trace.foldl calmNext calm = true := by
  induction trace generalizing gate calm with
  | nil => exact h
  | cons m trace ih =>
    refine ih ?_
    cases m with
    | signal sig => cases sig <;> simp [gateNext, receiveFlags]
    | connect => simp [gateNext]
    | displayed picType => exact fun _ => rfl
    | startFrame | output | render _ | ioctl _ => exact h

/-- A signal closes the gate until a picture is displayed. -/
theorem signals_open_iff (signals : List Signal) :
    signals.foldl receiveFlags gate = (true, true) ↔ signals = [] ∧ gate = (true, true) := by
  rcases List.eq_nil_or_concat signals with rfl | ⟨signals, sig, rfl⟩
  · simp
  · cases sig <;> simp [receiveFlags]

theorem foldl_signals (signals : List Signal) :
    (signals.map Moment.signal).foldl gateNext gate = signals.foldl receiveFlags gate := by
  rw [List.foldl_map]
  rfl

theorem rendersGated_signals (signals : List Signal) :
    RendersGated gate (signals.map .signal) := by
  apply watched_of_forall
  intro m hm g
  obtain ⟨sig, -, rfl⟩ := List.mem_map.mp hm
  trivial

theorem rendersGated_render (idx : ℤ) (ioctls : List Ioctl) :
    RendersGated gate (renderMoments idx ioctls) ↔ gate = (true, true) := by
  unfold RendersGated renderMoments
  rw [watched_cons]
  refine and_iff_left ?_
  apply watched_of_forall
  intro m hm g
  obtain ⟨x, -, rfl⟩ := List.mem_map.mp hm
  trivial

theorem foldl_render (idx : ℤ) (ioctls : List Ioctl) :
    (renderMoments idx ioctls).foldl gateNext gate = gate := by
  apply foldl_of_forall
  intro m hm g
  rcases List.mem_cons.mp hm with rfl | hm
  · rfl
  · obtain ⟨x, -, rfl⟩ := List.mem_map.mp hm
    rfl

end Traces

/-! ## Turns -/

section Turns

variable {c : Config} {dev : Device} {bs : BitstreamMem} {gate : Bool × Bool}

theorem foldl_beforeOutput (s : Session) (x : RenderTurn) :
    (beforeOutput c dev s x).foldl gateNext gate = (x.turn.signals 1).foldl receiveFlags gate := by
  unfold beforeOutput
  rw [List.foldl_cons, List.foldl_append, foldl_signals]
  split
  · rw [foldl_render]
    rfl
  · rfl

theorem rendersGated_beforeOutput (s : Session) (x : RenderTurn) :
    RendersGated gate (beforeOutput c dev s x) ↔
      (rendersPipelined c s (x.toTurn c dev s) = true →
        (x.turn.signals 1).foldl receiveFlags gate = (true, true)) := by
  have hstart : RendersGated gate (beforeOutput c dev s x) ↔
      RendersGated gate ((x.turn.signals 1).map .signal ++
        (if rendersPipelined c s (x.toTurn c dev s) then
          renderMoments s.pendingIdx (x.pipelinedCall c dev s).ioctls else [])) := by
    unfold RendersGated beforeOutput
    rw [watched_cons]
    exact and_iff_right trivial
  rw [hstart, rendersGated_append, foldl_signals]
  refine (and_iff_right (rendersGated_signals _)).trans ?_
  split
  · rename_i hrenders
    simp [rendersGated_render, hrenders]
  · rename_i hrenders
    simp [RendersGated, hrenders]

/-- The gate when a turn has displayed its picture. -/
theorem foldl_afterOutput (s : Session) (x : RenderTurn) :
    (afterOutput c dev s x).foldl gateNext gate =
      (if displays s (x.toTurn c dev s) then
        gateNext ((x.turn.signals 2 ++ x.turn.signals 3).foldl receiveFlags gate)
          (.displayed x.turn.oi.picType)
      else (x.turn.signals 2 ++ x.turn.signals 3).foldl receiveFlags gate) := by
  have hrender : ∀ g : Bool × Bool, (if rendersSequential c s (x.toTurn c dev s) then
      renderMoments s.pendingIdx (x.sequentialCall c dev s).ioctls else []).foldl gateNext g = g := by
    intro g
    split
    · exact foldl_render _ _
    · rfl
  have hsignals : (x.toTurn c dev s).signals = x.turn.signals := rfl
  have hoi : (x.toTurn c dev s).oi = x.turn.oi := rfl
  unfold afterOutput displayMoments displays
  rw [List.foldl_cons, List.foldl_append, List.foldl_append, List.foldl_append, hrender,
    foldl_signals, foldl_signals, hsignals, hoi]
  simp only [decide_eq_true_eq, List.foldl_append]
  split <;> rfl

theorem rendersGated_afterOutput (s : Session) (x : RenderTurn) :
    RendersGated gate (afterOutput c dev s x) ↔
      (rendersSequential c s (x.toTurn c dev s) = true →
        (x.turn.signals 2).foldl receiveFlags gate = (true, true)) := by
  have hdisplay : ∀ g, RendersGated g (displayMoments s (x.toTurn c dev s)) := by
    intro g
    unfold displayMoments
    rw [rendersGated_append]
    refine ⟨rendersGated_signals _, ?_⟩
    split <;> simp [RendersGated, RenderAllowed]
  have hout : RendersGated gate (afterOutput c dev s x) ↔
      RendersGated gate ((x.turn.signals 2).map .signal ++
        (if rendersSequential c s (x.toTurn c dev s) then
          renderMoments s.pendingIdx (x.sequentialCall c dev s).ioctls else []) ++
        displayMoments s (x.toTurn c dev s)) := by
    unfold RendersGated afterOutput
    rw [watched_cons]
    exact and_iff_right trivial
  rw [hout, rendersGated_append, rendersGated_append, foldl_signals]
  simp only [hdisplay, and_true, rendersGated_signals, true_and]
  split
  · rename_i hrenders
    simp [rendersGated_render, hrenders]
  · rename_i hrenders
    simp [RendersGated, hrenders]

end Turns

/-! ## The session's flags are the gate -/

/-- `g_show` is right, and `g_armed` is while it matters. -/
structure Agree (f gate : Bool × Bool) : Prop where
  shown : f.1 = gate.1
  armed : f.1 = true → f.2 = gate.2

section Flags

variable {c : Config} {dev : Device} {bs : BitstreamMem} {f gate : Bool × Bool}

theorem Agree.signals (h : Agree f gate) (signals : List Signal) :
    Agree (signals.foldl receiveFlags f) (signals.foldl receiveFlags gate) := by
  induction signals generalizing f gate with
  | nil => exact h
  | cons sig signals ih =>
    refine ih ?_
    cases sig with
    | usr1 => exact ⟨rfl, fun _ => rfl⟩
    | usr2 => exact ⟨rfl, fun hshow => absurd hshow (by simp [receiveFlags])⟩

theorem Agree.display (h : Agree f gate) (t : Turn) :
    Agree (displayFlags t f) (gateNext gate (.displayed t.oi.picType)) := by
  refine ⟨h.shown, ?_⟩
  intro hshow
  have hshow' : f.1 = true := hshow
  simp [displayFlags, gateNext, hshow', h.armed hshow']

theorem Agree.open_iff (h : Agree f gate) : f = (true, true) ↔ gate = (true, true) := by
  obtain ⟨f₁, f₂⟩ := f
  obtain ⟨g₁, g₂⟩ := gate
  obtain ⟨hshown, harmed⟩ := h
  simp only at hshown harmed
  subst hshown
  cases f₁ with
  | false => simp
  | true => simp [harmed rfl]

/-- The gate when a turn is over. -/
def turnGate (c : Config) (dev : Device) (s : Session) (x : RenderTurn) (gate : Bool × Bool) :
    Bool × Bool :=
  ((x.turn.signals 0).map Moment.signal ++
    (if startsFrame c s (x.toTurn c dev s) then
      beforeOutput c dev s x ++
        (if getsOutput c s (x.toTurn c dev s) then afterOutput c dev s x else [])
    else [])).foldl gateNext gate

theorem turnGate_eq (s : Session) (x : RenderTurn) :
    turnGate c dev s x gate =
      if startsFrame c s (x.toTurn c dev s) then
        if getsOutput c s (x.toTurn c dev s) then
          (if displays s (x.toTurn c dev s) then
            gateNext ((turnSignals x.turn).foldl receiveFlags gate) (.displayed x.turn.oi.picType)
          else (turnSignals x.turn).foldl receiveFlags gate)
        else (x.turn.signals 0 ++ x.turn.signals 1).foldl receiveFlags gate
      else (x.turn.signals 0).foldl receiveFlags gate := by
  unfold turnGate turnSignals
  rw [List.foldl_append, foldl_signals]
  split
  · rw [List.foldl_append, foldl_beforeOutput]
    split
    · rw [foldl_afterOutput]
      simp only [← List.foldl_append, ← List.append_assoc]
    · rw [List.foldl_nil, ← List.foldl_append]
  · rw [List.foldl_nil]

theorem Agree.turn {s : Session} (h : Agree (flags s) gate) (hphase : s.phase = .decoding)
    (x : RenderTurn) :
    Agree (flags (decodeTurn c s (x.toTurn c dev s))) (turnGate c dev s x gate) := by
  have hsignals : turnSignals (x.toTurn c dev s) = turnSignals x.turn := rfl
  rw [(decodeTurn_flags c s (x.toTurn c dev s) hphase).flags, turnGate_eq, hsignals]
  split
  · split
    · split
      · exact (h.signals _).display (x.toTurn c dev s)
      · exact h.signals _
    · exact h.signals _
  · exact h.signals _

/-! ## The other steps -/

theorem drop_flags (s : Session) (restart : Bool) :
    flags (drop s restart) = flags s ∧
      ((drop s restart).phase = .waiting ∨ (drop s restart).phase = .exited) := by
  refine ⟨rfl, ?_⟩
  cases restart
  · exact .inl rfl
  · exact .inr rfl

theorem connect_flags (s : Session) (con : Connection) (hphase : s.phase = .waiting) :
    flags (connect c bs s con) = (s.gShow, if s.gShow then false else s.gArmed) ∧
      ((connect c bs s con).phase = .waiting ∨ (connect c bs s con).phase = .priming) := by
  have hopen : ∀ (x : Session) (f : Bool × Bool), x.phase = .waiting → flags x = f →
      flags (openDecoder c bs x con) = f ∧
        ((openDecoder c bs x con).phase = .waiting ∨ (openDecoder c bs x con).phase = .priming) := by
    intro x f hx hf
    unfold openDecoder
    simp only
    split
    · exact ⟨hf, .inl hx⟩
    · split
      · exact ⟨hf, .inr rfl⟩
      · exact ⟨hf, .inl hx⟩
  unfold connect
  refine hopen _ _ ?_ ?_
  · simp only
    split <;> exact hphase
  · simp only
    split <;> simp_all [flags]

theorem tryInitialInfo_flags (s : Session) (seq : SeqInit) :
    flags (tryInitialInfo s seq) = flags s ∧ (tryInitialInfo s seq).phase = s.phase := by
  unfold tryInitialInfo
  simp only
  split <;> exact ⟨rfl, rfl⟩

theorem primeTurn_flags (s : Session) (t : PrimeTurn) (hphase : s.phase = .priming) :
    flags (primeTurn c s t) = flags s ∧ (primeTurn c s t).phase ≠ .decoding := by
  have hdrop : ∀ (x : Session) (restart : Bool), (drop x restart).phase ≠ .decoding := by
    intro x restart
    rcases (drop_flags x restart).2 with h | h <;> simp [h]
  have htry : ∀ (x : Session), x.phase = .priming → (tryInitialInfo x t.seq).phase ≠ .decoding := by
    intro x hx
    rw [(tryInitialInfo_flags x t.seq).2, hx]
    decide
  unfold primeTurn Session.rtpFeed
  simp only
  split
  · exact ⟨rfl, by simp [hphase]⟩
  split
  · exact ⟨rfl, hdrop _ _⟩
  split
  · split
    · exact ⟨rfl, hdrop _ _⟩
    split
    · exact ⟨rfl, by simp [hphase]⟩
    · exact ⟨(tryInitialInfo_flags _ _).1, htry _ hphase⟩
  · split
    · exact ⟨rfl, hdrop _ _⟩
    split
    · exact ⟨rfl, by simp [hphase]⟩
    · exact ⟨(tryInitialInfo_flags _ _).1, htry _ hphase⟩

/-- A session starts its loop without a frame. -/
theorem enterLoop_flags (s : Session) (e : Entry) (hphase : s.phase = .priming) :
    flags (enterLoop c s e) = flags s ∧
      ((enterLoop c s e).phase = .decoding → queued c (enterLoop c s e) = false) := by
  have hdrop : ∀ (x : Session) (restart : Bool), flags x = flags s →
      flags (drop x restart) = flags s ∧
        ((drop x restart).phase = .decoding → queued c (drop x restart) = false) := by
    intro x restart hx
    refine ⟨hx, ?_⟩
    intro hdec
    rcases (drop_flags x restart).2 with h | h
    · rw [h] at hdec
      cases hdec
    · rw [h] at hdec
      cases hdec
  have hreg : ∀ (x : Session) (b : Buffers), flags x = flags s →
      flags (registerFrames c x b e) = flags s ∧
        ((registerFrames c x b e).phase = .decoding →
          queued c (registerFrames c x b e) = false) := by
    intro x b hx
    unfold registerFrames
    simp only
    split
    · exact hdrop _ _ hx
    split
    · exact ⟨hx, fun _ => by simp [queued, startLoop]⟩
    · exact hdrop _ _ hx
  unfold enterLoop
  simp only
  split
  · split
    · exact hdrop _ _ rfl
    split
    · exact hdrop _ _ rfl
    split
    · exact hreg _ _ rfl
    · split
      · exact ⟨rfl, fun hdec => by cases hdec⟩
      · exact hreg _ _ rfl
  · exact ⟨rfl, fun hdec => by rw [hphase] at hdec; cases hdec⟩

end Flags

/-! ## Runs -/

/-- The gate as the trace has it. -/
def Screen.gate (scr : Screen) (warm : Bool) : Bool × Bool :=
  scr.trace.foldl gateNext (gateInit warm)

/-- Every frame was rendered while the gate was open. -/
def KeepsGate (warm : Bool) (scr : Screen) : Prop := RendersGated (gateInit warm) scr.trace

/-- What holds between the steps. -/
structure GateInv (c : Config) (warm : Bool) (scr : Screen) : Prop where
  shown : scr.session.gShow = (scr.gate warm).1
  agree : scr.session.phase = .priming ∨ scr.session.phase = .decoding →
    Agree (flags scr.session) (scr.gate warm)
  queue : scr.session.phase = .decoding → queued c scr.session = true → isCalm scr.trace = true →
    scr.gate warm = (true, true)
  gated : KeepsGate warm scr

/-- No signal arrives between the display of a picture and its rendering in the next turn. -/
def RendersUndisturbed (c : Config) (dev : Device) (scr : Screen) (a : ScreenStep) : Prop :=
  ∀ x, a = .turn x → scr.session.phase = .decoding →
    (rendersPipelined c scr.session (x.toTurn c dev scr.session) = true →
      isCalm scr.trace = true ∧ x.turn.signals 0 = [] ∧ x.turn.signals 1 = []) ∧
    (rendersSequential c scr.session (x.toTurn c dev scr.session) = true →
      isCalm scr.trace = true ∧ x.turn.signals 0 = [] ∧ x.turn.signals 1 = [] ∧
        x.turn.signals 2 = [])

section Runs

variable {c : Config} {dev : Device} {bs : BitstreamMem} {warm : Bool} {scr : Screen}

theorem GateInv.init (c : Config) (warm : Bool) (v : Vpu) :
    GateInv c warm (Screen.init warm v) := by
  refine ⟨rfl, ?_, ?_, by simp [KeepsGate, RendersGated, Screen.init]⟩
  · rintro (h | h) <;> cases h
  · intro h
    cases h

/-- The gate at the two calls of a turn. -/
theorem rendersGated_turn_iff (s : Session) (x : RenderTurn) {gate : Bool × Bool} :
    RendersGated gate ((x.turn.signals 0).map .signal ++
        (if startsFrame c s (x.toTurn c dev s) then
          beforeOutput c dev s x ++
            (if getsOutput c s (x.toTurn c dev s) then afterOutput c dev s x else [])
        else [])) ↔
      (rendersPipelined c s (x.toTurn c dev s) = true →
        (x.turn.signals 0 ++ x.turn.signals 1).foldl receiveFlags gate = (true, true)) ∧
      (rendersSequential c s (x.toTurn c dev s) = true →
        (x.turn.signals 0 ++ x.turn.signals 1 ++ x.turn.signals 2).foldl receiveFlags gate =
          (true, true)) := by
  rw [rendersGated_append, foldl_signals]
  refine (and_iff_right (rendersGated_signals _)).trans ?_
  simp only [List.foldl_append]
  split
  · rw [rendersGated_append, rendersGated_beforeOutput, foldl_beforeOutput]
    refine and_congr_right fun _ => ?_
    split
    · exact rendersGated_afterOutput s x
    · rename_i hgets
      simp [RendersGated, rendersSequential, hgets]
  · rename_i hstarts
    simp [RendersGated, rendersPipelined, rendersSequential, getsOutput, hstarts]

/-- A queued frame is rendered through the open gate exactly when no signal came since it was
queued. -/
theorem GateInv.open_iff (h : GateInv c warm scr) (hphase : scr.session.phase = .decoding)
    (hqueued : queued c scr.session = true) (signals : List Signal) :
    signals.foldl receiveFlags (scr.gate warm) = (true, true) ↔
      isCalm scr.trace = true ∧ signals = [] := by
  rw [signals_open_iff]
  constructor
  · rintro ⟨hnil, hopen⟩
    exact ⟨calm_of_open scr.trace (fun _ => rfl) hopen, hnil⟩
  · rintro ⟨hcalm, hnil⟩
    exact ⟨hnil, h.queue hphase hqueued hcalm⟩

theorem GateInv.turn_iff (h : GateInv c warm scr) (x : RenderTurn)
    (hphase : scr.session.phase = .decoding) :
    KeepsGate warm (scr.step c dev bs (.turn x)) ↔ RendersUndisturbed c dev scr (.turn x) := by
  -- With a frame queued, the gate is open exactly when no signal came since the last picture.
  have hmeans : RendersUndisturbed c dev scr (.turn x) ↔
      (rendersPipelined c scr.session (x.toTurn c dev scr.session) = true →
        (x.turn.signals 0 ++ x.turn.signals 1).foldl receiveFlags (scr.gate warm) = (true, true)) ∧
      (rendersSequential c scr.session (x.toTurn c dev scr.session) = true →
        (x.turn.signals 0 ++ x.turn.signals 1 ++ x.turn.signals 2).foldl receiveFlags
          (scr.gate warm) = (true, true)) := by
    have hpipe : rendersPipelined c scr.session (x.toTurn c dev scr.session) = true →
        queued c scr.session = true := by
      intro hrenders
      simp only [rendersPipelined, Bool.and_eq_true] at hrenders
      exact hrenders.1.1.1.2
    have hseq : rendersSequential c scr.session (x.toTurn c dev scr.session) = true →
        queued c scr.session = true := by
      intro hrenders
      simp only [rendersSequential, Bool.and_eq_true] at hrenders
      exact hrenders.1.2
    have hfirst : (rendersPipelined c scr.session (x.toTurn c dev scr.session) = true →
        (x.turn.signals 0 ++ x.turn.signals 1).foldl receiveFlags (scr.gate warm) =
          (true, true)) ↔
        (rendersPipelined c scr.session (x.toTurn c dev scr.session) = true →
          isCalm scr.trace = true ∧ x.turn.signals 0 = [] ∧ x.turn.signals 1 = []) := by
      refine forall_congr' fun hrenders => ?_
      rw [h.open_iff hphase (hpipe hrenders), List.append_eq_nil_iff]
    have hsecond : (rendersSequential c scr.session (x.toTurn c dev scr.session) = true →
        (x.turn.signals 0 ++ x.turn.signals 1 ++ x.turn.signals 2).foldl receiveFlags
          (scr.gate warm) = (true, true)) ↔
        (rendersSequential c scr.session (x.toTurn c dev scr.session) = true →
          isCalm scr.trace = true ∧ x.turn.signals 0 = [] ∧ x.turn.signals 1 = [] ∧
            x.turn.signals 2 = []) := by
      refine forall_congr' fun hrenders => ?_
      rw [h.open_iff hphase (hseq hrenders), List.append_eq_nil_iff, List.append_eq_nil_iff,
        and_assoc]
    rw [hfirst, hsecond]
    unfold RendersUndisturbed
    constructor
    · intro hall
      exact hall x rfl hphase
    · rintro hboth x' ⟨⟩ -
      exact hboth
  rw [hmeans, step_turn scr x hphase]
  unfold KeepsGate
  simp only
  rw [rendersGated_append]
  refine (and_iff_right h.gated).trans ?_
  exact rendersGated_turn_iff scr.session x

theorem GateInv.keeps_iff (h : GateInv c warm scr) (a : ScreenStep) :
    KeepsGate warm (scr.step c dev bs a) ↔ RendersUndisturbed c dev scr a := by
  -- steps that are no turns render nothing
  have hother : ∀ ms : List Moment, RendersGated (scr.gate warm) ms → (∀ x, a ≠ .turn x) →
      (scr.step c dev bs a).trace = scr.trace ++ ms →
      (KeepsGate warm (scr.step c dev bs a) ↔ RendersUndisturbed c dev scr a) := by
    intro ms hms hne heq
    unfold KeepsGate
    rw [heq, rendersGated_append]
    exact ⟨fun _ x hx => absurd hx (hne x), fun _ => ⟨h.gated, hms⟩⟩
  cases a with
  | connect con =>
    refine hother _ ?_ (by simp) rfl
    split <;> simp [RendersGated, RenderAllowed]
  | prime t => exact hother [] (by simp [RendersGated]) (by simp) (by simp [Screen.step])
  | enter e => exact hother [] (by simp [RendersGated]) (by simp) (by simp [Screen.step])
  | signal sig => exact hother _ (rendersGated_signals [sig]) (by simp) rfl
  | turn x =>
    by_cases hphase : scr.session.phase = .decoding
    · exact h.turn_iff x hphase
    · rw [step_turn_of_ne scr x hphase]
      exact ⟨fun _ x' _ hdecoding => absurd hdecoding hphase, fun _ => h.gated⟩

/-- A step after which no frame can be queued. -/
theorem GateInv.of_idle {s : Session} {ms : List Moment} (hgated : KeepsGate warm ⟨s, ms⟩)
    (hagree : Agree (flags s) (Screen.gate ⟨s, ms⟩ warm))
    (hidle : s.phase = .decoding → queued c s = false) : GateInv c warm ⟨s, ms⟩ := by
  refine ⟨hagree.shown, fun _ => hagree, ?_, hgated⟩
  intro hphase hqueued
  rw [hidle hphase] at hqueued
  cases hqueued

/-- The invariant along the steps that are no turns. -/
theorem GateInv.other (h : GateInv c warm scr) (a : ScreenStep) (hne : ∀ x, a ≠ .turn x)
    (hok : KeepsGate warm (scr.step c dev bs a)) : GateInv c warm (scr.step c dev bs a) := by
  -- A step that does not belong to the phase changes nothing.
  cases a with
  | turn x => exact absurd rfl (hne x)
  | connect con =>
    by_cases hphase : scr.session.phase = .waiting
    · have hstep : scr.step c dev bs (.connect con) =
          ⟨connect c bs scr.session con, scr.trace ++ [.connect]⟩ := by
        simp only [Screen.step, step_connect, if_pos hphase]
      rw [hstep] at hok ⊢
      obtain ⟨hflags, hph⟩ :
          flags (connect c bs scr.session con) = _ ∧ ((connect c bs scr.session con).phase = _ ∨ _) :=
        connect_flags scr.session con hphase
      have hshow := h.shown
      refine GateInv.of_idle hok ?_ ?_
      · rw [hflags]
        have hgate : Screen.gate ⟨connect c bs scr.session con, scr.trace ++ [.connect]⟩ warm =
            ((scr.gate warm).1, false) := by
          simp only [Screen.gate, List.foldl_append]
          rfl
        rw [hgate]
        refine ⟨hshow, ?_⟩
        intro hshown
        simp only at hshown ⊢
        rw [hshown]
        rfl
      · intro hdec
        rcases hph with hph | hph <;> rw [hph] at hdec <;> cases hdec
    · have hstep : scr.step c dev bs (.connect con) = scr := by
        simp only [Screen.step, step_connect, if_neg hphase, List.append_nil]
      rw [hstep]
      exact h
  | prime t =>
    by_cases hphase : scr.session.phase = .priming
    · have hstep : scr.step c dev bs (.prime t) = ⟨primeTurn c scr.session t, scr.trace⟩ := by
        simp only [Screen.step, step_prime, if_pos hphase]
      rw [hstep] at hok ⊢
      obtain ⟨hflags, hph⟩ := primeTurn_flags (c := c) scr.session t hphase
      refine GateInv.of_idle hok ?_ (fun hdec => absurd hdec hph)
      rw [hflags]
      exact h.agree (.inl hphase)
    · have hstep : scr.step c dev bs (.prime t) = scr := by
        simp only [Screen.step, step_prime, if_neg hphase]
      rw [hstep]
      exact h
  | enter e =>
    by_cases hphase : scr.session.phase = .priming
    · have hstep : scr.step c dev bs (.enter e) = ⟨enterLoop c scr.session e, scr.trace⟩ := by
        simp only [Screen.step, step_enter, if_pos hphase]
      rw [hstep] at hok ⊢
      obtain ⟨hflags, hidle⟩ := enterLoop_flags (c := c) scr.session e hphase
      refine GateInv.of_idle hok ?_ hidle
      rw [hflags]
      exact h.agree (.inl hphase)
    · have hstep : scr.step c dev bs (.enter e) = scr := by
        simp only [Screen.step, step_enter, if_neg hphase]
      rw [hstep]
      exact h
  | signal sig =>
    have hstep : scr.step c dev bs (.signal sig) =
        ⟨scr.session.receive sig, scr.trace ++ [.signal sig]⟩ := by
      simp only [Screen.step, step_signal]
    rw [hstep] at hok ⊢
    have hgate : Screen.gate ⟨scr.session.receive sig, scr.trace ++ [.signal sig]⟩ warm =
        receiveFlags (scr.gate warm) sig := by
      simp only [Screen.gate, List.foldl_append]
      rfl
    have hflags : flags (scr.session.receive sig) = receiveFlags (flags scr.session) sig := by
      cases sig <;> rfl
    refine ⟨?_, ?_, ?_, hok⟩
    · rw [hgate]
      cases sig <;> rfl
    · intro hphase
      rw [hflags, hgate]
      refine (h.agree ?_).signals [sig]
      cases sig <;> exact hphase
    · -- the signal came after the last picture
      intro _ _ hcalm
      simp [isCalm, calmNext] at hcalm

theorem GateInv.step (h : GateInv c warm scr) (a : ScreenStep)
    (hok : RendersUndisturbed c dev scr a) : GateInv c warm (scr.step c dev bs a) := by
  have hgated : KeepsGate warm (scr.step c dev bs a) := (h.keeps_iff a).mpr hok
  by_cases hturn : ∃ x, a = .turn x
  · obtain ⟨x, rfl⟩ := hturn
    by_cases hphase : scr.session.phase = .decoding
    · have hagree : Agree (flags (decodeTurn c scr.session (x.toTurn c dev scr.session)))
          (turnGate c dev scr.session x (scr.gate warm)) := (h.agree (.inr hphase)).turn hphase x
      have hflags := decodeTurn_flags c scr.session (x.toTurn c dev scr.session) hphase
      rw [step_turn scr x hphase] at hgated ⊢
      have hgate : ∀ s', Screen.gate ⟨s', scr.trace ++ ((x.turn.signals 0).map .signal ++
          (if startsFrame c scr.session (x.toTurn c dev scr.session) then
            beforeOutput c dev scr.session x ++
              (if getsOutput c scr.session (x.toTurn c dev scr.session) then
                afterOutput c dev scr.session x else [])
          else []))⟩ warm = turnGate c dev scr.session x (scr.gate warm) := by
        intro s'
        unfold Screen.gate turnGate
        rw [List.foldl_append]
      refine ⟨?_, ?_, ?_, hgated⟩
      · rw [hgate]
        exact hagree.shown
      · intro _
        rw [hgate]
        exact hagree
      · intro hdec hq _
        rw [hgate]
        exact hagree.open_iff.mp (hflags.queue hdec hq).2.2.2
    · rw [step_turn_of_ne scr x hphase]
      exact h
  · exact h.other a (fun x hx => hturn ⟨x, hx⟩) hgated

end Runs

/-- **The gate.** In every run every frame is rendered while the last signal was a show, or none
came and the program was not started warm, and an I-frame has come to be displayed since the latest
show or connection, exactly when no signal arrives between the display of a picture and its
rendering in the next turn. -/
theorem renders_only_through_gate (c : Config) (dev : Device) (bs : BitstreamMem) (warm : Bool)
    (v : Vpu) (steps : List ScreenStep) :
    (∀ n, KeepsGate warm (stateAt (Screen.step c dev bs) (Screen.init warm v) steps n)) ↔
      Along (Screen.step c dev bs) (Screen.init warm v) steps (RendersUndisturbed c dev) := by
  apply forall_good_iff_along (GateInv.init c warm v)
  · exact fun scr a h hok => h.step a hok
  · exact fun scr h => h.gated
  · exact fun scr a h hkeeps => (h.keeps_iff a).mp hkeeps

/-- The eMMA converts everything. -/
def converts : ConvertEnv := ⟨fun _ => none, fun _ => none, none, 0⟩

/-- The video is hidden after its first picture was displayed. -/
def hiddenSession : List ScreenStep :=
  [.connect ⟨0, true, true, fun _ => 0, []⟩,
    .prime ⟨[], true, .bytes [0, 0, 1], ⟨false, true, 352 * 1024 + 288, 3, 0, 0⟩⟩,
    .enter ⟨⟨4, List.replicate 7 (some 0), true, true, true⟩, true, 0⟩,
    .turn ⟨quietTurn 0 [], converts, 0, converts, 0⟩,
    .signal .usr2,
    .turn ⟨quietTurn 1 [], converts, 0, converts, 0⟩]

/-- The picture is rendered after the hide. -/
theorem render_after_hide :
    ¬ ∀ n, KeepsGate false (stateAt (Screen.step tcpConfig ⟨3, 1600, 2684354560, 20971520⟩
      ⟨4096, by decide⟩) (Screen.init false (startedVpu Semaphore.zero false true)) hiddenSession
      n) := by
  intro hall
  have hsix := hall 6
  unfold KeepsGate RendersGated at hsix
  revert hsix
  decide +kernel

end Stream
end ToonVpu
