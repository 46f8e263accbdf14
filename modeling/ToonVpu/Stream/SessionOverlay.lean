import ToonVpu.Foundation.Monitor
import ToonVpu.Foundation.Runs
import ToonVpu.Foundation.Surface
import ToonVpu.Stream.SessionLock
import ToonVpu.Stream.SessionLog

/-!
# SessionOverlay — what the graphic window shows

With `--overlay` the video is rendered into the plane of `fb1`, which the graphic window lays over
the screen.  The plane is painted with the colour key when a session starts its loop, and from then
on only `render_frame` writes to it.  The window is opened as soon as a picture is queued, a turn
before that picture is rendered.

A pixel of the plane is blank while it has the colour key, fresh when a call of `render_frame` made
since the latest show or connection has written it, and stale when an earlier one has
(`Foundation.Surface`).  `overlay_current_iff` says in which runs an open window never has a stale
pixel.
-/

namespace ToonVpu
namespace Stream

open Foundation
open Foundation.Monitor
open Foundation.Runs
open Foundation.Surface
open Lib

/-! ## The panel -/

inductive PanelMoment
  | signal (sig : Signal)
  | connect
  /-- `ov_keyfill`. -/
  | keyfill
  /-- A call of `render_frame` with the pixels it wrote. -/
  | render (wrote : ℤ × ℤ → Bool)
  | window (on : Bool)

/-- `g_show`, `ov_gw_on`, and the plane by columns and rows. -/
structure Panel where
  shown : Bool
  on : Bool
  plane : ℤ × ℤ → Shade

namespace Panel

/-- Only the first signal of a show begins a new epoch. -/
def next (g : Panel) : PanelMoment → Panel
  | .signal .usr1 => if g.shown then g else { g with shown := true, plane := age g.plane }
  | .signal .usr2 => { g with shown := false }
  | .connect => { g with plane := age g.plane }
  | .keyfill => { g with plane := fun _ => .blank }
  | .render wrote => { g with plane := paint wrote g.plane }
  | .window on => { g with on := on }

/-- The panel when the program has set up the plane. -/
def init (warm : Bool) : Panel := ⟨!warm, false, fun _ => .blank⟩

end Panel

/-- The pixels of the plane. -/
def OnFb (c : Config) (p : ℤ × ℤ) : Prop := (0 ≤ p.1 ∧ p.1 < c.fb.w) ∧ 0 ≤ p.2 ∧ p.2 < c.fb.h

instance (c : Config) (p : ℤ × ℤ) : Decidable (OnFb c p) :=
  inferInstanceAs (Decidable ((0 ≤ p.1 ∧ p.1 < c.fb.w) ∧ 0 ≤ p.2 ∧ p.2 < c.fb.h))

/-- An open window shows no stale pixel. -/
def Panel.Fresh (c : Config) (g : Panel) : Prop := g.on = true → Current (OnFb c) g.plane

/-- The trace never leads to a stale pixel in an open window. -/
def StaysFresh (c : Config) (g : Panel) (trace : List PanelMoment) : Prop :=
  Watched Panel.next (fun g m => Panel.Fresh c (g.next m)) g trace

/-! ## Runs -/

/-- A turn with the pixels that its two calls of `render_frame` write before they fail. -/
structure PaintTurn where
  turn : Turn
  pipelinedPart : ℤ × ℤ → Bool
  sequentialPart : ℤ × ℤ → Bool

/-- The pixels of the output rectangle. -/
def inOutput (out : OutputRect) (p : ℤ × ℤ) : Bool :=
  decide ((out.offX ≤ p.1 ∧ p.1 < out.offX + out.outW) ∧
    out.offY ≤ p.2 ∧ p.2 < out.offY + out.outH)

/-- What a call of `render_frame` writes to the plane: the output rectangle, or some part of it
when the call fails, and nothing when the conversion only goes to the bounce buffer. -/
def wrote (c : Config) (s : Session) (r : RenderResult) (part : ℤ × ℤ → Bool) (p : ℤ × ℤ) : Bool :=
  (c.cpuRender || decide (c.outputMode ≠ .ppDummy)) && inOutput s.out p && (r.ok || part p)

def PaintTurn.pipelinedCall (c : Config) (s : Session) (x : PaintTurn) : PanelMoment :=
  .render (wrote c s x.turn.pipelined x.pipelinedPart)

def PaintTurn.sequentialCall (c : Config) (s : Session) (x : PaintTurn) : PanelMoment :=
  .render (wrote c s x.turn.sequential x.sequentialPart)

/-- What an entry of the log means for the panel, with the signals that come after it. -/
def panelMoments (c : Config) (s : Session) (x : PaintTurn) (decoding : Bool) :
    Event → List PanelMoment
  | .startFrame => (x.turn.signals 1).map .signal
  | .output _ => (x.turn.signals 2).map .signal
  | .render _ _ => [if decoding then x.pipelinedCall c s else x.sequentialCall c s]
  | .clear _ | .graphicWindow _ | .close => []

def windowMoment : Event → Option PanelMoment
  | .graphicWindow on => some (.window on)
  | _ => none

/-- What a turn does to the panel, given the calls it made.  The window is switched after the last
signals of a turn. -/
def turnPanel (c : Config) (s : Session) (x : PaintTurn) (es : List Event) : List PanelMoment :=
  (x.turn.signals 0).map .signal ++ walkLog (panelMoments c s x) false es ++
    (if es.any Event.isOutput then (x.turn.signals 3).map .signal else []) ++
    es.filterMap windowMoment

/-- A session with what has happened to the panel. -/
structure Overlay where
  session : Session
  trace : List PanelMoment

inductive OverlayStep
  | connect (con : Connection)
  | prime (t : PrimeTurn)
  | enter (e : Entry)
  | turn (x : PaintTurn)
  | signal (sig : Signal)

def Overlay.step (c : Config) (bs : BitstreamMem) (o : Overlay) : OverlayStep → Overlay
  | .connect con =>
    ⟨Stream.step c bs o.session (.connect con),
      o.trace ++ (if o.session.phase = .waiting then [.connect] else [])⟩
  | .prime t => ⟨Stream.step c bs o.session (.prime t), o.trace⟩
  | .enter e =>
    let s := Stream.step c bs o.session (.enter e)
    ⟨s, o.trace ++ (if o.session.phase = .priming ∧ s.phase = .decoding ∧ c.overlay = true then
      [.keyfill] else [])⟩
  | .turn x =>
    let s := Stream.step c bs o.session (.turn x.turn)
    ⟨s, o.trace ++ (if o.session.phase = .decoding then
      turnPanel c o.session x (s.log.drop o.session.log.length) else [])⟩
  | .signal sig => ⟨Stream.step c bs o.session (.signal sig), o.trace ++ [.signal sig]⟩

def Overlay.init (warm : Bool) (v : Vpu) : Overlay := ⟨Session.init warm v, []⟩

/-- The panel after the trace. -/
def Overlay.panel (o : Overlay) (warm : Bool) : Panel := o.trace.foldl Panel.next (Panel.init warm)

/-- No open window has shown a stale pixel. -/
def KeepsFresh (c : Config) (warm : Bool) (o : Overlay) : Prop :=
  StaysFresh c (Panel.init warm) o.trace

/-! ## The condition -/

/-- A show that begins finds nothing on the plane. -/
def BeginsBlank (c : Config) (g : Panel) : PanelMoment → Prop
  | .signal .usr1 => g.shown = false → Blank (OnFb c) g.plane
  | _ => True

/-- The signals and the renders of a turn, in their order. -/
def turnCalls (c : Config) (s : Session) (x : PaintTurn) : List PanelMoment :=
  (x.turn.signals 0).map .signal ++
    (if startsFrame c s x.turn then
      (x.turn.signals 1).map .signal ++
        (if rendersPipelined c s x.turn then [x.pipelinedCall c s] else []) ++
        (if getsOutput c s x.turn then
          (x.turn.signals 2).map .signal ++
            (if rendersSequential c s x.turn then [x.sequentialCall c s] else []) ++
            (x.turn.signals 3).map .signal
        else [])
    else [])

/-- The turn finds the window closed, and queues a picture or would in another output mode. -/
def opensWindow (c : Config) (s : Session) (t : Turn) : Bool :=
  c.overlay && !s.ovGwOn && getsOutput c s t && displays s t &&
    decide (displayFlags t ((turnSignals t).foldl receiveFlags (flags s)) = (true, true))

/-- Once a session has rendered anything, the window is neither found open by a show nor opened
again. -/
def ShowsOnBlank (c : Config) (warm : Bool) (o : Overlay) : OverlayStep → Prop
  | .signal sig => o.session.ovGwOn = true → BeginsBlank c (o.panel warm) (.signal sig)
  | .turn x => o.session.phase = .decoding →
    (o.session.ovGwOn = true →
      Watched Panel.next (BeginsBlank c) (o.panel warm) (turnCalls c o.session x)) ∧
    (opensWindow c o.session x.turn = true → Blank (OnFb c) (o.panel warm).plane)
  | _ => True

/-! ## Signals and renders -/

/-- A moment that switches no window and paints no key. -/
def PanelMoment.IsCall : PanelMoment → Prop
  | .signal _ | .render _ => True
  | _ => False

def PanelMoment.signal? : PanelMoment → Option Signal
  | .signal sig => some sig
  | _ => none

section Panels

variable {c : Config} {g : Panel}

theorem on_next {m : PanelMoment} (hm : m.IsCall) : (g.next m).on = g.on := by
  cases m with
  | signal sig =>
    cases sig with
    | usr1 =>
      unfold Panel.next
      simp only
      split <;> rfl
    | usr2 => rfl
  | render wrote => rfl
  | connect | keyfill | window on => exact hm.elim

theorem foldl_on {ms : List PanelMoment} (hms : ∀ m ∈ ms, m.IsCall) :
    (ms.foldl Panel.next g).on = g.on := by
  induction ms generalizing g with
  | nil => rfl
  | cons m ms ih =>
    rw [List.foldl_cons, ih fun m' hm' => hms m' (List.mem_cons_of_mem _ hm'),
      on_next (hms m List.mem_cons_self)]

/-- Under a closed window nothing is shown. -/
theorem staysFresh_of_closed {ms : List PanelMoment} (hms : ∀ m ∈ ms, m.IsCall)
    (hoff : g.on = false) : StaysFresh c g ms := by
  induction ms generalizing g with
  | nil => exact watched_nil _ _ _
  | cons m ms ih =>
    have hoff' : (g.next m).on = false := (on_next (hms m List.mem_cons_self)).trans hoff
    refine (watched_cons _ _ _ _ _).mpr ⟨?_, ?_⟩
    · intro hon
      rw [hoff'] at hon
      cases hon
    · exact ih (fun m' hm' => hms m' (List.mem_cons_of_mem _ hm')) hoff'

/-- One moment under an open window. -/
theorem fresh_next_iff {m : PanelMoment} (hm : m.IsCall) (hon : g.on = true)
    (hcurrent : Current (OnFb c) g.plane) :
    Panel.Fresh c (g.next m) ↔ BeginsBlank c g m := by
  unfold Panel.Fresh
  rw [on_next hm]
  simp only [hon, forall_const]
  cases m with
  | signal sig =>
    cases sig with
    | usr1 =>
      unfold Panel.next BeginsBlank
      cases hshown : g.shown with
      | true => simp [hcurrent]
      | false => simpa using current_age_iff
    | usr2 => exact iff_of_true hcurrent trivial
  | render wrote => exact iff_of_true (hcurrent.paint wrote) trivial
  | connect | keyfill | window on => exact hm.elim

/-- **Under an open window** the plane stays current exactly while every show begins on a blank
one. -/
theorem staysFresh_iff {ms : List PanelMoment} (hms : ∀ m ∈ ms, m.IsCall) (hon : g.on = true)
    (hcurrent : Current (OnFb c) g.plane) :
    StaysFresh c g ms ↔ Watched Panel.next (BeginsBlank c) g ms := by
  induction ms generalizing g with
  | nil => simp [StaysFresh]
  | cons m ms ih =>
    have hfirst := hms m List.mem_cons_self
    have hon' : (g.next m).on = true := (on_next hfirst).trans hon
    unfold StaysFresh at ih ⊢
    rw [watched_cons, watched_cons, fresh_next_iff hfirst hon hcurrent]
    refine and_congr_right fun hbegins => ?_
    refine ih (fun m' hm' => hms m' (List.mem_cons_of_mem _ hm')) hon' ?_
    exact (fresh_next_iff hfirst hon hcurrent).mpr hbegins hon'

/-- While the video is shown, all that is on the plane is stale. -/
def Panel.Aged (c : Config) (g : Panel) : Prop := g.shown = true → Old (OnFb c) g.plane

/-- Signals alone bring nothing onto the plane, and leave nothing fresh on it. -/
theorem foldl_signals_aged (signals : List Signal) (h : g.Aged c) :
    ((signals.map PanelMoment.signal).foldl Panel.next g).Aged c ∧
      (Blank (OnFb c) ((signals.map PanelMoment.signal).foldl Panel.next g).plane ↔
        Blank (OnFb c) g.plane) := by
  induction signals generalizing g with
  | nil => exact ⟨h, Iff.rfl⟩
  | cons sig signals ih =>
    have hstep : (g.next (.signal sig)).Aged c ∧
        (Blank (OnFb c) (g.next (.signal sig)).plane ↔ Blank (OnFb c) g.plane) := by
      cases sig with
      | usr1 =>
        unfold Panel.next
        simp only
        split
        · exact ⟨h, Iff.rfl⟩
        · exact ⟨fun _ => old_age, blank_age_iff⟩
      | usr2 => exact ⟨fun hshown => absurd hshown Bool.false_ne_true, Iff.rfl⟩
    obtain ⟨haged, hblank⟩ := ih hstep.1
    exact ⟨haged, hblank.trans hstep.2⟩

/-- Only signals say whether the video is shown. -/
theorem foldl_shown (ms : List PanelMoment) (armed : Bool) :
    (ms.foldl Panel.next g).shown =
      ((ms.filterMap PanelMoment.signal?).foldl receiveFlags (g.shown, armed)).1 := by
  induction ms generalizing g armed with
  | nil => rfl
  | cons m ms ih =>
    rw [List.foldl_cons]
    cases m with
    | signal sig =>
      have hread : ((PanelMoment.signal sig :: ms).filterMap PanelMoment.signal?) =
          sig :: ms.filterMap PanelMoment.signal? := rfl
      rw [hread, List.foldl_cons]
      cases sig with
      | usr1 =>
        have hshown : (g.next (.signal .usr1)).shown = true := by
          unfold Panel.next
          simp only
          split
          · assumption
          · rfl
        rw [ih false, hshown]
        rfl
      | usr2 => exact ih armed
    | connect | keyfill | render _ | window _ => exact ih armed

end Panels

/-! ## Turns -/

section Turns

variable {c : Config} {s s' : Session} {t : Turn} {x : PaintTurn}

/-- What a turn does to the panel, from the branches it takes. -/
theorem turnPanel_eq (c : Config) (s : Session) (x : PaintTurn) {tail : List Event}
    (htail : ∀ e ∈ tail, Event.isPlain e = true) :
    turnPanel c s x (turnEvents c s x.turn ++ tail) =
      turnCalls c s x ++ tail.filterMap windowMoment := by
  have hplain : ∀ decoding e, Event.isPlain e = true → panelMoments c s x decoding e = [] := by
    intro decoding e he
    cases e with
    | startFrame | output _ | render _ _ => cases he
    | clear _ | graphicWindow _ | close => rfl
  have hnone : tail.flatMap (panelMoments c s x false) = [] := by
    rw [List.flatMap_eq_nil_iff]
    exact fun e he => hplain false e (htail e he)
  have hcalls : (turnEvents c s x.turn).filterMap windowMoment = [] := by
    unfold turnEvents
    cases startsFrame c s x.turn <;> cases rendersPipelined c s x.turn <;>
      cases getsOutput c s x.turn <;> cases rendersSequential c s x.turn <;>
      simp [windowMoment]
  have hidle : startsFrame c s x.turn = false → getsOutput c s x.turn = false := by
    intro hstarts
    simp [getsOutput, hstarts]
  unfold turnPanel turnCalls
  rw [walkLog_turnEvents _ s x.turn htail
    (fun decoding e he => (hplain decoding e he).trans (hplain false e he).symm),
    turnEvents_isOutput c s x.turn htail, List.filterMap_append, hcalls, hnone]
  cases hstarts : startsFrame c s x.turn with
  | false => simp [hidle hstarts]
  | true =>
    cases getsOutput c s x.turn <;> simp [panelMoments]

theorem turnCalls_isCall (c : Config) (s : Session) (x : PaintTurn) :
    ∀ m ∈ turnCalls c s x, m.IsCall := by
  intro m hm
  unfold turnCalls PaintTurn.pipelinedCall PaintTurn.sequentialCall at hm
  cases m with
  | signal _ | render _ => trivial
  | connect | keyfill | window _ =>
    split_ifs at hm <;> simp at hm

/-- While nothing is queued a turn renders nothing. -/
theorem turnCalls_signals (c : Config) (s : Session) (x : PaintTurn) (hq : queued c s = false) :
    ∃ signals : List Signal, turnCalls c s x = signals.map .signal := by
  have hpipe : rendersPipelined c s x.turn = false := by
    unfold rendersPipelined
    rw [hq, Bool.and_false, Bool.false_and, Bool.false_and, Bool.false_and]
  have hseq : rendersSequential c s x.turn = false := by
    unfold rendersSequential
    rw [hq, Bool.and_false, Bool.false_and]
  unfold turnCalls
  rw [hpipe, hseq]
  cases startsFrame c s x.turn with
  | false => exact ⟨x.turn.signals 0, by simp⟩
  | true =>
    cases getsOutput c s x.turn with
    | false => exact ⟨x.turn.signals 0 ++ x.turn.signals 1, by simp⟩
    | true =>
      refine ⟨x.turn.signals 0 ++ (x.turn.signals 1 ++ (x.turn.signals 2 ++ x.turn.signals 3)), ?_⟩
      simp

/-- The signals among the calls of a turn. -/
theorem filterMap_turnCalls (c : Config) (s : Session) (x : PaintTurn) :
    (turnCalls c s x).filterMap PanelMoment.signal? =
      x.turn.signals 0 ++ (if startsFrame c s x.turn then
        x.turn.signals 1 ++ (if getsOutput c s x.turn then
          x.turn.signals 2 ++ x.turn.signals 3 else []) else []) := by
  have hread : ∀ signals : List Signal,
      (signals.map PanelMoment.signal).filterMap PanelMoment.signal? = signals := by
    intro signals
    rw [List.filterMap_map]
    exact List.filterMap_some
  have hrender : ∀ (w : ℤ × ℤ → Bool) (ms : List PanelMoment),
      (PanelMoment.render w :: ms).filterMap PanelMoment.signal? =
        ms.filterMap PanelMoment.signal? := fun _ _ => rfl
  unfold turnCalls PaintTurn.pipelinedCall PaintTurn.sequentialCall
  cases startsFrame c s x.turn <;> cases rendersPipelined c s x.turn <;>
    cases getsOutput c s x.turn <;> cases rendersSequential c s x.turn <;>
    simp [hread, hrender]

/-- The panel and the session agree on what is shown. -/
theorem turnCalls_shown {g : Panel} (hshown : g.shown = s.gShow) (hphase : s.phase = .decoding) :
    ((turnCalls c s x).foldl Panel.next g).shown = (decodeTurn c s x.turn).gShow := by
  have hflags : (decodeTurn c s x.turn).gShow = (flags (decodeTurn c s x.turn)).1 := rfl
  have hdisplay : ∀ f : Bool × Bool, (displayFlags x.turn f).1 = f.1 := fun f => rfl
  rw [foldl_shown _ s.gArmed, hshown, filterMap_turnCalls, hflags,
    (decodeTurn_flags c s x.turn hphase).flags]
  unfold turnSignals
  split
  · split
    · split <;> simp [hdisplay, flags]
    · simp [flags]
  · simp [flags]

/-! ## The window in a turn -/

theorem windowMoment_of_not_plain (e : Event) (h : Event.isPlain e = false) :
    windowMoment e = none := by
  cases e with
  | startFrame | output _ | render _ _ => rfl
  | clear _ | graphicWindow _ | close => cases h

/-- How the end of a turn switches the window. -/
inductive Switch (c : Config) (s : Session) (t : Turn) (s' : Session) : List PanelMoment → Prop
  | opened (overlay : c.overlay = true) (off : s.ovGwOn = false) (reported : displays s t = true)
      (shown : flags s' = (true, true)) (on : s'.ovGwOn = true) : Switch c s t s' [.window true]
  | closed (on : s.ovGwOn = true) (hidden : s'.gShow = false) (off : s'.ovGwOn = false) :
      Switch c s t s' [.window false]
  | same (on : s'.ovGwOn = s.ovGwOn)
      (stays : c.overlay = true → displays s t = true → flags s' = (true, true) →
        s'.ovGwOn = true) : Switch c s t s' []

/-- The session ends up with the window switched so, and its log has it. -/
def Switched (c : Config) (s : Session) (t : Turn) (s' : Session) : Prop :=
  ∃ ws, Switch c s t s' ws ∧ readLog windowMoment s' = readLog windowMoment s ++ ws

theorem Switched.congr {s₁ s₂ : Session} (h : Switched c s t s₁) (hon : s₂.ovGwOn = s₁.ovGwOn)
    (hflags : flags s₂ = flags s₁) (hlog : readLog windowMoment s₂ = readLog windowMoment s₁) :
    Switched c s t s₂ := by
  obtain ⟨ws, hswitch, heq⟩ := h
  refine ⟨ws, ?_, hlog.trans heq⟩
  rcases hswitch with ⟨hover, hoff, hrep, hshown, hon'⟩ | ⟨hon', hhidden, hoff⟩ | ⟨hsame, hstays⟩
  · exact .opened hover hoff hrep (hflags.trans hshown) (hon.trans hon')
  · exact .closed hon' ((congrArg Prod.fst hflags).trans hhidden) (hon.trans hoff)
  · refine .same (hon.trans hsame) ?_
    intro hover hrep hshown
    rw [hon]
    exact hstays hover hrep (hflags.symm.trans hshown)

theorem Switched.of_same {s₀ : Session} (h : Switched c s t s') (hon : s.ovGwOn = s₀.ovGwOn)
    (hrep : displays s t = displays s₀ t)
    (hlog : readLog windowMoment s = readLog windowMoment s₀) : Switched c s₀ t s' := by
  obtain ⟨ws, hswitch, heq⟩ := h
  refine ⟨ws, ?_, by rw [heq, hlog]⟩
  rcases hswitch with ⟨hover, hoff, hrep', hshown, hon'⟩ | ⟨hon', hhidden, hoff⟩ | ⟨hsame, hstays⟩
  · exact .opened hover (hon.symm.trans hoff) (hrep.symm.trans hrep') hshown hon'
  · exact .closed (hon.symm.trans hon') hhidden hoff
  · exact .same (hsame.trans hon) fun hover hrep' => hstays hover (hrep.trans hrep')

theorem armOutput_switched (c : Config) (t : Turn) (s : Session) (hrep : displays s t = true) :
    Switched c s t (armOutput c t s) := by
  have hlog : readLog windowMoment (armed t s) = readLog windowMoment s := rfl
  rw [armOutput_eq]
  split
  · rename_i hover
    split
    · rename_i hopen
      refine ⟨_, .opened hover hopen.2.2 hrep (Prod.ext hopen.1 hopen.2.1) rfl, ?_⟩
      rw [readLog_gwSet, hlog]
      rfl
    split
    · rename_i hclose
      refine ⟨_, .closed hclose.2 hclose.1 rfl, ?_⟩
      rw [readLog_gwSet, hlog]
      rfl
    · rename_i hopen _
      refine ⟨[], .same rfl ?_, by rw [hlog, List.append_nil]⟩
      intro _ _ hshown
      by_contra hoff
      exact hopen ⟨congrArg Prod.fst hshown, congrArg Prod.snd hshown, Bool.eq_false_iff.mpr hoff⟩
  · rename_i hover
    exact ⟨[], .same rfl fun hover' => absurd hover' hover, by rw [hlog, List.append_nil]⟩

theorem display_switched (c : Config) (t : Turn) (s : Session) :
    Switched c s t (display c t s) := by
  have hsame : displays s t = false → Switched c s t s := by
    intro hrep
    refine ⟨[], .same rfl ?_, (List.append_nil _).symm⟩
    intro _ hrep'
    rw [hrep] at hrep'
    cases hrep'
  unfold display
  simp only
  split
  · rename_i hrange
    have harm := armOutput_switched c t s (decide_eq_true hrange)
    split
    · exact harm.congr rfl rfl rfl
    split
    · exact harm.congr rfl rfl rfl
    · refine harm.congr rfl rfl ?_
      rw [readLog_clrDispFlag]
      exact List.append_nil _
  · rename_i hrange
    exact hsame (decide_eq_false hrange)

theorem releasePending_ovGwOn (c : Config) (t : Turn) (s : Session) :
    (releasePending c t s).ovGwOn = s.ovGwOn := by
  unfold releasePending
  simp only
  split_ifs <;> rfl

theorem finishTurn_switched (hok : (vpuDecGetOutputInfo s.vpu s.h true).2 = .success) :
    Switched c s t (finishTurn c s t).1 := by
  obtain ⟨s₀, hsame, ⟨hfail, -⟩ | ⟨-, s₁, hdisplay, hend⟩⟩ := finishTurn_display c s t
  · exact absurd hok hfail
  -- up to the display the window stays as it is
  have hrelease := readLog_releasePending (f := windowMoment) c t
    ((s₀.note (.output t.oi)).deliver (t.signals 2)) windowMoment_of_not_plain
  have hon := releasePending_ovGwOn c t ((s₀.note (.output t.oi)).deliver (t.signals 2))
  obtain ⟨-, -, hbufs, -⟩ :=
    releasePending_spec c t ((s₀.note (.output t.oi)).deliver (t.signals 2))
  obtain ⟨hbufs₀, -⟩ := deliver_setup (s₀.note (.output t.oi)) (t.signals 2)
  have hon₀ : ((s₀.note (.output t.oi)).deliver (t.signals 2)).ovGwOn = s.ovGwOn :=
    (deliver_ovGwOn _ _).trans hsame.ovGwOn
  have hlog₀ : readLog windowMoment ((s₀.note (.output t.oi)).deliver (t.signals 2)) =
      readLog windowMoment s := by
    rw [readLog_deliver, readLog_note, hsame.readLog]
    exact List.append_nil _
  have hat : atDisplay c t s₀ = display c t ((releasePending c t
      ((s₀.note (.output t.oi)).deliver (t.signals 2))).deliver (t.signals 3)) := rfl
  generalize releasePending c t ((s₀.note (.output t.oi)).deliver (t.signals 2)) = r
    at hrelease hon hbufs hat
  obtain ⟨hbufs₁, -⟩ := deliver_setup r (t.signals 3)
  have hshow : Switched c s t (atDisplay c t s₀) := by
    rw [hat]
    refine (display_switched c t (r.deliver (t.signals 3))).of_same ?_ ?_ ?_
    · exact (deliver_ovGwOn _ _).trans (hon.trans hon₀)
    · have hbufs' : (r.deliver (t.signals 3)).bufs = s.bufs :=
        hbufs₁.trans (hbufs.trans (hbufs₀.trans hsame.bufs))
      unfold displays Session.fbcount
      rw [hbufs']
    · rw [readLog_deliver, hrelease, hlog₀]
      split <;> exact List.append_nil _
  have hshow₁ : Switched c s t s₁ :=
    hshow.congr hdisplay.ovGwOn hdisplay.flags hdisplay.readLog
  rcases hend with hend | ⟨hopen, hend⟩
  · exact hshow₁.congr hend.ovGwOn hend.flags hend.readLog
  · -- a hidden video is found in an open window, so the display has not switched it
    have hclosed : Switched c s t (s₁.gwSet false) := by
      obtain ⟨ws, hswitch, hlog⟩ := hshow₁
      rcases hswitch with ⟨-, -, -, hshown, -⟩ | ⟨-, -, hoff⟩ | ⟨hsame', -⟩
      · have hshow' : s₁.gShow = true := congrArg Prod.fst hshown
        rw [hopen.2.1] at hshow'
        cases hshow'
      · rw [hopen.2.2] at hoff
        cases hoff
      · refine ⟨_, .closed (hsame'.symm.trans hopen.2.2) hopen.2.1 rfl, ?_⟩
        rw [readLog_gwSet, hlog, List.append_nil]
        rfl
    exact hclosed.congr hend.ovGwOn hend.flags hend.readLog

/-- What a turn does to the window, in overlay mode. -/
structure TurnWindow (c : Config) (s : Session) (t : Turn) (s' : Session)
    (ws : List PanelMoment) : Prop where
  opens : opensWindow c s t = true →
    ∃ rest, ws = .window true :: rest ∧ ∀ m ∈ rest, m = .window false
  others : opensWindow c s t = false → ∀ m ∈ ws, m = .window false
  on : ∀ g : Panel, g.on = s.ovGwOn → (ws.foldl Panel.next g).on = s'.ovGwOn
  left : s'.phase ≠ .decoding → s'.ovGwOn = false
  queue : s'.phase = .decoding → queued c s' = true → s'.ovGwOn = true
  hidden : s'.phase = .decoding → s'.ovGwOn = false → s'.gShow = true → s.ovGwOn = false

/-- A turn that leaves the loop closes the window. -/
theorem disconnect_window (hover : c.overlay = true) (s : Session) :
    (disconnect c s).ovGwOn = false ∧ readLog windowMoment (disconnect c s) =
      readLog windowMoment s ++ [.window false] := by
  have hfields : (disconnect c s).ovGwOn = false := by
    unfold disconnect
    simp only [hover, if_true]
    rfl
  refine ⟨hfields, ?_⟩
  rw [readLog_disconnect, hover]
  simp [windowMoment]

theorem opensWindow_eq (hover : c.overlay = true) (hphase : s.phase = .decoding) :
    opensWindow c s t = true ↔ s.ovGwOn = false ∧ getsOutput c s t = true ∧
      displays s t = true ∧ flags (decodeTurn c s t) = (true, true) := by
  have hflags := (decodeTurn_flags c s t hphase).flags
  have hstarts : getsOutput c s t = true → startsFrame c s t = true := by
    intro hgets
    simp only [getsOutput, Bool.and_eq_true] at hgets
    exact hgets.1.1
  unfold opensWindow
  rw [hover]
  simp only [Bool.true_and, Bool.and_eq_true, Bool.not_eq_true', decide_eq_true_eq, and_assoc]
  refine and_congr_right fun _ => and_congr_right fun hgets => and_congr_right fun hrep => ?_
  rw [hflags, hstarts hgets, hgets, hrep]
  rfl

theorem decodeTurn_window (hover : c.overlay = true) (hphase : s.phase = .decoding) :
    ∃ ws, TurnWindow c s t (decodeTurn c s t) ws ∧
      readLog windowMoment (decodeTurn c s t) = readLog windowMoment s ++ ws := by
  have hopens := opensWindow_eq (t := t) hover hphase
  have hturn := decodeTurn_flags c s t hphase
  -- a turn that ends before its output only closes the window
  have hearly : ∀ x : Session, decodeTurn c s t = disconnect c x → getsOutput c s t = false →
      readLog windowMoment x = readLog windowMoment s →
      ∃ ws, TurnWindow c s t (decodeTurn c s t) ws ∧
        readLog windowMoment (decodeTurn c s t) = readLog windowMoment s ++ ws := by
    intro x heq hgets hlog
    obtain ⟨hoff, hread⟩ := disconnect_window hover x
    rw [heq] at hopens ⊢
    refine ⟨[.window false], ?_, by rw [hread, hlog]⟩
    have hleft : (disconnect c x).phase ≠ .decoding := by
      rcases (disconnect_spec c x).2 with hph | hph <;> simp [hph]
    refine ⟨?_, ?_, ?_, fun _ => hoff, fun h => absurd h hleft, fun h => absurd h hleft⟩
    · intro hopen
      have := (hopens.mp hopen).2.1
      rw [hgets] at this
      cases this
    · intro _ m hm
      simpa using hm
    · intro g _
      exact hoff.symm
  rcases decodeTurn_way c s t with ⟨s₀, hstarts, hsame, heq⟩ | ⟨s₂, hstarts, hgets, hst, heq⟩ |
    ⟨s₂, hstarts, hgets, hst, hok, heq⟩
  · refine hearly s₀ heq ?_ ?_
    · unfold getsOutput
      rw [hstarts, Bool.false_and, Bool.false_and]
    · rw [hsame.readLog, readLog_coolDown, readLog_deliver]
  · exact hearly s₂ heq hgets (hst.readLog windowMoment_of_not_plain)
  · have hrep : displays s₂ t = displays s t := by
      unfold displays Session.fbcount
      rw [hst.bufs]
    obtain ⟨ws, hswitch, hlog⟩ :=
      (finishTurn_switched (c := c) (t := t) hok).of_same hst.ovGwOn hrep
        (hst.readLog windowMoment_of_not_plain)
    have hfl : flags (decodeTurn c s t) = flags (finishTurn c s₂ t).1 := by
      rcases heq with heq | heq
      · rw [heq]
      · rw [heq, (disconnect_spec c _).1]
    have hph : (finishTurn c s₂ t).1.phase = .decoding :=
      (finishTurn_flags c s₂ t hok).2.2.trans (hst.phase.trans hphase)
    rw [hfl] at hopens
    generalize (finishTurn c s₂ t).1 = s₃ at *
    -- how the display switched the window decides whether the turn opened it
    have hfirst : (opensWindow c s t = true → ws = [.window true]) ∧
        (opensWindow c s t = false → ∀ m ∈ ws, m = .window false) ∧
        (∀ g : Panel, g.on = s.ovGwOn → (ws.foldl Panel.next g).on = s₃.ovGwOn) ∧
        (displays s t = true → flags s₃ = (true, true) → s₃.ovGwOn = true) ∧
        (s₃.ovGwOn = false → s₃.gShow = true → s.ovGwOn = false) := by
      rcases hswitch with ⟨-, hoff, hrep', hshown, hon⟩ | ⟨hon, hhidden, hoff⟩ | ⟨hsame, hstays⟩
      · refine ⟨fun _ => rfl, ?_, fun _ _ => hon.symm, fun _ _ => hon, fun _ _ => hoff⟩
        intro hopen
        rw [hopens.mpr ⟨hoff, hgets, hrep', hshown⟩] at hopen
        cases hopen
      · refine ⟨?_, fun _ m hm => by simpa using hm, fun _ _ => hoff.symm, ?_, ?_⟩
        · intro hopen
          have := (hopens.mp hopen).1
          rw [hon] at this
          cases this
        · intro _ hshown
          have hshow : s₃.gShow = true := congrArg Prod.fst hshown
          rw [hhidden] at hshow
          cases hshow
        · intro _ hshow
          rw [hhidden] at hshow
          cases hshow
      · refine ⟨?_, fun _ m hm => by simp at hm, fun g hg => hg.trans hsame.symm,
          hstays hover, fun hoff _ => hsame.symm.trans hoff⟩
        intro hopen
        obtain ⟨hoff, -, hrep', hshown⟩ := hopens.mp hopen
        have hon := hstays hover hrep' hshown
        rw [hsame, hoff] at hon
        cases hon
    obtain ⟨hopened, hother, hon, hqueue, hhidden⟩ := hfirst
    rcases heq with heq | heq
    · rw [heq] at hturn ⊢
      refine ⟨ws, ⟨?_, hother, hon, ?_, ?_, fun _ => hhidden⟩, hlog⟩
      · exact fun hopen => ⟨[], hopened hopen, by simp⟩
      · exact fun hleft => absurd hph hleft
      · intro hdec hq
        obtain ⟨-, -, hrep', hshown⟩ := hturn.queue hdec hq
        exact hqueue hrep' hshown
    · obtain ⟨hoff, hread⟩ := disconnect_window hover s₃
      have hleft : (disconnect c s₃).phase ≠ .decoding := by
        rcases (disconnect_spec c s₃).2 with hph | hph <;> simp [hph]
      rw [heq]
      refine ⟨ws ++ [.window false], ⟨?_, ?_, ?_, fun _ => hoff, fun h => absurd h hleft,
        fun h => absurd h hleft⟩, by rw [hread, hlog, List.append_assoc]⟩
      · intro hopen
        exact ⟨[.window false], by rw [hopened hopen]; rfl, by simp⟩
      · intro hopen m hm
        rcases List.mem_append.mp hm with hm | hm
        · exact hother hopen m hm
        · simpa using hm
      · intro g _
        rw [List.foldl_append]
        exact hoff.symm

end Turns

/-! ## The steps -/

/-- What holds between the steps. -/
structure OverlayInv (c : Config) (warm : Bool) (o : Overlay) : Prop where
  shown : (o.panel warm).shown = o.session.gShow
  on : (o.panel warm).on = o.session.ovGwOn
  closed : o.session.phase ≠ .decoding → o.session.ovGwOn = false
  queue : o.session.phase = .decoding → queued c o.session = true → o.session.ovGwOn = true
  /-- A window that is closed after it was open has been hidden, so the next show finds nothing
  fresh. -/
  aged : o.session.phase = .decoding → o.session.ovGwOn = false → (o.panel warm).Aged c
  fresh : KeepsFresh c warm o

section Steps

variable {c : Config} {bs : BitstreamMem} {warm : Bool} {o : Overlay}

theorem panel_append (s : Session) (ms ms' : List PanelMoment) :
    Overlay.panel ⟨s, ms ++ ms'⟩ warm = ms'.foldl Panel.next (Overlay.panel ⟨s, ms⟩ warm) := by
  unfold Overlay.panel
  rw [List.foldl_append]

theorem staysFresh_append (g : Panel) (ms ms' : List PanelMoment) :
    StaysFresh c g (ms ++ ms') ↔
      StaysFresh c g ms ∧ StaysFresh c (ms.foldl Panel.next g) ms' :=
  watched_append _ _ g ms ms'

/-- The panel stays fresh to the end. -/
theorem StaysFresh.last {g : Panel} {ms : List PanelMoment} (h : StaysFresh c g ms)
    (hg : g.Fresh c) : Panel.Fresh c (ms.foldl Panel.next g) := by
  induction ms generalizing g with
  | nil => exact hg
  | cons m ms ih =>
    obtain ⟨hfirst, hrest⟩ := (watched_cons _ _ _ _ _).mp h
    exact ih hrest hfirst

theorem OverlayInv.current (h : OverlayInv c warm o) (hon : o.session.ovGwOn = true) :
    Current (OnFb c) (o.panel warm).plane := by
  have hinit : (Panel.init warm).Fresh c := fun hinit => by cases hinit
  exact h.fresh.last hinit (h.on.trans hon)

/-- Closing the window shows nothing. -/
theorem staysFresh_closing {g : Panel} {ws : List PanelMoment} (hg : g.Fresh c)
    (hws : ∀ m ∈ ws, m = .window false) : StaysFresh c g ws := by
  induction ws generalizing g with
  | nil => exact watched_nil _ _ _
  | cons m ws ih =>
    have hm := hws m List.mem_cons_self
    have hnext : Panel.Fresh c (g.next m) := by
      rw [hm]
      exact fun hon => by cases hon
    exact (watched_cons _ _ _ _ _).mpr
      ⟨hnext, ih hnext fun m' hm' => hws m' (List.mem_cons_of_mem _ hm')⟩

theorem foldl_window_plane {g : Panel} {ws : List PanelMoment}
    (hws : ∀ m ∈ ws, ∃ on, m = .window on) :
    (ws.foldl Panel.next g).plane = g.plane ∧ (ws.foldl Panel.next g).shown = g.shown := by
  induction ws generalizing g with
  | nil => exact ⟨rfl, rfl⟩
  | cons m ws ih =>
    obtain ⟨on, rfl⟩ := hws m List.mem_cons_self
    obtain ⟨hplane, hshown⟩ :=
      ih (g := g.next (.window on)) fun m' hm' => hws m' (List.mem_cons_of_mem _ hm')
    exact ⟨hplane, hshown⟩

theorem readLog_windowMoment (es : List Event) :
    ∀ m ∈ es.filterMap windowMoment, ∃ on, m = .window on := by
  intro m hm
  obtain ⟨e, -, he⟩ := List.mem_filterMap.mp hm
  cases e with
  | graphicWindow on => exact ⟨on, (Option.some.inj he).symm⟩
  | startFrame | output _ | render _ _ | clear _ | close => cases he

/-- A turn of a session that decodes: its calls, and then the window. -/
theorem overlay_turn (hover : c.overlay = true) (bs : BitstreamMem) (o : Overlay) (x : PaintTurn)
    (hphase : o.session.phase = .decoding) :
    ∃ ws, o.step c bs (.turn x) =
        ⟨decodeTurn c o.session x.turn, o.trace ++ (turnCalls c o.session x ++ ws)⟩ ∧
      TurnWindow c o.session x.turn (decodeTurn c o.session x.turn) ws ∧
      ∀ m ∈ ws, ∃ on, m = .window on := by
  obtain ⟨ws, hwindow, hread⟩ := decodeTurn_window (t := x.turn) hover hphase
  obtain ⟨tail, hplain, hlog, hread'⟩ :=
    readLog_decodeTurn c o.session x.turn windowMoment_of_not_plain
  have hws : tail.filterMap windowMoment = ws := by
    rw [hread'] at hread
    exact List.append_cancel_left hread
  refine ⟨ws, ?_, hwindow, hws ▸ readLog_windowMoment tail⟩
  unfold Overlay.step
  simp only [step_decode, if_pos hphase]
  rw [hlog, List.append_assoc, List.drop_left, turnPanel_eq c o.session x hplain, hws]

/-- **A turn** keeps the panel fresh exactly when its shows begin, and its window opens, on a blank
plane. -/
theorem OverlayInv.turn_iff (hover : c.overlay = true) (h : OverlayInv c warm o) (x : PaintTurn)
    (hphase : o.session.phase = .decoding) :
    KeepsFresh c warm (o.step c bs (.turn x)) ↔ ShowsOnBlank c warm o (.turn x) := by
  obtain ⟨ws, hstep, hwindow, -⟩ := overlay_turn hover bs o x hphase
  have hcalls := turnCalls_isCall c o.session x
  have hpanel : o.trace.foldl Panel.next (Panel.init warm) = o.panel warm := rfl
  have hshows : ShowsOnBlank c warm o (.turn x) ↔
      (o.session.ovGwOn = true →
        Watched Panel.next (BeginsBlank c) (o.panel warm) (turnCalls c o.session x)) ∧
      (opensWindow c o.session x.turn = true → Blank (OnFb c) (o.panel warm).plane) :=
    ⟨fun hall => hall hphase, fun hboth _ => hboth⟩
  rw [hstep, hshows]
  unfold KeepsFresh
  simp only
  rw [staysFresh_append, staysFresh_append, hpanel]
  refine (and_iff_right h.fresh).trans ?_
  cases hon : o.session.ovGwOn with
  | true =>
    -- the window is open, and can only be closed
    have hopens : opensWindow c o.session x.turn = false := by
      unfold opensWindow
      rw [hon]
      simp
    rw [staysFresh_iff hcalls (h.on.trans hon) (h.current hon), hopens]
    constructor
    · intro hall
      exact ⟨fun _ => hall.1, fun hopen => absurd hopen Bool.false_ne_true⟩
    · intro hall
      refine ⟨hall.1 rfl, ?_⟩
      have hkept := (staysFresh_iff hcalls (h.on.trans hon) (h.current hon)).mpr (hall.1 rfl)
      exact staysFresh_closing (hkept.last fun _ => h.current hon) (hwindow.others hopens)
  | false =>
    -- nothing is queued, so the turn renders nothing before it opens the window
    have hqueued : queued c o.session = false := by
      by_contra hq
      have := h.queue hphase (by simpa using hq)
      rw [hon] at this
      cases this
    have hoff := h.on.trans hon
    obtain ⟨signals, hsignals⟩ := turnCalls_signals c o.session x hqueued
    obtain ⟨haged, hblank⟩ := foldl_signals_aged signals (h.aged hphase hon)
    rw [← hsignals] at haged hblank
    have hoff' := (foldl_on (g := o.panel warm) hcalls).trans hoff
    have hshown : ((turnCalls c o.session x).foldl Panel.next (o.panel warm)).shown =
        (decodeTurn c o.session x.turn).gShow := turnCalls_shown h.shown hphase
    refine (and_iff_right (staysFresh_of_closed hcalls hoff)).trans ?_
    generalize (turnCalls c o.session x).foldl Panel.next (o.panel warm) = g at *
    have hg : g.Fresh c := by
      intro hon'
      rw [hoff'] at hon'
      cases hon'
    cases hopens : opensWindow c o.session x.turn with
    | false => exact ⟨fun _ => ⟨fun hon' => absurd hon' Bool.false_ne_true,
        fun hopen => absurd hopen Bool.false_ne_true⟩,
        fun _ => staysFresh_closing hg (hwindow.others hopens)⟩
    | true =>
      obtain ⟨rest, hws, hrest⟩ := hwindow.opens hopens
      have hshow : g.shown = true := by
        rw [hshown]
        exact congrArg Prod.fst ((opensWindow_eq hover hphase).mp hopens).2.2.2
      have hopened : Panel.Fresh c (g.next (.window true)) ↔
          Blank (OnFb c) (o.panel warm).plane := by
        rw [← hblank, ← (haged hshow).current_iff]
        exact ⟨fun hfresh => hfresh rfl, fun hcurrent _ => hcurrent⟩
      have hfirst : StaysFresh c g ws ↔ Panel.Fresh c (g.next (.window true)) := by
        rw [hws]
        refine (watched_cons _ _ _ _ _).trans ?_
        refine ⟨fun hall => hall.1, fun hfresh => ⟨hfresh, ?_⟩⟩
        exact staysFresh_closing hfresh hrest
      rw [hfirst, hopened]
      constructor
      · exact fun hall => ⟨fun hon' => absurd hon' Bool.false_ne_true, fun _ => hall⟩
      · exact fun hall => hall.2 rfl

theorem step_turn_idle (o : Overlay) (x : PaintTurn) (hphase : o.session.phase ≠ .decoding) :
    o.step c bs (.turn x) = o := by
  unfold Overlay.step
  simp only [step_decode, if_neg hphase, List.append_nil]

/-- Every step keeps the panel fresh exactly when it is allowed. -/
theorem OverlayInv.keeps_iff (hover : c.overlay = true) (bs : BitstreamMem)
    (h : OverlayInv c warm o) (a : OverlayStep) :
    KeepsFresh c warm (o.step c bs a) ↔ ShowsOnBlank c warm o a := by
  -- most steps change nothing that an open window shows
  have hharmless : ∀ ms : List PanelMoment, (o.step c bs a).trace = o.trace ++ ms →
      StaysFresh c (o.panel warm) ms → ShowsOnBlank c warm o a →
      (KeepsFresh c warm (o.step c bs a) ↔ ShowsOnBlank c warm o a) := by
    intro ms heq hms hok
    unfold KeepsFresh
    rw [heq, staysFresh_append]
    exact iff_of_true ⟨h.fresh, hms⟩ hok
  have hnone : StaysFresh c (o.panel warm) [] := watched_nil _ _ _
  cases a with
  | connect con =>
    refine hharmless _ rfl ?_ trivial
    split
    · rename_i hphase
      have hoff : (o.panel warm).on = false := h.on.trans (h.closed (by simp [hphase]))
      refine (watched_cons _ _ _ _ _).mpr ⟨?_, watched_nil _ _ _⟩
      intro hon
      have hon' : (o.panel warm).on = true := hon
      rw [hoff] at hon'
      cases hon'
    · exact hnone
  | prime t => exact hharmless [] (List.append_nil _).symm hnone trivial
  | enter e =>
    refine hharmless _ rfl ?_ trivial
    split
    · exact (watched_cons _ _ _ _ _).mpr ⟨fun _ => blank_clear.current, watched_nil _ _ _⟩
    · exact hnone
  | turn x =>
    by_cases hphase : o.session.phase = .decoding
    · exact h.turn_iff hover x hphase
    · rw [step_turn_idle o x hphase]
      exact iff_of_true h.fresh fun hdec => absurd hdec hphase
  | signal sig =>
    have hcall : ∀ m ∈ [PanelMoment.signal sig], m.IsCall := by
      intro m hm
      rw [List.mem_singleton.mp hm]
      trivial
    cases hon : o.session.ovGwOn with
    | false =>
      refine hharmless [.signal sig] rfl (staysFresh_of_closed hcall (h.on.trans hon)) ?_
      intro hon'
      rw [hon] at hon'
      cases hon'
    | true =>
      have htrace : (o.step c bs (.signal sig)).trace = o.trace ++ [.signal sig] := rfl
      unfold KeepsFresh
      rw [htrace, staysFresh_append]
      refine (and_iff_right h.fresh).trans ?_
      refine (staysFresh_iff hcall (h.on.trans hon) (h.current hon)).trans ?_
      rw [watched_cons]
      exact ⟨fun hall _ => hall.1, fun hok => ⟨hok hon, watched_nil _ _ _⟩⟩

/-- A step outside the decode loop. -/
theorem OverlayInv.outside {s' : Session} {ms : List PanelMoment} (h : OverlayInv c warm o)
    (hphase : o.session.phase ≠ .decoding) (hout : Outside o.session s')
    (hshown : (Overlay.panel ⟨s', o.trace ++ ms⟩ warm).shown = (o.panel warm).shown)
    (hon : (Overlay.panel ⟨s', o.trace ++ ms⟩ warm).on = (o.panel warm).on)
    (haged : s'.phase = .decoding → (Overlay.panel ⟨s', o.trace ++ ms⟩ warm).Aged c)
    (hfresh : KeepsFresh c warm ⟨s', o.trace ++ ms⟩) :
    OverlayInv c warm ⟨s', o.trace ++ ms⟩ := by
  have hoff : s'.ovGwOn = false := hout.window.ovGwOn.trans (h.closed hphase)
  refine ⟨?_, ?_, fun _ => hoff, ?_, fun hdec _ => haged hdec, hfresh⟩
  · exact hshown.trans (h.shown.trans hout.window.gShow.symm)
  · exact hon.trans (h.on.trans hout.window.ovGwOn.symm)
  · intro hdec hq
    rcases hout with ⟨-, hne, -⟩ | ⟨-, hne, -⟩ | ⟨-, -, hidx, -⟩
    · exact absurd hdec hne
    · exact absurd hdec hne
    · -- a loop starts with nothing pending
      simp [queued, hidx] at hq

theorem OverlayInv.step (hover : c.overlay = true) (h : OverlayInv c warm o) (a : OverlayStep)
    (hok : ShowsOnBlank c warm o a) : OverlayInv c warm (o.step c bs a) := by
  have hfresh := (h.keeps_iff hover bs a).mpr hok
  cases a with
  | connect con =>
    by_cases hphase : o.session.phase = .waiting
    · have hstep : o.step c bs (.connect con) =
          ⟨connect c bs o.session con, o.trace ++ [.connect]⟩ := by
        simp only [Overlay.step, step_connect, if_pos hphase]
      rw [hstep] at hfresh ⊢
      refine h.outside (by simp [hphase]) (connect_outside o.session con hphase) ?_ ?_ ?_ hfresh
      · rw [panel_append]
        rfl
      · rw [panel_append]
        rfl
      · rw [panel_append]
        exact fun _ _ => old_age
    · have hstep : o.step c bs (.connect con) = o := by
        simp only [Overlay.step, step_connect, if_neg hphase, List.append_nil]
      rw [hstep]
      exact h
  | prime t =>
    by_cases hphase : o.session.phase = .priming
    · have hstep : o.step c bs (.prime t) = ⟨primeTurn c o.session t, o.trace ++ []⟩ := by
        simp only [Overlay.step, step_prime, if_pos hphase, List.append_nil]
      rw [hstep] at hfresh ⊢
      obtain ⟨hout, hne⟩ := primeTurn_outside (c := c) o.session t hphase
      refine h.outside (by simp [hphase]) hout ?_ ?_ (fun hdec => absurd hdec hne) hfresh
      · rw [panel_append]
        rfl
      · rw [panel_append]
        rfl
    · have hstep : o.step c bs (.prime t) = o := by
        simp only [Overlay.step, step_prime, if_neg hphase]
      rw [hstep]
      exact h
  | enter e =>
    by_cases hphase : o.session.phase = .priming
    · have hout := enterLoop_outside (c := c) o.session e hphase
      have hstep : o.step c bs (.enter e) = ⟨enterLoop c o.session e, o.trace ++
          (if (enterLoop c o.session e).phase = .decoding then [.keyfill] else [])⟩ := by
        simp only [Overlay.step, step_enter, hphase, hover, true_and, and_true, if_true]
      rw [hstep] at hfresh ⊢
      refine h.outside (by simp [hphase]) hout ?_ ?_ ?_ hfresh
      · rw [panel_append]
        split <;> rfl
      · rw [panel_append]
        split <;> rfl
      · intro hdec
        rw [panel_append, if_pos hdec]
        exact fun _ => blank_clear.old
    · have hstep : o.step c bs (.enter e) = o := by
        simp [Overlay.step, step_enter, hphase]
      rw [hstep]
      exact h
  | turn x =>
    by_cases hphase : o.session.phase = .decoding
    · obtain ⟨ws, hstep, hwindow, hws⟩ := overlay_turn hover bs o x hphase
      have hcalls := turnCalls_isCall c o.session x
      have hshown : ((turnCalls c o.session x).foldl Panel.next (o.panel warm)).shown =
          (decodeTurn c o.session x.turn).gShow := turnCalls_shown h.shown hphase
      have hpanel : Overlay.panel ⟨decodeTurn c o.session x.turn,
          o.trace ++ (turnCalls c o.session x ++ ws)⟩ warm =
          ws.foldl Panel.next ((turnCalls c o.session x).foldl Panel.next (o.panel warm)) := by
        rw [panel_append, List.foldl_append]
        rfl
      rw [hstep] at hfresh ⊢
      refine ⟨?_, ?_, hwindow.left, hwindow.queue, ?_, hfresh⟩
      · rw [hpanel, (foldl_window_plane hws).2, hshown]
      · rw [hpanel]
        exact hwindow.on _ ((foldl_on hcalls).trans h.on)
      · intro hdec hoff hshow
        rw [hpanel] at hshow ⊢
        rw [(foldl_window_plane hws).2] at hshow
        rw [(foldl_window_plane hws).1]
        -- the window was closed before, or the video would be hidden
        have hon := hwindow.hidden hdec hoff (hshown.symm.trans hshow)
        have hqueued : queued c o.session = false := by
          by_contra hq
          have := h.queue hphase (by simpa using hq)
          rw [hon] at this
          cases this
        obtain ⟨signals, hsignals⟩ := turnCalls_signals c o.session x hqueued
        rw [hsignals] at hshow ⊢
        exact (foldl_signals_aged signals (h.aged hphase hon)).1 hshow
    · rw [step_turn_idle o x hphase]
      exact h
  | signal sig =>
    have hstep : o.step c bs (.signal sig) =
        ⟨o.session.receive sig, o.trace ++ [.signal sig]⟩ := by
      simp only [Overlay.step, step_signal]
    have hsame : (o.session.receive sig).phase = o.session.phase ∧
        (o.session.receive sig).ovGwOn = o.session.ovGwOn ∧
        queued c (o.session.receive sig) = queued c o.session := by
      cases sig <;> exact ⟨rfl, rfl, rfl⟩
    obtain ⟨hph, hon, hq⟩ := hsame
    have hpanel : Overlay.panel ⟨o.session.receive sig, o.trace ++ [.signal sig]⟩ warm =
        (o.panel warm).next (.signal sig) := by
      rw [panel_append]
      rfl
    rw [hstep] at hfresh ⊢
    refine ⟨?_, ?_, ?_, ?_, ?_, hfresh⟩
    · rw [hpanel]
      have hshown := foldl_shown (g := o.panel warm) [.signal sig] false
      refine hshown.trans ?_
      cases sig <;> rfl
    · rw [hpanel]
      simp only [hon]
      exact (on_next (m := .signal sig) trivial).trans h.on
    · simp only [hph, hon]
      exact h.closed
    · simp only [hph, hon, hq]
      exact h.queue
    · rw [hpanel]
      simp only [hph, hon]
      intro hdec hoff
      exact (foldl_signals_aged [sig] (h.aged hdec hoff)).1

theorem OverlayInv.init (c : Config) (warm : Bool) (v : Vpu) :
    OverlayInv c warm (Overlay.init warm v) := by
  refine ⟨rfl, rfl, fun _ => rfl, ?_, ?_, ?_⟩
  · intro hdec
    cases hdec
  · intro hdec
    cases hdec
  · unfold KeepsFresh StaysFresh Overlay.init
    exact watched_nil _ _ _

end Steps

/-- **The overlay.** With `--overlay`, in every run an open window has no stale pixel exactly when,
once a session has rendered anything onto the plane, the window is neither found open by a show that
begins nor opened again. -/
theorem overlay_current_iff (c : Config) (hover : c.overlay = true) (bs : BitstreamMem)
    (warm : Bool) (v : Vpu) (steps : List OverlayStep) :
    (∀ n, KeepsFresh c warm (stateAt (Overlay.step c bs) (Overlay.init warm v) steps n)) ↔
      Along (Overlay.step c bs) (Overlay.init warm v) steps (ShowsOnBlank c warm) := by
  apply forall_good_iff_along (OverlayInv.init c warm v)
  · exact fun o a h hok => h.step hover a hok
  · exact fun o h => h.fresh
  · exact fun o a h hkeeps => (h.keeps_iff hover bs a).mp hkeeps

/-- `tcpConfig` with `--overlay`. -/
def overlayConfig : Config := { tcpConfig with overlay := true }

/-- The video is shown, hidden, and shown again in one session. -/
def shownTwice : List OverlayStep :=
  let turn (idx : ℤ) : OverlayStep := .turn ⟨quietTurn idx [], fun _ => true, fun _ => true⟩
  [.connect ⟨0, true, true, fun _ => 0, []⟩,
    .prime ⟨[], true, .bytes [0, 0, 1], ⟨false, true, 352 * 1024 + 288, 3, 0, 0⟩⟩,
    .enter ⟨⟨4, List.replicate 7 (some 0), true, true, true⟩, true, 0⟩,
    turn 0, turn 1, .signal .usr2, turn 2, .signal .usr1, turn 3]

theorem overlay_current_twice :
    (∀ n, KeepsFresh overlayConfig false (stateAt (Overlay.step overlayConfig ⟨4096, by decide⟩)
        (Overlay.init false (startedVpu Semaphore.zero false true)) shownTwice n)) ↔
      Along (Overlay.step overlayConfig ⟨4096, by decide⟩)
        (Overlay.init false (startedVpu Semaphore.zero false true)) shownTwice
        (ShowsOnBlank overlayConfig false) :=
  overlay_current_iff overlayConfig rfl ⟨4096, by decide⟩ false
    (startedVpu Semaphore.zero false true) shownTwice

/-- The window of the second showing opens over the last picture of the first. -/
theorem old_picture_shown :
    ¬ ∀ n, KeepsFresh overlayConfig false (stateAt (Overlay.step overlayConfig ⟨4096, by decide⟩)
      (Overlay.init false (startedVpu Semaphore.zero false true)) shownTwice n) := by
  intro hall
  have hlast := StaysFresh.last (hall 9) (fun hon => by cases hon)
  have hpixel := hlast (by decide +kernel) (300, 200) (by decide +kernel)
  exact hpixel (by decide +kernel)

end Stream
end ToonVpu
