import ToonVpu.Foundation.Runs
import ToonVpu.Stream.SessionLog

/-!
# Screen — the program and what it is seen to do

A session only says that a frame was rendered and how that ended.  Here the two calls of
`render_frame` in a turn are made with the answers that the eMMA gives, and their results are those
of the session's turn.  The trace has everything that the display depends on, in its order: signals,
connections, the commands to the decoder, the calls of `render_frame` with their requests, and the
pictures that come to be displayed.
-/

namespace ToonVpu
namespace Stream

open Foundation
open Lib

/-! ## Rendering in a turn -/

/-- What `main` found when it opened the devices and allocated the bounce buffer. -/
structure Device where
  prpFd : ℤ
  fbStride : ℤ
  fbPhys : ℕ
  rgbmem : ℕ
  deriving DecidableEq, Repr

/-- The `render_state` of a session. -/
def renderState (c : Config) (dev : Device) (s : Session) (qpPhys : ℕ) : RenderState :=
  { prpFd := dev.prpFd
    fbmem := fun idx =>
      ((((s.bufs.map Buffers.fbmem).getD [])[idx.toNat]?).map PhyMem.phyAddr).getD 0
    fbmemMapped := fun _ => c.cpuRender
    rgbmem := dev.rgbmem
    srcW := (visibleSize c s.ii).1
    srcH := (visibleSize c s.ii).2
    alignedH := u32 ((s.bufs.map Buffers.ah).getD 0)
    stride := (s.bufs.map Buffers.stride).getD 0
    fbBpp := c.fb.bpp
    fbStride := dev.fbStride
    fbPhys := dev.fbPhys
    out := s.out
    dummyRgb := decide (c.outputMode = .ppDummy)
    qpPhys := qpPhys }

/-- A turn with the answers of the eMMA, and `rs.qp_phys` at the two calls. -/
structure RenderTurn where
  turn : Turn
  pipelined : ConvertEnv
  pipelinedQp : ℕ
  sequential : ConvertEnv
  sequentialQp : ℕ

section Turns

variable (c : Config) (dev : Device)

/-- The call while the next frame is decoded. -/
def RenderTurn.pipelinedCall (x : RenderTurn) (s : Session) : Rendered :=
  renderFrame c.cpuRender (renderState c dev s x.pipelinedQp) s.pendingIdx true false false s.ppOk
    x.pipelined

/-- The call after that. -/
def RenderTurn.sequentialCall (x : RenderTurn) (s : Session) : Rendered :=
  renderFrame c.cpuRender (renderState c dev s x.sequentialQp) s.pendingIdx s.ppOk
    (decide (c.codec ≠ .avc)) true s.ppOk x.sequential

/-- The turn with the results of the two calls. -/
def RenderTurn.toTurn (x : RenderTurn) (s : Session) : Turn :=
  { x.turn with
    pipelined := ⟨decide ((x.pipelinedCall c dev s).rc = 0), false⟩
    sequential :=
      ⟨decide ((x.sequentialCall c dev s).rc = 0), !(x.sequentialCall c dev s).ppOk⟩ }

end Turns

/-! ## The trace -/

inductive Moment
  | signal (sig : Signal)
  | connect
  | startFrame
  | output
  | render (idx : ℤ)
  | ioctl (x : Ioctl)
  /-- A picture of this type came to be displayed. -/
  | displayed (picType : ℕ)
  deriving DecidableEq, Repr

/-- A call of `render_frame`. -/
def renderMoments (idx : ℤ) (ioctls : List Ioctl) : List Moment :=
  .render idx :: ioctls.map .ioctl

/-- The calls of a turn with the signals at their places; `decoding` says whether a frame is being
decoded. -/
def eventMoments (t : Turn) (pipelined sequential : List Ioctl) :
    Bool → List Event → List Moment
  | _, [] => []
  | _, .startFrame :: es =>
    .startFrame :: ((t.signals 1).map .signal ++ eventMoments t pipelined sequential true es)
  | _, .output _ :: es =>
    .output :: ((t.signals 2).map .signal ++ eventMoments t pipelined sequential false es)
  | decoding, .render idx _ :: es =>
    renderMoments idx (if decoding then pipelined else sequential) ++
      eventMoments t pipelined sequential decoding es
  | decoding, _ :: es => eventMoments t pipelined sequential decoding es

/-- The end of a turn that got an output. -/
def displayMoments (s : Session) (t : Turn) : List Moment :=
  (t.signals 3).map .signal ++
    (if 0 ≤ t.oi.indexFrameDisplay ∧ t.oi.indexFrameDisplay < s.fbcount then
      [.displayed t.oi.picType] else [])

/-- What a turn adds to the trace, given the calls it made. -/
def turnMoments (c : Config) (dev : Device) (s : Session) (x : RenderTurn) (es : List Event) :
    List Moment :=
  let t := x.toTurn c dev s
  (t.signals 0).map .signal ++
    eventMoments t (x.pipelinedCall c dev s).ioctls (x.sequentialCall c dev s).ioctls false es ++
    (if es.any Event.isOutput then displayMoments s t else [])

/-! ## Runs -/

structure Screen where
  session : Session
  trace : List Moment

inductive ScreenStep
  | connect (con : Connection)
  | prime (t : PrimeTurn)
  | enter (e : Entry)
  | turn (x : RenderTurn)
  | signal (sig : Signal)

/-- A step of the program, seen from outside. -/
def Screen.step (c : Config) (dev : Device) (bs : BitstreamMem) (scr : Screen) :
    ScreenStep → Screen
  | .connect con =>
    ⟨Stream.step c bs scr.session (.connect con),
      scr.trace ++ (if scr.session.phase = .waiting then [.connect] else [])⟩
  | .prime t => ⟨Stream.step c bs scr.session (.prime t), scr.trace⟩
  | .enter e => ⟨Stream.step c bs scr.session (.enter e), scr.trace⟩
  | .signal sig => ⟨Stream.step c bs scr.session (.signal sig), scr.trace ++ [.signal sig]⟩
  | .turn x =>
    let s := Stream.step c bs scr.session (.turn (x.toTurn c dev scr.session))
    ⟨s, scr.trace ++
      (if scr.session.phase = .decoding then
        turnMoments c dev scr.session x (s.log.drop scr.session.log.length) else [])⟩

def Screen.init (warm : Bool) (v : Vpu) : Screen := ⟨Session.init warm v, []⟩

/-! ## The moments of a turn -/

section Moments

variable {c : Config} {dev : Device} {bs : BitstreamMem}

theorem eventMoments_plain (t : Turn) (pipelined sequential : List Ioctl) (decoding : Bool)
    {es : List Event} (h : ∀ e ∈ es, Event.isPlain e = true) :
    eventMoments t pipelined sequential decoding es = [] := by
  induction es with
  | nil => rfl
  | cons e es ih =>
    have hrest := ih fun e he => h e (List.mem_cons_of_mem _ he)
    have hplain := h e List.mem_cons_self
    cases e with
    | startFrame | output _ | render _ _ => cases hplain
    | clear _ | graphicWindow _ | close => exact hrest

/-- What comes before the output of a turn. -/
def beforeOutput (c : Config) (dev : Device) (s : Session) (x : RenderTurn) : List Moment :=
  .startFrame :: ((x.turn.signals 1).map .signal ++
    (if rendersPipelined c s (x.toTurn c dev s) then
      renderMoments s.pendingIdx (x.pipelinedCall c dev s).ioctls else []))

/-- What comes after it. -/
def afterOutput (c : Config) (dev : Device) (s : Session) (x : RenderTurn) : List Moment :=
  .output :: ((x.turn.signals 2).map .signal ++
    (if rendersSequential c s (x.toTurn c dev s) then
      renderMoments s.pendingIdx (x.sequentialCall c dev s).ioctls else []) ++
    displayMoments s (x.toTurn c dev s))

/-- **The moments of a turn**, from the branches it takes. -/
theorem turnMoments_eq (s : Session) (x : RenderTurn) {tail : List Event}
    (htail : ∀ e ∈ tail, Event.isPlain e = true) :
    turnMoments c dev s x (turnEvents c s (x.toTurn c dev s) ++ tail) =
      (x.turn.signals 0).map .signal ++
        (if startsFrame c s (x.toTurn c dev s) then
          beforeOutput c dev s x ++
            (if getsOutput c s (x.toTurn c dev s) then afterOutput c dev s x else [])
        else []) := by
  have hnone : tail.any Event.isOutput = false := by
    rw [List.any_eq_false]
    intro e he
    have hplain := htail e he
    cases e with
    | startFrame | output _ | render _ _ => cases hplain
    | clear _ | graphicWindow _ | close => simp [Event.isOutput]
  have hend := eventMoments_plain (x.toTurn c dev s) (x.pipelinedCall c dev s).ioctls
    (x.sequentialCall c dev s).ioctls
  have hsignals : (x.toTurn c dev s).signals = x.turn.signals := rfl
  unfold turnMoments turnEvents beforeOutput afterOutput
  generalize x.toTurn c dev s = t at hend hsignals ⊢
  -- the branches the turn takes
  cases startsFrame c s t with
  | false => simp [hend false htail, hnone, hsignals]
  | true =>
    cases rendersPipelined c s t <;> cases getsOutput c s t <;> cases rendersSequential c s t <;>
      simp [eventMoments, hend _ htail, hnone, Event.isOutput, hsignals]

/-- A turn of a session that decodes. -/
theorem step_turn (scr : Screen) (x : RenderTurn) (hphase : scr.session.phase = .decoding) :
    scr.step c dev bs (.turn x) =
      ⟨decodeTurn c scr.session (x.toTurn c dev scr.session), scr.trace ++
        ((x.turn.signals 0).map .signal ++
          (if startsFrame c scr.session (x.toTurn c dev scr.session) then
            beforeOutput c dev scr.session x ++
              (if getsOutput c scr.session (x.toTurn c dev scr.session) then
                afterOutput c dev scr.session x else [])
          else []))⟩ := by
  obtain ⟨tail, hplain, hlog⟩ := decodeTurn_log c scr.session (x.toTurn c dev scr.session)
  unfold Screen.step
  simp only [step_decode, if_pos hphase]
  rw [hlog, List.append_assoc, List.drop_left, turnMoments_eq _ _ hplain]

/-- In another phase a turn does nothing. -/
theorem step_turn_of_ne (scr : Screen) (x : RenderTurn) (hphase : scr.session.phase ≠ .decoding) :
    scr.step c dev bs (.turn x) = scr := by
  unfold Screen.step
  simp only [step_decode, if_neg hphase, List.append_nil]

end Moments

end Stream
end ToonVpu
