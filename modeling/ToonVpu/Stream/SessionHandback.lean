import ToonVpu.Foundation.Custody
import ToonVpu.Foundation.Runs
import ToonVpu.Stream.SessionLog

/-!
# SessionHandback — every frame goes back to the decoder

The decoder lends a frame buffer with every picture it reports, and `vpu_DecClrDispFlag` gives the
buffer back.  A picture that is queued stays out for one turn: it may be rendered while the next
frame is decoded, again after that, and then it is given back.  A turn can be left in many ways
before it comes to that.

The trace of this file has the reports, the calls of `render_frame` with their results, the returns
and the closing of the decoder.  `frames_handed_back` says that in every run the session is a
custodian in the sense of `Foundation.Custody`.
-/

namespace ToonVpu
namespace Stream

open Foundation
open Foundation.Monitor
open Foundation.Runs
open Lib

/-! ## The trace -/

/-- A call of `render_frame`: whether the next frame was being decoded, and whether it returned
`0`. -/
structure Attempt where
  pipelined : Bool
  ok : Bool
  deriving DecidableEq, Repr

abbrev FrameAct := Custody.Act ℤ Attempt

/-- A frame is rendered once, or again when the attempt during the next decode has failed. -/
def MayRender (before : List Attempt) (_ : Attempt) : Prop := before = [] ∨ before = [⟨true, false⟩]

/-- The frame that an output reports, if it is one of the registered ones. -/
def reports (fbcount : ℤ) (oi : DecOutputInfo) : List FrameAct :=
  if 0 ≤ oi.indexFrameDisplay ∧ oi.indexFrameDisplay < fbcount then
    [.receive oi.indexFrameDisplay]
  else
    []

/-- What an entry of the log means for frames, given the results of the two renders; `decoding` says
whether a frame is being decoded. -/
def frameActs (fbcount : ℤ) (pipelined sequential decoding : Bool) : Event → List FrameAct
  | .output oi => reports fbcount oi
  | .render idx _ => [.use idx ⟨decoding, if decoding then pipelined else sequential⟩]
  | .clear idx => [.giveBack idx]
  | .close => [.close]
  | .startFrame | .graphicWindow _ => []

/-- The results of the renders of a step. -/
def Step.rendered : Step → Bool × Bool
  | .turn t => (t.pipelined.ok, t.sequential.ok)
  | _ => (false, false)

/-- A session with what it has done with frames since the program started. -/
structure Handback where
  session : Session
  trace : List FrameAct

def Handback.step (c : Config) (bs : BitstreamMem) (x : Handback) (a : Step) : Handback :=
  let s := Stream.step c bs x.session a
  ⟨s, x.trace ++ walkLog (frameActs x.session.fbcount a.rendered.1 a.rendered.2) false
    (s.log.drop x.session.log.length)⟩

def Handback.init (warm : Bool) (v : Vpu) : Handback := ⟨Session.init warm v, []⟩

/-! ## Returns -/

/-- The entries of the log that give a frame back or close the decoder. -/
def frameReturn : Event → Option FrameAct
  | .clear idx => some (.giveBack idx)
  | .close => some .close
  | _ => none

/-- The return of the pending frame. -/
def pendingBack (s : Session) : List FrameAct :=
  if 0 ≤ s.pendingIdx then [.giveBack s.pendingIdx] else []

/-- The return of the frame that a turn reports. -/
def displayBack (s : Session) (t : Turn) : List FrameAct :=
  if displays s t then [.giveBack t.oi.indexFrameDisplay] else []

section Returns

variable {c : Config} {s s' : Session} {t : Turn}

theorem frameReturn_of_not_plain (e : Event) (h : Event.isPlain e = false) :
    frameReturn e = none := by
  cases e with
  | startFrame | output _ | render _ _ => rfl
  | clear _ | graphicWindow _ | close => cases h

theorem frameActs_of_plain (fbcount : ℤ) (pipelined sequential decoding : Bool) {e : Event}
    (h : Event.isPlain e = true) :
    frameActs fbcount pipelined sequential decoding e = (frameReturn e).toList := by
  cases e with
  | startFrame | output _ | render _ _ => cases h
  | clear _ | graphicWindow _ | close => rfl

theorem returns_disconnect (c : Config) (s : Session) :
    readLog frameReturn (disconnect c s) = readLog frameReturn s ++ pendingBack s ++ [.close] := by
  rw [readLog_disconnect]
  simp [frameReturn, pendingBack]

theorem returns_releasePending (c : Config) (t : Turn) (s : Session) :
    readLog frameReturn (releasePending c t s) = readLog frameReturn s ++ pendingBack s :=
  readLog_releasePending c t s frameReturn_of_not_plain

theorem returns_armOutput (c : Config) (t : Turn) (s : Session) :
    readLog frameReturn (armOutput c t s) = readLog frameReturn s := by
  rcases armOutput_spec c t s with heq | ⟨on, heq⟩
  · rw [heq]
    rfl
  · rw [heq, readLog_gwSet]
    exact List.append_nil _

/-- A reported frame becomes the pending one, or goes back at once. -/
theorem display_returns (c : Config) (t : Turn) (s : Session) (hidx : ¬ 0 ≤ s.pendingIdx) :
    (displays s t = true ∧ (display c t s).pendingIdx = t.oi.indexFrameDisplay ∧
        readLog frameReturn (display c t s) = readLog frameReturn s) ∨
      (¬ 0 ≤ (display c t s).pendingIdx ∧
        readLog frameReturn (display c t s) = readLog frameReturn s ++ displayBack s t) := by
  have harm := returns_armOutput c t s
  obtain ⟨-, hpend, -, -⟩ := armOutput_fields c t s
  unfold display displayBack displays
  simp only [decide_eq_true_eq]
  split
  · rename_i hrange
    split
    · exact .inl ⟨hrange, rfl, harm⟩
    split
    · exact .inl ⟨hrange, rfl, harm⟩
    · -- the video is hidden, so the frame is not kept
      refine .inr ⟨?_, ?_⟩
      · rw [← hpend] at hidx
        exact hidx
      · rw [readLog_clrDispFlag, harm]
        rfl
  · exact .inr ⟨hidx, (List.append_nil _).symm⟩

/-- What has gone back when a turn has handled its output. -/
theorem finishTurn_returns (hok : (vpuDecGetOutputInfo s.vpu s.h true).2 = .success) :
    (displays s t = true ∧ (finishTurn c s t).1.pendingIdx = t.oi.indexFrameDisplay ∧
        readLog frameReturn (finishTurn c s t).1 = readLog frameReturn s ++ pendingBack s) ∨
      (¬ 0 ≤ (finishTurn c s t).1.pendingIdx ∧
        readLog frameReturn (finishTurn c s t).1 =
          readLog frameReturn s ++ pendingBack s ++ displayBack s t) := by
  obtain ⟨s₀, hsame, ⟨hfail, -⟩ | ⟨-, s₁, hdisplay, hend⟩⟩ := finishTurn_display c s t
  · exact absurd hok hfail
  -- the pending frame goes back
  obtain ⟨hpend₀, -⟩ := deliver_pending (s₀.note (.output t.oi)) (t.signals 2)
  obtain ⟨hbufs₀, -⟩ := deliver_setup (s₀.note (.output t.oi)) (t.signals 2)
  have hrelease := returns_releasePending c t ((s₀.note (.output t.oi)).deliver (t.signals 2))
  obtain ⟨hidx, -, hbufs, -⟩ :=
    releasePending_spec c t ((s₀.note (.output t.oi)).deliver (t.signals 2))
  have hback : pendingBack ((s₀.note (.output t.oi)).deliver (t.signals 2)) = pendingBack s := by
    unfold pendingBack
    rw [hpend₀.trans hsame.pendingIdx]
  rw [hback, readLog_deliver, readLog_note, hsame.readLog] at hrelease
  simp only [frameReturn, Option.toList_none, List.append_nil] at hrelease
  have hat : atDisplay c t s₀ = display c t ((releasePending c t
      ((s₀.note (.output t.oi)).deliver (t.signals 2))).deliver (t.signals 3)) := rfl
  generalize releasePending c t ((s₀.note (.output t.oi)).deliver (t.signals 2)) = r
    at hrelease hidx hbufs hat
  -- then the reported one is looked at
  obtain ⟨hpend₁, -⟩ := deliver_pending r (t.signals 3)
  obtain ⟨hbufs₁, -⟩ := deliver_setup r (t.signals 3)
  have hin : displays (r.deliver (t.signals 3)) t = displays s t := by
    have hbufs' : (r.deliver (t.signals 3)).bufs = s.bufs :=
      hbufs₁.trans (hbufs.trans (hbufs₀.trans hsame.bufs))
    unfold displays Session.fbcount
    rw [hbufs']
  have hdone := display_returns c t (r.deliver (t.signals 3)) (by rw [hpend₁]; exact hidx)
  rw [← hat, readLog_deliver, hrelease, hin] at hdone
  have hback' : displayBack (r.deliver (t.signals 3)) t = displayBack s t := by
    unfold displayBack
    rw [hin]
  rw [hback'] at hdone
  -- what follows gives nothing back
  have hlast : (finishTurn c s t).1.pendingIdx = (atDisplay c t s₀).pendingIdx ∧
      readLog frameReturn (finishTurn c s t).1 = readLog frameReturn (atDisplay c t s₀) := by
    rcases hend with hend | ⟨-, hend⟩
    · exact ⟨hend.pendingIdx.trans hdisplay.pendingIdx, hend.readLog.trans hdisplay.readLog⟩
    · refine ⟨hend.pendingIdx.trans hdisplay.pendingIdx, ?_⟩
      rw [hend.readLog, readLog_gwSet, hdisplay.readLog]
      exact List.append_nil _
  rw [hlast.1, hlast.2]
  exact hdone

/-- What has gone back when a turn is over: the pending frame in any case, and the reported one
unless it is the pending frame of the next turn. -/
inductive TurnReturns (c : Config) (s : Session) (t : Turn) (s' : Session) : Prop
  | left (phase : s'.phase ≠ .decoding)
      (eq : readLog frameReturn s' = readLog frameReturn s ++ pendingBack s ++
        (if getsOutput c s t then displayBack s t else []) ++ [.close])
  | queued (phase : s'.phase = .decoding) (gets : getsOutput c s t = true)
      (displays : displays s t = true) (idx : s'.pendingIdx = t.oi.indexFrameDisplay)
      (eq : readLog frameReturn s' = readLog frameReturn s ++ pendingBack s)
  | free (phase : s'.phase = .decoding) (gets : getsOutput c s t = true)
      (idx : ¬ 0 ≤ s'.pendingIdx)
      (eq : readLog frameReturn s' = readLog frameReturn s ++ pendingBack s ++ displayBack s t)

theorem pendingBack_congr (h : s'.pendingIdx = s.pendingIdx) : pendingBack s' = pendingBack s := by
  unfold pendingBack
  rw [h]

theorem decodeTurn_returns (c : Config) (s : Session) (t : Turn) (hphase : s.phase = .decoding) :
    TurnReturns c s t (decodeTurn c s t) := by
  have hleft : ∀ x : Session, (disconnect c x).phase ≠ .decoding := by
    intro x
    rcases (disconnect_spec c x).2 with hph | hph <;> simp [hph]
  -- The turn starts no frame, ends without an output, or handles it.
  rcases decodeTurn_way c s t with ⟨s₀, hstarts, hsame, heq⟩ | ⟨s₂, hstarts, hgets, hst, heq⟩ |
    ⟨s₂, hstarts, hgets, hst, hok, heq⟩
  · rw [heq]
    refine .left (hleft s₀) ?_
    obtain ⟨hpend, -⟩ := coolDown_pending (s.deliver (t.signals 0))
    have hidx : s₀.pendingIdx = s.pendingIdx :=
      hsame.pendingIdx.trans (hpend.trans (deliver_pending s (t.signals 0)).1)
    have hgets : getsOutput c s t = false := by
      unfold getsOutput
      rw [hstarts, Bool.false_and, Bool.false_and]
    have hback : readLog frameReturn s₀ = readLog frameReturn s := by
      rw [hsame.readLog, readLog_coolDown, readLog_deliver]
    rw [returns_disconnect, pendingBack_congr hidx, hback, hgets]
    simp
  · rw [heq]
    refine .left (hleft s₂) ?_
    rw [returns_disconnect, pendingBack_congr hst.pendingIdx,
      hst.readLog frameReturn_of_not_plain, hgets]
    simp
  · have hin : displays s₂ t = displays s t := by
      unfold displays Session.fbcount
      rw [hst.bufs]
    have hdone := finishTurn_returns (c := c) (t := t) hok
    have hback : displayBack s₂ t = displayBack s t := by
      unfold displayBack
      rw [hin]
    rw [hin, hst.readLog frameReturn_of_not_plain, pendingBack_congr hst.pendingIdx, hback] at hdone
    have hph : (finishTurn c s₂ t).1.phase = .decoding :=
      (finishTurn_flags c s₂ t hok).2.2.trans (hst.phase.trans hphase)
    rcases heq with heq | heq
    · rw [heq]
      rcases hdone with ⟨hshown, hidx, hdone⟩ | ⟨hidx, hdone⟩
      · exact .queued hph hgets hshown hidx hdone
      · exact .free hph hgets hidx hdone
    · rw [heq]
      refine .left (hleft _) ?_
      rw [returns_disconnect, hgets]
      rcases hdone with ⟨hshown, hidx, hdone⟩ | ⟨hidx, hdone⟩
      · -- the frame was queued, and goes back on the way out
        have hrange : 0 ≤ t.oi.indexFrameDisplay := by
          unfold displays at hshown
          exact (of_decide_eq_true hshown).1
        simp [hdone, pendingBack, displayBack, hidx, hshown, hrange]
      · simp [hdone, pendingBack, hidx]

end Returns

/-! ## What a step does with frames -/

/-- What a turn does with frames until it gives the first one back. -/
def turnActs (c : Config) (s : Session) (t : Turn) : List FrameAct :=
  (if rendersPipelined c s t then [.use s.pendingIdx ⟨true, t.pipelined.ok⟩] else []) ++
    (if getsOutput c s t then
      reports s.fbcount t.oi ++
        (if rendersSequential c s t then [.use s.pendingIdx ⟨false, t.sequential.ok⟩] else [])
    else [])

section Steps

variable {c : Config} {bs : BitstreamMem} {s : Session} {t : Turn} {x : Handback}

theorem walkLog_frameActs (c : Config) (s : Session) (t : Turn) {tail : List Event}
    (h : ∀ e ∈ tail, Event.isPlain e = true) :
    walkLog (frameActs s.fbcount t.pipelined.ok t.sequential.ok) false
        (turnEvents c s t ++ tail) =
      turnActs c s t ++ tail.filterMap frameReturn := by
  have htail : tail.flatMap (frameActs s.fbcount t.pipelined.ok t.sequential.ok false) =
      tail.filterMap frameReturn := by
    rw [List.filterMap_eq_flatMap_toList]
    exact List.flatMap_congr fun e he => frameActs_of_plain _ _ _ _ (h e he)
  have hsame : ∀ decoding e, Event.isPlain e = true →
      frameActs s.fbcount t.pipelined.ok t.sequential.ok decoding e =
        frameActs s.fbcount t.pipelined.ok t.sequential.ok false e := by
    intro decoding e he
    rw [frameActs_of_plain _ _ _ _ he, frameActs_of_plain _ _ _ _ he]
  have hidle : startsFrame c s t = false →
      rendersPipelined c s t = false ∧ getsOutput c s t = false := by
    intro hstarts
    simp [rendersPipelined, getsOutput, hstarts]
  rw [walkLog_turnEvents _ s t h hsame, htail]
  unfold turnActs
  cases hstarts : startsFrame c s t with
  | false => simp [hidle hstarts]
  | true => simp [frameActs]

/-- A turn of a session that decodes. -/
theorem handback_turn (c : Config) (bs : BitstreamMem) (x : Handback) (t : Turn)
    (hphase : x.session.phase = .decoding) :
    ∃ back, x.step c bs (.turn t) =
        ⟨decodeTurn c x.session t, x.trace ++ (turnActs c x.session t ++ back)⟩ ∧
      readLog frameReturn (decodeTurn c x.session t) = readLog frameReturn x.session ++ back := by
  have hstep : Stream.step c bs x.session (.turn t) = decodeTurn c x.session t := by
    rw [step_decode, if_pos hphase]
  obtain ⟨tail, hplain, hlog, hread⟩ :=
    readLog_decodeTurn c x.session t frameReturn_of_not_plain
  refine ⟨tail.filterMap frameReturn, ?_, hread⟩
  unfold Handback.step
  simp only [hstep, Step.rendered]
  rw [hlog, List.append_assoc, List.drop_left, walkLog_frameActs c _ t hplain]

/-! ## Runs -/

/-- The frame that is out between two steps. -/
def holding (s : Session) : List (ℤ × List Attempt) :=
  if s.phase = .decoding ∧ 0 ≤ s.pendingIdx then [(s.pendingIdx, [])] else []

/-- What holds between the steps. -/
structure HandbackInv (x : Handback) : Prop where
  kept : Custody.Kept MayRender x.trace
  held : x.trace.foldl Custody.next [] = holding x.session

theorem HandbackInv.append {s' : Session} {acts : List FrameAct} (h : HandbackInv x)
    (hacts : Watched Custody.next (Custody.Allowed MayRender) (holding x.session) acts)
    (hheld : acts.foldl Custody.next (holding x.session) = holding s') :
    HandbackInv ⟨s', x.trace ++ acts⟩ := by
  refine ⟨?_, ?_⟩
  · refine (watched_append _ _ _ _ _).mpr ⟨h.kept, ?_⟩
    rw [h.held]
    exact hacts
  · rw [List.foldl_append, h.held]
    exact hheld

theorem holding_of_phase (h : s.phase ≠ .decoding) : holding s = [] := by
  simp [holding, h]

theorem holding_of_decoding (h : s.phase = .decoding) :
    holding s = if 0 ≤ s.pendingIdx then [(s.pendingIdx, [])] else [] := by
  simp [holding, h]

/-- Outside the decode loop no frame is out. -/
theorem HandbackInv.outside {s' : Session} {pipelined sequential : Bool} (h : HandbackInv x)
    (hphase : x.session.phase ≠ .decoding) (hout : Outside x.session s') :
    HandbackInv ⟨s', x.trace ++ walkLog (frameActs x.session.fbcount pipelined sequential) false
      (s'.log.drop x.session.log.length)⟩ := by
  have hempty := holding_of_phase hphase
  refine h.append ?_ ?_
  · rw [hempty]
    rcases hout with ⟨hlog, -, -⟩ | ⟨hlog, -, -⟩ | ⟨hlog, -⟩ <;> simp [hlog, walkLog, frameActs]
  · rw [hempty]
    rcases hout with ⟨hlog, hph, -⟩ | ⟨hlog, hph, -⟩ | ⟨hlog, -, hidx, -⟩
    · simp [hlog, walkLog, holding_of_phase hph]
    · simp [hlog, walkLog, frameActs, holding_of_phase hph]
    · simp [hlog, walkLog, holding, hidx]

/-- A frame is rendered after the wait only if it was not rendered before. -/
theorem rendersSequential_of (h : rendersSequential c s t = true) :
    0 ≤ s.pendingIdx ∧ (rendersPipelined c s t = true → t.pipelined.ok = false) := by
  simp only [rendersSequential, queued, Bool.and_eq_true, decide_eq_true_eq, Bool.not_eq_true',
    Bool.and_eq_false_imp] at h
  exact ⟨h.1.2.1.2, h.2⟩

theorem rendersPipelined_of (h : rendersPipelined c s t = true) : 0 ≤ s.pendingIdx := by
  simp only [rendersPipelined, queued, Bool.and_eq_true, decide_eq_true_eq] at h
  exact h.1.1.1.2.1.2

/-- A turn renders the frame that is out, and takes in the reported one. -/
theorem turnActs_kept (c : Config) (s : Session) (t : Turn) (hphase : s.phase = .decoding) :
    Watched Custody.next (Custody.Allowed MayRender) (holding s) (turnActs c s t ++ pendingBack s) ∧
      (turnActs c s t ++ pendingBack s).foldl Custody.next (holding s) =
        if getsOutput c s t = true ∧ displays s t = true then [(t.oi.indexFrameDisplay, [])]
        else [] := by
  have hreports : reports s.fbcount t.oi =
      if displays s t then [.receive t.oi.indexFrameDisplay] else [] := by
    simp [reports, displays]
  have hsequential : rendersSequential c s t = true → getsOutput c s t = true := by
    intro hseq
    simp only [rendersSequential, Bool.and_eq_true] at hseq
    exact hseq.1.1
  rw [holding_of_decoding hphase]
  unfold turnActs pendingBack
  rw [hreports]
  by_cases hidx : 0 ≤ s.pendingIdx
  · simp only [hidx, if_true]
    cases hpipe : rendersPipelined c s t <;> cases hgets : getsOutput c s t <;>
      cases hseq : rendersSequential c s t <;> cases hshown : displays s t <;>
      simp_all [MayRender, (rendersSequential_of (c := c) (s := s) (t := t))]
  · have hpipe : rendersPipelined c s t = false := by
      by_contra hne
      exact hidx (rendersPipelined_of (by simpa using hne))
    have hseq : rendersSequential c s t = false := by
      by_contra hne
      exact hidx (rendersSequential_of (by simpa using hne)).1
    rw [hpipe, hseq]
    cases hgets : getsOutput c s t <;> cases hshown : displays s t <;> simp [hidx]

/-- **The step.** -/
theorem HandbackInv.turn (h : HandbackInv x) (t : Turn) (hphase : x.session.phase = .decoding) :
    HandbackInv (x.step c bs (.turn t)) := by
  obtain ⟨back, hstep, hback⟩ := handback_turn c bs x t hphase
  obtain ⟨hkept, hheld⟩ := turnActs_kept c x.session t hphase
  rw [hstep]
  -- It is enough to look at what goes back behind the pending frame.
  have hparts : ∀ rest, back = pendingBack x.session ++ rest →
      Watched Custody.next (Custody.Allowed MayRender)
        (if getsOutput c x.session t = true ∧ displays x.session t = true then
          [(t.oi.indexFrameDisplay, [])] else []) rest →
      rest.foldl Custody.next (if getsOutput c x.session t = true ∧ displays x.session t = true then
        [(t.oi.indexFrameDisplay, [])] else []) = holding (decodeTurn c x.session t) →
      HandbackInv ⟨decodeTurn c x.session t, x.trace ++ (turnActs c x.session t ++ back)⟩ := by
    intro rest heq hrest hend
    refine h.append ?_ ?_
    · rw [heq, ← List.append_assoc, watched_append, hheld]
      exact ⟨hkept, hrest⟩
    · rw [heq, ← List.append_assoc, List.foldl_append, hheld]
      exact hend
  rcases decodeTurn_returns c x.session t hphase with ⟨hph, heq⟩ | ⟨hph, hgets, hshown, hidx, heq⟩ |
    ⟨hph, hgets, hidx, heq⟩
  · -- the loop is left, so the reported frame goes back as well
    rw [hback, List.append_assoc, List.append_assoc] at heq
    refine hparts _ (List.append_cancel_left heq) ?_ ?_
    · cases getsOutput c x.session t <;> cases hshown : displays x.session t <;>
        simp [displayBack, hshown]
    · rw [holding_of_phase hph]
      cases getsOutput c x.session t <;> cases hshown : displays x.session t <;>
        simp [displayBack, hshown]
  · rw [hback] at heq
    refine hparts [] (by rw [List.append_nil]; exact List.append_cancel_left heq) (by simp) ?_
    have hrange : 0 ≤ t.oi.indexFrameDisplay := by
      unfold displays at hshown
      exact (of_decide_eq_true hshown).1
    rw [holding_of_decoding hph, hidx]
    simp [hgets, hshown, hrange]
  · rw [hback, List.append_assoc] at heq
    refine hparts _ (List.append_cancel_left heq) ?_ ?_
    · cases hshown : displays x.session t <;> simp [displayBack, hshown, hgets]
    · rw [holding_of_decoding hph, if_neg hidx]
      cases hshown : displays x.session t <;> simp [displayBack, hshown, hgets]

theorem HandbackInv.step (h : HandbackInv x) (a : Step) : HandbackInv (x.step c bs a) := by
  -- in another phase a step does nothing
  have hidle : Stream.step c bs x.session a = x.session → HandbackInv (x.step c bs a) := by
    intro hsame
    unfold Handback.step
    simp only [hsame, List.drop_length, walkLog, List.append_nil]
    exact h
  cases a with
  | connect con =>
    by_cases hphase : x.session.phase = .waiting
    · unfold Handback.step
      rw [step_connect, if_pos hphase]
      exact h.outside (by simp [hphase]) (connect_outside x.session con hphase)
    · exact hidle (by rw [step_connect, if_neg hphase])
  | prime t =>
    by_cases hphase : x.session.phase = .priming
    · unfold Handback.step
      rw [step_prime, if_pos hphase]
      exact h.outside (by simp [hphase]) (primeTurn_outside x.session t hphase).1
    · exact hidle (by rw [step_prime, if_neg hphase])
  | enter e =>
    by_cases hphase : x.session.phase = .priming
    · unfold Handback.step
      rw [step_enter, if_pos hphase]
      exact h.outside (by simp [hphase]) (enterLoop_outside x.session e hphase)
    · exact hidle (by rw [step_enter, if_neg hphase])
  | turn t =>
    by_cases hphase : x.session.phase = .decoding
    · exact h.turn t hphase
    · exact hidle (by rw [step_decode, if_neg hphase])
  | signal sig =>
    have hlog : (x.session.receive sig).log = x.session.log := by cases sig <;> rfl
    have hheld : holding (x.session.receive sig) = holding x.session := by cases sig <;> rfl
    unfold Handback.step
    rw [step_signal]
    simp only [hlog, List.drop_length, walkLog, List.append_nil]
    exact ⟨h.kept, h.held.trans hheld.symm⟩

theorem HandbackInv.init (warm : Bool) (v : Vpu) : HandbackInv (Handback.init warm v) := by
  refine ⟨?_, rfl⟩
  simp [Custody.Kept, Handback.init]

end Steps

/-- **Frames are handed back.** In every run every reported frame is given back exactly once before
the decoder is closed, is rendered only between its report and its return, and is rendered a second
time only after the attempt during the next decode failed. -/
theorem frames_handed_back (c : Config) (bs : BitstreamMem) (warm : Bool) (v : Vpu)
    (steps : List Step) (n : ℕ) :
    Custody.Kept MayRender (stateAt (Handback.step c bs) (Handback.init warm v) steps n).trace ∧
      ∀ pre post, (stateAt (Handback.step c bs) (Handback.init warm v) steps n).trace =
        pre ++ .close :: post → ∀ idx, pre.count (.receive idx) = pre.count (.giveBack idx) := by
  have hrun : Along (Handback.step c bs) (Handback.init warm v) steps fun _ _ => True :=
    fun _ _ _ => trivial
  have hinv : HandbackInv (stateAt (Handback.step c bs) (Handback.init warm v) steps n) :=
    hrun.invariant (HandbackInv.init warm v) (fun x a h _ => h.step a) n
  refine ⟨hinv.kept, ?_⟩
  intro pre post heq idx
  have hkept := hinv.kept
  rw [heq] at hkept
  exact hkept.settled idx

end Stream
end ToonVpu
