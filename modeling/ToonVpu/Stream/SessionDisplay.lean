import ToonVpu.Stream.Render
import ToonVpu.Stream.Session

/-!
# SessionDisplay — the display side of a turn

A turn of the decode loop renders the frame that the previous turn queued, either while the next
frame is decoded or after that, and queues or gives back the frame that is displayed next.  The
first part says what feeding and waiting leave alone, and which calls a turn makes, in their order.

The second part is the program together with what it is seen to do: the signals that arrive, the
commands to the decoder, the calls of `render_frame` with their requests, and the frames that come
to be displayed.
-/

namespace ToonVpu
namespace Stream

open Foundation
open Lib

/-! ## What feeding leaves alone -/

/-- From `s` to `s'` nothing was done with frames, and no signal arrived. -/
structure SameDisplay (s s' : Session) : Prop where
  log : s'.log = s.log
  phase : s'.phase = s.phase
  bufs : s'.bufs = s.bufs
  pendingIdx : s'.pendingIdx = s.pendingIdx
  pendingDisplay : s'.pendingDisplay = s.pendingDisplay
  renderedPending : s'.renderedPending = s.renderedPending
  ppOk : s'.ppOk = s.ppOk
  ppPipelineOk : s'.ppPipelineOk = s.ppPipelineOk
  ppPipelineCooldown : s'.ppPipelineCooldown = s.ppPipelineCooldown
  gShow : s'.gShow = s.gShow
  gArmed : s'.gArmed = s.gArmed
  ovGwOn : s'.ovGwOn = s.ovGwOn

section Frame

variable {s s' s'' : Session}

theorem SameDisplay.refl (s : Session) : SameDisplay s s :=
  ⟨rfl, rfl, rfl, rfl, rfl, rfl, rfl, rfl, rfl, rfl, rfl, rfl⟩

theorem SameDisplay.trans (h : SameDisplay s s') (h' : SameDisplay s' s'') : SameDisplay s s'' :=
  ⟨h'.log.trans h.log, h'.phase.trans h.phase, h'.bufs.trans h.bufs,
    h'.pendingIdx.trans h.pendingIdx, h'.pendingDisplay.trans h.pendingDisplay,
    h'.renderedPending.trans h.renderedPending, h'.ppOk.trans h.ppOk,
    h'.ppPipelineOk.trans h.ppPipelineOk, h'.ppPipelineCooldown.trans h.ppPipelineCooldown,
    h'.gShow.trans h.gShow, h'.gArmed.trans h.gArmed, h'.ovGwOn.trans h.ovGwOn⟩

theorem sameDisplay_vpu (s : Session) (v : Vpu) : SameDisplay s { s with vpu := v } :=
  ⟨rfl, rfl, rfl, rfl, rfl, rfl, rfl, rfl, rfl, rfl, rfl, rfl⟩

theorem sameDisplay_usedNow (s : Session) : SameDisplay s (usedNow s).1 :=
  ⟨rfl, rfl, rfl, rfl, rfl, rfl, rfl, rfl, rfl, rfl, rfl, rfl⟩

theorem sameDisplay_rtpFeed (c : Config) (recvs : List Recv) (s : Session) :
    SameDisplay s (s.rtpFeed c recvs).1 :=
  ⟨rfl, rfl, rfl, rfl, rfl, rfl, rfl, rfl, rfl, rfl, rfl, rfl⟩

theorem sameDisplay_watermarkFeed (reads : List Recv) (s : Session) :
    SameDisplay s (watermarkFeed reads s).1 :=
  ⟨rfl, rfl, rfl, rfl, rfl, rfl, rfl, rfl, rfl, rfl, rfl, rfl⟩

theorem sameDisplay_feedFirst (c : Config) (t : Turn) (s : Session) :
    SameDisplay s (feedFirst c t s).1 := by
  unfold feedFirst
  split
  · exact sameDisplay_rtpFeed c _ s
  · exact ⟨rfl, rfl, rfl, rfl, rfl, rfl, rfl, rfl, rfl, rfl, rfl, rfl⟩

theorem sameDisplay_feedMore (c : Config) (t : Turn) (s : Session) (rc : ℤ) :
    SameDisplay s (feedMore c t s rc).1 := by
  unfold feedMore
  split
  · simp only
    split
    · split
      · exact (sameDisplay_usedNow s).trans (sameDisplay_rtpFeed c _ _)
      · exact (sameDisplay_usedNow s).trans (sameDisplay_watermarkFeed _ _)
    · exact sameDisplay_usedNow s
  · exact SameDisplay.refl s

theorem sameDisplay_inputWatchdogs (c : Config) (t : Turn) (used rc : ℤ) (s : Session) :
    SameDisplay s (inputWatchdogs c t used rc s).1 := by
  unfold inputWatchdogs
  simp only
  split_ifs <;> exact ⟨rfl, rfl, rfl, rfl, rfl, rfl, rfl, rfl, rfl, rfl, rfl, rfl⟩

theorem sameDisplay_outputWatchdogs (c : Config) (t : Turn) (s : Session) :
    SameDisplay s (outputWatchdogs c t s).1 := by
  unfold outputWatchdogs
  simp only
  split_ifs <;> exact ⟨rfl, rfl, rfl, rfl, rfl, rfl, rfl, rfl, rfl, rfl, rfl, rfl⟩

theorem sameDisplay_busyRefill (c : Config) (b : BusyTurn) (s : Session) :
    SameDisplay s (busyRefill c b s) := by
  unfold busyRefill
  simp only
  split_ifs <;> exact ⟨rfl, rfl, rfl, rfl, rfl, rfl, rfl, rfl, rfl, rfl, rfl, rfl⟩

theorem sameDisplay_busyFeed (c : Config) (b : BusyTurn) (s : Session) :
    SameDisplay s (busyFeed c b s).1 := by
  unfold busyFeed
  simp only
  split_ifs <;> exact ⟨rfl, rfl, rfl, rfl, rfl, rfl, rfl, rfl, rfl, rfl, rfl, rfl⟩

theorem sameDisplay_busyWait (c : Config) (busy : List BusyTurn) (s : Session) :
    SameDisplay s (busyWait c busy s).1 := by
  induction busy generalizing s with
  | nil => exact SameDisplay.refl s
  | cons b rest ih =>
    have hrefill := sameDisplay_busyRefill c b s
    have hfeed := hrefill.trans (sameDisplay_busyFeed c b (busyRefill c b s))
    simp only [busyWait]
    generalize busyFeed c b (busyRefill c b s) = fed at hfeed ⊢
    obtain ⟨s', fr⟩ := fed
    split
    · simp only
      split
      · exact hfeed
      · refine SameDisplay.trans (hfeed.trans ?_) (ih _)
        split
        · exact ⟨rfl, rfl, rfl, rfl, rfl, rfl, rfl, rfl, rfl, rfl, rfl, rfl⟩
        · exact SameDisplay.refl _
    · exact hrefill.trans (ih _)

theorem SameDisplay.deliver (h : SameDisplay s s') (signals : List Signal) :
    SameDisplay (s.deliver signals) (s'.deliver signals) := by
  induction signals generalizing s s' with
  | nil => exact h
  | cons sig signals ih =>
    refine ih ?_
    cases sig with
    | usr1 => exact { h with gShow := rfl, gArmed := rfl }
    | usr2 => exact { h with gShow := rfl }

theorem SameDisplay.coolDown (h : SameDisplay s s') :
    SameDisplay (coolDown s) (coolDown s') := by
  unfold Stream.coolDown
  rw [h.ppPipelineOk, h.ppPipelineCooldown]
  split
  · exact { h with ppPipelineOk := rfl, ppPipelineCooldown := rfl }
  · exact h

/-! ## The parts of a turn -/

/-- Up to the command to the decoder, a turn takes signals in and feeds; then it may render. -/
theorem startTurn_display (c : Config) (s : Session) (t : Turn) :
    ∃ s₀, SameDisplay (coolDown (s.deliver (t.signals 0))) s₀ ∧
      (startTurn c s t = (s₀, false) ∨
        startTurn c s t =
          (renderPipelined c t ((s₀.note .startFrame).deliver (t.signals 1)), true)) := by
  have h₀ := ((sameDisplay_usedNow s).deliver (t.signals 0)).coolDown
  unfold startTurn
  generalize usedNow s = looked at h₀ ⊢
  obtain ⟨s₁, used⟩ := looked
  simp only at h₀ ⊢
  have h₁ := h₀.trans (sameDisplay_feedFirst c t _)
  generalize feedFirst c t (coolDown (s₁.deliver (t.signals 0))) = fed at h₁ ⊢
  obtain ⟨s₂, rc⟩ := fed
  have h₂ := h₁.trans (sameDisplay_feedMore c t s₂ rc)
  simp only at h₂ ⊢
  generalize feedMore c t s₂ rc = more at h₂ ⊢
  obtain ⟨s₃, rc⟩ := more
  simp only at h₂ ⊢
  split
  · exact ⟨s₃, h₂, .inl rfl⟩
  have h₃ := h₂.trans (sameDisplay_inputWatchdogs c t used rc s₃)
  generalize inputWatchdogs c t used rc s₃ = watched at h₃ ⊢
  obtain ⟨s₄, stop⟩ := watched
  simp only at h₃ ⊢
  split
  · exact ⟨s₄, h₃, .inl rfl⟩
  generalize vpuDecStartOneFrame s₄.vpu s₄.h = started
  obtain ⟨v, ret⟩ := started
  have h₄ := h₃.trans (sameDisplay_vpu s₄ v)
  simp only
  split
  · exact ⟨_, h₄, .inl rfl⟩
  · exact ⟨_, h₄, .inr rfl⟩

/-- The graphic window is open while the video is hidden. -/
def OpenWhileHidden (c : Config) (s : Session) : Prop :=
  c.overlay = true ∧ s.gShow = false ∧ s.ovGwOn = true

/-- The path without a frame changes nothing about frames, or closes the graphic window. -/
theorem noFrame_display (c : Config) (t : Turn) (s : Session) :
    ∃ s₀, SameDisplay s s₀ ∧ ((noFrame c t s).1 = s₀ ∨
      OpenWhileHidden c s₀ ∧ (noFrame c t s).1 = s₀.gwSet false) := by
  unfold noFrame
  simp only
  have hring : SameDisplay s { s with ring := (feed s.ring true t.pollReady t.recv).1 } :=
    ⟨rfl, rfl, rfl, rfl, rfl, rfl, rfl, rfl, rfl, rfl, rfl, rfl⟩
  split_ifs
  · exact ⟨_, hring, .inl rfl⟩
  · refine ⟨{ s with ring := (feed s.ring true t.pollReady t.recv).1, lastDataMs := t.now 7 }, ?_,
      .inl rfl⟩
    exact ⟨rfl, rfl, rfl, rfl, rfl, rfl, rfl, rfl, rfl, rfl, rfl, rfl⟩
  · rename_i hopen
    exact ⟨_, hring, .inr ⟨hopen, rfl⟩⟩
  · exact ⟨_, hring, .inl rfl⟩
  · exact ⟨s, SameDisplay.refl s, .inl rfl⟩

/-- The state in which the output of a turn is displayed. -/
def atDisplay (c : Config) (t : Turn) (s : Session) : Session :=
  display c t ((releasePending c t ((s.note (.output t.oi)).deliver (t.signals 2))).deliver
    (t.signals 3))

/-- After the wait, a turn ends at once or handles the output. -/
theorem finishTurn_display (c : Config) (s : Session) (t : Turn) :
    ∃ s₀, SameDisplay s s₀ ∧
      (((vpuDecGetOutputInfo s.vpu s.h true).2 ≠ .success ∧ finishTurn c s t = (s₀, false)) ∨
        (vpuDecGetOutputInfo s.vpu s.h true).2 = .success ∧
          ∃ s₁, SameDisplay (atDisplay c t s₀) s₁ ∧
            (SameDisplay s₁ (finishTurn c s t).1 ∨
              OpenWhileHidden c s₁ ∧ SameDisplay (s₁.gwSet false) (finishTurn c s t).1)) := by
  unfold finishTurn
  generalize vpuDecGetOutputInfo s.vpu s.h true = got
  obtain ⟨v, ret⟩ := got
  refine ⟨{ s with vpu := v }, sameDisplay_vpu s v, ?_⟩
  simp only
  split
  · rename_i hfail
    exact .inl ⟨hfail, rfl⟩
  rename_i hok
  refine .inr ⟨by simpa using hok, ?_⟩
  obtain ⟨s₁, hsame, hend⟩ := noFrame_display c t (atDisplay c t { s with vpu := v })
  refine ⟨s₁, hsame, ?_⟩
  unfold atDisplay at hend
  generalize noFrame c t (display c t ((releasePending c t
    (({ s with vpu := v }.note (.output t.oi)).deliver (t.signals 2))).deliver (t.signals 3)))
    = ended at hend ⊢
  obtain ⟨s₂, gone⟩ := ended
  simp only at hend ⊢
  have hlast : SameDisplay s₂ (if gone = true then (s₂, false)
      else (fun x : Session × Bool => (x.1, !x.2)) (outputWatchdogs c t s₂)).1 := by
    split
    · exact SameDisplay.refl s₂
    · exact sameDisplay_outputWatchdogs c t s₂
  rcases hend with rfl | ⟨hopen, rfl⟩
  · exact .inl hlast
  · exact .inr ⟨hopen, hlast⟩

end Frame

/-! ## The calls of a turn -/

/-- The frame is started. -/
def startsFrame (c : Config) (s : Session) (t : Turn) : Bool := (startTurn c s t).2

/-- The state after the wait, and whether the turn ended there. -/
def afterWait (c : Config) (s : Session) (t : Turn) : Session × Bool :=
  busyWait c (t.busy.take 31) (startTurn c s t).1

/-- The output of the frame is there. -/
def getsOutput (c : Config) (s : Session) (t : Turn) : Bool :=
  startsFrame c s t && !(afterWait c s t).2 &&
    decide ((vpuDecGetOutputInfo (afterWait c s t).1.vpu (afterWait c s t).1.h true).2 = .success)

/-- A frame is queued for the display. -/
def queued (c : Config) (s : Session) : Bool :=
  decide (c.outputMode ≠ .decodeOnly) && decide (0 ≤ s.pendingIdx) && s.pendingDisplay

/-- The queued frame is rendered while the next one is decoded. -/
def rendersPipelined (c : Config) (s : Session) (t : Turn) : Bool :=
  startsFrame c s t && queued c s && decide (c.codec ≠ .avc) && s.ppOk && (coolDown s).ppPipelineOk

/-- The queued frame is rendered after that. -/
def rendersSequential (c : Config) (s : Session) (t : Turn) : Bool :=
  getsOutput c s t && queued c s && !(rendersPipelined c s t && t.pipelined.ok)

/-- The calls of a turn up to the display of its output. -/
def turnEvents (c : Config) (s : Session) (t : Turn) : List Event :=
  if startsFrame c s t then
    .startFrame :: ((if rendersPipelined c s t then [.render s.pendingIdx false] else []) ++
      (if getsOutput c s t then
        .output t.oi ::
          (if rendersSequential c s t then [.render s.pendingIdx (decide (c.codec ≠ .avc))] else [])
      else []))
  else
    []

/-- Giving frames back, opening and closing the graphic window, and closing the decoder. -/
def Event.isPlain : Event → Bool
  | .clear _ | .graphicWindow _ | .close => true
  | _ => false

/-- The log grows by plain entries only. -/
def GrowsPlainly (s s' : Session) : Prop :=
  ∃ tail, (∀ e ∈ tail, Event.isPlain e = true) ∧ s'.log = s.log ++ tail

section Calls

variable {s s' s'' : Session}

theorem SameDisplay.growsPlainly (h : SameDisplay s s') : GrowsPlainly s s' :=
  ⟨[], by simp, by simp [h.log]⟩

theorem GrowsPlainly.trans (h : GrowsPlainly s s') (h' : GrowsPlainly s' s'') :
    GrowsPlainly s s'' := by
  obtain ⟨tail, hplain, hlog⟩ := h
  obtain ⟨tail', hplain', hlog'⟩ := h'
  refine ⟨tail ++ tail', ?_, by rw [hlog', hlog, List.append_assoc]⟩
  intro e he
  rcases List.mem_append.mp he with he | he
  · exact hplain e he
  · exact hplain' e he

theorem GrowsPlainly.refl (s : Session) : GrowsPlainly s s := (SameDisplay.refl s).growsPlainly

theorem growsPlainly_clrDispFlag (s : Session) (idx : ℤ) : GrowsPlainly s (s.clrDispFlag idx) :=
  ⟨[.clear idx], by simp [Event.isPlain], rfl⟩

theorem growsPlainly_gwSet (s : Session) (on : Bool) : GrowsPlainly s (s.gwSet on) :=
  ⟨[.graphicWindow on], by simp [Event.isPlain], rfl⟩

@[simp] theorem deliver_log (s : Session) (signals : List Signal) :
    (s.deliver signals).log = s.log := by
  induction signals generalizing s with
  | nil => rfl
  | cons sig signals ih =>
    refine (ih _).trans ?_
    cases sig <;> rfl

/-- The output of a frame, apart from the graphic window. -/
def armed (t : Turn) (s : Session) : Session :=
  { s with
    lastFrameMs := t.now 6
    gArmed := s.gArmed || (s.gShow && decide (t.oi.picType = 0)) }

theorem armOutput_eq (c : Config) (t : Turn) (s : Session) :
    armOutput c t s =
      if c.overlay then
        if (armed t s).gShow = true ∧ (armed t s).gArmed = true ∧ s.ovGwOn = false then
          (armed t s).gwSet true
        else if s.gShow = false ∧ s.ovGwOn = true then
          (armed t s).gwSet false
        else
          armed t s
      else
        armed t s := by
  have harm : (if s.gShow = true ∧ s.gArmed = false ∧ t.oi.picType = 0 then
      { s with lastFrameMs := t.now 6, gArmed := true } else { s with lastFrameMs := t.now 6 }) =
      armed t s := by
    unfold armed
    split
    · rename_i h
      simp [h]
    · rename_i h
      have hsame : (s.gArmed || (s.gShow && decide (t.oi.picType = 0))) = s.gArmed := by
        cases harmed : s.gArmed with
        | true => rfl
        | false =>
          rw [Bool.false_or, Bool.and_eq_false_imp]
          intro hshow
          simpa [hshow, harmed] using h
      rw [hsame]
  unfold armOutput
  simp only [harm]
  rfl

theorem armOutput_spec (c : Config) (t : Turn) (s : Session) :
    armOutput c t s = armed t s ∨ ∃ on, armOutput c t s = (armed t s).gwSet on := by
  rw [armOutput_eq]
  split_ifs
  · exact .inr ⟨true, rfl⟩
  · exact .inr ⟨false, rfl⟩
  · exact .inl rfl
  · exact .inl rfl

theorem growsPlainly_armOutput (c : Config) (t : Turn) (s : Session) :
    GrowsPlainly s (armOutput c t s) := by
  have harmed : GrowsPlainly s (armed t s) := ⟨[], by simp, by simp [armed]⟩
  rcases armOutput_spec c t s with heq | ⟨on, heq⟩
  · rw [heq]
    exact harmed
  · rw [heq]
    exact harmed.trans (growsPlainly_gwSet _ on)

theorem growsPlainly_display (c : Config) (t : Turn) (s : Session) :
    GrowsPlainly s (display c t s) := by
  unfold display
  simp only
  split
  · split_ifs
    · exact growsPlainly_armOutput c t s
    · exact growsPlainly_armOutput c t s
    · exact (growsPlainly_armOutput c t s).trans (growsPlainly_clrDispFlag _ _)
  · exact GrowsPlainly.refl s

theorem growsPlainly_disconnect (c : Config) (s : Session) : GrowsPlainly s (disconnect c s) := by
  have hpending : GrowsPlainly s (clearPending s) := by
    unfold clearPending
    split
    · exact growsPlainly_clrDispFlag s _
    · exact GrowsPlainly.refl s
  have hdrop : ∀ (x : Session) (restart : Bool), GrowsPlainly x (drop x restart) :=
    fun x restart => ⟨[.close], by simp [Event.isPlain], rfl⟩
  unfold disconnect
  simp only
  split
  · exact (hpending.trans (growsPlainly_gwSet _ false)).trans (hdrop _ _)
  · exact hpending.trans (hdrop _ _)

/-- What signals leave alone. -/
theorem deliver_pending (s : Session) (signals : List Signal) :
    (s.deliver signals).pendingIdx = s.pendingIdx ∧
      (s.deliver signals).pendingDisplay = s.pendingDisplay ∧
      (s.deliver signals).renderedPending = s.renderedPending ∧
      (s.deliver signals).ppOk = s.ppOk ∧ (s.deliver signals).ppPipelineOk = s.ppPipelineOk ∧
      (s.deliver signals).ppPipelineCooldown = s.ppPipelineCooldown := by
  induction signals generalizing s with
  | nil => exact ⟨rfl, rfl, rfl, rfl, rfl, rfl⟩
  | cons sig signals ih =>
    cases sig with
    | usr1 => exact ih (s.receive .usr1)
    | usr2 => exact ih (s.receive .usr2)

theorem coolDown_ppPipelineOk (s : Session) :
    (coolDown s).ppPipelineOk =
      if s.ppPipelineOk = false ∧ 0 < s.ppPipelineCooldown then decide (s.ppPipelineCooldown = 1)
      else s.ppPipelineOk := by
  unfold coolDown
  split <;> rfl

theorem coolDown_pending (s : Session) :
    (coolDown s).pendingIdx = s.pendingIdx ∧ (coolDown s).pendingDisplay = s.pendingDisplay ∧
      (coolDown s).ppOk = s.ppOk ∧ (coolDown s).log = s.log ∧ (coolDown s).gShow = s.gShow ∧
      (coolDown s).gArmed = s.gArmed ∧ (coolDown s).bufs = s.bufs ∧
      (coolDown s).phase = s.phase := by
  unfold coolDown
  split <;> exact ⟨rfl, rfl, rfl, rfl, rfl, rfl, rfl, rfl⟩

theorem queued_congr (c : Config) (hidx : s'.pendingIdx = s.pendingIdx)
    (hdisplay : s'.pendingDisplay = s.pendingDisplay) : queued c s' = queued c s := by
  unfold queued
  rw [hidx, hdisplay]

/-- Whether the pipelined render is made, in the state where the frame was started. -/
def pipelines (c : Config) (s : Session) : Bool :=
  queued c s && decide (c.codec ≠ .avc) && s.ppOk && s.ppPipelineOk

theorem renderPipelined_spec (c : Config) (t : Turn) (s : Session) :
    (renderPipelined c t s).log =
        s.log ++ (if pipelines c s then [.render s.pendingIdx false] else []) ∧
      (renderPipelined c t s).renderedPending = (pipelines c s && t.pipelined.ok) ∧
      (renderPipelined c t s).pendingIdx = s.pendingIdx ∧
      (renderPipelined c t s).pendingDisplay = s.pendingDisplay ∧
      (renderPipelined c t s).gShow = s.gShow ∧ (renderPipelined c t s).gArmed = s.gArmed ∧
      (renderPipelined c t s).bufs = s.bufs ∧ (renderPipelined c t s).phase = s.phase := by
  have hiff : (c.outputMode ≠ .decodeOnly ∧ c.codec ≠ .avc ∧ 0 ≤ s.pendingIdx ∧
      s.pendingDisplay = true ∧ s.ppOk = true ∧ s.ppPipelineOk = true) ↔ pipelines c s = true := by
    simp only [pipelines, queued, Bool.and_eq_true, decide_eq_true_eq]
    tauto
  unfold renderPipelined
  simp only [hiff]
  cases hpipe : pipelines c s with
  | false => simp
  | true =>
    simp only [if_true]
    split
    · rename_i hok
      simp [Session.note, hok]
    · rename_i hok
      simp [Session.note, hok]

theorem releasePending_log (c : Config) (t : Turn) (s : Session) :
    ∃ tail, (∀ e ∈ tail, Event.isPlain e = true) ∧ (releasePending c t s).log =
      s.log ++ (if queued c s && !s.renderedPending then
        [.render s.pendingIdx (decide (c.codec ≠ .avc))] else []) ++ tail := by
  unfold releasePending
  split
  · rename_i hidx
    refine ⟨[.clear s.pendingIdx], by simp [Event.isPlain], ?_⟩
    have hiff : (c.outputMode ≠ .decodeOnly ∧ s.pendingDisplay = true ∧
        s.renderedPending = false) ↔ (queued c s && !s.renderedPending) = true := by
      simp only [queued, Bool.and_eq_true, decide_eq_true_eq, Bool.not_eq_true']
      tauto
    simp only [hiff]
    split
    · simp [Session.clrDispFlag, Session.note]
    · simp [Session.clrDispFlag, Session.note]
  · rename_i hidx
    refine ⟨[], by simp, ?_⟩
    simp [queued, hidx]

theorem finishTurn_log (c : Config) (s : Session) (t : Turn) :
    ∃ tail, (∀ e ∈ tail, Event.isPlain e = true) ∧ (finishTurn c s t).1.log =
      s.log ++ (if (vpuDecGetOutputInfo s.vpu s.h true).2 = .success then
        .output t.oi :: (if queued c s && !s.renderedPending then
          [.render s.pendingIdx (decide (c.codec ≠ .avc))] else []) else []) ++ tail := by
  obtain ⟨s₀, hsame, ⟨hfail, heq⟩ | ⟨hok, s₁, hdisplay, hend⟩⟩ := finishTurn_display c s t
  · refine ⟨[], by simp, ?_⟩
    rw [heq, if_neg hfail]
    simp [hsame.log]
  · -- the output, the render, and what follows
    obtain ⟨tail, hplain, hrelease⟩ :=
      releasePending_log c t ((s₀.note (.output t.oi)).deliver (t.signals 2))
    obtain ⟨hidx, hdisp, hrend, -, -⟩ := deliver_pending (s₀.note (.output t.oi)) (t.signals 2)
    have hqueued : queued c ((s₀.note (.output t.oi)).deliver (t.signals 2)) = queued c s :=
      queued_congr c (hidx.trans hsame.pendingIdx) (hdisp.trans hsame.pendingDisplay)
    have hrend' : ((s₀.note (.output t.oi)).deliver (t.signals 2)).renderedPending =
        s.renderedPending := hrend.trans hsame.renderedPending
    have hidx' : ((s₀.note (.output t.oi)).deliver (t.signals 2)).pendingIdx = s.pendingIdx :=
      hidx.trans hsame.pendingIdx
    rw [hqueued, hrend', hidx', deliver_log] at hrelease
    have hrest : GrowsPlainly ((releasePending c t
        ((s₀.note (.output t.oi)).deliver (t.signals 2))).deliver (t.signals 3))
        (finishTurn c s t).1 := by
      refine (growsPlainly_display c t _).trans ?_
      refine hdisplay.growsPlainly.trans ?_
      rcases hend with hend | ⟨-, hend⟩
      · exact hend.growsPlainly
      · exact (growsPlainly_gwSet s₁ false).trans hend.growsPlainly
    obtain ⟨tail', hplain', hlog⟩ := hrest
    refine ⟨tail ++ tail', ?_, ?_⟩
    · intro e he
      rcases List.mem_append.mp he with he | he
      · exact hplain e he
      · exact hplain' e he
    · rw [hlog, deliver_log, hrelease, if_pos hok]
      simp [Session.note, hsame.log]

/-- `g_show` and `g_armed`. -/
def flags (s : Session) : Bool × Bool := (s.gShow, s.gArmed)

theorem SameDisplay.flags (h : SameDisplay s s') : Stream.flags s' = Stream.flags s :=
  Prod.ext h.gShow h.gArmed

/-- What a signal does to them. -/
def receiveFlags : Bool × Bool → Signal → Bool × Bool
  | _, .usr1 => (true, false)
  | (_, armed), .usr2 => (false, armed)

theorem deliver_flags (s : Session) (signals : List Signal) :
    flags (s.deliver signals) = signals.foldl receiveFlags (flags s) := by
  induction signals generalizing s with
  | nil => rfl
  | cons sig signals ih =>
    refine (ih (s.receive sig)).trans ?_
    cases sig <;> rfl

theorem deliver_setup (s : Session) (signals : List Signal) :
    (s.deliver signals).bufs = s.bufs ∧ (s.deliver signals).phase = s.phase := by
  have hstill := still_deliver s signals
  exact ⟨hstill.bufs, hstill.phase⟩

theorem deliver_ovGwOn (s : Session) (signals : List Signal) :
    (s.deliver signals).ovGwOn = s.ovGwOn := by
  induction signals generalizing s with
  | nil => rfl
  | cons sig signals ih =>
    refine (ih (s.receive sig)).trans ?_
    cases sig <;> rfl

theorem coolDown_ovGwOn (s : Session) : (coolDown s).ovGwOn = s.ovGwOn := by
  unfold coolDown
  split <;> rfl

theorem renderPipelined_ovGwOn (c : Config) (t : Turn) (s : Session) :
    (renderPipelined c t s).ovGwOn = s.ovGwOn := by
  unfold renderPipelined
  simp only
  split_ifs <;> rfl

/-- What a turn has done when the frame is started. -/
structure Started (c : Config) (s : Session) (t : Turn) (s₁ : Session) : Prop where
  log : s₁.log = s.log ++
    .startFrame :: (if rendersPipelined c s t then [.render s.pendingIdx false] else [])
  renderedPending : s₁.renderedPending = (rendersPipelined c s t && t.pipelined.ok)
  pendingIdx : s₁.pendingIdx = s.pendingIdx
  pendingDisplay : s₁.pendingDisplay = s.pendingDisplay
  flags : flags s₁ = (t.signals 0 ++ t.signals 1).foldl receiveFlags (flags s)
  bufs : s₁.bufs = s.bufs
  phase : s₁.phase = s.phase
  ovGwOn : s₁.ovGwOn = s.ovGwOn

theorem startTurn_started (c : Config) (s : Session) (t : Turn) (h : startsFrame c s t = true) :
    Started c s t (startTurn c s t).1 := by
  obtain ⟨s₀, hsame, hstart | hstart⟩ := startTurn_display c s t
  · -- The turn ended before the frame, which `h` excludes.
    unfold startsFrame at h
    rw [hstart] at h
    cases h
  -- Signals and the cooldown come in between; neither touches what is pending.
  obtain ⟨hidx, hdisp, -, hpp, hpipe, hcool⟩ := deliver_pending s (t.signals 0)
  obtain ⟨hidx₁, hdisp₁, -, hpp₁, hpipe₁, -⟩ := deliver_pending (s₀.note .startFrame) (t.signals 1)
  obtain ⟨hidx₂, hdisp₂, hpp₂, hlog₂, hshow₂, harmed₂, hbufs₂, hphase₂⟩ :=
    coolDown_pending (s.deliver (t.signals 0))
  have hpend : ((s₀.note .startFrame).deliver (t.signals 1)).pendingIdx = s.pendingIdx :=
    hidx₁.trans (hsame.pendingIdx.trans (hidx₂.trans hidx))
  have hpendDisp :
      ((s₀.note .startFrame).deliver (t.signals 1)).pendingDisplay = s.pendingDisplay :=
    hdisp₁.trans (hsame.pendingDisplay.trans (hdisp₂.trans hdisp))
  have hrenders : pipelines c ((s₀.note .startFrame).deliver (t.signals 1)) =
      rendersPipelined c s t := by
    have hppOk : ((s₀.note .startFrame).deliver (t.signals 1)).ppOk = s.ppOk :=
      hpp₁.trans (hsame.ppOk.trans (hpp₂.trans hpp))
    have hpipeOk : ((s₀.note .startFrame).deliver (t.signals 1)).ppPipelineOk =
        (coolDown s).ppPipelineOk := by
      rw [hpipe₁]
      refine hsame.ppPipelineOk.trans ?_
      rw [coolDown_ppPipelineOk, coolDown_ppPipelineOk, hpipe, hcool]
    unfold pipelines rendersPipelined
    rw [queued_congr c hpend hpendDisp, h, hppOk, hpipeOk, Bool.true_and]
  obtain ⟨hlog, hrendered, hidx₃, hdisp₃, hshow₃, harmed₃, hbufs₃, hphase₃⟩ :=
    renderPipelined_spec c t ((s₀.note .startFrame).deliver (t.signals 1))
  obtain ⟨hbufs, hphase⟩ := deliver_setup s (t.signals 0)
  obtain ⟨hbufs₁, hphase₁⟩ := deliver_setup (s₀.note .startFrame) (t.signals 1)
  rw [hstart]
  refine ⟨?_, ?_, hidx₃.trans hpend, hdisp₃.trans hpendDisp, ?_, ?_, ?_, ?_⟩
  · have hs₀ : (s₀.note .startFrame).log = s.log ++ [.startFrame] := by
      simp [Session.note, hsame.log, hlog₂]
    rw [hlog, hrenders, hpend, deliver_log, hs₀]
    simp
  · rw [hrendered, hrenders]
  · have hflags : flags (s₀.note .startFrame) = flags (s.deliver (t.signals 0)) := by
      unfold flags
      exact Prod.ext (hsame.gShow.trans hshow₂) (hsame.gArmed.trans harmed₂)
    calc flags (renderPipelined c t ((s₀.note .startFrame).deliver (t.signals 1)))
        = flags ((s₀.note .startFrame).deliver (t.signals 1)) := Prod.ext hshow₃ harmed₃
      _ = (t.signals 1).foldl receiveFlags (flags (s.deliver (t.signals 0))) := by
          rw [deliver_flags, hflags]
      _ = (t.signals 0 ++ t.signals 1).foldl receiveFlags (flags s) := by
          rw [deliver_flags, List.foldl_append]
  · exact hbufs₃.trans (hbufs₁.trans (hsame.bufs.trans (hbufs₂.trans hbufs)))
  · exact hphase₃.trans (hphase₁.trans (hsame.phase.trans (hphase₂.trans hphase)))
  · calc (renderPipelined c t ((s₀.note .startFrame).deliver (t.signals 1))).ovGwOn
        = ((s₀.note .startFrame).deliver (t.signals 1)).ovGwOn := renderPipelined_ovGwOn c t _
      _ = s₀.ovGwOn := deliver_ovGwOn _ _
      _ = (coolDown (s.deliver (t.signals 0))).ovGwOn := hsame.ovGwOn
      _ = (s.deliver (t.signals 0)).ovGwOn := coolDown_ovGwOn _
      _ = s.ovGwOn := deliver_ovGwOn s _

theorem Started.same {c : Config} {s s₁ s₂ : Session} {t : Turn} (h : Started c s t s₁)
    (hsame : SameDisplay s₁ s₂) : Started c s t s₂ :=
  ⟨hsame.log.trans h.log, hsame.renderedPending.trans h.renderedPending,
    hsame.pendingIdx.trans h.pendingIdx, hsame.pendingDisplay.trans h.pendingDisplay,
    hsame.flags.trans h.flags, hsame.bufs.trans h.bufs, hsame.phase.trans h.phase,
    hsame.ovGwOn.trans h.ovGwOn⟩

theorem Started.wait {c : Config} {s s₁ : Session} {t : Turn} (h : Started c s t s₁)
    (busy : List BusyTurn) : Started c s t (busyWait c busy s₁).1 :=
  h.same (sameDisplay_busyWait c busy s₁)

/-- The ways through a turn. -/
inductive TurnWay (c : Config) (s : Session) (t : Turn) (s' : Session) : Prop
  | notStarted (s₀ : Session) (starts : startsFrame c s t = false)
      (same : SameDisplay (coolDown (s.deliver (t.signals 0))) s₀) (eq : s' = disconnect c s₀)
  | noOutput (s₂ : Session) (starts : startsFrame c s t = true) (gets : getsOutput c s t = false)
      (started : Started c s t s₂) (eq : s' = disconnect c s₂)
  | handled (s₂ : Session) (starts : startsFrame c s t = true) (gets : getsOutput c s t = true)
      (started : Started c s t s₂)
      (output : (vpuDecGetOutputInfo s₂.vpu s₂.h true).2 = .success)
      (eq : s' = (finishTurn c s₂ t).1 ∨ s' = disconnect c (finishTurn c s₂ t).1)

theorem decodeTurn_way (c : Config) (s : Session) (t : Turn) :
    TurnWay c s t (decodeTurn c s t) := by
  cases hstarts : startsFrame c s t with
  | false =>
    obtain ⟨s₀, hsame, hstart | hstart⟩ := startTurn_display c s t
    · refine .notStarted s₀ hstarts hsame ?_
      unfold decodeTurn
      rw [hstart]
      rfl
    · unfold startsFrame at hstarts
      rw [hstart] at hstarts
      cases hstarts
  | true =>
    have hwait := (startTurn_started c s t hstarts).wait (t.busy.take 31)
    have hturn : decodeTurn c s t =
        if (afterWait c s t).2 then disconnect c (afterWait c s t).1
        else if (finishTurn c (afterWait c s t).1 t).2 then (finishTurn c (afterWait c s t).1 t).1
        else disconnect c (finishTurn c (afterWait c s t).1 t).1 := by
      unfold startsFrame at hstarts
      unfold decodeTurn afterWait
      simp only [hstarts, if_true]
    have hgets : getsOutput c s t = (!(afterWait c s t).2 &&
        decide ((vpuDecGetOutputInfo (afterWait c s t).1.vpu (afterWait c s t).1.h true).2 =
          .success)) := by
      unfold getsOutput
      rw [hstarts, Bool.true_and]
    change Started c s t (afterWait c s t).1 at hwait
    generalize afterWait c s t = waited at hwait hturn hgets
    obtain ⟨s₂, gone⟩ := waited
    simp only at hwait hturn hgets
    -- The peer may have closed during the wait.
    cases gone with
    | true => exact .noOutput s₂ hstarts (by simpa using hgets) hwait (by simpa using hturn)
    | false =>
      simp only [Bool.false_eq_true, if_false, Bool.not_false, Bool.true_and] at hturn hgets
      by_cases hok : (vpuDecGetOutputInfo s₂.vpu s₂.h true).2 = .success
      · refine .handled s₂ hstarts (by simpa [hok] using hgets) hwait hok ?_
        rw [hturn]
        split
        · exact .inl rfl
        · exact .inr rfl
      · obtain ⟨s₃, hsame, ⟨-, heq⟩ | ⟨hok', -⟩⟩ := finishTurn_display c s₂ t
        · rw [heq] at hturn
          exact .noOutput s₃ hstarts (by simpa [hok] using hgets) (hwait.same hsame) hturn
        · exact absurd hok' hok

/-- **The calls of a turn.** -/
theorem decodeTurn_log (c : Config) (s : Session) (t : Turn) :
    ∃ tail, (∀ e ∈ tail, Event.isPlain e = true) ∧
      (decodeTurn c s t).log = s.log ++ turnEvents c s t ++ tail := by
  unfold turnEvents
  rcases decodeTurn_way c s t with ⟨s₀, hstarts, hsame, heq⟩ | ⟨s₂, hstarts, hgets, hst, heq⟩ |
    ⟨s₂, hstarts, hgets, hst, hok, heq⟩
  · obtain ⟨tail, hplain, hlog⟩ := growsPlainly_disconnect c s₀
    have hsame_log : s₀.log = s.log := by
      rw [hsame.log, (coolDown_pending _).2.2.2.1, deliver_log]
    refine ⟨tail, hplain, ?_⟩
    rw [heq, hlog, hsame_log, hstarts]
    simp
  · obtain ⟨tail, hplain, hlog⟩ := growsPlainly_disconnect c s₂
    refine ⟨tail, hplain, ?_⟩
    rw [heq, hlog, hst.log, hstarts, hgets]
    simp
  · obtain ⟨tail, hplain, hlog⟩ := finishTurn_log c s₂ t
    have hseq : (queued c s₂ && !s₂.renderedPending) = rendersSequential c s t := by
      unfold rendersSequential
      rw [queued_congr c hst.pendingIdx hst.pendingDisplay, hst.renderedPending, hgets,
        Bool.true_and]
    have hrest : GrowsPlainly (finishTurn c s₂ t).1 (decodeTurn c s t) := by
      rcases heq with heq | heq
      · rw [heq]
        exact GrowsPlainly.refl _
      · rw [heq]
        exact growsPlainly_disconnect c _
    obtain ⟨tail', hplain', hlog'⟩ := hrest
    refine ⟨tail ++ tail', ?_, ?_⟩
    · intro e he
      rcases List.mem_append.mp he with he | he
      · exact hplain e he
      · exact hplain' e he
    · rw [hlog', hlog, hst.log, hst.pendingIdx, hseq, hstarts, hgets, if_pos hok]
      simp

/-! ## The flags after a turn -/

/-- The picture of an output is one of the registered frames. -/
def displays (s : Session) (t : Turn) : Bool :=
  decide (0 ≤ t.oi.indexFrameDisplay ∧ t.oi.indexFrameDisplay < s.fbcount)

/-- What the display of a picture does to `g_show` and `g_armed`. -/
def displayFlags (t : Turn) (f : Bool × Bool) : Bool × Bool :=
  (f.1, f.2 || (f.1 && decide (t.oi.picType = 0)))

theorem releasePending_spec (c : Config) (t : Turn) (s : Session) :
    ¬ 0 ≤ (releasePending c t s).pendingIdx ∧ flags (releasePending c t s) = flags s ∧
      (releasePending c t s).bufs = s.bufs ∧ (releasePending c t s).phase = s.phase := by
  unfold releasePending
  simp only
  split
  · refine ⟨?_, ?_⟩
    · simp
    · split <;> exact ⟨rfl, rfl, rfl⟩
  · rename_i hidx
    exact ⟨hidx, rfl, rfl, rfl⟩

theorem armOutput_fields (c : Config) (t : Turn) (s : Session) :
    flags (armOutput c t s) = displayFlags t (flags s) ∧
      (armOutput c t s).pendingIdx = s.pendingIdx ∧ (armOutput c t s).bufs = s.bufs ∧
      (armOutput c t s).phase = s.phase := by
  rcases armOutput_spec c t s with heq | ⟨on, heq⟩
  · rw [heq]
    exact ⟨rfl, rfl, rfl, rfl⟩
  · rw [heq]
    exact ⟨rfl, rfl, rfl, rfl⟩

/-- A frame is queued only while the gate is open. -/
theorem display_spec (c : Config) (t : Turn) (s : Session) (hidx : ¬ 0 ≤ s.pendingIdx) :
    flags (display c t s) = (if displays s t then displayFlags t (flags s) else flags s) ∧
      (queued c (display c t s) = true →
        displays s t = true ∧ flags (display c t s) = (true, true)) ∧
      (display c t s).bufs = s.bufs ∧ (display c t s).phase = s.phase := by
  obtain ⟨hflags, hpend, hbufs, hphase⟩ := armOutput_fields c t s
  unfold display displays
  simp only [decide_eq_true_eq]
  split
  · rename_i hrange
    split
    · rename_i hmode
      refine ⟨hflags, ?_, hbufs, hphase⟩
      intro hq
      simp [queued, hmode] at hq
    split
    · rename_i hopen
      exact ⟨hflags, fun _ => ⟨hrange, Prod.ext hopen.1 hopen.2⟩, hbufs, hphase⟩
    · refine ⟨hflags, ?_, hbufs, hphase⟩
      intro hq
      simp [queued, Session.clrDispFlag, Session.note, hpend, hidx] at hq
  · refine ⟨rfl, ?_, rfl, rfl⟩
    intro hq
    simp [queued, hidx] at hq

theorem disconnect_spec (c : Config) (s : Session) :
    flags (disconnect c s) = flags s ∧
      ((disconnect c s).phase = .waiting ∨ (disconnect c s).phase = .exited) := by
  have hpending : flags (clearPending s) = flags s := by
    unfold clearPending
    split <;> rfl
  have hphase : ∀ (x : Session) (restart : Bool), (drop x restart).phase = .waiting ∨
      (drop x restart).phase = .exited := by
    intro x restart
    cases restart
    · exact .inl rfl
    · exact .inr rfl
  unfold disconnect
  refine ⟨?_, hphase _ _⟩
  simp only
  split
  · exact hpending
  · exact hpending

/-- The signals that arrive in a turn before its output is displayed. -/
def turnSignals (t : Turn) : List Signal :=
  t.signals 0 ++ t.signals 1 ++ t.signals 2 ++ t.signals 3

/-- What a turn does to the flags and the queue. -/
structure TurnFlags (c : Config) (s : Session) (t : Turn) (s' : Session) : Prop where
  flags : flags s' =
    if startsFrame c s t then
      if getsOutput c s t then
        (if displays s t then
          displayFlags t ((turnSignals t).foldl receiveFlags (flags s))
        else (turnSignals t).foldl receiveFlags (flags s))
      else (t.signals 0 ++ t.signals 1).foldl receiveFlags (flags s)
    else (t.signals 0).foldl receiveFlags (flags s)
  queue : s'.phase = .decoding → queued c s' = true →
    startsFrame c s t = true ∧ getsOutput c s t = true ∧ displays s t = true ∧
      Stream.flags s' = (true, true)
  phase : s'.phase = .decoding ∨ s'.phase = .waiting ∨ s'.phase = .exited

/-- The flags and the queue when a turn has handled its output. -/
theorem finishTurn_flags (c : Config) (s : Session) (t : Turn)
    (hok : (vpuDecGetOutputInfo s.vpu s.h true).2 = .success) :
    flags (finishTurn c s t).1 =
        (if displays s t then
          displayFlags t ((t.signals 2 ++ t.signals 3).foldl receiveFlags (flags s))
        else (t.signals 2 ++ t.signals 3).foldl receiveFlags (flags s)) ∧
      (queued c (finishTurn c s t).1 = true →
        displays s t = true ∧ flags (finishTurn c s t).1 = (true, true)) ∧
      (finishTurn c s t).1.phase = s.phase := by
  obtain ⟨s₀, hsame, ⟨hfail, -⟩ | ⟨-, s₁, hdisplay, hend⟩⟩ := finishTurn_display c s t
  · exact absurd hok hfail
  obtain ⟨hidx, hflags, hbufs, hphase⟩ :=
    releasePending_spec c t ((s₀.note (.output t.oi)).deliver (t.signals 2))
  obtain ⟨hbufs₂, hphase₂⟩ := deliver_setup (s₀.note (.output t.oi)) (t.signals 2)
  generalize hr : releasePending c t ((s₀.note (.output t.oi)).deliver (t.signals 2)) = r
    at hidx hflags hbufs hphase
  obtain ⟨hbufs₃, hphase₃⟩ := deliver_setup r (t.signals 3)
  obtain ⟨hidx₃, -⟩ := deliver_pending r (t.signals 3)
  obtain ⟨hshown, hqueue, -, hphase₄⟩ := display_spec c t (r.deliver (t.signals 3))
    (by rw [hidx₃]; exact hidx)
  have hin : displays (r.deliver (t.signals 3)) t = displays s t := by
    unfold displays Session.fbcount
    rw [hbufs₃, hbufs, hbufs₂]
    exact congrArg (fun b => decide (0 ≤ t.oi.indexFrameDisplay ∧
      t.oi.indexFrameDisplay < (Option.map Buffers.fbcount b).getD 0)) hsame.bufs
  have hbefore : flags (r.deliver (t.signals 3)) =
      (t.signals 2 ++ t.signals 3).foldl receiveFlags (flags s) := by
    have hnote : flags (s₀.note (.output t.oi)) = flags s := hsame.flags
    rw [deliver_flags, hflags, deliver_flags, hnote, List.foldl_append]
  rw [hin, hbefore] at hshown
  rw [hin] at hqueue
  -- what follows the display changes none of it
  have hlast : flags (finishTurn c s t).1 = flags (atDisplay c t s₀) ∧
      queued c (finishTurn c s t).1 = queued c (atDisplay c t s₀) ∧
      (finishTurn c s t).1.phase = (atDisplay c t s₀).phase := by
    rcases hend with hend | ⟨-, hend⟩
    · have hall := hdisplay.trans hend
      exact ⟨hall.flags, queued_congr c hall.pendingIdx hall.pendingDisplay, hall.phase⟩
    · refine ⟨hend.flags.trans hdisplay.flags, ?_, hend.phase.trans hdisplay.phase⟩
      exact queued_congr c (hend.pendingIdx.trans hdisplay.pendingIdx)
        (hend.pendingDisplay.trans hdisplay.pendingDisplay)
  have hat : atDisplay c t s₀ = display c t (r.deliver (t.signals 3)) := by
    unfold atDisplay
    rw [hr]
  rw [hlast.1, hlast.2.1, hlast.2.2, hat]
  refine ⟨hshown, hqueue, ?_⟩
  calc (display c t (r.deliver (t.signals 3))).phase
      = (r.deliver (t.signals 3)).phase := hphase₄
    _ = r.phase := hphase₃
    _ = ((s₀.note (.output t.oi)).deliver (t.signals 2)).phase := hphase
    _ = (s₀.note (.output t.oi)).phase := hphase₂
    _ = s.phase := hsame.phase

/-- **The flags after a turn.** -/
theorem decodeTurn_flags (c : Config) (s : Session) (t : Turn) (hphase : s.phase = .decoding) :
    TurnFlags c s t (decodeTurn c s t) := by
  -- a turn that leaves the loop keeps the flags and queues nothing
  have hleft : ∀ {s' : Session}, (disconnect c s').phase ≠ .decoding := by
    intro s'
    rcases (disconnect_spec c s').2 with hph | hph <;> simp [hph]
  rcases decodeTurn_way c s t with ⟨s₀, hstarts, hsame, heq⟩ | ⟨s₂, hstarts, hgets, hst, heq⟩ |
    ⟨s₂, hstarts, hgets, hst, hok, heq⟩
  · rw [heq]
    refine ⟨?_, fun hdec => absurd hdec hleft, .inr (disconnect_spec c s₀).2⟩
    obtain ⟨-, -, -, -, hshow, harmed, -⟩ := coolDown_pending (s.deliver (t.signals 0))
    have hcool : flags (coolDown (s.deliver (t.signals 0))) = flags (s.deliver (t.signals 0)) :=
      Prod.ext hshow harmed
    rw [(disconnect_spec c s₀).1, hsame.flags, hcool, deliver_flags, hstarts]
    rfl
  · rw [heq]
    refine ⟨?_, fun hdec => absurd hdec hleft, .inr (disconnect_spec c s₂).2⟩
    rw [(disconnect_spec c s₂).1, hst.flags, hstarts, hgets]
    rfl
  · obtain ⟨hflags, hqueue, hph⟩ := finishTurn_flags c s₂ t hok
    have hin : displays s₂ t = displays s t := by
      unfold displays Session.fbcount
      rw [hst.bufs]
    have hall : flags (finishTurn c s₂ t).1 =
        if displays s t then displayFlags t ((turnSignals t).foldl receiveFlags (flags s))
        else (turnSignals t).foldl receiveFlags (flags s) := by
      have hsignals : (t.signals 2 ++ t.signals 3).foldl receiveFlags (flags s₂) =
          (turnSignals t).foldl receiveFlags (flags s) := by
        unfold turnSignals
        rw [hst.flags, ← List.foldl_append, List.append_assoc, List.append_assoc,
          List.append_assoc]
      rw [hflags, hin, hsignals]
    rw [hin] at hqueue
    rcases heq with heq | heq
    · rw [heq]
      refine ⟨?_, ?_, .inl ?_⟩
      · rw [hall, hstarts, hgets]
        rfl
      · intro _ hq
        exact ⟨hstarts, hgets, hqueue hq⟩
      · rw [hph, hst.phase, hphase]
    · rw [heq]
      refine ⟨?_, fun hdec => absurd hdec hleft, .inr (disconnect_spec c _).2⟩
      rw [(disconnect_spec c _).1, hall, hstarts, hgets]
      rfl

end Calls

end Stream
end ToonVpu
