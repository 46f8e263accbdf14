import ToonVpu.Stream.SessionDisplay

/-!
# SessionLog — reading the log of a turn

The log of a session has the calls of a turn in their order.  A reader takes from it what it is
about: entry by entry, knowing whether a frame is being decoded (`walkLog`), or only the entries of
one kind (`readLog`).  For the second, this file says what each part of a turn adds.
-/

namespace ToonVpu
namespace Stream

open Lib

/-- The log of a turn from its start on; `decoding` says whether a frame is being decoded. -/
def walkLog {α : Type} (f : Bool → Event → List α) : Bool → List Event → List α
  | _, [] => []
  | _, .startFrame :: es => f true .startFrame ++ walkLog f true es
  | _, .output oi :: es => f false (.output oi) ++ walkLog f false es
  | decoding, e :: es => f decoding e ++ walkLog f decoding es

def Event.isOutput : Event → Bool
  | .output _ => true
  | _ => false

/-- The entries of the log that `f` takes. -/
def readLog {α : Type} (f : Event → Option α) (s : Session) : List α := s.log.filterMap f

section Reading

variable {α : Type} {f : Event → Option α} {c : Config} {s s' : Session} {t : Turn}

theorem walkLog_plain (g : Bool → Event → List α) (decoding : Bool) {es : List Event}
    (h : ∀ e ∈ es, Event.isPlain e = true) : walkLog g decoding es = es.flatMap (g decoding) := by
  induction es with
  | nil => rfl
  | cons e es ih =>
    have hrest := ih fun e he => h e (List.mem_cons_of_mem _ he)
    have hplain := h e List.mem_cons_self
    cases e with
    | startFrame | output _ | render _ _ => cases hplain
    | clear _ | graphicWindow _ | close => exact congrArg (_ ++ ·) hrest

/-- The log of a turn, from the branches it takes. -/
theorem walkLog_turnEvents (g : Bool → Event → List α) (s : Session) (t : Turn)
    {tail : List Event} (htail : ∀ e ∈ tail, Event.isPlain e = true)
    (hsame : ∀ decoding e, Event.isPlain e = true → g decoding e = g false e) :
    walkLog g false (turnEvents c s t ++ tail) =
      (if startsFrame c s t then
        g true .startFrame ++
          (if rendersPipelined c s t then g true (.render s.pendingIdx false) else []) ++
          (if getsOutput c s t then
            g false (.output t.oi) ++
              (if rendersSequential c s t then
                g false (.render s.pendingIdx (decide (c.codec ≠ .avc))) else [])
          else [])
      else []) ++ tail.flatMap (g false) := by
  have hend : ∀ decoding, walkLog g decoding tail = tail.flatMap (g false) := by
    intro decoding
    rw [walkLog_plain g decoding htail]
    exact List.flatMap_congr fun e he => hsame decoding e (htail e he)
  unfold turnEvents
  cases startsFrame c s t with
  | false => simp [hend]
  | true =>
    cases rendersPipelined c s t <;> cases getsOutput c s t <;> cases rendersSequential c s t <;>
      simp [walkLog, hend]

theorem turnEvents_isOutput (c : Config) (s : Session) (t : Turn) {tail : List Event}
    (htail : ∀ e ∈ tail, Event.isPlain e = true) :
    (turnEvents c s t ++ tail).any Event.isOutput = getsOutput c s t := by
  have hnone : tail.any Event.isOutput = false := by
    rw [List.any_eq_false]
    intro e he
    have hplain := htail e he
    cases e with
    | startFrame | output _ | render _ _ => cases hplain
    | clear _ | graphicWindow _ | close => simp [Event.isOutput]
  have hidle : startsFrame c s t = false → getsOutput c s t = false := by
    intro hstarts
    simp [getsOutput, hstarts]
  unfold turnEvents
  rw [List.any_append, hnone, Bool.or_false]
  cases hstarts : startsFrame c s t with
  | false => simp [hidle hstarts]
  | true =>
    cases rendersPipelined c s t <;> cases getsOutput c s t <;> cases rendersSequential c s t <;>
      simp [Event.isOutput]

theorem SameDisplay.readLog (h : SameDisplay s s') : readLog f s' = readLog f s := by
  unfold Stream.readLog
  rw [h.log]

@[simp] theorem readLog_deliver (s : Session) (signals : List Signal) :
    readLog f (s.deliver signals) = readLog f s := by
  unfold readLog
  rw [deliver_log]

theorem readLog_coolDown (s : Session) : readLog f (coolDown s) = readLog f s := by
  unfold readLog
  rw [(coolDown_pending s).2.2.2.1]

@[simp] theorem readLog_note (s : Session) (e : Event) :
    readLog f (s.note e) = readLog f s ++ (f e).toList := by
  unfold readLog Session.note
  rw [List.filterMap_append]
  cases h : f e <;> simp [h]

@[simp] theorem readLog_gwSet (s : Session) (on : Bool) :
    readLog f (s.gwSet on) = readLog f s ++ (f (.graphicWindow on)).toList :=
  readLog_note { s with ovGwOn := on } _

@[simp] theorem readLog_clrDispFlag (s : Session) (idx : ℤ) :
    readLog f (s.clrDispFlag idx) = readLog f s ++ (f (.clear idx)).toList :=
  readLog_note { s with vpu := (vpuDecClrDispFlag s.vpu s.h idx).1 } _

@[simp] theorem readLog_drop (s : Session) (restart : Bool) :
    readLog f (drop s restart) = readLog f s ++ (f .close).toList := by
  unfold drop Session.decClose
  exact readLog_note _ _

theorem readLog_disconnect (c : Config) (s : Session) :
    readLog f (disconnect c s) = readLog f s ++
      (if 0 ≤ s.pendingIdx then (f (.clear s.pendingIdx)).toList else []) ++
      (if c.overlay then (f (.graphicWindow false)).toList else []) ++ (f .close).toList := by
  have hpending : readLog f (clearPending s) = readLog f s ++
      (if 0 ≤ s.pendingIdx then (f (.clear s.pendingIdx)).toList else []) := by
    unfold clearPending
    split
    · exact readLog_clrDispFlag s s.pendingIdx
    · rw [List.append_nil]
  unfold disconnect
  simp only [readLog_drop]
  split
  · rw [readLog_gwSet, hpending]
  · rw [hpending, List.append_nil]

theorem readLog_releasePending (c : Config) (t : Turn) (s : Session)
    (hf : ∀ e, Event.isPlain e = false → f e = none) :
    readLog f (releasePending c t s) = readLog f s ++
      (if 0 ≤ s.pendingIdx then (f (.clear s.pendingIdx)).toList else []) := by
  unfold releasePending
  split
  · have hback : ∀ x : Session, readLog f x = readLog f s →
        readLog f { x.clrDispFlag s.pendingIdx with pendingIdx := -1, pendingDisplay := false } =
          readLog f s ++ (f (.clear s.pendingIdx)).toList := by
      intro x hx
      rw [← hx]
      exact readLog_clrDispFlag x s.pendingIdx
    split
    · refine hback _ ?_
      refine (readLog_note s _).trans ?_
      rw [hf _ rfl]
      exact List.append_nil _
    · exact hback s rfl
  · rw [List.append_nil]

/-- What the log gains in a turn, where `f` takes neither commands nor renders. -/
theorem readLog_decodeTurn (c : Config) (s : Session) (t : Turn)
    (hf : ∀ e, Event.isPlain e = false → f e = none) :
    ∃ tail, (∀ e ∈ tail, Event.isPlain e = true) ∧
      (decodeTurn c s t).log = s.log ++ turnEvents c s t ++ tail ∧
      readLog f (decodeTurn c s t) = readLog f s ++ tail.filterMap f := by
  obtain ⟨tail, hplain, hlog⟩ := decodeTurn_log c s t
  refine ⟨tail, hplain, hlog, ?_⟩
  have hnone : (turnEvents c s t).filterMap f = [] := by
    rw [List.filterMap_eq_nil_iff]
    intro e he
    apply hf
    unfold turnEvents at he
    cases e with
    | startFrame | output _ | render _ _ => rfl
    | clear _ | graphicWindow _ | close =>
      split_ifs at he <;> simp at he
  unfold readLog
  rw [hlog, List.filterMap_append, List.filterMap_append, hnone, List.append_nil]

theorem Started.readLog {s₁ : Session} (h : Started c s t s₁)
    (hf : ∀ e, Event.isPlain e = false → f e = none) : readLog f s₁ = readLog f s := by
  have hstart : f .startFrame = none := hf _ rfl
  have hrender : f (.render s.pendingIdx false) = none := hf _ rfl
  unfold Stream.readLog
  rw [h.log, List.filterMap_append]
  cases rendersPipelined c s t <;> simp [hstart, hrender]

end Reading

/-! ## Outside the decode loop -/

/-- What the display goes by was left alone. -/
structure SameWindow (s s' : Session) : Prop where
  gShow : s'.gShow = s.gShow
  ovGwOn : s'.ovGwOn = s.ovGwOn

/-- From `s` to `s'` no frame was touched: at most the decoder was closed, or a loop was entered
with nothing pending. -/
inductive Outside (s s' : Session) : Prop
  | same (log : s'.log = s.log) (phase : s'.phase ≠ .decoding) (window : SameWindow s s')
  | closed (log : s'.log = s.log ++ [.close]) (phase : s'.phase ≠ .decoding)
      (window : SameWindow s s')
  | entered (log : s'.log = []) (phase : s'.phase = .decoding) (idx : s'.pendingIdx = -1)
      (window : SameWindow s s')

theorem Outside.window {s s' : Session} (h : Outside s s') : SameWindow s s' := by
  rcases h with ⟨-, -, hwindow⟩ | ⟨-, -, hwindow⟩ | ⟨-, -, -, hwindow⟩ <;> exact hwindow

section Outside

variable {c : Config} {bs : BitstreamMem}

theorem drop_phase_ne (s : Session) (restart : Bool) : (drop s restart).phase ≠ .decoding := by
  cases restart <;> simp [drop]

theorem outside_drop {s : Session} (s' : Session) (restart : Bool) (h : s'.log = s.log)
    (hwindow : SameWindow s s') : Outside s (drop s' restart) := by
  refine .closed ?_ (drop_phase_ne s' restart) ⟨hwindow.gShow, hwindow.ovGwOn⟩
  rw [← h]
  rfl

theorem connect_outside (s : Session) (con : Connection) (hphase : s.phase = .waiting) :
    Outside s (connect c bs s con) := by
  have hopen : ∀ x : Session, x.phase = .waiting → x.log = s.log → SameWindow s x →
      Outside s (openDecoder c bs x con) := by
    intro x hx hlog hwindow
    unfold openDecoder
    simp only
    split
    · exact .same hlog (by simp [hx]) hwindow
    · split
      · exact .same hlog (by simp) ⟨hwindow.gShow, hwindow.ovGwOn⟩
      · exact .same hlog (by simp [hx]) ⟨hwindow.gShow, hwindow.ovGwOn⟩
  unfold connect
  refine hopen _ ?_ ?_ ?_
  · simp only
    split <;> exact hphase
  · simp only
    split <;> rfl
  · simp only
    split <;> exact ⟨rfl, rfl⟩

theorem primeTurn_outside (s : Session) (t : PrimeTurn) (hphase : s.phase = .priming) :
    Outside s (primeTurn c s t) ∧ (primeTurn c s t).phase ≠ .decoding := by
  have hsame : ∀ x : Session, x.phase = .priming → x.log = s.log → SameWindow s x →
      Outside s x ∧ x.phase ≠ .decoding := by
    intro x hx hlog hwindow
    have hne : x.phase ≠ .decoding := by simp [hx]
    exact ⟨.same hlog hne hwindow, hne⟩
  have htry : ∀ x : Session, x.phase = .priming → x.log = s.log → SameWindow s x →
      Outside s (tryInitialInfo x t.seq) ∧ (tryInitialInfo x t.seq).phase ≠ .decoding := by
    intro x hx hlog hwindow
    unfold tryInitialInfo
    simp only
    split <;> exact hsame _ hx hlog ⟨hwindow.gShow, hwindow.ovGwOn⟩
  have hdrop : ∀ (x : Session) (restart : Bool), x.log = s.log → SameWindow s x →
      Outside s (drop x restart) ∧ (drop x restart).phase ≠ .decoding :=
    fun x restart hlog hwindow => ⟨outside_drop x restart hlog hwindow, drop_phase_ne x restart⟩
  unfold primeTurn Session.rtpFeed
  simp only
  split
  · exact hsame s hphase rfl ⟨rfl, rfl⟩
  split
  · exact hdrop _ _ rfl ⟨rfl, rfl⟩
  split
  · split
    · exact hdrop _ _ rfl ⟨rfl, rfl⟩
    split
    · exact hsame _ hphase rfl ⟨rfl, rfl⟩
    · exact htry _ hphase rfl ⟨rfl, rfl⟩
  · split
    · exact hdrop _ _ rfl ⟨rfl, rfl⟩
    split
    · exact hsame _ hphase rfl ⟨rfl, rfl⟩
    · exact htry _ hphase rfl ⟨rfl, rfl⟩

theorem enterLoop_outside (s : Session) (e : Entry) (hphase : s.phase = .priming) :
    Outside s (enterLoop c s e) := by
  have hreg : ∀ (x : Session) (b : Buffers), x.log = s.log → SameWindow s x →
      Outside s (registerFrames c x b e) := by
    intro x b hlog hwindow
    unfold registerFrames
    simp only
    split
    · exact outside_drop _ _ hlog hwindow
    split
    · exact .entered rfl rfl rfl ⟨hwindow.gShow, hwindow.ovGwOn⟩
    · exact outside_drop _ _ hlog ⟨hwindow.gShow, hwindow.ovGwOn⟩
  unfold enterLoop
  simp only
  split
  · split
    · exact outside_drop _ _ rfl ⟨rfl, rfl⟩
    split
    · exact outside_drop _ _ rfl ⟨rfl, rfl⟩
    split
    · exact hreg _ _ rfl ⟨rfl, rfl⟩
    · split
      · exact .same rfl (by simp) ⟨rfl, rfl⟩
      · exact hreg _ _ rfl ⟨rfl, rfl⟩
  · exact .same rfl (by simp [hphase]) ⟨rfl, rfl⟩

end Outside

end Stream
end ToonVpu
