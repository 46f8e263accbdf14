import ToonVpu.Foundation.Runs

/-!
# FrameWait — waiting for the BIT processor (`VPU_IOC_WAIT4INT`, `vpu_irq_handler`)

The decode loop starts a frame and waits in rounds: it reads the busy flag, and while the flag is set
it sleeps in the driver until `codec_done` or for 40 ms.  The processor clears the flag when it is done
and raises its interrupt; `vpu_irq_handler` sets `codec_done`, and the wait that sees it clears it
again.  Thread, processor and handler take turns in any order, and an interrupt may come late, in the
wait for a later frame.

A wait is entered, sleeps, is seen by the condition and answered in separate steps, as the handler can
run between any two of them.  What the rounds feed to the ring is left out.  A wait whose time is over
may fail although `codec_done` is set by then: kernels differ in whether they test it once more.  The
processor raises one interrupt each time that its flag falls, also when a frame was started over an
unfinished one.
-/

namespace ToonVpu
namespace Stream

open Foundation.Runs

/-! ## The thread, the processor and the handler -/

/-- Where the thread is; `i` rounds of the wait are behind it. -/
inductive WaitPc
  /-- Before `vpu_DecStartOneFrame`. -/
  | turn
  /-- At `vpu_IsBusy`. -/
  | check (i : ℕ)
  /-- At the first test of `wait_event_interruptible_timeout`. -/
  | enter (i : ℕ)
  | asleep (i : ℕ)
  /-- `codec_done` was seen to be set. -/
  | seen (i : ℕ)
  /-- At `codec_done = 0`. -/
  | clear (i : ℕ)
  /-- `vpu_WaitForInt` has returned. -/
  | answered (i : ℕ) (ok : Bool)
  /-- At `vpu_DecGetOutputInfo`. -/
  | output
  /-- At `disc`. -/
  | disc
  deriving DecidableEq, Repr

/-- What comes between: the time is over, a signal arrives, after which the call is made again or not,
or the peer has closed. -/
inductive WaitChance
  | none
  | timeout
  | signal (restart : Bool)
  | closed
  deriving DecidableEq, Repr

/-- `onWay`: the interrupt is raised, and the handler has not run yet.  The counters are there to be
talked about: of the waits for the present frame, those that succeeded, that ran out of time and that
a signal broke off, and those that were answered when the frame was done. -/
structure FrameWait where
  busy : Bool
  onWay : Bool
  codecDone : Bool
  pc : WaitPc
  woken : ℕ
  timedOut : ℕ
  broken : ℕ
  late : ℕ
  deriving DecidableEq, Repr

inductive WaitAct
  | thread (c : WaitChance)
  /-- The processor is done. -/
  | finish
  | irq
  deriving DecidableEq, Repr

namespace FrameWait

/-- `PIC_RUN` is issued. -/
def start (s : FrameWait) : FrameWait :=
  { s with busy := true, pc := .check 0, woken := 0, timedOut := 0, broken := 0, late := 0 }

/-- The wait is answered. -/
def answer (s : FrameWait) (i : ℕ) (ok : Bool) : FrameWait :=
  { s with pc := .answered i ok, late := s.late + (!s.busy).toNat }

/-- A signal ends the wait, or starts it over. -/
def interrupt (s : FrameWait) (i : ℕ) (restart : Bool) : FrameWait :=
  if restart then { s with pc := .enter i } else { s with broken := s.broken + 1 }.answer i false

def thread (s : FrameWait) (c : WaitChance) : FrameWait :=
  match s.pc with
  | .turn => s.start
  | .check i => { s with pc := if s.busy then .enter i else .output }
  | .enter i => { s with pc := if s.codecDone then .seen i else .asleep i }
  | .asleep i =>
    match c with
    | .timeout => { s with timedOut := s.timedOut + 1 }.answer i false
    | .signal restart => s.interrupt i restart
    | _ => { s with pc := if s.codecDone then .seen i else .asleep i }
  | .seen i =>
    match c with
    | .signal restart => s.interrupt i restart
    | _ => { s with pc := .clear i }
  | .clear i => { s with codecDone := false, woken := s.woken + 1 }.answer i true
  | .answered i ok =>
    -- A wait that has failed feeds the ring, and `feed` may find that the peer has closed.
    if ok = false ∧ c = .closed then
      { s with pc := .disc }
    else
      { s with pc := if 30 < i + 1 then .output else .check (i + 1) }
  | .output => { s with pc := .turn }
  | .disc => { s with pc := .turn }

def step (s : FrameWait) : WaitAct → FrameWait
  | .thread c => s.thread c
  | .finish => if s.busy then { s with busy := false, onWay := true } else s
  /- `vpu_irq_handler` -/
  | .irq => if s.onWay then { s with onWay := false, codecDone := true } else s

/-- Before the first frame; whether interrupts are left over from before is open. -/
def init (onWay codecDone : Bool) : FrameWait := ⟨false, onWay, codecDone, .turn, 0, 0, 0, 0⟩

end FrameWait

/-! ## What the waits keep -/

/-- The round that the thread is in. -/
def WaitPc.round : WaitPc → Option ℕ
  | .check i | .enter i | .asleep i | .seen i | .clear i | .answered i _ => some i
  | _ => none

/-- The wait of this round is over. -/
def WaitPc.ended : WaitPc → Bool
  | .answered _ _ => true
  | _ => false

/-- In the wait, which has not seen `codec_done`. -/
def WaitPc.waits : WaitPc → Bool
  | .enter _ | .asleep _ => true
  | _ => false

/-- In the wait, which has seen it. -/
def WaitPc.sees : WaitPc → Bool
  | .seen _ | .clear _ => true
  | _ => false

structure FrameWait.Inv (s : FrameWait) : Prop where
  counted : ∀ i, s.pc.round = some i →
    s.woken + s.timedOut + s.broken = i + s.pc.ended.toNat ∧ i ≤ 30
  sees : s.pc.sees = true → s.codecDone = true ∧ s.late = 0
  waits : s.pc.waits = true →
    (s.busy = true ∨ s.onWay = true ∨ s.codecDone = true) ∧ s.late = 0
  /-- Two interrupts may be left over, and the frame raises one. -/
  paid : s.woken + s.onWay.toNat + s.codecDone.toNat ≤ 2 + (!s.busy).toNat
  late : s.late ≤ (!s.busy).toNat
  output : s.pc = .output → s.busy = true → s.woken + s.timedOut + s.broken = 31

namespace FrameWait

variable {s : FrameWait}

theorem Inv.init (onWay codecDone : Bool) : (init onWay codecDone).Inv := by
  constructor
  all_goals simp [FrameWait.init, WaitPc.round, WaitPc.sees, WaitPc.waits]
  cases onWay <;> cases codecDone <;> decide

theorem Inv.start (s : FrameWait) : s.start.Inv := by
  have hleft : s.onWay.toNat + s.codecDone.toNat ≤ 2 :=
    Nat.add_le_add (Bool.toNat_le _) (Bool.toNat_le _)
  constructor
  all_goals simp [FrameWait.start, WaitPc.round, WaitPc.ended, WaitPc.sees, WaitPc.waits]
  exact hleft

/-- A wait ends with an answer. -/
theorem Inv.answer {i : ℕ} {ok : Bool} (hcount : s.woken + s.timedOut + s.broken = i + 1)
    (hi : i ≤ 30) (hlate : s.late = 0)
    (hpaid : s.woken + s.onWay.toNat + s.codecDone.toNat ≤ 2 + (!s.busy).toNat) :
    (s.answer i ok).Inv := by
  refine ⟨fun j hj => ?_, fun h => ?_, fun h => ?_, hpaid, ?_, fun h => ?_⟩
  · obtain rfl := Option.some.inj hj
    exact ⟨hcount, hi⟩
  · cases h
  · cases h
  · simp [FrameWait.answer, hlate]
  · cases h

theorem Inv.interrupt (h : s.Inv) {i : ℕ} (hround : s.pc.round = some i)
    (hended : s.pc.ended = false)
    (hwaits : (s.busy = true ∨ s.onWay = true ∨ s.codecDone = true) ∧ s.late = 0)
    (restart : Bool) : (s.interrupt i restart).Inv := by
  obtain ⟨hcount, hi⟩ := h.counted i hround
  rw [hended] at hcount
  cases restart with
  | true =>
    refine ⟨fun j hj => ?_, fun h => ?_, fun _ => hwaits, h.paid, h.late, fun h => ?_⟩
    · obtain rfl := Option.some.inj hj
      exact ⟨hcount, hi⟩
    · cases h
    · cases h
  | false =>
    refine Inv.answer ?_ hi hwaits.2 h.paid
    simp only [Bool.toNat_false] at hcount
    simp only
    omega

/-- The thread goes on within a round. -/
theorem Inv.goOn (h : s.Inv) {i : ℕ} {pc : WaitPc} (hround : s.pc.round = some i)
    (hended : s.pc.ended = false) (hround' : pc.round = some i) (hended' : pc.ended = false)
    (hsees : pc.sees = true → s.codecDone = true ∧ s.late = 0)
    (hwaits : pc.waits = true →
      (s.busy = true ∨ s.onWay = true ∨ s.codecDone = true) ∧ s.late = 0) :
    Inv { s with pc := pc } := by
  refine ⟨fun j hj => ?_, hsees, hwaits, h.paid, h.late, fun hpc => ?_⟩
  · obtain ⟨hcount, hi⟩ := h.counted i hround
    obtain rfl := Option.some.inj (hround'.symm.trans hj)
    rw [hended] at hcount
    simp only [hended']
    exact ⟨hcount, hi⟩
  · simp only at hpc
    rw [hpc] at hround'
    cases hround'

/-- The thread leaves the wait. -/
theorem Inv.leave (h : s.Inv) {pc : WaitPc} (hround : pc.round = none)
    (hsees : pc.sees = false) (hwaits : pc.waits = false)
    (houtput : pc = .output → s.busy = true → s.woken + s.timedOut + s.broken = 31) :
    Inv { s with pc := pc } := by
  refine ⟨fun j hj => ?_, fun hin => ?_, fun hin => ?_, h.paid, h.late, houtput⟩
  · cases hround.symm.trans hj
  · cases hsees.symm.trans hin
  · cases hwaits.symm.trans hin

/-- The first test of the condition, and each test after a wake-up. -/
theorem Inv.test (h : s.Inv) {i : ℕ} (hround : s.pc.round = some i) (hended : s.pc.ended = false)
    (hwaits : (s.busy = true ∨ s.onWay = true ∨ s.codecDone = true) ∧ s.late = 0) :
    Inv { s with pc := if s.codecDone then .seen i else .asleep i } := by
  by_cases hdone : s.codecDone = true
  · rw [if_pos hdone]
    exact h.goOn hround hended rfl rfl (fun _ => ⟨hdone, hwaits.2⟩)
      fun hin => absurd hin Bool.false_ne_true
  · rw [if_neg hdone]
    exact h.goOn hround hended rfl rfl (fun hin => absurd hin Bool.false_ne_true) fun _ => hwaits

theorem Inv.thread (h : s.Inv) (c : WaitChance) : (s.thread c).Inv := by
  unfold FrameWait.thread
  cases hpc : s.pc with
  | turn => exact .start s
  | check i =>
    by_cases hbusy : s.busy = true
    · have hlate : s.late = 0 := by simpa [hbusy] using h.late
      simp only [if_pos hbusy]
      exact h.goOn (by rw [hpc]; rfl) (by rw [hpc]; rfl) rfl rfl
        (fun hin => absurd hin Bool.false_ne_true) fun _ => ⟨.inl hbusy, hlate⟩
    · simp only [if_neg hbusy]
      exact h.leave rfl rfl rfl fun _ htrue => absurd htrue hbusy
  | enter i => exact h.test (by rw [hpc]; rfl) (by rw [hpc]; rfl) (h.waits (by rw [hpc]; rfl))
  | asleep i =>
    have hround : s.pc.round = some i := by rw [hpc]; rfl
    have hended : s.pc.ended = false := by rw [hpc]; rfl
    have hwaits := h.waits (by rw [hpc]; rfl)
    cases c with
    | timeout =>
      obtain ⟨hcount, hi⟩ := h.counted i hround
      rw [hended, Bool.toNat_false] at hcount
      refine Inv.answer ?_ hi hwaits.2 h.paid
      simp only
      omega
    | signal restart => exact h.interrupt hround hended hwaits restart
    | none | closed => exact h.test hround hended hwaits
  | seen i =>
    have hround : s.pc.round = some i := by rw [hpc]; rfl
    have hended : s.pc.ended = false := by rw [hpc]; rfl
    have hsees := h.sees (by rw [hpc]; rfl)
    cases c with
    | signal restart =>
      exact h.interrupt hround hended ⟨.inr (.inr hsees.1), hsees.2⟩ restart
    | none | timeout | closed =>
      exact h.goOn hround hended rfl rfl (fun _ => hsees) fun hin => absurd hin Bool.false_ne_true
  | clear i =>
    -- the interrupt that is used up here was paid for
    obtain ⟨hcount, hi⟩ := h.counted i (by rw [hpc]; rfl)
    obtain ⟨hdone, hlate⟩ := h.sees (by rw [hpc]; rfl)
    have hpaid := h.paid
    rw [hpc] at hcount
    rw [hdone] at hpaid
    refine Inv.answer ?_ hi hlate ?_
    · simp only [WaitPc.ended, Bool.toNat_false] at hcount
      simp only
      omega
    · simp only [Bool.toNat_true, Bool.toNat_false] at hpaid ⊢
      omega
  | answered i ok =>
    obtain ⟨hcount, hi⟩ := h.counted i (by rw [hpc]; rfl)
    simp only [hpc, WaitPc.ended, Bool.toNat_true] at hcount
    simp only
    split
    · exact h.leave rfl rfl rfl fun hdisc => by cases hdisc
    · split
      · exact h.leave rfl rfl rfl fun _ _ => by omega
      · refine ⟨fun j hj => ?_, fun hin => absurd hin Bool.false_ne_true,
          fun hin => absurd hin Bool.false_ne_true, h.paid, h.late, fun hout => ?_⟩
        · obtain rfl := Option.some.inj hj
          simp only [WaitPc.ended, Bool.toNat_false]
          omega
        · cases hout
  | output => exact h.leave rfl rfl rfl fun hturn => by cases hturn
  | disc => exact h.leave rfl rfl rfl fun hturn => by cases hturn

theorem Inv.finish (h : s.Inv) : (s.step .finish).Inv := by
  simp only [FrameWait.step]
  split
  · rename_i hbusy
    have hlate : s.late = 0 := by simpa [hbusy] using h.late
    have hpaid := h.paid
    rw [hbusy] at hpaid
    refine ⟨h.counted, h.sees, fun hin => ⟨.inr (.inl rfl), hlate⟩, ?_, ?_, fun _ hfalse => ?_⟩
    · simp only [Bool.not_true, Bool.not_false, Bool.toNat_true, Bool.toNat_false] at hpaid ⊢
      omega
    · simp [hlate]
    · cases hfalse
  · exact h

theorem Inv.irq (h : s.Inv) : (s.step .irq).Inv := by
  simp only [FrameWait.step]
  split
  · rename_i hway
    have hpaid := h.paid
    rw [hway] at hpaid
    refine ⟨h.counted, fun hin => ⟨rfl, (h.sees hin).2⟩,
      fun hin => ⟨.inr (.inr rfl), (h.waits hin).2⟩, ?_, h.late, h.output⟩
    simp only [Bool.toNat_true, Bool.toNat_false] at hpaid ⊢
    omega
  · exact h

theorem Inv.step (h : s.Inv) (a : WaitAct) : (s.step a).Inv := by
  cases a with
  | thread c => exact h.thread c
  | finish => exact h.finish
  | irq => exact h.irq

end FrameWait

/-! ## No wake-up is missed -/

/-- What the waits for a frame come to. -/
structure FrameWait.MissesNothing (s : FrameWait) : Prop where
  /-- Who waits for a processor that is done is woken, or is about to be. -/
  wakes : s.pc.waits = true → s.busy = false → s.onWay = true ∨ s.codecDone = true
  /-- Not more than one wait is still to be answered when the frame is done. -/
  prompt : s.late ≤ 1
  /-- Interrupts of earlier frames wake two waits at most, and the one of the frame a third. -/
  woken : s.woken ≤ if s.busy then 2 else 3
  /-- The output of an unfinished frame is asked for after 29 waits that came to nothing. -/
  patient : s.pc = .output → s.busy = true → 29 ≤ s.timedOut + s.broken

theorem FrameWait.Inv.missesNothing {s : FrameWait} (h : s.Inv) : s.MissesNothing := by
  have hpaid := h.paid
  refine ⟨fun hin hidle => ?_, Nat.le_trans h.late (Bool.toNat_le _), ?_, fun hout hbusy => ?_⟩
  · exact (h.waits hin).1.resolve_left fun hbusy => by rw [hidle] at hbusy; cases hbusy
  · cases hbusy : s.busy <;> simp [hbusy] at hpaid ⊢ <;> omega
  · have hsum := h.output hout hbusy
    rw [hbusy] at hpaid
    simp only [Bool.not_true, Bool.toNat_false] at hpaid
    omega

/-- Whatever the thread, the processor and the handler do and in which order, over any number of
frames. -/
theorem frame_waits_miss_nothing (onWay codecDone : Bool) (acts : List WaitAct) (n : ℕ) :
    (stateAt FrameWait.step (FrameWait.init onWay codecDone) acts n).MissesNothing := by
  have hinv : (stateAt FrameWait.step (FrameWait.init onWay codecDone) acts n).Inv :=
    invariant_of_next (FrameWait.Inv.init onWay codecDone)
      (fun _ a h (_ : True) => h.step a) (fun _ _ _ _ => trivial) n
  exact hinv.missesNothing

/-- Two interrupts are left over: the processor works on the frame through both wake-ups. -/
example : (stateAt FrameWait.step (FrameWait.init true true)
    (List.replicate 6 (.thread .none) ++ .irq :: List.replicate 6 (.thread .none)) 13).woken = 2 := by
  decide

end Stream
end ToonVpu
