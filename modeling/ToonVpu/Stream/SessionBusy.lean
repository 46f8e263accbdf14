import ToonVpu.Foundation.Monitor
import ToonVpu.Foundation.Runs
import ToonVpu.Lib.Commands
import ToonVpu.Stream.SessionDisplay
import ToonVpu.Stream.SessionLock

/-!
# SessionBusy — one command at a time

A turn starts a frame and waits for the busy flag of the BIT processor to fall before it asks for the
output.  The wait gives up after 31 rounds, and ends early when the peer closes; what follows then
takes the frame for done.

The hardware is seen through what `vpu_IsBusy` reads in a turn, and, where a turn does not see the
flag fall, through whether the frame is done by some later place of the turn.
-/

namespace ToonVpu
namespace Stream

open Foundation
open Foundation.Monitor
open Foundation.Runs
open Lib

/-! ## What the processor sees -/

inductive BitMoment
  | issue (cmd : BitCommand)
  /-- The frame of the last `PIC_RUN` is done. -/
  | finish
  | readBusy (busy : Bool)
  | outputInfo
  deriving DecidableEq, Repr

/-- A turn, and at which of its numbered places an unfinished frame is done. -/
structure BitTurn where
  turn : Turn
  done : ℕ → Bool

/-- `plain` is for steps that are no turns; `done` says that an unfinished frame is done before. -/
inductive BitStep
  | plain (a : Step) (done : Bool)
  | turn (x : BitTurn)

def finishIf (done : Bool) : List BitMoment := if done then [.finish] else []

/-- The commands issued from `s` to `s'`. -/
def newCommands (s s' : Session) : List BitCommand :=
  (s'.vpu.issued.map Prod.snd).drop s.vpu.issued.length

/-- The rounds of the wait; `n` of them may still be made. -/
def waitMoments (c : Config) : ℕ → List BusyTurn → Session → List BitMoment
  | 0, _, _ => []
  | _ + 1, [], _ => [.finish, .readBusy false]
  | n + 1, b :: rest, s =>
    let s := busyRefill c b s
    .readBusy true ::
      (if b.timeout then
        let (s, fr) := busyFeed c b s
        if fr = 0 then []
        else waitMoments c n rest (if 0 < fr then { s with lastDataMs := b.now } else s)
      else waitMoments c n rest s)

/-- The commands up to the start of the frame. -/
def beginMoments (x : BitTurn) (cmds : List BitCommand) : List BitMoment :=
  finishIf (x.done 0) ++
    cmds.flatMap fun cmd => (if cmd = .picRun then finishIf (x.done 1) else []) ++ [.issue cmd]

/-- What the processor sees of a turn. -/
def bitMoments (c : Config) (s : Session) (x : BitTurn) : List BitMoment :=
  let t := x.turn
  let s₁ := (startTurn c s t).1
  beginMoments x (newCommands s s₁) ++
    (if startsFrame c s t then
      waitMoments c 31 t.busy s₁ ++ finishIf (x.done 2) ++
        (if (afterWait c s t).2 then [] else [.outputInfo]) ++ finishIf (x.done 3) ++
        (newCommands (afterWait c s t).1 (decodeTurn c s t)).map .issue
    else
      finishIf (x.done 3) ++ (newCommands s₁ (decodeTurn c s t)).map .issue)

/-- The program and what the processor has seen of it. -/
structure BitRun where
  session : Session
  trace : List BitMoment

def BitRun.step (c : Config) (bs : BitstreamMem) (r : BitRun) : BitStep → BitRun
  | .plain (.turn _) _ => r
  | .plain a done =>
    let s := Stream.step c bs r.session a
    ⟨s, r.trace ++ finishIf done ++ (newCommands r.session s).map .issue⟩
  | .turn x =>
    if r.session.phase = .decoding then
      ⟨decodeTurn c r.session x.turn, r.trace ++ bitMoments c r.session x⟩
    else
      r

def BitRun.init (warm : Bool) (v : Vpu) : BitRun := ⟨Session.init warm v, []⟩

/-! ## The protocol -/

/-- Whether a frame is being decoded, and whether the flag was read as `0` since it was started. -/
def bitNext : Bool × Bool → BitMoment → Bool × Bool
  | _, .issue .picRun => (true, false)
  | g, .issue _ => g
  | (_, seen), .finish => (false, seen)
  | (running, _), .readBusy false => (running, true)
  | g, .readBusy true => g
  | (running, _), .outputInfo => (running, false)

/-- A frame is started, the buffer flushed and the sequence ended only while no frame is decoded;
the output is asked for only after the flag was read as `0`. -/
def BitAllowed (g : Bool × Bool) : BitMoment → Prop
  | .issue .picRun | .issue .decBufFlush | .issue .seqEnd => g.1 = false
  | .outputInfo => g.2 = true
  | _ => True

instance (g : Bool × Bool) (m : BitMoment) : Decidable (BitAllowed g m) :=
  match m with
  | .issue .picRun | .issue .decBufFlush | .issue .seqEnd =>
    inferInstanceAs (Decidable (g.1 = false))
  | .outputInfo => inferInstanceAs (Decidable (g.2 = true))
  | .issue .seqInit | .issue .setFrameBuf | .finish | .readBusy _ => .isTrue trivial

def Orderly (g : Bool × Bool) (trace : List BitMoment) : Prop :=
  Watched bitNext BitAllowed g trace

instance (g : Bool × Bool) (trace : List BitMoment) : Decidable (Orderly g trace) :=
  inferInstanceAs (Decidable (Watched bitNext BitAllowed g trace))

/-- The wait of a turn that starts a frame sees the flag fall; where it is left because the peer
closed, the frame is done before the decoder is closed. -/
def WaitSeesIdle (c : Config) (r : BitRun) (a : BitStep) : Prop :=
  ∀ x, a = .turn x → r.session.phase = .decoding → startsFrame c r.session x.turn = true →
    if (afterWait c r.session x.turn).2 then x.done 2 = true ∨ x.done 3 = true
    else x.turn.busy.length ≤ 30

section Traces

variable {g g' g'' : Bool × Bool}

/-- These moments keep to the protocol and lead from `g` to `g'`. -/
structure Leads (g : Bool × Bool) (ms : List BitMoment) (g' : Bool × Bool) : Prop where
  orderly : Orderly g ms
  ends : ms.foldl bitNext g = g'

theorem Leads.nil (g : Bool × Bool) : Leads g [] g := ⟨by simp [Orderly], rfl⟩

theorem Leads.one {m : BitMoment} (h : BitAllowed g m) : Leads g [m] (bitNext g m) :=
  ⟨by simpa [Orderly] using h, rfl⟩

theorem Leads.append {xs ys : List BitMoment} (h : Leads g xs g') (h' : Leads g' ys g'') :
    Leads g (xs ++ ys) g'' := by
  refine ⟨(watched_append _ _ _ xs ys).mpr ⟨h.orderly, ?_⟩, ?_⟩
  · rw [h.ends]
    exact h'.orderly
  · rw [List.foldl_append, h.ends]
    exact h'.ends

theorem leads_finishIf (g : Bool × Bool) (done : Bool) :
    Leads g (finishIf done) (g.1 && !done, g.2) := by
  cases done with
  | false =>
    rw [Bool.not_false, Bool.and_true]
    exact Leads.nil g
  | true =>
    rw [Bool.not_true, Bool.and_false]
    exact Leads.one trivial

theorem leads_finishIf_idle (hidle : g.1 = false) (done : Bool) : Leads g (finishIf done) g := by
  have h := leads_finishIf g done
  rw [hidle, Bool.false_and, ← hidle] at h
  exact h

/-- While no frame is decoded any command may be issued. -/
theorem bitAllowed_issue (cmd : BitCommand) (hidle : g.1 = false) : BitAllowed g (.issue cmd) := by
  cases cmd with
  | picRun | decBufFlush | seqEnd => exact hidle
  | seqInit | setFrameBuf => exact trivial

/-- Commands that start no frame. -/
theorem leads_commands {cmds : List BitCommand} (hidle : g.1 = false)
    (hcmds : ∀ cmd ∈ cmds, cmd ≠ .picRun) : Leads g (cmds.map .issue) g := by
  induction cmds with
  | nil => exact Leads.nil g
  | cons cmd cmds ih =>
    have hrest := ih fun x hx => hcmds x (List.mem_cons_of_mem _ hx)
    have hsame : bitNext g (.issue cmd) = g := by
      have hne := hcmds cmd List.mem_cons_self
      cases cmd with
      | picRun => exact absurd rfl hne
      | seqInit | seqEnd | setFrameBuf | decBufFlush => rfl
    have hone := Leads.one (bitAllowed_issue cmd hidle)
    rw [hsame] at hone
    exact hone.append hrest

/-- A turn begins in order if no frame is decoded, and one is afterwards if it was started. -/
theorem leads_begin (x : BitTurn) {pre : List BitCommand} (starts : Bool) (hidle : g.1 = false)
    (hpre : ∀ cmd ∈ pre, cmd = .decBufFlush) :
    Leads g (beginMoments x (pre ++ (if starts then [.picRun] else [])))
      (if starts then (true, false) else g) := by
  have hflush : pre.flatMap (fun cmd => (if cmd = .picRun then finishIf (x.done 1) else []) ++
      [.issue cmd]) = pre.map .issue := by
    rw [← List.flatMap_pure_eq_map]
    refine List.flatMap_congr fun cmd hcmd => ?_
    rw [hpre cmd hcmd]
    rfl
  have hno : ∀ cmd ∈ pre, cmd ≠ .picRun := by
    intro cmd hcmd
    rw [hpre cmd hcmd]
    decide
  unfold beginMoments
  rw [List.flatMap_append, hflush]
  apply (leads_finishIf_idle hidle (x.done 0)).append
  apply (leads_commands hidle hno).append
  cases starts with
  | false => exact Leads.nil g
  | true =>
    simp only [if_true, List.flatMap_cons, List.flatMap_nil, List.append_nil]
    exact (leads_finishIf_idle hidle (x.done 1)).append (Leads.one (bitAllowed_issue _ hidle))

/-- The wait reads only; it sees the flag fall if it has rounds left. -/
theorem leads_wait (c : Config) (n : ℕ) (busy : List BusyTurn) (s : Session) :
    ∃ g', Leads g (waitMoments c n busy s) g' ∧
      ((busyWait c (busy.take n) s).2 = false → busy.length < n → g' = (false, true)) := by
  induction n generalizing busy s with
  | zero => exact ⟨g, Leads.nil g, fun _ h => absurd h (Nat.not_lt_zero _)⟩
  | succ n ih =>
    cases busy with
    | nil =>
      refine ⟨(false, true), ?_, fun _ _ => rfl⟩
      have hfinish : Leads g [.finish] (false, g.2) := Leads.one trivial
      have hread : Leads (false, g.2) [.readBusy false] (false, true) := Leads.one trivial
      exact hfinish.append hread
    | cons b rest =>
      have hread : Leads g [.readBusy true] g := Leads.one trivial
      simp only [waitMoments, List.take_succ_cons, busyWait, List.length_cons,
        Nat.add_lt_add_iff_right]
      split
      · generalize busyFeed c b (busyRefill c b s) = fed
        obtain ⟨s', fr⟩ := fed
        simp only
        split
        · -- the peer closed
          exact ⟨g, hread, fun h => absurd h (by simp)⟩
        · obtain ⟨g', hleads, hseen⟩ :=
            ih rest (if 0 < fr then { s' with lastDataMs := b.now } else s')
          exact ⟨g', hread.append hleads, hseen⟩
      · obtain ⟨g', hleads, hseen⟩ := ih rest (busyRefill c b s)
        exact ⟨g', hread.append hleads, hseen⟩

/-- After the wait the output is asked for unless the peer closed, and the decoder is closed at
most. -/
theorem leads_after (x : BitTurn) {gone : Bool} {cmds : List BitCommand}
    (hseen : if gone then x.done 2 = true ∨ x.done 3 = true else g = (false, true))
    (hcmds : ∀ cmd ∈ cmds, cmd ≠ .picRun) :
    ∃ g', Leads g (finishIf (x.done 2) ++ (if gone then [] else [.outputInfo]) ++
      finishIf (x.done 3) ++ cmds.map .issue) g' ∧ g'.1 = false := by
  cases gone with
  | true =>
    have hidle : ((g.1 && !x.done 2) && !x.done 3) = false := by
      rcases hseen with hdone | hdone
      · simp [hdone]
      · simp [hdone]
    refine ⟨((g.1 && !x.done 2) && !x.done 3, g.2), ?_, hidle⟩
    rw [if_pos rfl, List.append_nil]
    exact ((leads_finishIf g (x.done 2)).append (leads_finishIf _ (x.done 3))).append
      (leads_commands hidle hcmds)
  | false =>
    have hg : g = (false, true) := hseen
    rw [hg]
    refine ⟨(false, false), ?_, rfl⟩
    have hask : Leads (false, true) [.outputInfo] (false, false) := Leads.one rfl
    exact (((leads_finishIf_idle rfl (x.done 2)).append hask).append
      (leads_finishIf_idle rfl (x.done 3))).append (leads_commands rfl hcmds)

end Traces

/-! ## Which commands a turn issues -/

section Commands

variable {c : Config} {bs : BitstreamMem} {s s' : Session}

theorem newCommands_eq {cmds : List BitCommand} (h : Issues s.vpu s'.vpu cmds) :
    newCommands s s' = cmds := by
  unfold newCommands
  rw [h]
  exact List.drop_left' (List.length_map _)

theorem feedFirst_issues (c : Config) (t : Turn) (s : Session) :
    IssuesOnly (· = .decBufFlush) s.vpu (feedFirst c t s).1.vpu := by
  unfold feedFirst
  split
  · exact .of_same rfl
  · have hskip : IssuesOnly (· = .decBufFlush) s.vpu
        (feedSkipToLatest c.codec s.vpu s.h s.ring t.backlog).1 := by
      unfold feedSkipToLatest
      split
      · exact .of_same rfl
      split
      · exact .of_same rfl
      have hflush := vpuDecBitBufferFlush_issues s.vpu s.h
      generalize vpuDecBitBufferFlush s.vpu s.h = flushed at hflush ⊢
      obtain ⟨v, ret⟩ := flushed
      simp only at hflush ⊢
      split
      · exact .of_same rfl
      split
      · exact .of_same rfl
      split
      · exact .of_same rfl
      · exact hflush
    exact hskip

/-- Up to the wait, a turn flushes and starts the frame. -/
theorem startTurn_issues (c : Config) (s : Session) (t : Turn) :
    ∃ pre, (∀ cmd ∈ pre, cmd = .decBufFlush) ∧
      Issues s.vpu (startTurn c s t).1.vpu
        (pre ++ (if startsFrame c s t then [.picRun] else [])) := by
  have hcool : (coolDown ((usedNow s).1.deliver (t.signals 0))).vpu = s.vpu :=
    (still_coolDown _).vpu.trans (still_deliver _ _).vpu
  -- The parts of the turn before the frame in their order; only the first feed issues commands.
  unfold startsFrame startTurn
  generalize usedNow s = looked at hcool ⊢
  obtain ⟨s₁, used⟩ := looked
  simp only at hcool ⊢
  have hfirst := feedFirst_issues c t (coolDown (s₁.deliver (t.signals 0)))
  rw [hcool] at hfirst
  generalize feedFirst c t (coolDown (s₁.deliver (t.signals 0))) = fed at hfirst ⊢
  obtain ⟨s₂, rc⟩ := fed
  obtain ⟨pre, hissues, hpre⟩ := hfirst
  refine ⟨pre, hpre, ?_⟩
  have hmore : (feedMore c t s₂ rc).1.vpu = s₂.vpu := (quiet_feedMore c t s₂ rc).vpu
  simp only at hissues ⊢
  generalize feedMore c t s₂ rc = more at hmore ⊢
  obtain ⟨s₃, rc⟩ := more
  simp only at hmore ⊢
  have hnone : ∀ x : Session, x.vpu = s₂.vpu → Issues s.vpu x.vpu (pre ++ []) := by
    intro x hx
    rw [hx, List.append_nil]
    exact hissues
  split
  · exact hnone s₃ hmore
  have hwatched : (inputWatchdogs c t used rc s₃).1.vpu = s₂.vpu :=
    (still_inputWatchdogs c t used rc s₃).vpu.trans hmore
  generalize inputWatchdogs c t used rc s₃ = watched at hwatched ⊢
  obtain ⟨s₄, stop⟩ := watched
  simp only at hwatched ⊢
  split
  · exact hnone s₄ hwatched
  have hstart := vpuDecStartOneFrame_issues s₄.vpu s₄.h
  generalize vpuDecStartOneFrame s₄.vpu s₄.h = started at hstart ⊢
  obtain ⟨v, ret⟩ := started
  rw [hwatched] at hstart
  simp only at hstart ⊢
  split
  · rename_i hfail
    rw [if_neg hfail] at hstart
    exact hissues.trans hstart
  · rename_i hok
    rw [if_pos (not_not.mp hok)] at hstart
    have hrender : (renderPipelined c t ((({ s₄ with vpu := v } : Session).note
        .startFrame).deliver (t.signals 1))).vpu = v :=
      (still_renderPipelined c t _).vpu.trans (still_deliver _ _).vpu
    simp only [if_true]
    rw [hrender]
    exact hissues.trans hstart

/-- Giving back a frame issues nothing. -/
theorem clrDispFlag_issues (allowed : BitCommand → Prop) (s : Session) (idx : ℤ) :
    IssuesOnly allowed s.vpu (s.clrDispFlag idx).vpu :=
  vpuDecClrDispFlag_issues s.vpu s.h allowed idx

theorem releasePending_issues (c : Config) (t : Turn) (s : Session) :
    IssuesOnly (fun _ => False) s.vpu (releasePending c t s).vpu := by
  unfold releasePending
  split
  · simp only
    split
    · exact clrDispFlag_issues _ _ _
    · exact clrDispFlag_issues _ _ _
  · exact .of_same rfl

theorem display_issues (c : Config) (t : Turn) (s : Session) :
    IssuesOnly (fun _ => False) s.vpu (display c t s).vpu := by
  have harm := (still_armOutput c t s).vpu
  unfold display
  simp only
  split
  · split_ifs
    · exact .of_same (congrArg Vpu.issued harm)
    · exact .of_same (congrArg Vpu.issued harm)
    · exact IssuesOnly.trans (.of_same (congrArg Vpu.issued harm)) (clrDispFlag_issues _ _ _)
  · exact .of_same rfl

/-- After the wait and before the end, a turn issues nothing. -/
theorem finishTurn_issues (c : Config) (s : Session) (t : Turn) :
    IssuesOnly (fun _ => False) s.vpu (finishTurn c s t).1.vpu := by
  have hget := vpuDecGetOutputInfo_issued s.vpu s.h true
  unfold finishTurn
  generalize vpuDecGetOutputInfo s.vpu s.h true = got at hget ⊢
  obtain ⟨v, ret⟩ := got
  simp only at hget ⊢
  split
  · exact .of_same hget
  have hshown : IssuesOnly (fun _ => False) s.vpu (display c t ((releasePending c t
      ((({ s with vpu := v } : Session).note (.output t.oi)).deliver (t.signals 2))).deliver
      (t.signals 3))).vpu := by
    have hdeliver : ((({ s with vpu := v } : Session).note (.output t.oi)).deliver
        (t.signals 2)).vpu = v := (still_deliver _ _).vpu
    have hrelease := releasePending_issues c t
      ((({ s with vpu := v } : Session).note (.output t.oi)).deliver (t.signals 2))
    rw [hdeliver] at hrelease
    refine IssuesOnly.trans (.of_same hget) (hrelease.trans ?_)
    refine IssuesOnly.trans (.of_same ?_) (display_issues c t _)
    exact congrArg Vpu.issued (still_deliver _ _).vpu
  generalize display c t ((releasePending c t
      ((({ s with vpu := v } : Session).note (.output t.oi)).deliver (t.signals 2))).deliver
      (t.signals 3)) = shown at hshown ⊢
  have hnoFrame := (quiet_noFrame c t shown).vpu
  generalize noFrame c t shown = ended at hnoFrame ⊢
  obtain ⟨s', gone⟩ := ended
  simp only at hnoFrame ⊢
  have hlast : s'.vpu = shown.vpu := hnoFrame
  split
  · exact hshown.trans (.of_same (congrArg Vpu.issued hlast))
  · have hwatch := (still_outputWatchdogs c t s').vpu.trans hlast
    exact hshown.trans (.of_same (congrArg Vpu.issued hwatch))

theorem disconnect_issues (c : Config) (s : Session) :
    IssuesOnly (· = .seqEnd) s.vpu (disconnect c s).vpu := by
  have hpending : IssuesOnly (· = .seqEnd) s.vpu (clearPending s).vpu := by
    unfold clearPending
    split
    · exact clrDispFlag_issues _ _ _
    · exact .of_same rfl
  unfold disconnect
  simp only
  refine hpending.trans ?_
  split
  · exact vpuDecClose_issues (clearPending s).vpu (clearPending s).h
  · exact vpuDecClose_issues (clearPending s).vpu (clearPending s).h

/-- After the wait, the decoder may only be closed. -/
theorem afterWait_issues (c : Config) (s : Session) (t : Turn) (h : startsFrame c s t = true) :
    IssuesOnly (· = .seqEnd) (afterWait c s t).1.vpu (decodeTurn c s t).vpu := by
  have hturn : decodeTurn c s t =
      if (afterWait c s t).2 then disconnect c (afterWait c s t).1
      else if (finishTurn c (afterWait c s t).1 t).2 then (finishTurn c (afterWait c s t).1 t).1
      else disconnect c (finishTurn c (afterWait c s t).1 t).1 := by
    unfold startsFrame at h
    unfold decodeTurn afterWait
    simp only [h, if_true]
  have hfinish := (finishTurn_issues c (afterWait c s t).1 t).mono
    (fun _ (hf : False) => hf.elim : ∀ cmd, False → cmd = BitCommand.seqEnd)
  rw [hturn]
  split
  · exact disconnect_issues c _
  split
  · exact hfinish
  · exact hfinish.trans (disconnect_issues c _)

theorem drop_issues (restart : Bool) (h : s'.vpu = s.vpu) :
    IssuesOnly (· ≠ .picRun) s.vpu (drop s' restart).vpu := by
  rw [← h]
  refine (vpuDecClose_issues s'.vpu s'.h).mono ?_
  rintro cmd rfl
  decide

theorem connect_issued (c : Config) (bs : BitstreamMem) (s : Session) (con : Connection) :
    (connect c bs s con).vpu.issued = s.vpu.issued := by
  have hopen : ∀ x : Session, (openDecoder c bs x con).vpu.issued = x.vpu.issued := by
    intro x
    have hlib := vpuDecOpen_issued x.vpu con.initialized (some (openParam c bs))
    unfold openDecoder
    split
    · rfl
    · simp only
      generalize vpuDecOpen x.vpu con.initialized (some (openParam c bs)) = opened at hlib ⊢
      obtain ⟨v, handle, ret⟩ := opened
      cases ret <;> exact hlib
  unfold connect
  simp only
  split
  · exact hopen _
  · exact hopen _

theorem tryInitialInfo_issues (s : Session) (seq : SeqInit) :
    IssuesOnly (· ≠ .picRun) s.vpu (tryInitialInfo s seq).vpu := by
  have hesc := vpuDecSetEscSeqInit_issues s.vpu s.h (· ≠ .picRun) 1
  unfold tryInitialInfo
  simp only
  generalize (vpuDecSetEscSeqInit s.vpu s.h 1).1 = v at hesc ⊢
  generalize ({ seq with bufEmpty := decide (s.ring.rdPtr = s.ring.streamWrPtr) } : SeqInit) = seq'
  have hinfo : IssuesOnly (· ≠ .picRun) v (vpuDecGetInitialInfo v s.h true seq').1 := by
    refine (vpuDecGetInitialInfo_issues v s.h true seq').mono ?_
    rintro cmd rfl
    decide
  have hback := vpuDecSetEscSeqInit_issues (vpuDecGetInitialInfo v s.h true seq').1 s.h
    (· ≠ .picRun) 0
  have hall := hesc.trans (hinfo.trans hback)
  split
  · exact hall
  · exact hall

theorem primeTurn_issues (c : Config) (s : Session) (t : PrimeTurn) :
    IssuesOnly (· ≠ .picRun) s.vpu (primeTurn c s t).vpu := by
  have htry : ∀ x : Session, x.vpu = s.vpu →
      IssuesOnly (· ≠ .picRun) s.vpu (tryInitialInfo x t.seq).vpu := by
    intro x hx
    rw [← hx]
    exact tryInitialInfo_issues x t.seq
  unfold primeTurn
  split
  · exact .of_same rfl
  split
  · exact drop_issues _ rfl
  simp only
  split
  · split
    · exact drop_issues _ rfl
    split
    · exact .of_same rfl
    · exact htry _ rfl
  · split
    · exact drop_issues _ rfl
    split
    · exact .of_same rfl
    · exact htry _ rfl

theorem registerFrames_issues (c : Config) (s : Session) (b : Buffers) (e : Entry) :
    IssuesOnly (· ≠ .picRun) s.vpu (registerFrames c s b e).vpu := by
  have hlib : IssuesOnly (· ≠ .picRun) s.vpu
      (vpuDecRegisterFrameBuffer s.vpu s.h true b.fbcount b.stride).1 := by
    refine (vpuDecRegisterFrameBuffer_issues s.vpu s.h true b.fbcount b.stride).mono ?_
    rintro cmd rfl
    decide
  unfold registerFrames
  split
  · exact drop_issues _ rfl
  · simp only
    split
    · exact hlib
    · exact hlib.trans (drop_issues _ rfl)

theorem enterLoop_issues (c : Config) (s : Session) (e : Entry) :
    IssuesOnly (· ≠ .picRun) s.vpu (enterLoop c s e).vpu := by
  have hregister : ∀ (x : Session) (b : Buffers), x.vpu = s.vpu →
      IssuesOnly (· ≠ .picRun) s.vpu (registerFrames c x b e).vpu := by
    intro x b hx
    rw [← hx]
    exact registerFrames_issues c x b e
  unfold enterLoop
  split
  · simp only
    split
    · exact drop_issues _ rfl
    split
    · exact drop_issues _ rfl
    split
    · exact hregister _ _ rfl
    · split
      · exact .of_same rfl
      · exact hregister _ _ rfl
  · exact .of_same rfl

/-- Only a turn of the decode loop starts a frame. -/
theorem step_issues (c : Config) (bs : BitstreamMem) (s : Session) (a : Step)
    (hturn : ∀ t, a ≠ .turn t) : IssuesOnly (· ≠ .picRun) s.vpu (Stream.step c bs s a).vpu := by
  cases a with
  | turn t => exact absurd rfl (hturn t)
  | signal sig => exact .of_same (congrArg Vpu.issued (still_deliver s [sig]).vpu)
  | connect con =>
    rw [step_connect]
    split
    · exact .of_same (connect_issued c bs s con)
    · exact .of_same rfl
  | prime t =>
    rw [step_prime]
    split
    · exact primeTurn_issues c s t
    · exact .of_same rfl
  | enter e =>
    rw [step_enter]
    split
    · exact enterLoop_issues c s e
    · exact .of_same rfl

/-- A turn that starts no frame ends the connection. -/
theorem noStart_issues (c : Config) (s : Session) (t : Turn) (h : startsFrame c s t = false) :
    IssuesOnly (· = .seqEnd) (startTurn c s t).1.vpu (decodeTurn c s t).vpu := by
  have hturn : decodeTurn c s t = disconnect c (startTurn c s t).1 := by
    unfold startsFrame at h
    unfold decodeTurn
    simp only [h, Bool.false_eq_true, if_false]
  rw [hturn]
  exact disconnect_issues c _

end Commands

/-! ## Runs -/

section Run

variable {c : Config} {bs : BitstreamMem}

/-- A turn whose wait sees the flag fall keeps to the protocol. -/
theorem leads_turn {g : Bool × Bool} (s : Session) (x : BitTurn) (hidle : g.1 = false)
    (hwait : startsFrame c s x.turn = true →
      if (afterWait c s x.turn).2 then x.done 2 = true ∨ x.done 3 = true
      else x.turn.busy.length ≤ 30) :
    ∃ g', Leads g (bitMoments c s x) g' ∧ g'.1 = false := by
  obtain ⟨pre, hpre, hstart⟩ := startTurn_issues c s x.turn
  have hbegin := leads_begin x (startsFrame c s x.turn) hidle hpre
  have hseqEnd : ∀ cmd, cmd = BitCommand.seqEnd → cmd ≠ .picRun := by
    rintro cmd rfl
    decide
  unfold bitMoments
  simp only
  rw [newCommands_eq hstart]
  -- Without a frame there is no wait; with one, the wait or a later place sees it done.
  cases hstarts : startsFrame c s x.turn with
  | false =>
    obtain ⟨cmds, hissues, hcmds⟩ := (noStart_issues c s x.turn hstarts).mono hseqEnd
    rw [hstarts] at hbegin
    rw [newCommands_eq hissues]
    exact ⟨g, hbegin.append ((leads_finishIf_idle hidle (x.done 3)).append
      (leads_commands hidle hcmds)), hidle⟩
  | true =>
    obtain ⟨cmds, hissues, hcmds⟩ := (afterWait_issues c s x.turn hstarts).mono hseqEnd
    rw [hstarts] at hbegin
    obtain ⟨g₁, hwaits, hfalls⟩ :=
      leads_wait (g := (true, false)) c 31 x.turn.busy (startTurn c s x.turn).1
    have hseen : if (afterWait c s x.turn).2 then x.done 2 = true ∨ x.done 3 = true
        else g₁ = (false, true) := by
      have hcond := hwait hstarts
      cases hgone : (afterWait c s x.turn).2 with
      | true =>
        rw [hgone] at hcond
        exact hcond
      | false =>
        rw [hgone] at hcond
        exact hfalls hgone (Nat.lt_succ_of_le hcond)
    obtain ⟨g₂, hafter, hlast⟩ := leads_after x hseen hcmds
    rw [newCommands_eq hissues]
    refine ⟨g₂, hbegin.append ?_, hlast⟩
    simp only [if_true, List.append_assoc] at hafter ⊢
    exact hwaits.append hafter

/-- The processor was spoken to in order so far, and no frame is decoded. -/
def SpokenInOrder (r : BitRun) : Prop :=
  ∃ g, Leads (false, false) r.trace g ∧ g.1 = false

theorem spokenInOrder_step (r : BitRun) (a : BitStep) (h : SpokenInOrder r)
    (hok : WaitSeesIdle c r a) : SpokenInOrder (r.step c bs a) := by
  obtain ⟨g, hleads, hidle⟩ := h
  cases a with
  | plain a done =>
    have hstep : ∀ a, (∀ t, a ≠ .turn t) → r.step c bs (.plain a done) =
        ⟨Stream.step c bs r.session a, r.trace ++ finishIf done ++
          (newCommands r.session (Stream.step c bs r.session a)).map .issue⟩ := by
      intro a hne
      cases a with
      | turn t => exact absurd rfl (hne t)
      | connect con | prime t | enter e | signal sig => rfl
    by_cases hturn : ∃ t, a = .turn t
    · obtain ⟨t, rfl⟩ := hturn
      exact ⟨g, hleads, hidle⟩
    · have hne : ∀ t, a ≠ .turn t := fun t ht => hturn ⟨t, ht⟩
      obtain ⟨cmds, hissues, hcmds⟩ := step_issues c bs r.session a hne
      rw [hstep a hne, newCommands_eq hissues]
      exact ⟨g, (hleads.append (leads_finishIf_idle hidle done)).append
        (leads_commands hidle hcmds), hidle⟩
  | turn x =>
    unfold BitRun.step
    simp only
    split
    · rename_i hphase
      obtain ⟨g', hturn, hidle'⟩ := leads_turn r.session x hidle (hok x rfl hphase)
      exact ⟨g', hleads.append hturn, hidle'⟩
    · exact ⟨g, hleads, hidle⟩

/-- **One command at a time.** In every run whose waits see the flag fall, the output is asked for
only after the flag was read as `0` since the frame was started, and no frame is started, no buffer
flushed and no sequence ended while a frame is decoded. -/
theorem commands_stay_in_order (c : Config) (bs : BitstreamMem) (warm : Bool) (v : Vpu)
    (steps : List BitStep)
    (hwait : Along (BitRun.step c bs) (BitRun.init warm v) steps (WaitSeesIdle c)) (n : ℕ) :
    Orderly (false, false) (stateAt (BitRun.step c bs) (BitRun.init warm v) steps n).trace := by
  have hinit : SpokenInOrder (BitRun.init warm v) := ⟨(false, false), Leads.nil _, rfl⟩
  obtain ⟨g, hleads, -⟩ := hwait.invariant hinit spokenInOrder_step n
  exact hleads.orderly

/-- A connection whose first frame keeps the flag up for `rounds` rounds of the wait, and is done
only then. -/
def slowSession (rounds : ℕ) : List BitStep :=
  [.plain (.connect ⟨0, true, true, fun _ => 0, []⟩) false,
    .plain (.prime ⟨[], true, .bytes [0, 0, 1], ⟨false, true, 352 * 1024 + 288, 3, 0, 0⟩⟩) false,
    .plain (.enter ⟨⟨4, List.replicate 7 (some 0), true, true, true⟩, true, 0⟩) false,
    .turn ⟨quietTurn 0 (List.replicate rounds ⟨[], true, [], .fail, 0⟩), fun _ => false⟩,
    .turn ⟨quietTurn 1 [], fun _ => false⟩]

def slowRun (rounds n : ℕ) : BitRun :=
  stateAt (BitRun.step tcpConfig ⟨4096, by decide⟩)
    (BitRun.init false (startedVpu Semaphore.zero false true)) (slowSession rounds) n

/-- Three rounds are few enough. -/
theorem slow_frames_in_order :
    (slowRun 3 5).trace.count (.issue .picRun) = 2 ∧ Orderly (false, false) (slowRun 3 5).trace := by
  refine ⟨by decide +kernel, ?_⟩
  apply commands_stay_in_order
  rintro n a ha x rfl - -
  -- the two turns are the steps 3 and 4
  rcases n with _ | _ | _ | _ | _ | n
  · cases ha
  · cases ha
  · cases ha
  · cases ha
    have hstays : (afterWait tcpConfig (slowRun 3 3).session
        (quietTurn 0 (List.replicate 3 ⟨[], true, [], .fail, 0⟩))).2 = false := by decide +kernel
    unfold slowRun at hstays
    rw [hstays]
    exact Nat.le_succ_of_le (by decide : 3 ≤ 29)
  · cases ha
    have hstays : (afterWait tcpConfig (slowRun 3 4).session (quietTurn 1 [])).2 = false := by
      decide +kernel
    unfold slowRun at hstays
    rw [hstays]
    exact Nat.zero_le _
  · cases ha

/-- After 31 rounds the output is asked for and the next frame started, the first one not done. -/
theorem output_asked_while_busy : ¬ ∀ n, Orderly (false, false) (slowRun 31 n).trace := by
  intro hall
  have hfour := hall 4
  revert hfour
  decide +kernel

end Run

end Stream
end ToonVpu
