import ToonVpu.Foundation.Runs
import ToonVpu.Lib.Lifetime
import ToonVpu.Stream.Session

/-!
# SessionLock — a session never waits for a lock it holds itself

`vpu_DecStartOneFrame` returns with the API lock held, and the lock stays held until
`vpu_DecGetOutputInfo` or `vpu_DecClose`.  Every other library call of the loop has to come outside
that window.  The one way into it is the `goto disc` of the wait for the VPU: the code at the label
gives a pending frame back before it closes the decoder.
-/

namespace ToonVpu
namespace Stream

open Foundation.Runs
open Lib

/-! ## What the loop knows about its decoder -/

/-- The session owns instance `i`, and has never waited for the lock. -/
structure Owned (i : Inst) (s : Session) : Prop where
  handle : s.h = some i
  valid : checkDecInstanceValidity s.vpu.semap (some i) = .success
  waits : s.vpu.selfWaits = 0

/-- Its frame buffers are registered, and a pending frame is one of them. -/
structure Registered (i : Inst) (s : Session) : Prop extends Owned i s where
  registered : (s.vpu.semap.codecInstPool i).frameBufPool = true
  count : (s.vpu.semap.codecInstPool i).numFrameBuffers = s.fbcount
  pending : 0 ≤ s.pendingIdx → s.pendingIdx < s.fbcount

/-- Between steps nobody has waited, and the lock is free. -/
structure LockInv (s : Session) : Prop where
  waits : s.vpu.selfWaits = 0
  free : s.phase ≠ .exited → s.vpu.semap.apiLock = false
  priming : s.phase = .priming → ∃ i, Owned i s
  decoding : s.phase = .decoding → ∃ i, Registered i s

section Rules

variable {c : Config} {s s' : Session} {i : Inst}

theorem Quiet.owned (h : Quiet s s') (ho : Owned i s) : Owned i s' := by
  refine ⟨h.h.trans ho.handle, ?_, ?_⟩
  · rw [h.vpu]
    exact ho.valid
  · rw [h.vpu]
    exact ho.waits

theorem Quiet.fbcount (h : Quiet s s') : s'.fbcount = s.fbcount := by
  simp only [Session.fbcount, h.bufs]

theorem Quiet.registered (h : Quiet s s') (hr : Registered i s) : Registered i s' := by
  refine ⟨h.owned hr.toOwned, ?_, ?_, ?_⟩
  · rw [h.vpu]
    exact hr.registered
  · rw [h.vpu, h.fbcount]
    exact hr.count
  · rw [h.pendingIdx, h.fbcount]
    exact hr.pending

/-- A library call that neither waits nor changes the instances. -/
theorem Registered.call {v : Vpu} (hr : Registered i s) (hcall : NoWait s.vpu v) :
    Registered i { s with vpu := v } := by
  refine ⟨⟨hr.handle, ?_, hcall.selfWaits.trans hr.waits⟩, ?_, ?_, hr.pending⟩
  · exact (hcall.valid _).trans hr.valid
  · simp only [hcall.pool]
    exact hr.registered
  · simp only [hcall.pool]
    exact hr.count

theorem LockInv.of_registered (hr : Registered i s) (hfree : s.vpu.semap.apiLock = false) :
    LockInv s :=
  ⟨hr.waits, fun _ => hfree, fun _ => ⟨i, hr.toOwned⟩, fun _ => ⟨i, hr⟩⟩

/-- A step that leaves the library alone keeps the invariant. -/
theorem LockInv.quiet (h : LockInv s) (hq : Quiet s s') : LockInv s' := by
  refine ⟨?_, ?_, ?_, ?_⟩
  · rw [hq.vpu]
    exact h.waits
  · rw [hq.vpu, hq.phase]
    exact h.free
  · rw [hq.phase]
    intro hphase
    obtain ⟨i, ho⟩ := h.priming hphase
    exact ⟨i, hq.owned ho⟩
  · rw [hq.phase]
    intro hphase
    obtain ⟨i, hr⟩ := h.decoding hphase
    exact ⟨i, hq.registered hr⟩

/-- A lock that is free, or held for the frame in progress of `i`. -/
def FreeOrOwn (i : Inst) (v : Vpu) : Prop :=
  v.semap.apiLock = false ∨ v.semap.pendingInst = some i

/-- Closing the decoder ends with the lock free. -/
theorem LockInv.drop (ho : Owned i s) (hlock : FreeOrOwn i s.vpu) (restart : Bool) :
    LockInv (drop s restart) := by
  have hclose := vpuDecClose_free ho.valid hlock
  have hvpu : (Stream.drop s restart).vpu = (vpuDecClose s.vpu (some i)).1 := by
    rw [← ho.handle]
    rfl
  refine ⟨?_, fun _ => ?_, ?_, ?_⟩
  · rw [hvpu, hclose.2.1, ho.waits]
  · rw [hvpu, hclose.1]
  · intro hphase
    simp only [Stream.drop] at hphase
    split at hphase <;> simp at hphase
  · intro hphase
    simp only [Stream.drop] at hphase
    split at hphase <;> simp at hphase

theorem Registered.clrDispFlag (hr : Registered i s) (hfree : s.vpu.semap.apiLock = false)
    (idx : ℤ) :
    Registered i (s.clrDispFlag idx) ∧ (s.clrDispFlag idx).vpu.semap.apiLock = false := by
  have hcall := vpuDecClrDispFlag_noWait hfree s.h idx
  refine ⟨(still_note _ _).toQuiet.registered (hr.call hcall), ?_⟩
  exact (vpuDecClrDispFlag_same s.vpu s.h idx).apiLock.trans hfree

/-- After the pending frame was given back, the rest of `disc` only closes the decoder. -/
theorem LockInv.disconnect (ho : Owned i (clearPending s))
    (hlock : FreeOrOwn i (clearPending s).vpu) : LockInv (disconnect c s) := by
  unfold Stream.disconnect
  simp only
  generalize clearPending s = s₁ at ho hlock ⊢
  split
  · have hq := (still_gwSet s₁ false).toQuiet
    refine LockInv.drop (hq.owned ho) ?_ _
    rw [hq.vpu]
    exact hlock
  · exact LockInv.drop ho hlock _

theorem disconnect_free (hr : Registered i s) (hfree : s.vpu.semap.apiLock = false) :
    LockInv (disconnect c s) := by
  by_cases hpending : 0 ≤ s.pendingIdx
  · obtain ⟨hr₁, hfree₁⟩ := hr.clrDispFlag hfree s.pendingIdx
    have hclear : clearPending s = { s.clrDispFlag s.pendingIdx with pendingIdx := -1 } :=
      if_pos hpending
    apply LockInv.disconnect (i := i)
    · rw [hclear]
      exact ⟨hr₁.handle, hr₁.valid, hr₁.waits⟩
    · rw [hclear]
      exact .inl hfree₁
  · have hclear : clearPending s = s := if_neg hpending
    apply LockInv.disconnect (i := i)
    · rw [hclear]
      exact hr.toOwned
    · rw [hclear]
      exact .inl hfree

/-- Leaving with a frame in progress is fine as long as no frame is pending. -/
theorem disconnect_busy (hr : Registered i s) (hbusy : Busy i s.vpu.semap)
    (hpending : s.pendingIdx < 0) : LockInv (disconnect c s) := by
  have hclear : clearPending s = s := if_neg (not_le.mpr hpending)
  apply LockInv.disconnect (i := i)
  · rw [hclear]
    exact hr.toOwned
  · rw [hclear]
    exact .inr hbusy.pendingInst

/-- With a pending frame, the session waits for the lock it holds. -/
theorem disconnect_waits (hr : Registered i s) (hbusy : Busy i s.vpu.semap)
    (hpending : 0 ≤ s.pendingIdx) : (disconnect c s).vpu.selfWaits = 1 := by
  have hu : s.pendingIdx < (s.vpu.semap.codecInstPool i).numFrameBuffers := by
    rw [hr.count]
    exact hr.pending hpending
  have hvpu := vpuDecClrDispFlag_waits hbusy.apiLock hr.valid hr.registered hpending hu
  rw [← hr.handle] at hvpu
  have hclear : clearPending s = { s.clrDispFlag s.pendingIdx with pendingIdx := -1 } :=
    if_pos hpending
  have hcleared : (clearPending s).vpu = { s.vpu with selfWaits := s.vpu.selfWaits + 1 } := by
    rw [hclear]
    exact hvpu
  have hhandle : (clearPending s).h = some i := by
    rw [hclear]
    exact hr.handle
  -- after the timeout the close finds the frame in progress and drops it
  have hclose := vpuDecClose_free (v := (clearPending s).vpu) (i := i)
    (by rw [hcleared]; exact hr.valid) (.inr (by rw [hcleared]; exact hbusy.pendingInst))
  have hwaits : (vpuDecClose (clearPending s).vpu (some i)).1.selfWaits = 1 := by
    rw [hclose.2.1, hcleared]
    simp [hr.waits]
  rw [← hhandle] at hwaits
  unfold disconnect
  simp only
  generalize clearPending s = s₁ at hwaits ⊢
  split
  · exact hwaits
  · exact hwaits

/-! ## A turn of the decode loop -/

/-- Dropping a backlog may flush the ring, which takes the lock and gives it back. -/
theorem feedSkipToLatest_free {v : Vpu} (hfree : v.semap.apiLock = false) (codec : CodStd)
    (handle : DecHandle) (h : Decoder) (b : Backlog) :
    NoWait v (feedSkipToLatest codec v handle h b).1 ∧
      (feedSkipToLatest codec v handle h b).1.semap.apiLock = false := by
  have hflush := vpuDecBitBufferFlush_noWait hfree handle
  have hsame := (vpuDecBitBufferFlush_same v handle).apiLock.trans hfree
  unfold feedSkipToLatest
  split
  · exact ⟨NoWait.refl v, hfree⟩
  split
  · exact ⟨NoWait.refl v, hfree⟩
  simp only
  split
  · exact ⟨NoWait.refl v, hfree⟩
  split
  · exact ⟨NoWait.refl v, hfree⟩
  split
  · exact ⟨NoWait.refl v, hfree⟩
  · exact ⟨hflush, hsame⟩

theorem feedFirst_free (hr : Registered i s) (hfree : s.vpu.semap.apiLock = false) (t : Turn) :
    Registered i (feedFirst c t s).1 ∧ (feedFirst c t s).1.vpu.semap.apiLock = false ∧
      (feedFirst c t s).1.pendingIdx = s.pendingIdx := by
  unfold feedFirst
  split
  · have hq := quiet_rtpFeed c t.packets s
    exact ⟨hq.registered hr, by rw [hq.vpu]; exact hfree, hq.pendingIdx⟩
  · obtain ⟨hcall, hfree'⟩ := feedSkipToLatest_free hfree c.codec s.h s.ring t.backlog
    simp only
    generalize feedSkipToLatest c.codec s.vpu s.h s.ring t.backlog = skipped at hcall hfree' ⊢
    have hr' : Registered i { s with vpu := skipped.1, ring := skipped.2 } :=
      Quiet.registered (s := { s with vpu := skipped.1 }) ⟨rfl, rfl, rfl, rfl, rfl, rfl, rfl⟩
        (hr.call hcall)
    have hq := quiet_watermarkFeed t.reads { s with vpu := skipped.1, ring := skipped.2 }
    exact ⟨hq.registered hr', by rw [hq.vpu]; exact hfree', hq.pendingIdx⟩

/-- The first half of a turn ends with a frame in progress, or leaves the loop with the lock
free. -/
theorem startTurn_spec (hr : Registered i s) (hfree : s.vpu.semap.apiLock = false) (t : Turn) :
    Registered i (startTurn c s t).1 ∧ (startTurn c s t).1.pendingIdx = s.pendingIdx ∧
      (if (startTurn c s t).2 then Busy i (startTurn c s t).1.vpu.semap
        else (startTurn c s t).1.vpu.semap.apiLock = false) := by
  have hq₁ := ((quiet_usedNow s).trans (still_deliver (usedNow s).1 (t.signals 0)).toQuiet).trans
    (still_coolDown ((usedNow s).1.deliver (t.signals 0))).toQuiet
  have hfeed := feedFirst_free (c := c) (hq₁.registered hr) (by rw [hq₁.vpu]; exact hfree) t
  rw [hq₁.pendingIdx] at hfeed
  unfold startTurn
  simp only
  generalize feedFirst c t (coolDown ((usedNow s).1.deliver (t.signals 0))) = fed at hfeed ⊢
  obtain ⟨s₁, rc⟩ := fed
  obtain ⟨hr₁, hfree₁, hpend₁⟩ := hfeed
  have hq₂ := quiet_feedMore c t s₁ rc
  simp only at hr₁ hfree₁ hpend₁ ⊢
  generalize feedMore c t s₁ rc = more at hq₂ ⊢
  obtain ⟨s₂, rc₂⟩ := more
  have hr₂ := hq₂.registered hr₁
  have hfree₂ : s₂.vpu.semap.apiLock = false := by rw [hq₂.vpu]; exact hfree₁
  have hpend₂ : s₂.pendingIdx = s.pendingIdx := hq₂.pendingIdx.trans hpend₁
  simp only
  split
  · exact ⟨hr₂, hpend₂, hfree₂⟩
  have hq₃ := (still_inputWatchdogs c t (usedNow s).2 rc₂ s₂).toQuiet
  generalize inputWatchdogs c t (usedNow s).2 rc₂ s₂ = watched at hq₃ ⊢
  obtain ⟨s₃, stop⟩ := watched
  have hr₃ := hq₃.registered hr₂
  have hfree₃ : s₃.vpu.semap.apiLock = false := by rw [hq₃.vpu]; exact hfree₂
  have hpend₃ : s₃.pendingIdx = s.pendingIdx := hq₃.pendingIdx.trans hpend₂
  simp only
  split
  · exact ⟨hr₃, hpend₃, hfree₃⟩
  -- the lock is taken here, if anywhere
  have hcall := hr₃.call (vpuDecStartOneFrame_noWait hfree₃ s₃.h)
  have hstart := vpuDecStartOneFrame_cases s₃.vpu s₃.h
  generalize vpuDecStartOneFrame s₃.vpu s₃.h = started at hcall hstart ⊢
  obtain ⟨v, ret⟩ := started
  obtain ⟨hret, hsame⟩ | ⟨j, hj, hret, -, hbusy, -⟩ := hstart
  · simp only at hret hsame ⊢
    rw [if_pos hret]
    exact ⟨hcall, hpend₃, hsame.apiLock.trans hfree₃⟩
  · have hij : j = i := Option.some.inj (hj.symm.trans hr₃.handle)
    subst hij
    simp only at hret hbusy ⊢
    rw [if_neg (not_not.mpr hret)]
    have hq₄ := ((still_note { s₃ with vpu := v } .startFrame).trans
      (still_deliver _ (t.signals 1))).trans (still_renderPipelined c t _)
    refine ⟨hq₄.toQuiet.registered hcall, hq₄.pendingIdx.trans hpend₃, ?_⟩
    rw [if_pos rfl, hq₄.vpu]
    exact hbusy

theorem releasePending_free (hr : Registered i s) (hfree : s.vpu.semap.apiLock = false)
    (t : Turn) :
    Registered i (releasePending c t s) ∧ (releasePending c t s).vpu.semap.apiLock = false := by
  unfold releasePending
  split
  · simp only
    -- rendering first does not change what is cleared
    have hclear : ∀ s₁ : Session, Quiet s s₁ →
        Registered i { s₁.clrDispFlag s₁.pendingIdx with
          pendingIdx := -1, pendingDisplay := false } ∧
        (s₁.clrDispFlag s₁.pendingIdx).vpu.semap.apiLock = false := by
      intro s₁ hq
      obtain ⟨hr₁, hfree₁⟩ :=
        (hq.registered hr).clrDispFlag (by rw [hq.vpu]; exact hfree) s₁.pendingIdx
      refine ⟨⟨⟨hr₁.handle, hr₁.valid, hr₁.waits⟩, hr₁.registered, hr₁.count, ?_⟩, hfree₁⟩
      simp
    split
    · exact hclear _ ⟨rfl, rfl, rfl, rfl, rfl, rfl, rfl⟩
    · exact hclear s (Quiet.refl s)
  · exact ⟨hr, hfree⟩

theorem display_free (hr : Registered i s) (hfree : s.vpu.semap.apiLock = false) (t : Turn) :
    Registered i (display c t s) ∧ (display c t s).vpu.semap.apiLock = false := by
  unfold display
  simp only
  split
  · rename_i hidx
    have hq := (still_armOutput c t s).toQuiet
    generalize armOutput c t s = s₁ at hq ⊢
    have hr₁ := hq.registered hr
    have hfree₁ : s₁.vpu.semap.apiLock = false := by rw [hq.vpu]; exact hfree
    have hlt : t.oi.indexFrameDisplay < s₁.fbcount := by rw [hq.fbcount]; exact hidx.2
    split_ifs
    · exact ⟨⟨⟨hr₁.handle, hr₁.valid, hr₁.waits⟩, hr₁.registered, hr₁.count, fun _ => hlt⟩, hfree₁⟩
    · exact ⟨⟨⟨hr₁.handle, hr₁.valid, hr₁.waits⟩, hr₁.registered, hr₁.count, fun _ => hlt⟩, hfree₁⟩
    · exact hr₁.clrDispFlag hfree₁ _
  · exact ⟨hr, hfree⟩

/-- The second half of a turn starts with the frame in progress and gives the lock back. -/
theorem finishTurn_spec (hr : Registered i s) (hbusy : Busy i s.vpu.semap) (t : Turn) :
    Registered i (finishTurn c s t).1 ∧ (finishTurn c s t).1.vpu.semap.apiLock = false := by
  have hcollect := vpuDecGetOutputInfo_busy hbusy hr.valid
  rw [← hr.handle] at hcollect
  have hcall : Registered i { s with vpu := (s.vpu.setPendingInst none).unlockVpu } :=
    hr.call ⟨rfl, rfl⟩
  unfold finishTurn
  simp only [hcollect, ne_eq, not_true_eq_false, if_false]
  have hq₁ := ((still_note { s with vpu := (s.vpu.setPendingInst none).unlockVpu }
    (.output t.oi)).trans (still_deliver _ (t.signals 2))).toQuiet
  generalize ({ s with vpu := (s.vpu.setPendingInst none).unlockVpu }.note
    (.output t.oi)).deliver (t.signals 2) = s₁ at hq₁ ⊢
  obtain ⟨hr₂, hfree₂⟩ := releasePending_free (c := c) (hq₁.registered hcall)
    (by rw [hq₁.vpu]; rfl) t
  generalize releasePending c t s₁ = s₂ at hr₂ hfree₂ ⊢
  have hq₂ := (still_deliver s₂ (t.signals 3)).toQuiet
  obtain ⟨hr₃, hfree₃⟩ := display_free (c := c) (hq₂.registered hr₂)
    (by rw [hq₂.vpu]; exact hfree₂) t
  generalize display c t (s₂.deliver (t.signals 3)) = s₃ at hr₃ hfree₃ ⊢
  have hq₃ := quiet_noFrame c t s₃
  generalize noFrame c t s₃ = fed at hq₃ ⊢
  obtain ⟨s₄, gone⟩ := fed
  have hr₄ := hq₃.registered hr₃
  have hfree₄ : s₄.vpu.semap.apiLock = false := by rw [hq₃.vpu]; exact hfree₃
  simp only
  split
  · exact ⟨hr₄, hfree₄⟩
  · have hq₄ := (still_outputWatchdogs c t s₄).toQuiet
    exact ⟨hq₄.registered hr₄, by rw [hq₄.vpu]; exact hfree₄⟩

/-- The turn leaves the wait for the VPU through `goto disc`. -/
def LeavesWait (c : Config) (s : Session) (t : Turn) : Prop :=
  (startTurn c s t).2 = true ∧ (busyWait c (t.busy.take 31) (startTurn c s t).1).2 = true

theorem decodeTurn_lockInv (hr : Registered i s) (hfree : s.vpu.semap.apiLock = false) (t : Turn)
    (hclean : LeavesWait c s t → s.pendingIdx < 0) : LockInv (decodeTurn c s t) := by
  obtain ⟨hr₁, hpend₁, hlock₁⟩ := startTurn_spec (c := c) hr hfree t
  unfold LeavesWait at hclean
  unfold decodeTurn
  generalize startTurn c s t = started at hr₁ hpend₁ hlock₁ hclean ⊢
  obtain ⟨s₁, ok⟩ := started
  cases ok with
  | false => exact disconnect_free hr₁ hlock₁
  | true =>
    simp only [if_true] at hlock₁ hclean ⊢
    have hq := quiet_busyWait c (t.busy.take 31) s₁
    simp only at hr₁ hpend₁ hclean
    generalize busyWait c (t.busy.take 31) s₁ = waited at hq hclean ⊢
    obtain ⟨s₂, gone⟩ := waited
    have hr₂ := hq.registered hr₁
    have hbusy₂ : Busy i s₂.vpu.semap := by rw [hq.vpu]; exact hlock₁
    cases gone with
    | true =>
      have hpending : s₂.pendingIdx < 0 := by
        rw [hq.pendingIdx, hpend₁]
        exact hclean (by simp)
      exact disconnect_busy hr₂ hbusy₂ hpending
    | false =>
      simp only [Bool.false_eq_true, if_false]
      obtain ⟨hr₃, hfree₃⟩ := finishTurn_spec (c := c) hr₂ hbusy₂ t
      generalize finishTurn c s₂ t = finished at hr₃ hfree₃ ⊢
      obtain ⟨s₃, again⟩ := finished
      cases again with
      | true => exact LockInv.of_registered hr₃ hfree₃
      | false => exact disconnect_free hr₃ hfree₃

theorem decodeTurn_waits (hr : Registered i s) (hfree : s.vpu.semap.apiLock = false) (t : Turn)
    (hleaves : LeavesWait c s t) (hpending : 0 ≤ s.pendingIdx) :
    (decodeTurn c s t).vpu.selfWaits = 1 := by
  obtain ⟨hr₁, hpend₁, hlock₁⟩ := startTurn_spec (c := c) hr hfree t
  obtain ⟨hstarted, hgone⟩ := hleaves
  unfold decodeTurn
  generalize startTurn c s t = started at hr₁ hpend₁ hlock₁ hstarted hgone ⊢
  obtain ⟨s₁, ok⟩ := started
  simp only at hstarted hgone hr₁ hpend₁ hlock₁ ⊢
  subst hstarted
  have hq := quiet_busyWait c (t.busy.take 31) s₁
  generalize busyWait c (t.busy.take 31) s₁ = waited at hq hgone ⊢
  obtain ⟨s₂, gone⟩ := waited
  simp only at hgone hq ⊢
  subst hgone
  have hbusy₂ : Busy i s₂.vpu.semap := by rw [hq.vpu]; exact hlock₁
  have hpending₂ : 0 ≤ s₂.pendingIdx := by rw [hq.pendingIdx, hpend₁]; exact hpending
  exact disconnect_waits (hq.registered hr₁) hbusy₂ hpending₂

end Rules

/-! ## Before the decode loop -/

section Setup

variable {c : Config} {s : Session} {i : Inst}

/-- A session that owns its decoder, with the lock free, before the decode loop. -/
theorem LockInv.of_owned (ho : Owned i s) (hfree : s.vpu.semap.apiLock = false)
    (hphase : s.phase ≠ .decoding) : LockInv s :=
  ⟨ho.waits, fun _ => hfree, fun _ => ⟨i, ho⟩, fun h => absurd h hphase⟩

theorem tryInitialInfo_lockInv (ho : Owned i s) (hfree : s.vpu.semap.apiLock = false)
    (hphase : s.phase = .priming) (seq : SeqInit) : LockInv (tryInitialInfo s seq) := by
  have hesc := vpuDecSetEscSeqInit_noWait hfree s.h 1
  have hfree₁ := (vpuDecSetEscSeqInit_same s.vpu s.h 1).apiLock.trans hfree
  unfold tryInitialInfo
  simp only
  generalize (vpuDecSetEscSeqInit s.vpu s.h 1).1 = v₁ at hesc hfree₁ ⊢
  generalize ({ seq with bufEmpty := decide (s.ring.rdPtr = s.ring.streamWrPtr) } : SeqInit) = seq'
  obtain ⟨hwaits₂, hvalid₂⟩ := vpuDecGetInitialInfo_free hfree₁ s.h true seq'
  have hfree₂ := (vpuDecGetInitialInfo_same v₁ s.h true seq').apiLock.trans hfree₁
  generalize vpuDecGetInitialInfo v₁ s.h true seq' = got at hwaits₂ hvalid₂ hfree₂ ⊢
  obtain ⟨v₂, ret⟩ := got
  have hesc₃ := vpuDecSetEscSeqInit_noWait hfree₂ s.h 0
  have hfree₃ := (vpuDecSetEscSeqInit_same v₂ s.h 0).apiLock.trans hfree₂
  simp only at hwaits₂ hvalid₂ hfree₂ ⊢
  generalize (vpuDecSetEscSeqInit v₂ s.h 0).1 = v₃ at hesc₃ hfree₃ ⊢
  have hvalid : checkDecInstanceValidity v₃.semap (some i) = .success := by
    rw [hesc₃.valid, hvalid₂, hesc.valid]
    exact ho.valid
  have hwaits : v₃.selfWaits = 0 := by
    rw [hesc₃.selfWaits, hwaits₂, hesc.selfWaits]
    exact ho.waits
  split
  · exact LockInv.of_owned (i := i) ⟨ho.handle, hvalid, hwaits⟩ hfree₃ (by simp [hphase])
  · exact LockInv.of_owned (i := i) ⟨ho.handle, hvalid, hwaits⟩ hfree₃ (by simp [hphase])

theorem primeTurn_lockInv (ho : Owned i s) (hfree : s.vpu.semap.apiLock = false)
    (hphase : s.phase = .priming) (t : PrimeTurn) : LockInv (primeTurn c s t) := by
  -- what follows the feed of a turn
  have hgo : ∀ s₁ : Session, Quiet s s₁ →
      LockInv s₁ ∧ (∀ restart, LockInv (Stream.drop s₁ restart)) ∧
        LockInv (tryInitialInfo s₁ t.seq) := by
    intro s₁ hq
    have hfree₁ : s₁.vpu.semap.apiLock = false := by rw [hq.vpu]; exact hfree
    have hphase₁ : s₁.phase = .priming := hq.phase.trans hphase
    exact ⟨LockInv.of_owned (hq.owned ho) hfree₁ (by simp [hphase₁]),
      LockInv.drop (hq.owned ho) (.inl hfree₁),
      tryInitialInfo_lockInv (hq.owned ho) hfree₁ hphase₁ t.seq⟩
  unfold primeTurn
  split
  · exact (hgo s (Quiet.refl s)).1
  split
  · exact (hgo s (Quiet.refl s)).2.1 _
  simp only
  have hq : Quiet s { s with primeTries := s.primeTries + 1 } := ⟨rfl, rfl, rfl, rfl, rfl, rfl, rfl⟩
  split
  · obtain ⟨hkeep, hdrop, htry⟩ := hgo _ (hq.trans (quiet_rtpFeed c t.packets _))
    split_ifs
    · exact hdrop _
    · exact hkeep
    · exact htry
  · have hq' : Quiet s { s with
        primeTries := s.primeTries + 1
        ring := (feed s.ring true t.pollReady t.recv).1 } := ⟨rfl, rfl, rfl, rfl, rfl, rfl, rfl⟩
    obtain ⟨hkeep, hdrop, htry⟩ := hgo _ hq'
    split_ifs
    · exact hdrop _
    · exact hkeep
    · exact htry

theorem registerFrames_lockInv (ho : Owned i s) (hfree : s.vpu.semap.apiLock = false)
    {b : Buffers} (hbufs : s.bufs = some b) (e : Entry) : LockInv (registerFrames c s b e) := by
  unfold registerFrames
  split
  · exact LockInv.drop ho (.inl hfree) _
  simp only
  rw [ho.handle]
  obtain ⟨hwaits, hvalid, hregistered⟩ :=
    vpuDecRegisterFrameBuffer_free hfree ho.valid true b.fbcount b.stride
  have hfree₁ :=
    (vpuDecRegisterFrameBuffer_same s.vpu (some i) true b.fbcount b.stride).apiLock.trans hfree
  generalize vpuDecRegisterFrameBuffer s.vpu (some i) true b.fbcount b.stride = result
    at hwaits hvalid hregistered hfree₁ ⊢
  obtain ⟨v, ret⟩ := result
  simp only at hwaits hvalid hregistered hfree₁ ⊢
  split
  · rename_i hret
    obtain ⟨hpool, hnum, -⟩ := hregistered hret
    refine LockInv.of_registered (i := i)
      ⟨⟨rfl, hvalid, hwaits.trans ho.waits⟩, hpool, ?_, ?_⟩ hfree₁
    · simpa [startLoop, Session.fbcount, hbufs] using hnum
    · simp [startLoop]
  · refine LockInv.drop (i := i) ?_ ?_ _
    · exact ⟨rfl, hvalid, hwaits.trans ho.waits⟩
    · exact .inl hfree₁

theorem enterLoop_lockInv (ho : Owned i s) (hfree : s.vpu.semap.apiLock = false)
    (hphase : s.phase = .priming) (e : Entry) : LockInv (enterLoop c s e) := by
  unfold enterLoop
  split
  · simp only
    split
    · refine LockInv.drop (i := i) ?_ ?_ _
      · exact ⟨ho.handle, ho.valid, ho.waits⟩
      · exact .inl hfree
    split
    · refine LockInv.drop (i := i) ?_ ?_ _
      · exact ⟨ho.handle, ho.valid, ho.waits⟩
      · exact .inl hfree
    split
    · rename_i b hb
      refine registerFrames_lockInv (i := i) ?_ ?_ ?_ e
      · exact ⟨ho.handle, ho.valid, ho.waits⟩
      · exact hfree
      · exact hb
    split
    · exact ⟨ho.waits, by simp, by simp, by simp⟩
    · refine registerFrames_lockInv (i := i) ?_ ?_ rfl e
      · exact ⟨ho.handle, ho.valid, ho.waits⟩
      · exact hfree
  · exact LockInv.of_owned ho hfree (by simp [hphase])

/-- A session without a decoder only has to keep the lock free. -/
theorem LockInv.of_waiting (hphase : s.phase = .waiting) (hwaits : s.vpu.selfWaits = 0)
    (hfree : s.vpu.semap.apiLock = false) : LockInv s :=
  ⟨hwaits, fun _ => hfree, by simp [hphase], by simp [hphase]⟩

theorem openDecoder_lockInv {bs : BitstreamMem} (hphase : s.phase = .waiting)
    (hwaits : s.vpu.selfWaits = 0) (hfree : s.vpu.semap.apiLock = false) (con : Connection) :
    LockInv (openDecoder c bs s con) := by
  unfold openDecoder
  split
  · exact LockInv.of_waiting hphase hwaits hfree
  simp only
  obtain ⟨hsame, hwaits₁, hopened⟩ :=
    vpuDecOpen_free hfree con.initialized (some (openParam c bs))
  generalize vpuDecOpen s.vpu con.initialized (some (openParam c bs)) = opened
    at hsame hwaits₁ hopened ⊢
  split
  · obtain ⟨i, hi, hvalid⟩ := hopened rfl
    exact LockInv.of_owned (i := i) ⟨hi, hvalid, hwaits₁.trans hwaits⟩
      (hsame.apiLock.trans hfree) (by simp)
  · exact LockInv.of_waiting hphase (hwaits₁.trans hwaits) (hsame.apiLock.trans hfree)

theorem connect_lockInv {bs : BitstreamMem} (h : LockInv s) (hphase : s.phase = .waiting)
    (con : Connection) : LockInv (connect c bs s con) := by
  have hfree := h.free (by simp [hphase])
  unfold connect
  apply openDecoder_lockInv
  · split <;> exact hphase
  · split <;> exact h.waits
  · split <;> exact hfree

end Setup

/-! ## Runs -/

/-- Every library call so far that takes the lock found it free. -/
def NeverWaited (s : Session) : Prop := s.vpu.selfWaits = 0

/-- Step `a` does not leave the wait for the VPU with a frame pending. -/
def LeavesClean (c : Config) (s : Session) (a : Step) : Prop :=
  ∀ t, a = .turn t → s.phase = .decoding → LeavesWait c s t → s.pendingIdx < 0

theorem LockInv.step {c : Config} {bs : BitstreamMem} {s : Session} (h : LockInv s) {a : Step}
    (hclean : LeavesClean c s a) : LockInv (step c bs s a) := by
  unfold Stream.step
  split
  · rename_i con hphase
    exact connect_lockInv h hphase con
  · rename_i t hphase
    obtain ⟨i, ho⟩ := h.priming hphase
    exact primeTurn_lockInv ho (h.free (by simp [hphase])) hphase t
  · rename_i e hphase
    obtain ⟨i, ho⟩ := h.priming hphase
    exact enterLoop_lockInv ho (h.free (by simp [hphase])) hphase e
  · rename_i t hphase
    obtain ⟨i, hr⟩ := h.decoding hphase
    exact decodeTurn_lockInv hr (h.free (by simp [hphase])) t (hclean t rfl hphase)
  · rename_i sig
    exact h.quiet (still_deliver s [sig]).toQuiet
  · exact h

theorem leavesClean_of_waits {c : Config} {bs : BitstreamMem} {s : Session} (h : LockInv s)
    {a : Step} (hwaits : NeverWaited (step c bs s a)) : LeavesClean c s a := by
  rintro t rfl hphase hleaves
  obtain ⟨i, hr⟩ := h.decoding hphase
  by_contra hpending
  have hone := decodeTurn_waits hr (h.free (by simp [hphase])) t hleaves (not_lt.mp hpending)
  simp only [NeverWaited, step, hphase] at hwaits
  omega

/-- The library as `vpu_Init` hands it to `main`, whatever the previous process left behind. -/
def startedVpu (left : Semaphore) (initialized download : Bool) : Vpu :=
  (vpuInit (mapped left) initialized download).1

theorem LockInv.init (warm : Bool) (left : Semaphore) (initialized download : Bool) :
    LockInv (Session.init warm (startedVpu left initialized download)) :=
  LockInv.of_waiting rfl (vpuInit_selfWaits _ _ _) (vpuInit_spec _ _ _).1.apiLock

/-- **A session never waits for its own lock.** In every run of the per-connection loop, each
library call that takes the API lock finds it free, exactly when no turn leaves the wait for the
VPU through `goto disc` while a frame is pending. -/
theorem session_never_waits_for_itself (c : Config) (bs : BitstreamMem) (warm : Bool)
    (left : Semaphore) (initialized download : Bool) (steps : List Step) :
    (∀ n, NeverWaited
        (stateAt (step c bs) (Session.init warm (startedVpu left initialized download)) steps n)) ↔
      Along (step c bs) (Session.init warm (startedVpu left initialized download)) steps
        (LeavesClean c) := by
  apply forall_good_iff_along (LockInv.init warm left initialized download)
  · intro s a h hclean
    exact h.step hclean
  · intro s h
    exact h.waits
  · intro s a h hwaits
    exact leavesClean_of_waits h hwaits

/-- An MPEG-4 stream over TCP on an 800x480 display. -/
def tcpConfig : Config :=
  { rtp := false
    codec := .mpeg4
    spspps := []
    outputMode := .fb
    overlay := false
    cpuRender := false
    ppDeblock := false
    prebuffer := 0
    fb := ⟨800, 480, 16, by decide, by decide, by decide, by decide⟩
    rectX := -1
    rectY := -1
    rectW := -1
    rectH := -1 }

/-- A turn in which nothing arrives and frame `idx` is decoded and displayed. -/
def quietTurn (idx : ℤ) (busy : List BusyTurn) : Turn :=
  { now := fun _ => 0
    signals := fun _ => []
    sockPending := 0
    packets := []
    backlog := ⟨some 0, []⟩
    reads := []
    prePoll := false
    prePackets := []
    preReads := []
    pipelined := ⟨true, false⟩
    busy := busy
    oi := ⟨idx, idx, 0⟩
    sequential := ⟨true, false⟩
    pollReady := false
    recv := .fail }

/-- A connection whose peer closes while the second frame is being decoded. -/
def closedWhileBusy : List Step :=
  [.connect ⟨0, true, true, fun _ => 0, []⟩,
    .prime ⟨[], true, .bytes [0, 0, 1], ⟨false, true, 352 * 1024 + 288, 3, 0, 0⟩⟩,
    .enter ⟨⟨4, List.replicate 7 (some 0), true, true, true⟩, true, 0⟩,
    .turn (quietTurn 0 []),
    .turn (quietTurn 1 [⟨[], true, [], .bytes [], 0⟩])]

/-- The frame displayed in the first turn is given back under the lock of the second one. -/
theorem session_waits_for_itself :
    ¬ ∀ n, NeverWaited (stateAt (step tcpConfig ⟨4096, by decide⟩)
      (Session.init false (startedVpu Semaphore.zero false true)) closedWhileBusy n) := by
  intro hall
  have hfive := hall 5
  unfold NeverWaited at hfive
  revert hfive
  decide +kernel

end Stream
end ToonVpu
