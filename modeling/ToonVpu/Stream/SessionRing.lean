import ToonVpu.Stream.SessionLock

/-!
# SessionRing — who writes the ring of an RTP session

With `--rtp`, the ring belongs to `rtp_direct_append` and `rtp_direct_flush`: an access unit is
staged behind the write pointer and committed whole.  `Accounted` says that the ring agrees with
the account these two keep.  Every receiver of RTP packets keeps it, and so does all of the decode
loop but one path: a turn without a frame calls `feed`, which receives the next datagram straight
into the ring, over whatever is staged, and commits it as it is.
-/

namespace ToonVpu
namespace Stream

open Foundation
open Foundation.Circular
open Foundation.Runs
open Lib

/-! ## The account of a ring -/

/-- The ring holds the bytes staged last, and the units that were flushed are all it was given. -/
structure Accounted (bs : BitstreamMem) (h : Decoder) (st : H264RtpState) : Prop where
  staged : Staged bs h st (lastStaged h.remarks st.auLen)
  commits : Fifo.commits h.events = flushedUnits h.remarks

section Account

variable {bs : BitstreamMem} {h : Decoder} {st st' : H264RtpState}

theorem lastStaged_zero (rs : List Remark) : lastStaged rs 0 = [] := by
  simp [lastStaged]

theorem Accounted.known (ha : Accounted bs h st) : st.auLen ≤ (stagedBytes h.remarks).length := by
  have hlen := ha.staged.auLen_eq
  simp only [lastStaged, List.length_drop] at hlen
  omega

theorem Accounted.setFlags (ha : Accounted bs h st) (hlen : st'.auLen = st.auLen) :
    Accounted bs h st' := by
  refine ⟨?_, ha.commits⟩
  rw [hlen]
  exact ha.staged.setFlags hlen

theorem Accounted.reset (ha : Accounted bs h st) (hlen : st'.auLen = 0) : Accounted bs h st' := by
  refine ⟨?_, ha.commits⟩
  rw [hlen, lastStaged_zero]
  exact ha.staged.reset hlen

theorem Accounted.directAppend (ha : Accounted bs h st) (p : List UInt8) :
    Accounted bs (rtpDirectAppend h st p).1 (rtpDirectAppend h st p).2.1 := by
  have hremarks := rtpDirectAppend_remarks h st p
  obtain ⟨h', hcommits, -, ⟨heq, hst⟩ | ⟨heq, hst, -⟩⟩ := rtpDirectAppend_spec ha.staged p
  · rw [heq] at hremarks ⊢
    simp only [true_and] at hremarks
    by_cases hp : p = []
    · rw [if_neg (not_not.mpr hp), List.append_nil] at hremarks
      refine ⟨?_, ?_⟩
      · simpa [hp, hremarks] using hst
      · rw [hremarks, hcommits]
        exact ha.commits
    · rw [if_pos hp] at hremarks
      refine ⟨?_, ?_⟩
      · rw [hremarks, lastStaged_concat ha.known p]
        exact hst
      · rw [hremarks, flushedUnits_concat_staged, hcommits]
        exact ha.commits
  · rw [heq] at hremarks ⊢
    simp only [Bool.false_eq_true, false_and, if_false, List.append_nil] at hremarks
    refine ⟨?_, ?_⟩
    · rw [hremarks]
      exact hst
    · rw [hremarks, hcommits]
      exact ha.commits

theorem Accounted.directAppendNal (ha : Accounted bs h st) (nal : List UInt8) :
    Accounted bs (rtpDirectAppendNal h st nal).1 (rtpDirectAppendNal h st nal).2.1 := by
  have hcode := ha.directAppend startCode
  unfold rtpDirectAppendNal
  generalize rtpDirectAppend h st startCode = result at hcode ⊢
  obtain ⟨h₁, st₁, ok⟩ := result
  cases ok with
  | false => exact hcode
  | true => exact hcode.directAppend nal

theorem Accounted.directFlush (ha : Accounted bs h st) :
    Accounted bs (rtpDirectFlush h st).1 (rtpDirectFlush h st).2.1 := by
  have hremarks := rtpDirectFlush_remarks h st
  obtain ⟨h', heq, hst, hcommits⟩ := rtpDirectFlush_spec ha.staged
  have hlen := ha.staged.auLen_eq
  rw [heq] at hremarks ⊢
  refine ⟨?_, ?_⟩
  · rw [show (flushed st).auLen = 0 from rfl, lastStaged_zero]
    exact hst
  · -- both sides grow by the bytes staged last, or by nothing
    have hsame : (lastStaged h.remarks st.auLen ≠ [] ∧ st.auBad = false) ↔
        (0 < st.auLen ∧ st.auBad = false) := by
      rw [← List.length_pos_iff, ← hlen]
    simp only [hsame] at hcommits
    rw [hcommits, hremarks, ha.commits]
    split
    · rw [flushedUnits_concat_flushed]
    · rw [List.append_nil, List.append_nil]

theorem Accounted.tick (ha : Accounted bs h st) : Accounted bs h.tick st := by
  obtain ⟨queue, hring, hlen⟩ := ha.staged
  obtain ⟨k, hk⟩ := hring.tick
  refine ⟨?_, ?_⟩
  · rw [Decoder.tick_remarks]
    exact ⟨_, hk, hlen⟩
  · rw [Decoder.commits_tick, Decoder.tick_remarks]
    exact ha.commits

theorem Accounted.bitstreamUsed (ha : Accounted bs h st) :
    Accounted bs (bitstreamUsed h).1 st := by
  obtain ⟨queue, hring, -⟩ := ha.staged
  obtain ⟨k, -, heq, -⟩ := bitstreamUsed_spec hring
  rw [heq]
  exact ha.tick

end Account

/-! ## The receivers of RTP packets -/

/-- A handler that keeps the account. -/
def KeepsAccount (bs : BitstreamMem) (handler : Handler Decoder) : Prop :=
  ∀ h st pkt, Accounted bs h st → Accounted bs (handler h st pkt).1 (handler h st pkt).2.1

section Handlers

variable {bs : BitstreamMem} {h : Decoder} {st : H264RtpState}

/-- The prologue of the handlers drops the open unit or leaves it as it is. -/
theorem rtpEnter_auLen (st : H264RtpState) (pkt : List UInt8) :
    (rtpEnter st pkt).1.auLen = st.auLen ∨ (rtpEnter st pkt).1.auLen = 0 := by
  have hgap : (rtpH264SeqGap st pkt).1.auLen = st.auLen := by
    unfold rtpH264SeqGap
    simp only
    split_ifs <;> rfl
  simp only [rtpEnter, rtpNewTs]
  split_ifs
  · exact .inr rfl
  · exact .inl hgap
  · exact .inl hgap
  · exact .inl hgap

theorem rtpHandle_keepsAccount
    {body : Decoder → H264RtpState → Bool → Bool → List UInt8 → Decoder × H264RtpState × ℕ}
    (hbody : ∀ h st seqGap marker payload, Accounted bs h st →
      Accounted bs (body h st seqGap marker payload).1 (body h st seqGap marker payload).2.1) :
    KeepsAccount bs (rtpHandle body) := by
  intro h st pkt ha
  have henter : Accounted bs h (rtpEnter st pkt).1 := by
    rcases rtpEnter_auLen st pkt with hlen | hlen
    · exact ha.setFlags hlen
    · exact ha.reset hlen
  unfold rtpHandle
  split
  · exact ha
  simp only
  split
  · exact henter
  · exact hbody _ _ _ _ _ henter

theorem handleRtpMpeg4Direct_keepsAccount : KeepsAccount bs handleRtpMpeg4Direct := by
  apply rtpHandle_keepsAccount
  intro h st seqGap marker payload ha
  unfold mpeg4Body
  simp only
  generalize hst₁ : (if mpeg4PayloadHasIVop payload then
    { st with auHasIdr := true, needIdr := false } else st) = st₁
  have ha₁ : Accounted bs h st₁ := by
    apply ha.setFlags
    rw [← hst₁]
    split <;> rfl
  -- the packet is staged, or skipped while the handler waits for an I-VOP
  have hstage : Accounted bs
      (if st₁.needIdr = true ∧ mpeg4PayloadHasVop payload = true then (h, st₁)
        else ((rtpDirectAppend h st₁ payload).1, (rtpDirectAppend h st₁ payload).2.1)).1
      (if st₁.needIdr = true ∧ mpeg4PayloadHasVop payload = true then (h, st₁)
        else ((rtpDirectAppend h st₁ payload).1, (rtpDirectAppend h st₁ payload).2.1)).2 := by
    split
    · exact ha₁
    · exact ha₁.directAppend payload
  split
  · exact hstage.directFlush
  · exact hstage

theorem h264Nal_keepsAccount {spspps : List UInt8} {x : Decoder × H264RtpState}
    (ha : Accounted bs x.1 x.2) (nal : List UInt8) :
    Accounted bs (h264Nal directStore spspps x nal).1 (h264Nal directStore spspps x nal).2 := by
  obtain ⟨h, st⟩ := x
  unfold h264Nal
  simp only
  split
  · exact ha
  have ha₁ : Accounted bs h (if nalType nal = 5 then { st with auHasIdr := true } else st) := by
    apply ha.setFlags
    split <;> rfl
  split
  · exact (ha₁.directAppend spspps).directAppendNal nal
  · exact ha₁.directAppendNal nal

theorem foldl_h264Nal_keepsAccount {spspps : List UInt8} {x : Decoder × H264RtpState}
    (ha : Accounted bs x.1 x.2) (nals : List (List UInt8)) :
    Accounted bs (nals.foldl (h264Nal directStore spspps) x).1
      (nals.foldl (h264Nal directStore spspps) x).2 := by
  induction nals generalizing x with
  | nil => exact ha
  | cons nal nals ih => exact ih (h264Nal_keepsAccount ha nal)

theorem fuADirect_keepsAccount (spspps : List UInt8) (ha : Accounted bs h st) (seqGap : Bool)
    (payload : List UInt8) :
    Accounted bs (fuADirect spspps h st seqGap payload).1
      (fuADirect spspps h st seqGap payload).2.1 := by
  have hbegin : Accounted bs (fuBeginDirect spspps h st payload).1
      (fuBeginDirect spspps h st payload).2 := by
    have ha₁ : Accounted bs h
        (if fuType payload = 5 then { st with auHasIdr := true } else st) := by
      apply ha.setFlags
      split <;> rfl
    unfold fuBeginDirect
    simp only
    split
    · exact ((ha₁.directAppend spspps).directAppendNal [fuHdr payload]).setFlags rfl
    · exact (ha₁.directAppendNal [fuHdr payload]).setFlags rfl
  have hjoin : ∀ h₁ st₁, Accounted bs h₁ st₁ →
      Accounted bs (fuJoinDirect h₁ st₁ payload).1 (fuJoinDirect h₁ st₁ payload).2 := by
    intro h₁ st₁ ha₁
    unfold fuJoinDirect
    split
    · exact ha₁.setFlags rfl
    simp only
    split
    · exact (ha₁.directAppend _).setFlags rfl
    · exact ha₁.directAppend _
  unfold fuADirect
  split
  · exact ha
  simp only
  split
  · exact hjoin _ _ hbegin
  · exact hjoin _ _ ha

theorem handleRtpH264Direct_keepsAccount (spspps : List UInt8) :
    KeepsAccount bs (handleRtpH264Direct spspps) := by
  apply rtpHandle_keepsAccount
  intro h st seqGap marker payload ha
  have hflush : ∀ x : Decoder × H264RtpState, Accounted bs x.1 x.2 →
      Accounted bs (maybeFlush directStore marker x).1 (maybeFlush directStore marker x).2.1 := by
    intro x hx
    unfold maybeFlush
    split
    · exact hx.directFlush
    · exact hx
  have hfu := fuADirect_keepsAccount spspps ha seqGap payload
  unfold h264Body
  simp only
  split
  · exact hflush _ (h264Nal_keepsAccount ha payload)
  split
  · exact hflush _ (foldl_h264Nal_keepsAccount ha _)
  split
  · split
    · exact hflush _ hfu
    · exact hfu
  · exact hflush _ ha

theorem rtpHandler_keepsAccount (c : Config) : KeepsAccount bs (rtpHandler c) := by
  unfold rtpHandler
  split
  · exact handleRtpH264Direct_keepsAccount c.spspps
  · exact handleRtpMpeg4Direct_keepsAccount

theorem rtpFeedDirectLoop_keepsAccount {handler : Handler Decoder} (hk : KeepsAccount bs handler)
    (packets : ℕ) (committed : ℤ) (recvs : List Recv) (ha : Accounted bs h st) :
    Accounted bs (rtpFeedDirectLoop handler packets committed recvs h st).1
      (rtpFeedDirectLoop handler packets committed recvs h st).2.1 := by
  induction recvs generalizing packets committed h st with
  | nil => exact ha
  | cons r rest ih =>
    cases r with
    | fail => exact ha
    | bytes data =>
      have hpkt := hk h st (data.take 65536) ha
      simp only [rtpFeedDirectLoop]
      split
      · exact ha
      split
      · exact hpkt
      · exact ih _ _ hpkt

end Handlers

/-! ## A turn of the decode loop -/

/-- From `s` to `s'` the ring and the receiver state were left alone. -/
structure SameRing (s s' : Session) : Prop where
  ring : s'.ring = s.ring
  rtpState : s'.rtpState = s.rtpState

/-- The ring of the session agrees with the account of its RTP receiver. -/
def Session.Accounted (bs : BitstreamMem) (s : Session) : Prop :=
  Stream.Accounted bs s.ring s.rtpState

/-- The turn gets as far as the path without a frame, and the `feed` there receives something. -/
def RawFeed (c : Config) (s : Session) (t : Turn) : Prop :=
  (startTurn c s t).2 = true ∧
    (busyWait c (t.busy.take 31) (startTurn c s t).1).2 = false ∧
    (vpuDecGetOutputInfo (busyWait c (t.busy.take 31) (startTurn c s t).1).1.vpu
      (busyWait c (t.busy.take 31) (startTurn c s t).1).1.h true).2 = .success ∧
    t.oi.indexFrameDecoded < 0 ∧ t.oi.indexFrameDisplay < 0 ∧
    FeedReceives (busyWait c (t.busy.take 31) (startTurn c s t).1).1.ring t.pollReady t.recv

section Turns

variable {bs : BitstreamMem} {c : Config} {s s' s'' : Session}

theorem SameRing.refl (s : Session) : SameRing s s := ⟨rfl, rfl⟩

theorem SameRing.trans (h : SameRing s s') (h' : SameRing s' s'') : SameRing s s'' :=
  ⟨h'.ring.trans h.ring, h'.rtpState.trans h.rtpState⟩

theorem Still.sameRing (h : Still s s') : SameRing s s' := ⟨h.ring, h.rtpState⟩

theorem SameRing.accounted (h : SameRing s s') (ha : s.Accounted bs) : s'.Accounted bs := by
  unfold Session.Accounted
  rw [h.ring, h.rtpState]
  exact ha

theorem rtpFeed_accounted (ha : s.Accounted bs) (recvs : List Recv) :
    (s.rtpFeed c recvs).1.Accounted bs :=
  rtpFeedDirectLoop_keepsAccount (rtpHandler_keepsAccount c) 0 0 recvs ha

theorem usedNow_accounted (ha : s.Accounted bs) : (usedNow s).1.Accounted bs :=
  Stream.Accounted.bitstreamUsed ha

theorem feedMore_accounted (hrtp : c.rtp = true) (ha : s.Accounted bs) (t : Turn) (rc : ℤ) :
    (feedMore c t s rc).1.Accounted bs := by
  have hused := usedNow_accounted ha
  unfold feedMore
  simp only [hrtp, if_true]
  split
  · split
    · exact rtpFeed_accounted hused t.prePackets
    · exact hused
  · exact ha

theorem startTurn_accounted (hrtp : c.rtp = true) (ha : s.Accounted bs) (t : Turn) :
    (startTurn c s t).1.Accounted bs := by
  have hcool := ((still_deliver (usedNow s).1 (t.signals 0)).trans
    (still_coolDown ((usedNow s).1.deliver (t.signals 0)))).sameRing.accounted
      (usedNow_accounted ha)
  have hfeed : (feedFirst c t (coolDown ((usedNow s).1.deliver (t.signals 0)))).1.Accounted bs := by
    unfold feedFirst
    rw [if_pos hrtp]
    exact rtpFeed_accounted hcool t.packets
  unfold startTurn
  simp only
  generalize feedFirst c t (coolDown ((usedNow s).1.deliver (t.signals 0))) = fed at hfeed ⊢
  obtain ⟨s₁, rc⟩ := fed
  have hmore := feedMore_accounted hrtp hfeed t rc
  simp only
  generalize feedMore c t s₁ rc = more at hmore ⊢
  obtain ⟨s₂, rc₂⟩ := more
  simp only
  split
  · exact hmore
  have hwatch := (still_inputWatchdogs c t (usedNow s).2 rc₂ s₂).sameRing.accounted hmore
  generalize inputWatchdogs c t (usedNow s).2 rc₂ s₂ = watched at hwatch ⊢
  obtain ⟨s₃, stop⟩ := watched
  simp only
  split
  · exact hwatch
  have hcall : SameRing s₃ { s₃ with vpu := (vpuDecStartOneFrame s₃.vpu s₃.h).1 } := ⟨rfl, rfl⟩
  split
  · exact hcall.accounted hwatch
  · have hstill := ((still_note { s₃ with vpu := (vpuDecStartOneFrame s₃.vpu s₃.h).1 }
      .startFrame).trans (still_deliver _ (t.signals 1))).trans (still_renderPipelined c t _)
    exact (hcall.trans hstill.sameRing).accounted hwatch

theorem busyWait_accounted (hrtp : c.rtp = true) (ha : s.Accounted bs) (busy : List BusyTurn) :
    (busyWait c busy s).1.Accounted bs := by
  induction busy generalizing s with
  | nil => exact ha
  | cons b rest ih =>
    have hrefill : busyRefill c b s = s := if_pos hrtp
    have hfeed : (busyFeed c b s).1.Accounted bs := by
      have hused := usedNow_accounted ha
      unfold busyFeed
      simp only [hrtp, if_true]
      split
      · exact rtpFeed_accounted hused b.packets
      · exact hused
    simp only [busyWait, hrefill]
    generalize busyFeed c b s = fed at hfeed ⊢
    obtain ⟨s', fr⟩ := fed
    split
    · simp only
      split
      · exact hfeed
      · refine ih (SameRing.accounted ?_ hfeed)
        split
        · exact ⟨rfl, rfl⟩
        · exact SameRing.refl s'
    · exact ih ha

theorem sameRing_releasePending (t : Turn) (s : Session) : SameRing s (releasePending c t s) := by
  unfold releasePending
  split
  · simp only
    split
    · exact ⟨rfl, rfl⟩
    · exact ⟨rfl, rfl⟩
  · exact SameRing.refl s

theorem sameRing_display (t : Turn) (s : Session) : SameRing s (display c t s) := by
  have harm := (still_armOutput c t s).sameRing
  unfold display
  simp only
  split_ifs
  · exact harm.trans ⟨rfl, rfl⟩
  · exact harm.trans ⟨rfl, rfl⟩
  · exact harm.trans ⟨rfl, rfl⟩
  · exact SameRing.refl s

/-- The second half of a turn touches the ring in one place only. -/
theorem finishTurn_ring (t : Turn) (s : Session) :
    (finishTurn c s t).1.rtpState = s.rtpState ∧
      (finishTurn c s t).1.ring =
        if (vpuDecGetOutputInfo s.vpu s.h true).2 = .success ∧ t.oi.indexFrameDecoded < 0 ∧
            t.oi.indexFrameDisplay < 0 then
          (feed s.ring true t.pollReady t.recv).1
        else s.ring := by
  unfold finishTurn
  simp only
  generalize vpuDecGetOutputInfo s.vpu s.h true = output
  obtain ⟨v, ret⟩ := output
  by_cases hret : ret = .success
  · rw [if_neg (not_not.mpr hret)]
    -- What is done with an output leaves the ring alone.
    have hbefore : SameRing s (display c t ((releasePending c t
        ((({ s with vpu := v }).note (.output t.oi)).deliver (t.signals 2))).deliver
          (t.signals 3))) := by
      have hcall : SameRing s { s with vpu := v } := ⟨rfl, rfl⟩
      have hnote := hcall.trans
        ((still_note { s with vpu := v } (.output t.oi)).trans
          (still_deliver _ (t.signals 2))).sameRing
      have hrelease := hnote.trans (sameRing_releasePending (c := c) t _)
      exact (hrelease.trans (still_deliver _ (t.signals 3)).sameRing).trans
        (sameRing_display (c := c) t _)
    generalize display c t ((releasePending c t
      ((({ s with vpu := v }).note (.output t.oi)).deliver (t.signals 2))).deliver
        (t.signals 3)) = s₁ at hbefore ⊢
    -- Only a turn without a frame feeds.
    have hfed : (noFrame c t s₁).1.rtpState = s.rtpState ∧ (noFrame c t s₁).1.ring =
        if t.oi.indexFrameDecoded < 0 ∧ t.oi.indexFrameDisplay < 0 then
          (feed s.ring true t.pollReady t.recv).1
        else s.ring := by
      rw [← hbefore.ring, ← hbefore.rtpState]
      unfold noFrame
      simp only
      split_ifs <;> exact ⟨rfl, rfl⟩
    simp only [hret, true_and]
    generalize noFrame c t s₁ = fed at hfed ⊢
    obtain ⟨s₂, gone⟩ := fed
    simp only
    split
    · exact hfed
    · have hsame := (still_outputWatchdogs c t s₂).sameRing
      exact ⟨hsame.rtpState.trans hfed.1, hsame.ring.trans hfed.2⟩
  · rw [if_pos hret, if_neg (fun h => hret h.1)]
    exact ⟨rfl, rfl⟩

end Turns

/-! ## Sessions -/

/-- What the decoder was given is what `rtp_direct_flush` chose to commit, and what is staged for
the next access unit is still in place. -/
structure RtpOnly (s : Session) : Prop where
  commits : (Fifo.commits s.ring.events).flatten = (flushedUnits s.ring.remarks).flatten
  staged : window streamBufSize s.ring.mem (s.ring.streamWrPtr - s.ring.streamBufStartAddr)
    s.rtpState.auLen = lastStaged s.ring.remarks s.rtpState.auLen

/-- Between steps; without an open decoder nobody reads the ring or writes to it. -/
structure RingOk (bs : BitstreamMem) (s : Session) : Prop where
  rtpOnly : RtpOnly s
  accounted : s.phase = .priming ∨ s.phase = .decoding → s.Accounted bs

section Sessions

variable {bs : BitstreamMem} {c : Config} {s s' : Session}

theorem Session.Accounted.rtpOnly (ha : s.Accounted bs) : RtpOnly s := by
  obtain ⟨⟨queue, hring, hlen⟩, hcommits⟩ := ha
  refine ⟨by rw [hcommits], ?_⟩
  have hwindow := hring.staged_window
  rw [← hlen] at hwindow
  rw [hring.startAddr]
  exact hwindow

theorem RingOk.of_accounted (ha : s.Accounted bs) : RingOk bs s := ⟨ha.rtpOnly, fun _ => ha⟩

/-- Closing the decoder leaves what is in the ring. -/
theorem drop_ring (s : Session) (restart : Bool) :
    (∃ b, (drop s restart).ring = { s.ring with inUse := b }) ∧
      (drop s restart).rtpState = s.rtpState := by
  refine ⟨?_, rfl⟩
  unfold drop Session.decClose
  simp only
  split
  · exact ⟨false, rfl⟩
  · exact ⟨s.ring.inUse, rfl⟩

theorem rtpOnly_drop_iff (s : Session) (restart : Bool) : RtpOnly (drop s restart) ↔ RtpOnly s := by
  obtain ⟨⟨b, hring⟩, hstate⟩ := drop_ring s restart
  constructor
  · rintro ⟨hcommits, hstaged⟩
    rw [hring] at hcommits hstaged
    rw [hstate] at hstaged
    exact ⟨hcommits, hstaged⟩
  · rintro ⟨hcommits, hstaged⟩
    refine ⟨?_, ?_⟩
    · rw [hring]
      exact hcommits
    · rw [hring, hstate]
      exact hstaged

theorem SameRing.rtpOnly_iff (h : SameRing s s') : RtpOnly s' ↔ RtpOnly s := by
  constructor
  · rintro ⟨hcommits, hstaged⟩
    rw [h.ring] at hcommits hstaged
    rw [h.rtpState] at hstaged
    exact ⟨hcommits, hstaged⟩
  · rintro ⟨hcommits, hstaged⟩
    refine ⟨?_, ?_⟩
    · rw [h.ring]
      exact hcommits
    · rw [h.ring, h.rtpState]
      exact hstaged

theorem rtpOnly_disconnect_iff (s : Session) : RtpOnly (disconnect c s) ↔ RtpOnly s := by
  have hclear : SameRing s (clearPending s) := by
    unfold clearPending
    split
    · exact ⟨rfl, rfl⟩
    · exact SameRing.refl s
  unfold disconnect
  simp only
  rw [rtpOnly_drop_iff]
  split
  · exact (hclear.trans (still_gwSet _ false).sameRing).rtpOnly_iff
  · exact hclear.rtpOnly_iff

/-- A session that is dropped has no open decoder any more. -/
theorem RingOk.drop (h : RtpOnly s) (restart : Bool) : RingOk bs (drop s restart) := by
  refine ⟨(rtpOnly_drop_iff s restart).mpr h, ?_⟩
  intro hphase
  simp only [Stream.drop] at hphase
  split at hphase <;> simp at hphase

theorem RingOk.disconnect (h : RtpOnly s) : RingOk bs (disconnect c s) := by
  refine ⟨(rtpOnly_disconnect_iff s).mpr h, ?_⟩
  intro hphase
  simp only [Stream.disconnect, Stream.drop] at hphase
  split at hphase <;> simp at hphase

/-- A turn that receives nothing on the path without a frame keeps the account. -/
theorem decodeTurn_ringOk (hrtp : c.rtp = true) (ha : s.Accounted bs) (t : Turn)
    (hraw : ¬ RawFeed c s t) : RingOk bs (decodeTurn c s t) := by
  have hstart := startTurn_accounted hrtp ha t
  unfold RawFeed at hraw
  unfold decodeTurn
  simp only
  generalize startTurn c s t = started at hstart hraw ⊢
  obtain ⟨s₁, go⟩ := started
  simp only at hstart hraw ⊢
  split
  swap
  · exact RingOk.disconnect hstart.rtpOnly
  rename_i hgo
  have hwait := busyWait_accounted hrtp hstart (t.busy.take 31)
  generalize busyWait c (t.busy.take 31) s₁ = waited at hwait hraw ⊢
  obtain ⟨s₂, gone⟩ := waited
  simp only at hwait hraw ⊢
  split
  · exact RingOk.disconnect hwait.rtpOnly
  rename_i hstay
  have hfinish : (finishTurn c s₂ t).1.Accounted bs := by
    obtain ⟨hstate, hring⟩ := finishTurn_ring (c := c) t s₂
    unfold Session.Accounted
    rw [hstate, hring]
    split
    · rename_i hnone
      -- the path without a frame: nothing is received there
      have hidle : (feed s₂.ring true t.pollReady t.recv).2 ≤ 0 := by
        obtain ⟨queue, hr, -⟩ := hwait.staged
        rw [← not_lt, feed_pos_iff hr]
        intro hreceives
        exact hraw ⟨hgo, by simpa using hstay, hnone.1, hnone.2.1, hnone.2.2, hreceives⟩
      obtain ⟨queue, hr, hlen⟩ := hwait.staged
      obtain ⟨queue', hr', hcommits⟩ := feed_idle hr hidle
      refine ⟨?_, ?_⟩
      · rw [feed_remarks]
        exact ⟨queue', hr', hlen⟩
      · rw [feed_remarks, hcommits]
        exact hwait.commits
    · exact hwait
  generalize finishTurn c s₂ t = finished at hfinish ⊢
  obtain ⟨s₃, again⟩ := finished
  simp only at hfinish ⊢
  split
  · exact RingOk.of_accounted hfinish
  · exact RingOk.disconnect hfinish.rtpOnly

/-- What is received there is committed beside the account. -/
theorem decodeTurn_overfed (hrtp : c.rtp = true) (ha : s.Accounted bs) (t : Turn)
    (hraw : RawFeed c s t) : ¬ RtpOnly (decodeTurn c s t) := by
  obtain ⟨hgo, hstay, hret, hdecoded, hdisplay, hreceives⟩ := hraw
  have hwait := busyWait_accounted hrtp (startTurn_accounted hrtp ha t) (t.busy.take 31)
  obtain ⟨hstate, hring⟩ := finishTurn_ring (c := c) t
    (busyWait c (t.busy.take 31) (startTurn c s t).1).1
  rw [if_pos ⟨hret, hdecoded, hdisplay⟩] at hring
  have hturn : decodeTurn c s t =
      if (finishTurn c (busyWait c (t.busy.take 31) (startTurn c s t).1).1 t).2 then
        (finishTurn c (busyWait c (t.busy.take 31) (startTurn c s t).1).1 t).1
      else disconnect c (finishTurn c (busyWait c (t.busy.take 31) (startTurn c s t).1).1 t).1 := by
    unfold decodeTurn
    simp only [hgo, hstay, if_true, Bool.false_eq_true, if_false]
  have hover : ¬ RtpOnly
      (finishTurn c (busyWait c (t.busy.take 31) (startTurn c s t).1).1 t).1 := by
    generalize busyWait c (t.busy.take 31) (startTurn c s t).1 = waited at *
    obtain ⟨queue, hr, -⟩ := hwait.staged
    have hpos := (feed_pos_iff hr).mpr hreceives
    obtain ⟨-, -, hcommits⟩ := feed_spec hr.unstage true t.pollReady t.recv
    rintro ⟨hflat, -⟩
    rw [hring, feed_remarks, hcommits, hwait.commits] at hflat
    obtain ⟨-, -, data, hdata, hrecv⟩ := hreceives
    have htaken : 0 < (data.take (feed waited.1.ring true t.pollReady t.recv).2.toNat).length := by
      have := List.length_pos_iff.mpr hdata
      rw [List.length_take]
      omega
    have hlen := congrArg List.length hflat
    simp only [received, hrecv, List.flatten_append, List.length_append] at hlen
    rw [← hrecv, if_pos hpos] at hlen
    simp only [List.flatten_cons, List.flatten_nil, List.append_nil] at hlen
    omega
  rw [hturn]
  split
  · exact hover
  · rw [rtpOnly_disconnect_iff]
    exact hover

theorem tryInitialInfo_ringOk (ha : s.Accounted bs) (seq : SeqInit) :
    RingOk bs (tryInitialInfo s seq) := by
  apply RingOk.of_accounted
  refine SameRing.accounted ?_ ha
  unfold tryInitialInfo
  simp only
  split <;> exact ⟨rfl, rfl⟩

theorem primeTurn_ringOk (hrtp : c.rtp = true) (ha : s.Accounted bs) (t : PrimeTurn) :
    RingOk bs (primeTurn c s t) := by
  have hfeed : Session.Accounted bs
      (({ s with primeTries := s.primeTries + 1 } : Session).rtpFeed c t.packets).1 :=
    rtpFeed_accounted (SameRing.accounted ⟨rfl, rfl⟩ ha) t.packets
  unfold primeTurn
  split
  · exact RingOk.of_accounted ha
  split
  · exact RingOk.drop ha.rtpOnly _
  simp only
  generalize ({ s with primeTries := s.primeTries + 1 } : Session).rtpFeed c t.packets = fed
    at hfeed ⊢
  obtain ⟨s₁, fr⟩ := fed
  simp only at hfeed ⊢
  split_ifs
  · exact RingOk.drop hfeed.rtpOnly _
  · exact RingOk.of_accounted hfeed
  · exact tryInitialInfo_ringOk hfeed t.seq

theorem registerFrames_ringOk (ha : s.Accounted bs) (b : Buffers) (e : Entry) :
    RingOk bs (registerFrames c s b e) := by
  unfold registerFrames
  split
  · exact RingOk.drop ha.rtpOnly _
  simp only
  split
  · exact RingOk.of_accounted (SameRing.accounted ⟨rfl, rfl⟩ ha)
  · refine RingOk.drop ((SameRing.rtpOnly_iff (s := s) ?_).mpr ha.rtpOnly) _
    exact ⟨rfl, rfl⟩

theorem enterLoop_ringOk (ha : s.Accounted bs) (e : Entry) : RingOk bs (enterLoop c s e) := by
  unfold enterLoop
  split
  swap
  · exact RingOk.of_accounted ha
  simp only
  split
  · refine RingOk.drop ((SameRing.rtpOnly_iff (s := s) ?_).mpr ha.rtpOnly) _
    exact ⟨rfl, rfl⟩
  split
  · refine RingOk.drop ((SameRing.rtpOnly_iff (s := s) ?_).mpr ha.rtpOnly) _
    exact ⟨rfl, rfl⟩
  split
  · refine registerFrames_ringOk ?_ _ e
    exact SameRing.accounted (s := s) ⟨rfl, rfl⟩ ha
  split
  · exact RingOk.of_accounted (SameRing.accounted (s := s) ⟨rfl, rfl⟩ ha)
  · refine registerFrames_ringOk ?_ _ e
    exact SameRing.accounted (s := s) ⟨rfl, rfl⟩ ha

/-- `vpu_DecOpen` gives an empty ring, and the receiver starts with nothing staged. -/
theorem accounted_open (bs : BitstreamMem) (mem : ℕ → UInt8) (sched : List ℕ) :
    Accounted bs (vpuDecOpenRing bs.phyAddr streamBufSize mem sched) {} := by
  refine ⟨⟨[], ?_, rfl⟩, rfl⟩
  exact RingInv.decOpen mem sched (by decide) bs.below

/-- A receiver state with nothing staged asks nothing of the ring's memory. -/
theorem RtpOnly.fresh (h : RtpOnly s) (hring : s'.ring = s.ring) (hstate : s'.rtpState = {}) :
    RtpOnly s' := by
  refine ⟨?_, ?_⟩
  · rw [hring]
    exact h.commits
  · rw [hstate]
    exact (lastStaged_zero _).symm

theorem connect_ringOk (h : RtpOnly s) (hphase : s.phase = .waiting) (con : Connection) :
    RingOk bs (connect c bs s con) := by
  -- without a decoder the session keeps the old ring
  have hwaiting : ∀ s₁ : Session, s₁.phase = .waiting → s₁.ring = s.ring → s₁.rtpState = {} →
      RingOk bs s₁ := by
    intro s₁ hp hring hstate
    exact ⟨h.fresh hring hstate, by simp [hp]⟩
  have hopen : ∀ s₁ : Session, s₁.phase = .waiting → s₁.ring = s.ring → s₁.rtpState = {} →
      RingOk bs (openDecoder c bs s₁ con) := by
    intro s₁ hp hring hstate
    unfold openDecoder
    split
    · exact hwaiting s₁ hp hring hstate
    simp only
    split
    · apply RingOk.of_accounted
      unfold Session.Accounted
      rw [hstate]
      exact accounted_open bs con.mem con.sched
    · exact hwaiting _ hp hring hstate
  unfold connect
  simp only
  split
  · exact hopen _ hphase rfl rfl
  · exact hopen _ hphase rfl rfl

/-- Step `a` is not a turn whose path without a frame receives something. -/
def NoRawFeed (c : Config) (s : Session) (a : Step) : Prop :=
  ∀ t, a = .turn t → s.phase = .decoding → ¬ RawFeed c s t

theorem RingOk.step (hrtp : c.rtp = true) (h : RingOk bs s) {a : Step}
    (hraw : NoRawFeed c s a) : RingOk bs (step c bs s a) := by
  unfold Stream.step
  split
  · rename_i con hphase
    exact connect_ringOk h.rtpOnly hphase con
  · rename_i t hphase
    exact primeTurn_ringOk hrtp (h.accounted (.inl hphase)) t
  · rename_i e hphase
    exact enterLoop_ringOk (h.accounted (.inl hphase)) e
  · rename_i t hphase
    exact decodeTurn_ringOk hrtp (h.accounted (.inr hphase)) t (hraw t rfl hphase)
  · rename_i sig
    have hsame := (still_deliver s [sig]).sameRing
    refine ⟨hsame.rtpOnly_iff.mpr h.rtpOnly, ?_⟩
    rw [(still_deliver s [sig]).phase]
    intro hphase
    exact hsame.accounted (h.accounted hphase)
  · exact h

theorem noRawFeed_of_rtpOnly (hrtp : c.rtp = true) (h : RingOk bs s) {a : Step}
    (honly : RtpOnly (step c bs s a)) : NoRawFeed c s a := by
  rintro t rfl hphase hraw
  simp only [Stream.step, hphase] at honly
  exact decodeTurn_overfed hrtp (h.accounted (.inr hphase)) t hraw honly

theorem RingOk.init (bs : BitstreamMem) (warm : Bool) (v : Vpu) :
    RingOk bs (Session.init warm v) := by
  refine ⟨⟨rfl, ?_⟩, by simp [Session.init]⟩
  exact (lastStaged_zero _).symm

end Sessions

/-- **The ring of an RTP session.** In every run with `--rtp`, the bytes committed to the ring are
those of the access units `rtp_direct_flush` chose, and what is staged stays in place, exactly when
no turn without a frame receives something with `feed`. -/
theorem rtp_ring_holds_flushed_units_only (c : Config) (hrtp : c.rtp = true) (bs : BitstreamMem)
    (warm : Bool) (v : Vpu) (steps : List Step) :
    (∀ n, RtpOnly (stateAt (step c bs) (Session.init warm v) steps n)) ↔
      Along (step c bs) (Session.init warm v) steps (NoRawFeed c) := by
  apply forall_good_iff_along (RingOk.init bs warm v)
  · intro s a h hraw
    exact h.step hrtp hraw
  · intro s h
    exact h.rtpOnly
  · intro s a h honly
    exact noRawFeed_of_rtpOnly hrtp h honly

/-- An MPEG-4 stream over RTP on an 800x480 display. -/
def rtpConfig : Config := { tcpConfig with rtp := true }

/-- An RTP packet with sequence number `seq` and timestamp `ts`. -/
def smallPacket (marker : Bool) (seq ts : UInt8) (payload : List UInt8) : List UInt8 :=
  [0x80, if marker then 0xe0 else 0x60, 0, seq, 0, 0, 0, ts, 0, 0, 0, 0] ++ payload

/-- A session whose first turn yields no frame while a unit is staged and a packet is waiting. -/
def rawDatagram : List Step :=
  [.connect ⟨0, true, true, fun _ => 0, []⟩,
    .prime ⟨[.bytes (smallPacket true 0 1 [0, 0, 1, 0xb6, 0])], true, .fail,
      ⟨false, true, 352 * 1024 + 288, 3, 0, 0⟩⟩,
    .enter ⟨⟨4, List.replicate 7 (some 0), true, true, true⟩, true, 0⟩,
    .turn { quietTurn (-1) [] with
      packets := [.bytes (smallPacket false 1 2 [0, 0, 1, 0xb6, 0])]
      pollReady := true
      recv := .bytes (smallPacket true 2 2 [1, 2, 3]) }]

theorem rtp_ring_holds_flushed_units_only_rtpConfig :
    rtpConfig.rtp = true ∧
      ((∀ n, RtpOnly (stateAt (step rtpConfig ⟨4096, by decide⟩)
          (Session.init false (startedVpu Semaphore.zero false true)) rawDatagram n)) ↔
        Along (step rtpConfig ⟨4096, by decide⟩)
          (Session.init false (startedVpu Semaphore.zero false true)) rawDatagram
          (NoRawFeed rtpConfig)) :=
  ⟨rfl, rtp_ring_holds_flushed_units_only rtpConfig rfl ⟨4096, by decide⟩ false
    (startedVpu Semaphore.zero false true) rawDatagram⟩

/-- The packet is committed with its RTP header, over the staged unit. -/
theorem rtp_ring_holds_raw_datagram :
    ¬ ∀ n, RtpOnly (stateAt (step rtpConfig ⟨4096, by decide⟩)
      (Session.init false (startedVpu Semaphore.zero false true)) rawDatagram n) := by
  intro hall
  have hcommits := (hall 4).commits
  revert hcommits
  decide +kernel

end Stream
end ToonVpu
