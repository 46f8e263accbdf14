import ToonVpu.Foundation.Monitor
import ToonVpu.Foundation.Runs
import ToonVpu.Stream.SessionBuffers
import ToonVpu.Stream.SessionDisplay
import ToonVpu.Stream.SessionLock

/-!
# SessionWatchdog — waiting for a peer

While `g_hb_active` is set, a second thread kills the program when the main thread has not called
`hb` for 10 seconds.  The flag is dropped before `accept` and raised once there is a socket, so what
the main thread waits for from then on has to come to an end by itself.

This file follows the calls of the main thread on its sockets with all that bounds them: the mode of
the socket as `fcntl` left it, `SO_RCVTIMEO`, and a `poll` with a timeout before the call.  The
first `recv` of a turn of the prime loop with `--rtp` has none of these.
-/

namespace ToonVpu
namespace Stream

open Foundation
open Foundation.Monitor
open Foundation.Runs
open Lib

/-! ## Calls -/

inductive SocketCall
  /-- `g_hb_active`. -/
  | active (on : Bool)
  /-- `O_NONBLOCK` of the listening socket. -/
  | listenNonblock (on : Bool)
  | accept
  /-- A new socket that does not come from `accept`. -/
  | create
  /-- `SO_RCVTIMEO` is set. -/
  | rcvTimeo
  /-- `fcntl(sock, F_SETFL, ..)`. -/
  | setNonblock (on : Bool)
  /-- `poll` with a timeout, and whether it found something. -/
  | poll (ready : Bool)
  | recv
  deriving DecidableEq, Repr

/-- What the next call goes by. -/
structure Sockets where
  active : Bool
  listenNonblock : Bool
  nonblock : Bool
  rcvTimeo : Bool
  /-- A `poll` found something, and nothing was received since. -/
  polled : Bool
  deriving DecidableEq, Repr

namespace Sockets

/-- A new socket blocks and has no timeout. -/
def opened (g : Sockets) : Sockets :=
  { g with nonblock := false, rcvTimeo := false, polled := false }

def next (g : Sockets) : SocketCall → Sockets
  | .active on => { g with active := on }
  | .listenNonblock on => { g with listenNonblock := on }
  | .accept | .create => g.opened
  | .rcvTimeo => { g with rcvTimeo := true }
  | .setNonblock on => { g with nonblock := on }
  | .poll ready => { g with polled := ready }
  | .recv => { g with polled := false }

/-- The call waits, and nothing bounds the wait. -/
def waitsForever (g : Sockets) : SocketCall → Bool
  | .accept => !g.listenNonblock
  | .recv => !g.nonblock && !g.rcvTimeo && !g.polled
  | _ => false

/-- The sockets when the program comes to its first connection; the watchdog is active since before
`vpu_Init`. -/
def init : Sockets := ⟨true, false, false, false, false⟩

end Sockets

/-- A wait that may take forever is not watched. -/
def WaitAllowed (g : Sockets) (call : SocketCall) : Prop :=
  g.waitsForever call = true → g.active = false

instance (g : Sockets) (call : SocketCall) : Decidable (WaitAllowed g call) :=
  inferInstanceAs (Decidable (_ → _))

def WaitsSpared (g : Sockets) (calls : List SocketCall) : Prop :=
  Watched Sockets.next WaitAllowed g calls

/-! ## The calls of the receivers -/

def feedCalls (h : Decoder) (block pollReady : Bool) : List SocketCall :=
  let (_, buf) := vpuDecGetBitstreamBuffer h
  if buf.ret ≠ .success then
    []
  else if buf.size < 512 then
    []
  else if block then
    .poll pollReady :: (if pollReady then [.setNonblock false, .recv] else [])
  else
    [.setNonblock true, .recv]

def feedUntilWatermarkCalls (targetUsed : ℤ) : List Recv → Decoder → List SocketCall
  | [], _ => []
  | r :: recvs, h =>
    let (h, used) := bitstreamUsed h
    if targetUsed ≤ used then
      []
    else
      let (h', n) := feed h false true r
      feedCalls h false true ++
        (if 0 < n then feedUntilWatermarkCalls targetUsed recvs h' else [])

/-- The loop of `feed_skip_to_latest`. -/
def drainCalls : List Recv → List UInt8 → List SocketCall
  | .bytes data :: rest, tmp =>
    let got := data.take (drainBufSize - tmp.length)
    if drainBufSize ≤ tmp.length then
      []
    else
      .recv :: (if got.length = 0 then [] else drainCalls rest (tmp ++ got))
  | _, tmp => if drainBufSize ≤ tmp.length then [] else [.recv]

def feedSkipToLatestCalls (codec : CodStd) (h : Decoder) (b : Backlog) : List SocketCall :=
  if codec = .avc then
    []
  else
    match b.pending with
    | none => []
    | some pending =>
      if pending < 32768 ∧ (bitstreamUsed h).2 < 262144 then []
      else .setNonblock true :: drainCalls b.drain []

/-- The loop of `rtp_feed_direct`. -/
def rtpFeedDirectLoopCalls (block : Bool) (packets : ℕ) : List Recv → List SocketCall
  | .bytes data :: rest =>
    .recv ::
      (if (data.take 65536).length = 0 then
        []
      else
        (if block then [.setNonblock true] else []) ++
          (if 256 ≤ packets + 1 then [] else rtpFeedDirectLoopCalls block (packets + 1) rest))
  | _ => [.recv]

def rtpFeedDirectCalls (block : Bool) (recvs : List Recv) : List SocketCall :=
  .setNonblock (!block) :: rtpFeedDirectLoopCalls block 0 recvs

/-- `feed_until_watermark(h, BS_LOW_WATER * 2, 16)`. -/
def watermarkCalls (reads : List Recv) (s : Session) : List SocketCall :=
  feedUntilWatermarkCalls (bsLowWater * 2) (reads.take 16) s.ring

/-! ## The calls of a step -/

/-- From the head of the per-connection loop to the open decoder.  `queued` is the number of stale
sockets that are discarded. -/
def connectCalls (c : Config) (rtsp : Bool) (queued : ℕ) : List SocketCall :=
  .active false ::
    ((if rtsp || c.rtp then
      [.create]
    else
      .accept :: .listenNonblock true ::
        (List.replicate (queued + 1) .accept ++ [.listenNonblock false, .rcvTimeo])) ++
      [.active true])

def primeCalls (c : Config) (s : Session) (t : PrimeTurn) : List SocketCall :=
  if s.inited then
    []
  else if primeLimit c ≤ s.primeTries then
    []
  else if c.rtp then
    rtpFeedDirectCalls true t.packets
  else
    feedCalls s.ring true t.pollReady

def feedFirstCalls (c : Config) (t : Turn) (s : Session) : List SocketCall :=
  if c.rtp then
    rtpFeedDirectCalls false t.packets
  else
    let (v, ring) := feedSkipToLatest c.codec s.vpu s.h s.ring t.backlog
    feedSkipToLatestCalls c.codec s.ring t.backlog ++
      watermarkCalls t.reads { s with vpu := v, ring := ring }

def feedMoreCalls (c : Config) (t : Turn) (s : Session) (rc : ℤ) : List SocketCall :=
  if 0 < c.prebuffer ∧ rc ≤ 0 then
    let (s, used) := usedNow s
    if 0 ≤ used ∧ used < c.prebuffer then
      .poll t.prePoll ::
        (if t.prePoll then
          (if c.rtp then rtpFeedDirectCalls false t.prePackets else watermarkCalls t.preReads s)
        else [])
    else
      []
  else
    []

/-- The feeds before the frame is started. -/
def startCalls (c : Config) (s : Session) (t : Turn) : List SocketCall :=
  let (s, _) := usedNow s
  let s := coolDown (s.deliver (t.signals 0))
  let (s', rc) := feedFirst c t s
  feedFirstCalls c t s ++ feedMoreCalls c t s' rc

def busyRefillCalls (c : Config) (b : BusyTurn) (s : Session) : List SocketCall :=
  if c.rtp then
    []
  else
    let (s, used) := usedNow s
    if used < bsLowWater then watermarkCalls b.reads s else []

def busyFeedCalls (c : Config) (b : BusyTurn) (s : Session) : List SocketCall :=
  let (s, used) := usedNow s
  if used < bsLowWater then
    if c.rtp then rtpFeedDirectCalls false b.packets else feedCalls s.ring false true
  else
    []

/-- The feeds while the VPU is busy. -/
def busyCalls (c : Config) : List BusyTurn → Session → List SocketCall
  | [], _ => []
  | b :: rest, s =>
    let s' := busyRefill c b s
    busyRefillCalls c b s ++
      (if b.timeout then
        let (s'', fr) := busyFeed c b s'
        busyFeedCalls c b s' ++
          (if fr = 0 then []
          else busyCalls c rest (if 0 < fr then { s'' with lastDataMs := b.now } else s''))
      else
        busyCalls c rest s')

def noFrameCalls (t : Turn) (s : Session) : List SocketCall :=
  if t.oi.indexFrameDecoded < 0 ∧ t.oi.indexFrameDisplay < 0 then
    feedCalls s.ring true t.pollReady
  else
    []

/-- The feed after the wait. -/
def finishCalls (c : Config) (s : Session) (t : Turn) : List SocketCall :=
  let (v, ret) := vpuDecGetOutputInfo s.vpu s.h true
  if ret ≠ .success then [] else noFrameCalls t (atDisplay c t { s with vpu := v })

def turnSocketCalls (c : Config) (s : Session) (t : Turn) : List SocketCall :=
  startCalls c s t ++
    (if startsFrame c s t then
      busyCalls c (t.busy.take 31) (startTurn c s t).1 ++
        (if (afterWait c s t).2 then [] else finishCalls c (afterWait c s t).1 t)
    else [])

/-! ## Runs -/

/-- A session with the calls on its sockets since the program started. -/
structure Receiver where
  session : Session
  trace : List SocketCall

/-- A step with the number of stale sockets that it finds queued if it accepts a connection. -/
structure ReceiverStep where
  action : Step
  queued : ℕ

/-- The calls of a step; `rtsp` says whether `--rtsp` was given. -/
def stepCalls (c : Config) (rtsp : Bool) (s : Session) (a : ReceiverStep) : List SocketCall :=
  match a.action, s.phase with
  | .connect _, .waiting => connectCalls c rtsp a.queued
  | .prime t, .priming => primeCalls c s t
  | .turn t, .decoding => turnSocketCalls c s t
  | _, _ => []

section Calls

variable (c : Config) (rtsp : Bool) (s : Session) (queued : ℕ)

theorem stepCalls_connect (con : Connection) :
    stepCalls c rtsp s ⟨.connect con, queued⟩ =
      if s.phase = .waiting then connectCalls c rtsp queued else [] := by
  cases h : s.phase <;> simp [stepCalls, h]

theorem stepCalls_prime (t : PrimeTurn) :
    stepCalls c rtsp s ⟨.prime t, queued⟩ =
      if s.phase = .priming then primeCalls c s t else [] := by
  cases h : s.phase <;> simp [stepCalls, h]

theorem stepCalls_turn (t : Turn) :
    stepCalls c rtsp s ⟨.turn t, queued⟩ =
      if s.phase = .decoding then turnSocketCalls c s t else [] := by
  cases h : s.phase <;> simp [stepCalls, h]

end Calls

def Receiver.step (c : Config) (rtsp : Bool) (bs : BitstreamMem) (x : Receiver)
    (a : ReceiverStep) : Receiver :=
  ⟨Stream.step c bs x.session a.action, x.trace ++ stepCalls c rtsp x.session a⟩

def Receiver.init (warm : Bool) (v : Vpu) : Receiver := ⟨Session.init warm v, []⟩

def Receiver.sockets (x : Receiver) : Sockets := x.trace.foldl Sockets.next .init

/-- The watchdog has spared every wait that may take forever. -/
def SparesWaits (x : Receiver) : Prop := WaitsSpared .init x.trace

/-- The step makes no turn of the prime loop in `--rtp` mode. -/
def PrimesOffRtp (c : Config) (x : Receiver) (a : ReceiverStep) : Prop :=
  ∀ t, a.action = .prime t → x.session.phase = .priming → x.session.inited = false →
    x.session.primeTries < primeLimit c → c.rtp = false

/-! ## Bounded calls -/

/-- Whatever came before, no call waits forever while it is watched. -/
def Bounded (calls : List SocketCall) : Prop := ∀ g, WaitsSpared g calls

section Calls

variable {c : Config} {calls calls' : List SocketCall}

theorem bounded_nil : Bounded [] := fun _ => watched_nil _ _ _

theorem Bounded.append (h : Bounded calls) (h' : Bounded calls') : Bounded (calls ++ calls') :=
  fun g => (watched_append _ _ g calls calls').mpr ⟨h g, h' _⟩

/-- A socket that does not block. -/
theorem spared_of_nonblock {g : Sockets} (hg : g.nonblock = true)
    (h : ∀ call ∈ calls, call = .recv ∨ call = .setNonblock true) : WaitsSpared g calls := by
  induction calls generalizing g with
  | nil => exact watched_nil _ _ _
  | cons call calls ih =>
    have hrest := fun call' hcall' => h call' (List.mem_cons_of_mem call hcall')
    rcases h call List.mem_cons_self with rfl | rfl
    · refine (watched_cons _ _ _ _ _).mpr ⟨?_, ih hg hrest⟩
      intro hwaits
      simp [Sockets.waitsForever, hg] at hwaits
    · refine (watched_cons _ _ _ _ _).mpr ⟨?_, ih rfl hrest⟩
      intro hwaits
      cases hwaits

theorem bounded_nonblock (h : ∀ call ∈ calls, call = .recv ∨ call = .setNonblock true) :
    Bounded (.setNonblock true :: calls) := by
  intro g
  refine (watched_cons _ _ _ _ _).mpr ⟨?_, spared_of_nonblock rfl h⟩
  intro hwaits
  cases hwaits

/-- `feed` polls where it would block. -/
theorem bounded_feed (h : Decoder) (block pollReady : Bool) :
    Bounded (feedCalls h block pollReady) := by
  unfold feedCalls
  simp only
  split
  · exact bounded_nil
  split
  · exact bounded_nil
  cases block with
  | false => exact bounded_nonblock (by simp)
  | true =>
    cases pollReady with
    | false =>
      intro g
      simp [WaitsSpared, WaitAllowed, Sockets.waitsForever]
    | true =>
      intro g
      simp [WaitsSpared, WaitAllowed, Sockets.waitsForever, Sockets.next]

theorem bounded_feedUntilWatermark (targetUsed : ℤ) (recvs : List Recv) (h : Decoder) :
    Bounded (feedUntilWatermarkCalls targetUsed recvs h) := by
  induction recvs generalizing h with
  | nil => exact bounded_nil
  | cons r recvs ih =>
    simp only [feedUntilWatermarkCalls]
    split
    · exact bounded_nil
    · refine (bounded_feed _ _ _).append ?_
      split
      · exact ih _
      · exact bounded_nil

theorem drainCalls_recv (reads : List Recv) (tmp : List UInt8) :
    ∀ call ∈ drainCalls reads tmp, call = .recv := by
  induction reads generalizing tmp with
  | nil =>
    unfold drainCalls
    split <;> simp
  | cons r reads ih =>
    cases r with
    | fail =>
      unfold drainCalls
      split <;> simp
    | bytes data =>
      unfold drainCalls
      simp only
      split
      · simp
      · intro call hcall
        rcases List.mem_cons.mp hcall with rfl | hcall
        · rfl
        · split at hcall
          · cases hcall
          · exact ih _ call hcall

theorem bounded_feedSkipToLatest (codec : CodStd) (h : Decoder) (b : Backlog) :
    Bounded (feedSkipToLatestCalls codec h b) := by
  unfold feedSkipToLatestCalls
  split
  · exact bounded_nil
  cases b.pending with
  | none => exact bounded_nil
  | some pending =>
    simp only
    split
    · exact bounded_nil
    · exact bounded_nonblock fun call hcall => .inl (drainCalls_recv _ _ call hcall)

theorem rtpFeedDirectLoopCalls_recv (recvs : List Recv) (packets : ℕ) :
    ∀ call ∈ rtpFeedDirectLoopCalls false packets recvs, call = .recv := by
  induction recvs generalizing packets with
  | nil => simp [rtpFeedDirectLoopCalls]
  | cons r recvs ih =>
    cases r with
    | fail => simp [rtpFeedDirectLoopCalls]
    | bytes data =>
      intro call hcall
      simp only [rtpFeedDirectLoopCalls, Bool.false_eq_true, if_false, List.nil_append] at hcall
      rcases List.mem_cons.mp hcall with rfl | hcall
      · rfl
      · split_ifs at hcall
        · cases hcall
        · cases hcall
        · exact ih _ call hcall

theorem bounded_rtpFeedDirect (recvs : List Recv) : Bounded (rtpFeedDirectCalls false recvs) :=
  bounded_nonblock fun call hcall => .inl (rtpFeedDirectLoopCalls_recv recvs 0 call hcall)

/-! ## The decode loop -/

theorem bounded_watermark (reads : List Recv) (s : Session) : Bounded (watermarkCalls reads s) :=
  bounded_feedUntilWatermark _ _ _

theorem bounded_poll (ready : Bool) (h : Bounded calls) : Bounded (.poll ready :: calls) := by
  intro g
  refine (watched_cons _ _ _ _ _).mpr ⟨?_, h _⟩
  intro hwaits
  cases hwaits

theorem bounded_start (c : Config) (s : Session) (t : Turn) : Bounded (startCalls c s t) := by
  have hfirst : ∀ s : Session, Bounded (feedFirstCalls c t s) := by
    intro s
    unfold feedFirstCalls
    split
    · exact bounded_rtpFeedDirect _
    · exact (bounded_feedSkipToLatest _ _ _).append (bounded_watermark _ _)
  have hmore : ∀ (s : Session) (rc : ℤ), Bounded (feedMoreCalls c t s rc) := by
    intro s rc
    unfold feedMoreCalls
    simp only
    split
    · split
      · apply bounded_poll
        split
        · split
          · exact bounded_rtpFeedDirect _
          · exact bounded_watermark _ _
        · exact bounded_nil
      · exact bounded_nil
    · exact bounded_nil
  unfold startCalls
  exact (hfirst _).append (hmore _ _)

theorem bounded_busy (c : Config) (busy : List BusyTurn) (s : Session) :
    Bounded (busyCalls c busy s) := by
  have hrefill : ∀ (b : BusyTurn) (s : Session), Bounded (busyRefillCalls c b s) := by
    intro b s
    unfold busyRefillCalls
    simp only
    split
    · exact bounded_nil
    split
    · exact bounded_watermark _ _
    · exact bounded_nil
  have hfeed : ∀ (b : BusyTurn) (s : Session), Bounded (busyFeedCalls c b s) := by
    intro b s
    unfold busyFeedCalls
    simp only
    split
    · split
      · exact bounded_rtpFeedDirect _
      · exact bounded_feed _ _ _
    · exact bounded_nil
  induction busy generalizing s with
  | nil => exact bounded_nil
  | cons b rest ih =>
    simp only [busyCalls]
    refine (hrefill b s).append ?_
    split
    · refine (hfeed b _).append ?_
      split
      · exact bounded_nil
      · exact ih _
    · exact ih _

/-- In the decode loop every wait is bounded, whatever the input. -/
theorem bounded_turn (c : Config) (s : Session) (t : Turn) : Bounded (turnSocketCalls c s t) := by
  have hfinish : ∀ s : Session, Bounded (finishCalls c s t) := by
    intro s
    unfold finishCalls noFrameCalls
    simp only
    split
    · exact bounded_nil
    split
    · exact bounded_feed _ _ _
    · exact bounded_nil
  unfold turnSocketCalls
  refine (bounded_start c s t).append ?_
  split
  · refine (bounded_busy c _ _).append ?_
    split
    · exact bounded_nil
    · exact hfinish _
  · exact bounded_nil

/-! ## The connection -/

/-- A watchdog that is not active spares every wait. -/
theorem spared_of_inactive {g : Sockets} (hg : g.active = false)
    (h : ∀ call ∈ calls, ∀ on, call ≠ .active on) : WaitsSpared g calls := by
  induction calls generalizing g with
  | nil => exact watched_nil _ _ _
  | cons call calls ih =>
    refine (watched_cons _ _ _ _ _).mpr ⟨fun _ => hg, ih ?_ ?_⟩
    · have hcall := h call List.mem_cons_self
      cases call with
      | active on => exact absurd rfl (hcall on)
      | _ => exact hg
    · exact fun call' hcall' => h call' (List.mem_cons_of_mem call hcall')

/-- `accept` may take forever, with the flag dropped. -/
theorem bounded_connect (c : Config) (rtsp : Bool) (queued : ℕ) :
    Bounded (connectCalls c rtsp queued) := by
  intro g
  refine (watched_cons _ _ _ _ _).mpr ⟨fun hwaits => absurd hwaits Bool.false_ne_true, ?_⟩
  refine (watched_append _ _ _ _ _).mpr ⟨spared_of_inactive rfl ?_, ?_⟩
  · intro call hcall on
    split at hcall
    · rw [List.mem_singleton.mp hcall]
      exact SocketCall.noConfusion
    · simp only [List.mem_cons, List.mem_append, List.mem_replicate, List.not_mem_nil,
        or_false] at hcall
      rcases hcall with rfl | rfl | ⟨-, rfl⟩ | rfl | rfl <;> exact SocketCall.noConfusion
  · refine (watched_cons _ _ _ _ _).mpr ⟨?_, watched_nil _ _ _⟩
    intro hwaits
    cases hwaits

/-- The watchdog is active, and neither a timeout nor a `poll` bounds the next `recv`. -/
def OpenEnded (g : Sockets) : Prop := g.active = true ∧ g.rcvTimeo = false ∧ g.polled = false

/-- The UDP socket gets no timeout. -/
theorem connect_openEnded (hrtp : c.rtp = true) (rtsp : Bool) (queued : ℕ) (g : Sockets) :
    OpenEnded ((connectCalls c rtsp queued).foldl Sockets.next g) := by
  unfold connectCalls
  rw [hrtp, Bool.or_true, if_pos rfl]
  exact ⟨rfl, rfl, rfl⟩

/-- The first packet of a prime turn is waited for without a bound. -/
theorem not_spared_of_openEnded {g : Sockets} (hg : OpenEnded g) (recvs : List Recv) :
    ¬ WaitsSpared g (rtpFeedDirectCalls true recvs) := by
  obtain ⟨hactive, hrcvTimeo, hpolled⟩ := hg
  have hfirst : ∃ rest, rtpFeedDirectLoopCalls true 0 recvs = .recv :: rest := by
    cases recvs with
    | nil => exact ⟨_, rfl⟩
    | cons r recvs => cases r <;> exact ⟨_, rfl⟩
  obtain ⟨rest, hrest⟩ := hfirst
  intro hspared
  rw [rtpFeedDirectCalls, hrest] at hspared
  have hrecv := ((watched_cons _ _ _ _ _).mp ((watched_cons _ _ _ _ _).mp hspared).2).1
  have hdropped : g.active = false := hrecv (by
    simp [Sockets.waitsForever, Sockets.next, hrcvTimeo, hpolled])
  rw [hactive] at hdropped
  cases hdropped

end Calls

/-! ## Steps -/

/-- Every wait so far was spared, and a session that primes over RTP waits without a bound. -/
structure ReceiverInv (c : Config) (x : Receiver) : Prop where
  spared : SparesWaits x
  priming : x.session.phase = .priming → c.rtp = true → OpenEnded x.sockets

section Steps

variable {c : Config} {rtsp : Bool} {bs : BitstreamMem} {x : Receiver}

theorem sparesWaits_append {s' : Session} {calls : List SocketCall} (h : SparesWaits x) :
    SparesWaits ⟨s', x.trace ++ calls⟩ ↔ WaitsSpared x.sockets calls :=
  (watched_append _ _ _ _ _).trans (and_iff_right h)

/-- A step that ends in another phase than the prime loop. -/
theorem ReceiverInv.append {s' : Session} {calls : List SocketCall} (h : ReceiverInv c x)
    (hcalls : Bounded calls) (hphase : s'.phase ≠ .priming ∨ c.rtp = false) :
    ReceiverInv c ⟨s', x.trace ++ calls⟩ := by
  refine ⟨(sparesWaits_append h.spared).mpr (hcalls _), ?_⟩
  intro hpriming hrtp
  rcases hphase with hne | hoff
  · exact absurd hpriming hne
  · rw [hrtp] at hoff
    cases hoff

/-- A step without a call. -/
theorem ReceiverInv.silent {s' : Session} (h : ReceiverInv c x)
    (hphase : s'.phase = .priming → x.session.phase = .priming) :
    ReceiverInv c ⟨s', x.trace ++ []⟩ := by
  rw [List.append_nil]
  exact ⟨h.spared, fun hpriming => h.priming (hphase hpriming)⟩

theorem ReceiverInv.connect (h : ReceiverInv c x) (s' : Session) (queued : ℕ) :
    ReceiverInv c ⟨s', x.trace ++ connectCalls c rtsp queued⟩ := by
  refine ⟨(sparesWaits_append h.spared).mpr (bounded_connect c rtsp queued _), ?_⟩
  intro _ hrtp
  have hsockets : Receiver.sockets ⟨s', x.trace ++ connectCalls c rtsp queued⟩ =
      (connectCalls c rtsp queued).foldl Sockets.next x.sockets := List.foldl_append
  rw [hsockets]
  exact connect_openEnded hrtp rtsp queued x.sockets

/-- A turn of the prime loop that reads nothing. -/
theorem primeTurn_phase {s : Session} (t : PrimeTurn)
    (hend : s.inited = true ∨ primeLimit c ≤ s.primeTries) :
    (primeTurn c s t).phase = .priming → s.phase = .priming := by
  unfold primeTurn
  intro hpriming
  cases hinited : s.inited with
  | true =>
    rw [hinited, if_pos rfl] at hpriming
    exact hpriming
  | false =>
    have hlimit : primeLimit c ≤ s.primeTries := by
      rcases hend with h | h
      · rw [hinited] at h
        cases h
      · exact h
    rw [hinited, if_neg Bool.false_ne_true, if_pos hlimit] at hpriming
    exact absurd hpriming (drop_phase _ _).2

/-- **A turn of the prime loop** spares every wait exactly when it does not read RTP. -/
theorem ReceiverInv.prime (h : ReceiverInv c x) (t : PrimeTurn)
    (hphase : x.session.phase = .priming) :
    (SparesWaits ⟨primeTurn c x.session t, x.trace ++ primeCalls c x.session t⟩ ↔
        (x.session.inited = false → x.session.primeTries < primeLimit c → c.rtp = false)) ∧
      (SparesWaits ⟨primeTurn c x.session t, x.trace ++ primeCalls c x.session t⟩ →
        ReceiverInv c ⟨primeTurn c x.session t, x.trace ++ primeCalls c x.session t⟩) := by
  -- A decoder that is initialized or out of tries asks for nothing; the others read RTP or TCP.
  cases hinited : x.session.inited with
  | true =>
    have hcalls : primeCalls c x.session t = [] := by simp [primeCalls, hinited]
    rw [hcalls]
    have hinv := h.silent (primeTurn_phase (c := c) t (.inl hinited))
    exact ⟨iff_of_true hinv.spared fun hfalse => absurd hfalse.symm Bool.false_ne_true,
      fun _ => hinv⟩
  | false =>
    by_cases hlimit : primeLimit c ≤ x.session.primeTries
    · have hcalls : primeCalls c x.session t = [] := by simp [primeCalls, hlimit]
      rw [hcalls]
      have hinv := h.silent (primeTurn_phase (c := c) t (.inr hlimit))
      exact ⟨iff_of_true hinv.spared fun _ hlt => absurd hlimit (not_le.mpr hlt), fun _ => hinv⟩
    · cases hrtp : c.rtp with
      | true =>
        have hcalls : primeCalls c x.session t = rtpFeedDirectCalls true t.packets := by
          simp [primeCalls, hinited, hlimit, hrtp]
        rw [hcalls]
        have hnot : ¬ SparesWaits ⟨primeTurn c x.session t,
            x.trace ++ rtpFeedDirectCalls true t.packets⟩ := by
          rw [sparesWaits_append h.spared]
          exact not_spared_of_openEnded (h.priming hphase hrtp) t.packets
        refine ⟨iff_of_false hnot ?_, fun hspared => absurd hspared hnot⟩
        intro hall
        cases hall rfl (not_le.mp hlimit)
      | false =>
        have hcalls : primeCalls c x.session t = feedCalls x.session.ring true t.pollReady := by
          simp [primeCalls, hinited, hlimit, hrtp]
        rw [hcalls]
        have hinv : ReceiverInv c ⟨primeTurn c x.session t,
            x.trace ++ feedCalls x.session.ring true t.pollReady⟩ :=
          h.append (bounded_feed x.session.ring true t.pollReady) (.inr hrtp)
        exact ⟨iff_of_true hinv.spared fun _ _ => rfl, fun _ => hinv⟩

/-- Every step spares every wait exactly when it does not read RTP in the prime loop. -/
theorem ReceiverInv.step (h : ReceiverInv c x) (a : ReceiverStep) :
    (SparesWaits (x.step c rtsp bs a) ↔ PrimesOffRtp c x a) ∧
      (SparesWaits (x.step c rtsp bs a) → ReceiverInv c (x.step c rtsp bs a)) := by
  obtain ⟨action, queued⟩ := a
  have hother : (∀ t, action ≠ .prime t) → ReceiverInv c (x.step c rtsp bs ⟨action, queued⟩) →
      (SparesWaits (x.step c rtsp bs ⟨action, queued⟩) ↔ PrimesOffRtp c x ⟨action, queued⟩) ∧
        (SparesWaits (x.step c rtsp bs ⟨action, queued⟩) →
          ReceiverInv c (x.step c rtsp bs ⟨action, queued⟩)) := by
    intro hne hinv
    exact ⟨iff_of_true hinv.spared fun t ht => absurd ht (hne t), fun _ => hinv⟩
  cases action with
  | connect con =>
    apply hother (fun t => Step.noConfusion)
    unfold Receiver.step
    rw [step_connect, stepCalls_connect]
    by_cases hphase : x.session.phase = .waiting
    · rw [if_pos hphase, if_pos hphase]
      exact h.connect _ queued
    · rw [if_neg hphase, if_neg hphase]
      exact h.silent id
  | prime t =>
    unfold Receiver.step
    rw [step_prime, stepCalls_prime]
    by_cases hphase : x.session.phase = .priming
    · rw [if_pos hphase, if_pos hphase]
      obtain ⟨hiff, hinv⟩ := h.prime t hphase
      refine ⟨hiff.trans ⟨?_, ?_⟩, hinv⟩
      · rintro hall t' ht' -
        exact hall
      · exact fun hall => hall t rfl hphase
    · rw [if_neg hphase, if_neg hphase]
      have hinv : ReceiverInv c ⟨x.session, x.trace ++ []⟩ := h.silent id
      exact ⟨iff_of_true hinv.spared fun t' _ hpriming => absurd hpriming hphase, fun _ => hinv⟩
  | enter e =>
    apply hother (fun t => Step.noConfusion)
    unfold Receiver.step
    rw [step_enter]
    apply h.silent
    intro hpriming
    split at hpriming
    · assumption
    · exact hpriming
  | turn t =>
    apply hother (fun t => Step.noConfusion)
    unfold Receiver.step
    rw [step_decode, stepCalls_turn]
    by_cases hphase : x.session.phase = .decoding
    · rw [if_pos hphase, if_pos hphase]
      refine h.append (bounded_turn c x.session t) (.inl ?_)
      -- a turn stays in the loop or ends the connection
      rcases (sameSetup_decodeTurn (c := c) t x.session).phase with hsame | ⟨-, hne⟩
      · rw [hsame, hphase]
        exact Phase.noConfusion
      · exact hne
    · rw [if_neg hphase, if_neg hphase]
      exact h.silent id
  | signal sig =>
    apply hother (fun t => Step.noConfusion)
    unfold Receiver.step
    rw [step_signal]
    apply h.silent
    cases sig <;> exact id

theorem ReceiverInv.init (c : Config) (warm : Bool) (v : Vpu) :
    ReceiverInv c (Receiver.init warm v) := by
  refine ⟨watched_nil _ _ _, ?_⟩
  intro hpriming
  cases hpriming

end Steps

/-- **The progress watchdog.** In every run no wait that may take forever is watched, exactly when
no turn of the prime loop reads RTP. -/
theorem waits_spared_iff (c : Config) (rtsp : Bool) (bs : BitstreamMem) (warm : Bool) (v : Vpu)
    (steps : List ReceiverStep) :
    (∀ n, SparesWaits (stateAt (Receiver.step c rtsp bs) (Receiver.init warm v) steps n)) ↔
      Along (Receiver.step c rtsp bs) (Receiver.init warm v) steps (PrimesOffRtp c) := by
  apply forall_good_iff_along (ReceiverInv.init c warm v)
  · exact fun x a h hok => (h.step a).2 ((h.step a).1.mpr hok)
  · exact fun x h => h.spared
  · exact fun x a h hspared => (h.step a).1.mp hspared

/-- `tcpConfig` with `--rtp`. -/
def rtpListenConfig : Config := { tcpConfig with rtp := true }

/-- A receiver of RTP waits for its first packet. -/
def idleReceiver : List ReceiverStep :=
  [⟨.connect ⟨0, true, true, fun _ => 0, []⟩, 0⟩,
    ⟨.prime ⟨[.fail], true, .fail, ⟨false, true, 352 * 1024 + 288, 3, 0, 0⟩⟩, 0⟩]

theorem first_packet_watched :
    ¬ ∀ n, SparesWaits (stateAt (Receiver.step rtpListenConfig false ⟨4096, by decide⟩)
      (Receiver.init false (startedVpu Semaphore.zero false true)) idleReceiver n) := by
  intro hall
  have hcalls : (stateAt (Receiver.step rtpListenConfig false ⟨4096, by decide⟩)
      (Receiver.init false (startedVpu Semaphore.zero false true)) idleReceiver 2).trace =
      [.active false, .create, .active true, .setNonblock false, .recv] := by
    decide +kernel
  have hspared := hall 2
  rw [SparesWaits, hcalls, WaitsSpared] at hspared
  exact absurd hspared (by decide)

end Stream
end ToonVpu
