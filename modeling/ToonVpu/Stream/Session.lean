import Mathlib
import ToonVpu.Stream.Buffers
import ToonVpu.Stream.Feed
import ToonVpu.Stream.H264
import ToonVpu.Stream.Mpeg4

/-!
# Session — the per-connection loop (`main` of `apps/vpu_stream.c`)

A connection is primed until the sequence header parses, its buffers are registered, and then each
turn of the decode loop feeds the ring, decodes one frame and hands frames on to the display.  The
loop has many exits; all of them go through the code at the label `disc`.

One step of the model is one turn of the prime loop or of the decode loop.  What the sockets, the
hardware, the allocators, the clock and the signals do in a step comes with the step.  The
counters and times that are only printed are left out, and so are the pixels: `render_frame` is an
entry of the log with a given outcome.
-/

namespace ToonVpu
namespace Stream

open Foundation
open Lib

/-! ## Dropping a backlog -/

/-- `start_code_len`. -/
def startCodeLen (p : List UInt8) (i : ℕ) : ℕ :=
  if i + 3 < p.length ∧ byteAt p i = 0 ∧ byteAt p (i + 1) = 0 ∧ byteAt p (i + 2) = 0 ∧
      byteAt p (i + 3) = 1 then
    4
  else if i + 2 < p.length ∧ byteAt p i = 0 ∧ byteAt p (i + 1) = 0 ∧ byteAt p (i + 2) = 1 then
    3
  else
    0

/-- One round of the H.264 search: the last parameter set and where to start. -/
def resyncAvcStep (p : List UInt8) (x : Option ℕ × Option ℕ) (i : ℕ) : Option ℕ × Option ℕ :=
  let sc := startCodeLen p i
  if sc = 0 ∨ p.length ≤ i + sc then
    x
  else
    let nal := byteAt p (i + sc) % 32
    if nal = 7 ∨ nal = 8 then
      (some i, x.2)
    else if nal = 5 then
      (x.1, some (x.1.getD i))
    else
      x

/-- `find_resync_start`; `none` stands for `-1`. -/
def findResyncStart (codec : CodStd) (p : List UInt8) : Option ℕ :=
  if codec = .avc then
    ((List.range (p.length - 4)).foldl (resyncAvcStep p) (none, none)).2
  else
    (List.range (p.length - 4)).reverse.find? fun i =>
      byteAt p i = 0 ∧ byteAt p (i + 1) = 0 ∧ byteAt p (i + 2) = 1 ∧ byteAt p (i + 3) = 0xb6 ∧
        byteAt p (i + 4) / 64 = 0

/-- The socket as `feed_skip_to_latest` finds it. -/
structure Backlog where
  /-- `FIONREAD`; `none` where the call fails. -/
  pending : Option ℤ
  drain : List Recv
  deriving DecidableEq, Repr

/-- The loop that drains the socket into `tmp`. -/
def drainLoop : List Recv → List UInt8 → List UInt8
  | .bytes data :: rest, tmp =>
    let got := data.take (drainBufSize - tmp.length)
    if got.length = 0 then tmp else drainLoop rest (tmp ++ got)
  | _, tmp => tmp

def feedSkipToLatest (codec : CodStd) (v : Vpu) (handle : DecHandle) (h : Decoder)
    (b : Backlog) : Vpu × Decoder :=
  -- A flush could leave the reference pictures of H.264 inconsistent.
  if codec = .avc then
    (v, h)
  else
    match b.pending with
    | none => (v, h)
    | some pending =>
      let (h, used) := bitstreamUsed h
      -- The backlog is too small to give frames up for it.
      if pending < 32768 ∧ used < 262144 then
        (v, h)
      else
        let tmp := drainLoop b.drain []
        if tmp.length = 0 then
          (v, h)
        else
          match findResyncStart codec tmp with
          -- No place to start from is in sight, and the bytes are fed as they are.
          | none => (v, (bsRingWrite h tmp).1)
          | some startAt =>
            let (v, ret) := vpuDecBitBufferFlush v handle
            let h := if ret = .success then vpuDecBitBufferFlushRing h else h
            (v, (bsRingWrite h (tmp.drop startAt)).1)

/-! ## Receiving RTP -/

/-- The loop of `rtp_feed_direct`.  A blocking call blocks in the first `recv` only. -/
def rtpFeedDirectLoop (handler : Handler Decoder) (packets : ℕ) (committed : ℤ) :
    List Recv → Decoder → H264RtpState → Decoder × H264RtpState × ℤ
  | .bytes data :: rest, h, st =>
    let pkt := data.take 65536
    if pkt.length = 0 then
      (h, st, 0)
    else
      let (h, st, rc) := handler h st pkt
      let committed := committed + rc
      if 256 ≤ packets + 1 then
        (h, st, if 0 < committed then committed else -1)
      else
        rtpFeedDirectLoop handler (packets + 1) committed rest h st
  | _, h, st => (h, st, if 0 < packets ∧ 0 < committed then committed else -1)

def rtpFeedDirect (handler : Handler Decoder) (recvs : List Recv) (h : Decoder)
    (st : H264RtpState) : Decoder × H264RtpState × ℤ :=
  rtpFeedDirectLoop handler 0 0 recvs h st

/-- The handler of the configured codec. -/
def rtpHandler (c : Config) : Handler Decoder :=
  if c.codec = .avc then handleRtpH264Direct c.spspps else handleRtpMpeg4Direct

/-! ## State -/

/-- Where the per-connection loop is. -/
inductive Phase
  /-- Before `accept`. -/
  | waiting
  | priming
  | decoding
  /-- The process has ended or has been replaced. -/
  | exited
  deriving DecidableEq, Repr

/-- The part of `DecOutputInfo` that the loop looks at. -/
structure DecOutputInfo where
  indexFrameDisplay : ℤ
  indexFrameDecoded : ℤ
  picType : ℕ
  deriving DecidableEq, Repr

/-- What the loop does with frames, and when a frame is being decoded. -/
inductive Event
  | startFrame
  | output (oi : DecOutputInfo)
  | render (idx : ℤ) (allowPrp : Bool)
  | clear (idx : ℤ)
  | graphicWindow (on : Bool)
  | close
  deriving DecidableEq, Repr

/-- `SIGUSR1` shows, `SIGUSR2` hides. -/
inductive Signal
  | usr1
  | usr2
  deriving DecidableEq, Repr

structure Session where
  phase : Phase
  vpu : Vpu
  h : DecHandle
  /-- The ring of the open decoder. -/
  ring : Decoder
  rtpState : H264RtpState
  inited : Bool
  primeTries : ℕ
  ii : DecInitialInfo
  out : OutputRect
  /-- `none` until `fb_alloced`. -/
  bufs : Option Buffers
  /-- The buffers `ps` and `slice` are allocated. -/
  ps : Bool
  slice : Bool
  pendingIdx : ℤ
  pendingDisplay : Bool
  renderedPending : Bool
  ppOk : Bool
  ppPipelineOk : Bool
  ppPipelineCooldown : ℕ
  gShow : Bool
  gArmed : Bool
  ovGwOn : Bool
  lastDataMs : ℤ
  lastFrameMs : ℤ
  lastRenderMs : ℤ
  waitingISince : ℤ
  inputStarveSince : ℤ
  h264LatencySince : ℤ
  log : List Event

namespace Session

def note (s : Session) (e : Event) : Session := { s with log := s.log ++ [e] }

/-- `on_sigusr1` and `on_sigusr2`. -/
def receive (s : Session) : Signal → Session
  | .usr1 => { s with gShow := true, gArmed := false }
  | .usr2 => { s with gShow := false }

def deliver (s : Session) (signals : List Signal) : Session := signals.foldl receive s

def gwSet (s : Session) (on : Bool) : Session := { s with ovGwOn := on }.note (.graphicWindow on)

/-- `fbcount`, zero until the buffers are allocated. -/
def fbcount (s : Session) : ℤ := (s.bufs.map Buffers.fbcount).getD 0

/-- `dec_close_guarded`. -/
def decClose (s : Session) : Session :=
  let (v, ret) := vpuDecClose s.vpu s.h
  let ring := if ret = .success then { s.ring with inUse := false } else s.ring
  { s with vpu := v, ring := ring }.note .close

def clrDispFlag (s : Session) (idx : ℤ) : Session :=
  { s with vpu := (vpuDecClrDispFlag s.vpu s.h idx).1 }.note (.clear idx)

/-- `rtp_feed_direct` on the session's ring. -/
def rtpFeed (c : Config) (recvs : List Recv) (s : Session) : Session × ℤ :=
  let (ring, st, rc) := rtpFeedDirect (rtpHandler c) recvs s.ring s.rtpState
  ({ s with ring := ring, rtpState := st }, rc)

end Session

/-! ## Connecting and priming -/

/-- A new connection. -/
structure Connection where
  now : ℤ
  /-- `IOGetPhyMem` of `ps`. -/
  psAlloc : Bool
  /-- `isVpuInitialized`. -/
  initialized : Bool
  /-- What is in the ring memory, and how fast the hardware will read it. -/
  mem : ℕ → UInt8
  sched : List ℕ

/-- What `vpu_DecOpen` is asked for. -/
def openParam (c : Config) (bs : BitstreamMem) : DecOpenParam :=
  ⟨c.codec, bs.phyAddr, streamBufSize, if c.ppDeblock then 1 else 0⟩

/-- The decoder of a new connection is opened; where that fails, the connection is dropped. -/
def openDecoder (c : Config) (bs : BitstreamMem) (s : Session) (con : Connection) : Session :=
  if c.codec = .avc ∧ s.ps = false ∧ con.psAlloc = false then
    s
  else
    let s := { s with ps := s.ps || decide (c.codec = CodStd.avc) }
    match vpuDecOpen s.vpu con.initialized (some (openParam c bs)) with
    | (v, handle, .success) =>
      { s with
        phase := .priming
        vpu := v
        h := handle
        ring := vpuDecOpenRing bs.phyAddr streamBufSize con.mem con.sched }
    | (v, _, _) => { s with vpu := v }

/-- From `accept` up to the prime loop. -/
def connect (c : Config) (bs : BitstreamMem) (s : Session) (con : Connection) : Session :=
  let s := { s with rtpState := {}, inited := false, primeTries := 0, lastDataMs := con.now }
  openDecoder c bs (if s.gShow then { s with gArmed := false } else s) con

/-- The connection is closed before its decode loop; `restart` where the program then replaces
itself. -/
def drop (s : Session) (restart : Bool) : Session :=
  { s.decClose with phase := if restart then .exited else .waiting }

/-- What a turn of the prime loop meets. -/
structure PrimeTurn where
  packets : List Recv
  pollReady : Bool
  recv : Recv
  seq : SeqInit
  deriving DecidableEq, Repr

/-- The library calls of a prime turn. -/
def tryInitialInfo (s : Session) (seq : SeqInit) : Session :=
  let seq := { seq with bufEmpty := decide (s.ring.rdPtr = s.ring.streamWrPtr) }
  let v := (vpuDecSetEscSeqInit s.vpu s.h 1).1
  let (v, ret) := vpuDecGetInitialInfo v s.h true seq
  let v := (vpuDecSetEscSeqInit v s.h 0).1
  match s.h, ret with
  | some i, .success =>
    { s with vpu := v, inited := true, ii := (v.semap.codecInstPool i).initialInfo }
  | _, _ => { s with vpu := v }

/-- The number of turns of the prime loop. -/
def primeLimit (c : Config) : ℕ := if c.rtp then 512 else 64

/-- One turn of the prime loop, or its end after too many of them. -/
def primeTurn (c : Config) (s : Session) (t : PrimeTurn) : Session :=
  if s.inited then
    s
  else if primeLimit c ≤ s.primeTries then
    drop s (c.rtp && decide (c.codec = .avc))
  else
    let s := { s with primeTries := s.primeTries + 1 }
    if c.rtp then
      let (s, fr) := s.rtpFeed c t.packets
      -- The peer has closed.
      if fr = 0 then
        drop s (decide (c.codec = .avc))
      else if fr < 0 then
        s
      else
        tryInitialInfo s t.seq
    else
      let (ring, fr) := feed s.ring true t.pollReady t.recv
      let s := { s with ring := ring }
      if fr = 0 ∨ fr = -1 then
        drop s false
      else if fr = -2 then
        s
      else
        tryInitialInfo s t.seq

/-- What happens between the prime loop and the decode loop. -/
structure Entry where
  alloc : AllocEnv
  /-- `IOGetPhyMem` of `slice`. -/
  sliceAlloc : Bool
  now : ℤ
  deriving DecidableEq, Repr

/-- The variables the decode loop starts with. -/
def startLoop (s : Session) (now : ℤ) : Session :=
  { s with
    phase := .decoding
    pendingIdx := -1
    pendingDisplay := false
    renderedPending := false
    ppPipelineOk := true
    ppPipelineCooldown := 0
    lastFrameMs := now
    lastRenderMs := now
    waitingISince := 0
    inputStarveSince := 0
    h264LatencySince := 0
    log := [] }

/-- `vpu_DecRegisterFrameBuffer` of the buffers at hand. -/
def registerFrames (c : Config) (s : Session) (b : Buffers) (e : Entry) : Session :=
  if c.codec = .avc ∧ s.slice = false ∧ e.sliceAlloc = false then
    drop s false
  else
    let s := { s with slice := s.slice || decide (c.codec = CodStd.avc) }
    let (v, ret) := vpuDecRegisterFrameBuffer s.vpu s.h true b.fbcount b.stride
    let s := { s with vpu := v }
    if ret = .success then startLoop s e.now else drop s false

/-- From the end of the prime loop to the decode loop. -/
def enterLoop (c : Config) (s : Session) (e : Entry) : Session :=
  if s.inited then
    let out := outputRect c s.ii
    let (srcW, srcH) := visibleSize c s.ii
    let s := { s with out := out }
    if out.outW < 2 ∨ out.outH < 2 then
      drop s false
    else if c.outputMode ≠ .decodeOnly ∧ c.codec = .avc ∧
        ppDimsSupported srcW srcH out.outW out.outH = false then
      drop s true
    else
      let s := { s with ppOk := true }
      match s.bufs with
      | some b => registerFrames c s b e
      | none =>
        match allocBuffers c s.ii out e.alloc with
        -- The program ends here with the decoder still open.
        | none => { s with phase := .exited }
        | some b => registerFrames c { s with bufs := some b } b e
  else
    s

/-! ## The decode loop -/

/-- The outcome of `render_frame`: whether it returned `0`, and whether it gave up on the PP. -/
structure RenderResult where
  ok : Bool
  ppGivenUp : Bool
  deriving DecidableEq, Repr

/-- One round of the wait for the VPU. -/
structure BusyTurn where
  reads : List Recv
  /-- `vpu_WaitForInt` timed out. -/
  timeout : Bool
  packets : List Recv
  recv : Recv
  now : ℤ
  deriving DecidableEq, Repr

/-- What a turn of the decode loop meets.  `now` and `signals` give the clock and the signals at
numbered places of the turn. -/
structure Turn where
  now : ℕ → ℤ
  signals : ℕ → List Signal
  /-- `FIONREAD`, zero where the call fails. -/
  sockPending : ℤ
  packets : List Recv
  backlog : Backlog
  reads : List Recv
  prePoll : Bool
  prePackets : List Recv
  preReads : List Recv
  pipelined : RenderResult
  /-- One entry for each time `vpu_IsBusy` says yes. -/
  busy : List BusyTurn
  oi : DecOutputInfo
  sequential : RenderResult
  pollReady : Bool
  recv : Recv

/-- `BS_LOW_WATER`. -/
def bsLowWater : ℤ := 131072

/-- `feed_until_watermark(h, BS_LOW_WATER * 2, 16)`. -/
def watermarkFeed (reads : List Recv) (s : Session) : Session × ℤ :=
  let (ring, rc) := feedUntilWatermark s.ring (bsLowWater * 2) (reads.take 16)
  ({ s with ring := ring }, rc)

def usedNow (s : Session) : Session × ℤ :=
  let (ring, used) := bitstreamUsed s.ring
  ({ s with ring := ring }, used)

/-- The pause after a failed pipelined conversion. -/
def coolDown (s : Session) : Session :=
  if s.ppPipelineOk = false ∧ 0 < s.ppPipelineCooldown then
    { s with
      ppPipelineCooldown := s.ppPipelineCooldown - 1
      ppPipelineOk := decide (s.ppPipelineCooldown = 1) }
  else
    s

/-- The first feed of a turn. -/
def feedFirst (c : Config) (t : Turn) (s : Session) : Session × ℤ :=
  if c.rtp then
    s.rtpFeed c t.packets
  else
    let (v, ring) := feedSkipToLatest c.codec s.vpu s.h s.ring t.backlog
    watermarkFeed t.reads { s with vpu := v, ring := ring }

/-- The second feed, when the ring is below the prebuffer threshold. -/
def feedMore (c : Config) (t : Turn) (s : Session) (rc : ℤ) : Session × ℤ :=
  if 0 < c.prebuffer ∧ rc ≤ 0 then
    let (s, used) := usedNow s
    if 0 ≤ used ∧ used < c.prebuffer ∧ t.prePoll = true then
      let (s, fr) := if c.rtp then s.rtpFeed c t.prePackets else watermarkFeed t.preReads s
      (s, if 0 < fr then fr else rc)
    else
      (s, rc)
  else
    (s, rc)

/-- A watchdog on a condition that has held since `since`, `0` if it did not hold: the new value,
and whether the limit is exceeded. -/
def overdue (since now limit : ℤ) : ℤ × Bool :=
  if since = 0 then (now, false) else (since, decide (limit < now - since))

/-- The watchdogs between the feed and the decode; `true` leaves the loop. -/
def inputWatchdogs (c : Config) (t : Turn) (used rc : ℤ) (s : Session) : Session × Bool :=
  let (starve, starved) :=
    -- `input_starve_since`, for 5 s.
    if 0 < rc ∨ 4096 < used ∨ 0 < t.sockPending then (0, false)
    else overdue s.inputStarveSince (t.now 1) 5000
  let s :=
    { s with
      lastDataMs := if 0 < rc then t.now 0 else s.lastDataMs
      inputStarveSince := starve }
  if starved then
    (s, true)
  else
    let (latency, late) :=
      -- `h264_latency_since`, for `H264_LATENCY_RESTART_MS`.
      if c.codec = .avc ∧ (524288 < used ∨ 24576 < t.sockPending) then
        overdue s.h264LatencySince (t.now 2) 2500
      else
        (0, false)
    let s := { s with h264LatencySince := latency }
    -- `SOCK_DATA_TIMEOUT_MS` is 15 s.
    if late then (s, true) else (s, decide (15000 < t.now 3 - s.lastDataMs))

/-- The conversion of the previous frame while the next one is decoded. -/
def renderPipelined (c : Config) (t : Turn) (s : Session) : Session :=
  let s := { s with renderedPending := false }
  if c.outputMode ≠ .decodeOnly ∧ c.codec ≠ .avc ∧ 0 ≤ s.pendingIdx ∧
      s.pendingDisplay = true ∧ s.ppOk = true ∧ s.ppPipelineOk = true then
    let s := s.note (.render s.pendingIdx false)
    if t.pipelined.ok then
      { s with renderedPending := true, lastRenderMs := t.now 4 }
    else
      { s with ppPipelineOk := false, ppPipelineCooldown := 120 }
  else
    s

/-- The turn up to the wait for the VPU; `false` leaves the loop. -/
def startTurn (c : Config) (s : Session) (t : Turn) : Session × Bool :=
  let (s, used) := usedNow s
  let s := coolDown (s.deliver (t.signals 0))
  let (s, rc) := feedFirst c t s
  let (s, rc) := feedMore c t s rc
  if rc = 0 then
    (s, false)
  else
    let (s, stop) := inputWatchdogs c t used rc s
    if stop then
      (s, false)
    else
      let (v, ret) := vpuDecStartOneFrame s.vpu s.h
      let s := { s with vpu := v }
      if ret ≠ .success then
        (s, false)
      else
        ((renderPipelined c t ((s.note .startFrame).deliver (t.signals 1))), true)

/-- The feed a round of the wait makes before it waits. -/
def busyRefill (c : Config) (b : BusyTurn) (s : Session) : Session :=
  if c.rtp then
    s
  else
    let (s, used) := usedNow s
    if used < bsLowWater then
      let (s, fw) := watermarkFeed b.reads s
      if 0 < fw then { s with lastDataMs := b.now } else s
    else
      s

/-- The feed a round of the wait makes after a timeout. -/
def busyFeed (c : Config) (b : BusyTurn) (s : Session) : Session × ℤ :=
  let (s, used) := usedNow s
  if used < bsLowWater then
    if c.rtp then
      s.rtpFeed c b.packets
    else
      let (ring, fr) := feed s.ring false true b.recv
      ({ s with ring := ring }, fr)
  else
    (s, -1)

/-- The wait for the VPU; `true` is the `goto disc`. -/
def busyWait (c : Config) : List BusyTurn → Session → Session × Bool
  | [], s => (s, false)
  | b :: rest, s =>
    let s := busyRefill c b s
    if b.timeout then
      let (s, fr) := busyFeed c b s
      if fr = 0 then
        (s, true)
      else
        busyWait c rest (if 0 < fr then { s with lastDataMs := b.now } else s)
    else
      busyWait c rest s

/-- The frame displayed in the previous turn is rendered, if it was not already, and given back. -/
def releasePending (c : Config) (t : Turn) (s : Session) : Session :=
  if 0 ≤ s.pendingIdx then
    let s :=
      if c.outputMode ≠ .decodeOnly ∧ s.pendingDisplay = true ∧ s.renderedPending = false then
        let s := s.note (.render s.pendingIdx (decide (c.codec ≠ .avc)))
        { s with
          ppOk := s.ppOk && !t.sequential.ppGivenUp
          lastRenderMs := if t.sequential.ok then t.now 5 else s.lastRenderMs }
      else
        s
    { s.clrDispFlag s.pendingIdx with pendingIdx := -1, pendingDisplay := false }
  else
    s

/-- A displayed frame arms the output if it is an I-frame, and the graphic window follows. -/
def armOutput (c : Config) (t : Turn) (s : Session) : Session :=
  let s := { s with lastFrameMs := t.now 6 }
  let s :=
    if s.gShow = true ∧ s.gArmed = false ∧ t.oi.picType = 0 then { s with gArmed := true } else s
  if c.overlay then
    if s.gShow = true ∧ s.gArmed = true ∧ s.ovGwOn = false then
      s.gwSet true
    else if s.gShow = false ∧ s.ovGwOn = true then
      s.gwSet false
    else
      s
  else
    s

/-- The newly displayed frame is kept for the next turn, or given back at once while hidden. -/
def display (c : Config) (t : Turn) (s : Session) : Session :=
  let idx := t.oi.indexFrameDisplay
  if 0 ≤ idx ∧ idx < s.fbcount then
    let s := armOutput c t s
    if c.outputMode = .decodeOnly then
      { s with pendingIdx := idx, pendingDisplay := false }
    else if s.gShow = true ∧ s.gArmed = true then
      { s with pendingIdx := idx, pendingDisplay := true }
    else
      s.clrDispFlag idx
  else
    s

/-- The path of a turn without a frame, which feeds the ring in every mode; `true` leaves the
loop. -/
def noFrame (c : Config) (t : Turn) (s : Session) : Session × Bool :=
  if t.oi.indexFrameDecoded < 0 ∧ t.oi.indexFrameDisplay < 0 then
    let (ring, fb) := feed s.ring true t.pollReady t.recv
    let s := { s with ring := ring }
    if fb = 0 then
      (s, true)
    else if 0 < fb then
      ({ s with lastDataMs := t.now 7 }, false)
    else if c.overlay = true ∧ s.gShow = false ∧ s.ovGwOn = true then
      (s.gwSet false, false)
    else
      (s, false)
  else
    (s, false)

/-- The watchdogs at the end of a turn; `true` leaves the loop. -/
def outputWatchdogs (c : Config) (t : Turn) (s : Session) : Session × Bool :=
  let (waiting, noKeyframe) :=
    if s.gShow = true ∧ s.gArmed = false then overdue s.waitingISince (t.now 8) 15000
    else (0, false)
  let s := { s with waitingISince := waiting }
  if noKeyframe then
    (s, true)
  else if ¬ (s.gShow = true ∧ s.gArmed = true) ∨ c.outputMode = .decodeOnly then
    ({ s with lastRenderMs := t.now 9 }, decide (8000 < t.now 10 - s.lastFrameMs))
  else if 3000 < t.now 9 - s.lastRenderMs then
    (s, true)
  else
    (s, decide (8000 < t.now 10 - s.lastFrameMs))

/-- A frame that is still pending at the label `disc` is given back. -/
def clearPending (s : Session) : Session :=
  if 0 ≤ s.pendingIdx then { s.clrDispFlag s.pendingIdx with pendingIdx := -1 } else s

/-- The code at the label `disc`. -/
def disconnect (c : Config) (s : Session) : Session :=
  let s := clearPending s
  let s := if c.overlay then s.gwSet false else s
  drop s (decide (c.codec = .avc))

/-- The turn after the wait for the VPU; `false` leaves the loop. -/
def finishTurn (c : Config) (s : Session) (t : Turn) : Session × Bool :=
  let (v, ret) := vpuDecGetOutputInfo s.vpu s.h true
  let s := { s with vpu := v }
  if ret ≠ .success then
    (s, false)
  else
    let s := releasePending c t ((s.note (.output t.oi)).deliver (t.signals 2))
    let (s, gone) := noFrame c t (display c t (s.deliver (t.signals 3)))
    if gone then
      (s, false)
    else
      let (s, stop) := outputWatchdogs c t s
      (s, !stop)

/-- One turn of the decode loop; the wait has at most 31 rounds. -/
def decodeTurn (c : Config) (s : Session) (t : Turn) : Session :=
  let (s, started) := startTurn c s t
  if started then
    let (s, gone) := busyWait c (t.busy.take 31) s
    if gone then
      disconnect c s
    else
      let (s, again) := finishTurn c s t
      if again then s else disconnect c s
  else
    disconnect c s

/-! ## Runs -/

inductive Step
  | connect (con : Connection)
  | prime (t : PrimeTurn)
  | enter (e : Entry)
  | turn (t : Turn)
  | signal (sig : Signal)

/-- A step of the per-connection loop; it has no effect in another phase. -/
def step (c : Config) (bs : BitstreamMem) (s : Session) (a : Step) : Session :=
  match a, s.phase with
  | .connect con, .waiting => connect c bs s con
  | .prime t, .priming => primeTurn c s t
  | .enter e, .priming => enterLoop c s e
  | .turn t, .decoding => decodeTurn c s t
  | .signal sig, _ => s.deliver [sig]
  | _, _ => s

section Steps

variable (c : Config) (bs : BitstreamMem) (s : Session)

theorem step_connect (con : Connection) :
    step c bs s (.connect con) = if s.phase = .waiting then connect c bs s con else s := by
  cases h : s.phase <;> simp [step, h]

theorem step_prime (t : PrimeTurn) :
    step c bs s (.prime t) = if s.phase = .priming then primeTurn c s t else s := by
  cases h : s.phase <;> simp [step, h]

theorem step_enter (e : Entry) :
    step c bs s (.enter e) = if s.phase = .priming then enterLoop c s e else s := by
  cases h : s.phase <;> simp [step, h]

theorem step_decode (t : Turn) :
    step c bs s (.turn t) = if s.phase = .decoding then decodeTurn c s t else s := by
  cases h : s.phase <;> simp [step, h]

theorem step_signal (sig : Signal) : step c bs s (.signal sig) = s.receive sig := by
  cases h : s.phase <;> simp [step, Session.deliver]

end Steps

/-- The program before its first connection, with the library as `vpu_Init` left it. -/
def Session.init (warm : Bool) (v : Vpu) : Session :=
  { phase := .waiting
    vpu := v
    h := none
    ring := { vpuDecOpenRing 0 0 (fun _ => 0) [] with inUse := false }
    rtpState := {}
    inited := false
    primeTries := 0
    ii := ⟨0, 0, 0, ⟨0, 0, 0, 0⟩⟩
    out := ⟨0, 0, 0, 0⟩
    bufs := none
    ps := false
    slice := false
    pendingIdx := -1
    pendingDisplay := false
    renderedPending := false
    ppOk := true
    ppPipelineOk := true
    ppPipelineCooldown := 0
    gShow := !warm
    gArmed := !warm
    ovGwOn := false
    lastDataMs := 0
    lastFrameMs := 0
    lastRenderMs := 0
    waitingISince := 0
    inputStarveSince := 0
    h264LatencySince := 0
    log := [] }

/-! ## Frame lemmas

Most of a turn neither calls the library nor touches what was set up for the connection; less of it
leaves the ring alone as well. -/

/-- From `s` to `s'` no library call that locks was made and the connection's setup is the same. -/
structure Quiet (s s' : Session) : Prop where
  phase : s'.phase = s.phase
  vpu : s'.vpu = s.vpu
  h : s'.h = s.h
  ii : s'.ii = s.ii
  out : s'.out = s.out
  bufs : s'.bufs = s.bufs
  pendingIdx : s'.pendingIdx = s.pendingIdx

/-- Moreover the ring was not touched. -/
structure Still (s s' : Session) : Prop extends Quiet s s' where
  ring : s'.ring = s.ring
  rtpState : s'.rtpState = s.rtpState

section Frame

variable {s s' s'' : Session}

theorem Quiet.refl (s : Session) : Quiet s s := ⟨rfl, rfl, rfl, rfl, rfl, rfl, rfl⟩

theorem Quiet.trans (h : Quiet s s') (h' : Quiet s' s'') : Quiet s s'' :=
  ⟨h'.phase.trans h.phase, h'.vpu.trans h.vpu, h'.h.trans h.h, h'.ii.trans h.ii,
    h'.out.trans h.out, h'.bufs.trans h.bufs, h'.pendingIdx.trans h.pendingIdx⟩

theorem Still.refl (s : Session) : Still s s := ⟨Quiet.refl s, rfl, rfl⟩

theorem Still.trans (h : Still s s') (h' : Still s' s'') : Still s s'' :=
  ⟨h.toQuiet.trans h'.toQuiet, h'.ring.trans h.ring, h'.rtpState.trans h.rtpState⟩

theorem still_note (s : Session) (e : Event) : Still s (s.note e) :=
  ⟨⟨rfl, rfl, rfl, rfl, rfl, rfl, rfl⟩, rfl, rfl⟩

theorem still_receive (s : Session) (sig : Signal) : Still s (s.receive sig) := by
  cases sig with
  | usr1 => exact ⟨⟨rfl, rfl, rfl, rfl, rfl, rfl, rfl⟩, rfl, rfl⟩
  | usr2 => exact ⟨⟨rfl, rfl, rfl, rfl, rfl, rfl, rfl⟩, rfl, rfl⟩

theorem still_deliver (s : Session) (signals : List Signal) : Still s (s.deliver signals) := by
  induction signals generalizing s with
  | nil => exact Still.refl s
  | cons sig signals ih => exact (still_receive s sig).trans (ih (s.receive sig))

theorem still_gwSet (s : Session) (on : Bool) : Still s (s.gwSet on) :=
  ⟨⟨rfl, rfl, rfl, rfl, rfl, rfl, rfl⟩, rfl, rfl⟩

theorem still_coolDown (s : Session) : Still s (coolDown s) := by
  unfold coolDown
  split
  · exact ⟨⟨rfl, rfl, rfl, rfl, rfl, rfl, rfl⟩, rfl, rfl⟩
  · exact Still.refl s

theorem still_inputWatchdogs (c : Config) (t : Turn) (used rc : ℤ) (s : Session) :
    Still s (inputWatchdogs c t used rc s).1 := by
  unfold inputWatchdogs
  simp only
  split_ifs <;> exact ⟨⟨rfl, rfl, rfl, rfl, rfl, rfl, rfl⟩, rfl, rfl⟩

theorem still_renderPipelined (c : Config) (t : Turn) (s : Session) :
    Still s (renderPipelined c t s) := by
  unfold renderPipelined
  simp only
  split_ifs <;> exact ⟨⟨rfl, rfl, rfl, rfl, rfl, rfl, rfl⟩, rfl, rfl⟩

theorem still_armOutput (c : Config) (t : Turn) (s : Session) : Still s (armOutput c t s) := by
  unfold armOutput
  simp only
  split_ifs <;> exact ⟨⟨rfl, rfl, rfl, rfl, rfl, rfl, rfl⟩, rfl, rfl⟩

theorem still_outputWatchdogs (c : Config) (t : Turn) (s : Session) :
    Still s (outputWatchdogs c t s).1 := by
  unfold outputWatchdogs
  simp only
  split_ifs <;> exact ⟨⟨rfl, rfl, rfl, rfl, rfl, rfl, rfl⟩, rfl, rfl⟩

theorem quiet_usedNow (s : Session) : Quiet s (usedNow s).1 := ⟨rfl, rfl, rfl, rfl, rfl, rfl, rfl⟩

theorem quiet_rtpFeed (c : Config) (recvs : List Recv) (s : Session) :
    Quiet s (s.rtpFeed c recvs).1 :=
  ⟨rfl, rfl, rfl, rfl, rfl, rfl, rfl⟩

theorem quiet_watermarkFeed (reads : List Recv) (s : Session) :
    Quiet s (watermarkFeed reads s).1 :=
  ⟨rfl, rfl, rfl, rfl, rfl, rfl, rfl⟩

theorem quiet_feedMore (c : Config) (t : Turn) (s : Session) (rc : ℤ) :
    Quiet s (feedMore c t s rc).1 := by
  unfold feedMore
  split
  · simp only
    split
    · split
      · exact (quiet_usedNow s).trans (quiet_rtpFeed c _ _)
      · exact (quiet_usedNow s).trans (quiet_watermarkFeed _ _)
    · exact quiet_usedNow s
  · exact Quiet.refl s

theorem quiet_noFrame (c : Config) (t : Turn) (s : Session) : Quiet s (noFrame c t s).1 := by
  unfold noFrame
  simp only
  split_ifs <;> exact ⟨rfl, rfl, rfl, rfl, rfl, rfl, rfl⟩

theorem quiet_busyRefill (c : Config) (b : BusyTurn) (s : Session) :
    Quiet s (busyRefill c b s) := by
  unfold busyRefill
  simp only
  split_ifs <;> exact ⟨rfl, rfl, rfl, rfl, rfl, rfl, rfl⟩

theorem quiet_busyFeed (c : Config) (b : BusyTurn) (s : Session) :
    Quiet s (busyFeed c b s).1 := by
  unfold busyFeed
  simp only
  split_ifs <;> exact ⟨rfl, rfl, rfl, rfl, rfl, rfl, rfl⟩

theorem quiet_busyWait (c : Config) (busy : List BusyTurn) (s : Session) :
    Quiet s (busyWait c busy s).1 := by
  induction busy generalizing s with
  | nil => exact Quiet.refl s
  | cons b rest ih =>
    have hrefill := quiet_busyRefill c b s
    have hfeed := hrefill.trans (quiet_busyFeed c b (busyRefill c b s))
    simp only [busyWait]
    generalize busyFeed c b (busyRefill c b s) = fed at hfeed ⊢
    obtain ⟨s', fr⟩ := fed
    split
    · simp only
      split
      · exact hfeed
      · refine Quiet.trans (hfeed.trans ?_) (ih _)
        split
        · exact ⟨rfl, rfl, rfl, rfl, rfl, rfl, rfl⟩
        · exact Quiet.refl _
    · exact hrefill.trans (ih _)

end Frame

end Stream
end ToonVpu
