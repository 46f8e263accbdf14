import Mathlib.Data.List.DropRight
import ToonVpu.Foundation.Timers

/-!
# Sender — the doorbell service

`ring-doorbell-software.py` streams a camera to the Toon for some time after each event of the
doorbell.  The main thread takes MQTT messages and handles the signals, the cooldown timers stop the
stream, and `ffmpeg` is a child that can exit at any time.  What they share is behind `state.lock`.
-/

namespace ToonVpu
namespace Doorbell

open Foundation

/-! ## Configuration -/

structure Config where
  ringMqttHost : String
  ringMqttPort : ℕ
  toonIp : String
  toonPort : ℕ
  toonHttpPort : ℕ
  motionTriggerCameras : List String
  dingTriggerCameras : List String
  streamCameraId : String
  ffmpegPath : String

/-- The block at the top of the script. -/
def config : Config where
  ringMqttHost := "127.0.0.1"
  ringMqttPort := 8554
  toonIp := "192.168.18.22"
  toonPort := 5000
  toonHttpPort := 8765
  motionTriggerCameras := ["DOORBELL_ID", "FRONT_CAMERA_ID"]
  dingTriggerCameras := ["DOORBELL_ID"]
  streamCameraId := "FRONT_CAMERA_ID"
  ffmpegPath := "ffmpeg"

inductive ToonAction
  | show
  | hide
  deriving DecidableEq, Repr

def ToonAction.path : ToonAction → String
  | .show => "show"
  | .hide => "hide"

namespace Config

variable (cfg : Config)

def toonUrl (action : ToonAction) : String :=
  "http://" ++ cfg.toonIp ++ ":" ++ toString cfg.toonHttpPort ++ "/" ++ action.path

def getRtspUrl (cameraId : String) : String :=
  "rtsp://" ++ cfg.ringMqttHost ++ ":" ++ toString cfg.ringMqttPort ++ "/" ++ cameraId ++ "_live"

/-- `cmd` in `run_ffmpeg`. -/
def ffmpegCmd (rtspUrl : String) : List String :=
  [cfg.ffmpegPath, "-hide_banner", "-loglevel", "warning", "-nostdin", "-rtsp_transport", "tcp",
    "-fflags", "nobuffer+genpts+discardcorrupt", "-use_wallclock_as_timestamps", "1",
    "-flags", "low_delay", "-timeout", "5000000", "-i", rtspUrl, "-an",
    "-vf", "fps=30,crop=1350:810:60:0,scale=720:480:flags=fast_bilinear,format=yuv420p",
    "-c:v", "mpeg4", "-profile:v", "0", "-bf:v", "0", "-g:v", "30", "-b:v", "3000k",
    "-maxrate", "3000k", "-bufsize", "1000k", "-flush_packets", "1", "-max_delay", "0",
    "-avioflags", "direct", "-f", "m4v",
    "tcp://" ++ cfg.toonIp ++ ":" ++ toString cfg.toonPort]

end Config

/-! ## Messages -/

structure Message where
  topic : String
  /-- The payload after `decode`, which can raise. -/
  payload : Option String

/-- What `str.isspace` accepts. -/
def isSpace (c : Char) : Bool :=
  let n := c.toNat
  (9 ≤ n && n ≤ 13) || (28 ≤ n && n ≤ 32) || n = 0x85 || n = 0xa0 || n = 0x1680 ||
    (0x2000 ≤ n && n ≤ 0x200a) || n = 0x2028 || n = 0x2029 || n = 0x202f || n = 0x205f || n = 0x3000

def strip (text : List Char) : List Char := (text.dropWhile isSpace).rdropWhile isSpace

/-- `upper`, as far as it gives one of the letters of the words below. -/
def upper (c : Char) : Char :=
  if 'a' ≤ c ∧ c ≤ 'z' then Char.ofNat (c.toNat - 32)
  else if c.toNat = 0x131 then 'I'
  else c

def split (topic : String) : List String := (topic.toList.splitOn '/').map String.ofList

/-- The camera for which `on_message` calls `start_streaming`. -/
def onMessage (cfg : Config) (msg : Message) : Option String := do
  let payload ← msg.payload
  let payload := String.ofList ((strip payload.toList).map upper)
  match split msg.topic with
  | _ :: _ :: deviceType :: deviceId :: eventType :: _ :: _ =>
    if deviceType ≠ "camera" then none
    else if payload ∉ ["ON", "TRUE", "MOTION", "1"] then none
    else if eventType = "motion" ∧ deviceId ∈ cfg.motionTriggerCameras then some cfg.streamCameraId
    else if eventType = "ding" ∧ deviceId ∈ cfg.dingTriggerCameras then some cfg.streamCameraId
    else none
  | _ => none

example : onMessage config ⟨"ring/home/camera/DOORBELL_ID/ding/state", some " on\n"⟩ =
    some "FRONT_CAMERA_ID" := by decide

/-! ## The threads -/

inductive Thread
  | main
  /-- The thread of a cooldown timer. -/
  | timer (k : ℕ)
  deriving DecidableEq, Repr

/-- Where the main thread is. -/
inductive Main
  | idle
  /-- `start_streaming` is called and waits for the lock. -/
  | starting (camera : String)
  /-- In a `with` block. -/
  | within
  /-- `signal_handler` is called, and its `stop_streaming` waits for the lock. -/
  | shutdown
  | exited
  deriving DecidableEq, Repr

/-- The next statement in `start_streaming`. -/
inductive StartPoint
  | examine
  | extendCancel
  | switchTest
  | switchKill
  | switchForgetProcess
  | switchForgetCamera
  | switchCancel
  | switchForgetTimer
  | show
  | spawn
  | record (proc : ℕ)
  | recordCamera
  | makeTimer
  | startTimer
  | hide
  | leave (handled : Bool)
  deriving DecidableEq, Repr

/-- The next statement in `stop_streaming`. -/
inductive StopPoint
  | check
  | terminate
  | forgetProcess
  | forgetCamera
  | hide
  | cancel
  | forgetTimer
  | leave
  deriving DecidableEq, Repr

/-- Who has `state.lock`, and where. -/
inductive Holder
  | start (camera : String) (pt : StartPoint)
  | stop (thread : Thread) (pt : StopPoint)
  deriving DecidableEq, Repr

def Holder.thread : Holder → Thread
  | .start _ _ => .main
  | .stop t _ => t

inductive Event
  /-- `start_streaming` has the lock. -/
  | entered (camera : String)
  /-- The stream counts as active, and the child is running or not. -/
  | extending (proc : ℕ) (running : Bool)
  | spawned (proc : ℕ) (cmd : List String)
  | armed (timer : ℕ)
  /-- `start_streaming` is done, and `run_ffmpeg` has not failed. -/
  | handled (activeProcess : Option ℕ)
  /-- `stop_streaming` stops the stream. -/
  | stopping (thread : Thread) (proc : ℕ)
  | sigterm (proc : ℕ)
  | sigkill (proc : ℕ)
  | http (action : ToonAction) (url : String)

structure Service where
  activeProcess : Option ℕ
  activeCameraId : Option String
  stopTimer : Option ℕ
  lock : Option Holder
  main : Main
  timers : Timers
  children : ℕ
  running : ℕ → Bool
  trace : List Event

def Service.init : Service where
  activeProcess := none
  activeCameraId := none
  stopTimer := none
  lock := none
  main := .idle
  timers := ⟨0, fun _ => .made⟩
  children := 0
  running := fun _ => false
  trace := []

/-- What the system answers in a step: whether `Popen` succeeds, and whether the child exits before
`wait` gives up. -/
structure Answer where
  spawns : Bool
  closes : Bool

namespace Service

variable (cfg : Config) (s : Service)

def say (e : Event) : Service := { s with trace := s.trace ++ [e] }

def goto (h : Holder) : Service := { s with lock := some h }

def toonTrigger (action : ToonAction) : Service := s.say (.http action (cfg.toonUrl action))

def runFfmpeg (rtspUrl : String) : Service :=
  { s with
    children := s.children + 1
    running := Function.update s.running s.children true
    trace := s.trace ++ [.spawned s.children (cfg.ffmpegCmd rtspUrl)] }

/-- `killpg` and `wait`, and with `force` a `SIGKILL` when that is given up. -/
def terminate (closes force : Bool) : Service :=
  match s.activeProcess with
  | some p =>
    { s with
      running := if closes then Function.update s.running p false else s.running
      trace := s.trace ++ if force && !closes then [.sigterm p, .sigkill p] else [.sigterm p] }
  | none => s

/-- `state.stop_timer.cancel()` when there is one. -/
def cancelStop : Service :=
  { s with timers := (s.stopTimer.map s.timers.cancel).getD s.timers }

def startStop : Service :=
  match s.stopTimer with
  | some k => { s with timers := s.timers.start k, trace := s.trace ++ [.armed k] }
  | none => s

/-- A statement of `start_streaming`. -/
def startStreaming (camera : String) (ans : Answer) : StartPoint → Service
  | .examine =>
    match s.activeProcess with
    | some p =>
      if s.activeCameraId = some camera then
        (s.say (.extending p (s.running p))).goto (.start camera .extendCancel)
      else
        s.goto (.start camera .switchTest)
    | none => s.goto (.start camera .switchTest)
  | .extendCancel => s.cancelStop.goto (.start camera .makeTimer)
  | .switchTest =>
    if s.activeProcess.isSome then s.goto (.start camera .switchKill)
    else s.goto (.start camera .show)
  | .switchKill => (s.terminate ans.closes false).goto (.start camera .switchForgetProcess)
  | .switchForgetProcess =>
    { s with activeProcess := none }.goto (.start camera .switchForgetCamera)
  | .switchForgetCamera => { s with activeCameraId := none }.goto (.start camera .switchCancel)
  | .switchCancel =>
    if s.stopTimer.isSome then s.cancelStop.goto (.start camera .switchForgetTimer)
    else s.goto (.start camera .show)
  | .switchForgetTimer => { s with stopTimer := none }.goto (.start camera .show)
  | .show => (s.toonTrigger cfg .show).goto (.start camera .spawn)
  | .spawn =>
    if ans.spawns then
      (s.runFfmpeg cfg (cfg.getRtspUrl camera)).goto (.start camera (.record s.children))
    else
      s.goto (.start camera .hide)
  | .record proc => { s with activeProcess := some proc }.goto (.start camera .recordCamera)
  | .recordCamera => { s with activeCameraId := some camera }.goto (.start camera .makeTimer)
  | .makeTimer =>
    { s with timers := s.timers.make, stopTimer := some s.timers.count }.goto
      (.start camera .startTimer)
  | .startTimer => s.startStop.goto (.start camera (.leave true))
  | .hide => (s.toonTrigger cfg .hide).goto (.start camera (.leave false))
  | .leave handled =>
    { s with
      lock := none
      main := .idle
      trace := s.trace ++ if handled then [.handled s.activeProcess] else [] }

/-- A statement of `stop_streaming`; the signal handler exits after it. -/
def stopStreaming (t : Thread) (ans : Answer) : StopPoint → Service
  | .check =>
    match s.activeProcess with
    | some p => (s.say (.stopping t p)).goto (.stop t .terminate)
    | none => s.goto (.stop t .cancel)
  | .terminate => (s.terminate ans.closes true).goto (.stop t .forgetProcess)
  | .forgetProcess => { s with activeProcess := none }.goto (.stop t .forgetCamera)
  | .forgetCamera => { s with activeCameraId := none }.goto (.stop t .hide)
  | .hide => (s.toonTrigger cfg .hide).goto (.stop t .cancel)
  | .cancel =>
    if s.stopTimer.isSome then s.cancelStop.goto (.stop t .forgetTimer)
    else s.goto (.stop t .leave)
  | .forgetTimer => { s with stopTimer := none }.goto (.stop t .leave)
  | .leave => { s with lock := none, main := if t = .main then .exited else s.main }

/-- The holder of the lock goes on, unless a signal has interrupted it. -/
def proceed (ans : Answer) : Holder → Service
  | .start camera pt => if s.main = .within then s.startStreaming cfg camera ans pt else s
  | .stop .main pt => if s.main = .within then s.stopStreaming cfg .main ans pt else s
  | .stop (.timer k) pt => s.stopStreaming cfg (.timer k) ans pt

/-- A thread that waits for the lock gets it. -/
def acquire : Thread → Service
  | .main =>
    match s.main with
    | .starting camera =>
      { s with
        main := .within
        lock := some (.start camera .examine)
        trace := s.trace ++ [.entered camera] }
    | .shutdown => { s with main := .within, lock := some (.stop .main .check) }
    | _ => s
  | .timer k =>
    if s.timers.Waiting k then
      { s with timers := s.timers.serve k, lock := some (.stop (.timer k) .check) }
    else
      s

end Service

/-! ## Steps -/

inductive Act
  | receive (msg : Message)
  | go (thread : Thread) (ans : Answer)
  /-- The cooldown of a timer is over. -/
  | expire (timer : ℕ)
  /-- The child exits on its own. -/
  | exit (proc : ℕ)
  /-- `SIGINT` or `SIGTERM`: the handler runs on the main thread, wherever that is. -/
  | signal

def step (cfg : Config) (s : Service) : Act → Service
  | .receive msg =>
    match s.main, onMessage cfg msg with
    | .idle, some camera => { s with main := .starting camera }
    | _, _ => s
  | .go t ans =>
    match s.lock with
    | some h => if h.thread = t then s.proceed cfg ans h else s
    | none => s.acquire t
  | .expire k => { s with timers := s.timers.expire k }
  | .exit p => { s with running := Function.update s.running p false }
  | .signal => { s with main := .shutdown }

/-- The main thread goes on in `start_streaming`, or leaves it. -/
theorem startStreaming_control (cfg : Config) (s : Service) (camera : String) (pt : StartPoint)
    (ans : Answer) :
    ((s.startStreaming cfg camera ans pt).main = s.main ∧
      ∃ pt', (s.startStreaming cfg camera ans pt).lock = some (.start camera pt')) ∨
    (s.startStreaming cfg camera ans pt).lock = none := by
  cases pt with
  | leave handled => exact .inr rfl
  | examine =>
    simp only [Service.startStreaming]
    split
    · split_ifs
      · exact .inl ⟨rfl, _, rfl⟩
      · exact .inl ⟨rfl, _, rfl⟩
    · exact .inl ⟨rfl, _, rfl⟩
  | switchTest =>
    simp only [Service.startStreaming]
    split_ifs
    · exact .inl ⟨rfl, _, rfl⟩
    · exact .inl ⟨rfl, _, rfl⟩
  | switchKill =>
    simp only [Service.startStreaming, Service.terminate]
    split
    · exact .inl ⟨rfl, _, rfl⟩
    · exact .inl ⟨rfl, _, rfl⟩
  | switchCancel =>
    simp only [Service.startStreaming]
    split_ifs
    · exact .inl ⟨rfl, _, rfl⟩
    · exact .inl ⟨rfl, _, rfl⟩
  | spawn =>
    simp only [Service.startStreaming]
    split_ifs
    · exact .inl ⟨rfl, _, rfl⟩
    · exact .inl ⟨rfl, _, rfl⟩
  | startTimer =>
    simp only [Service.startStreaming, Service.startStop]
    split
    · exact .inl ⟨rfl, _, rfl⟩
    · exact .inl ⟨rfl, _, rfl⟩
  | _ => exact .inl ⟨rfl, _, rfl⟩

/-- A thread goes on in `stop_streaming`, or leaves it. -/
theorem stopStreaming_control (cfg : Config) (s : Service) (t : Thread) (pt : StopPoint)
    (ans : Answer) :
    ((s.stopStreaming cfg t ans pt).main = s.main ∧
      ∃ pt', (s.stopStreaming cfg t ans pt).lock = some (.stop t pt')) ∨
    (s.stopStreaming cfg t ans pt).lock = none := by
  cases pt with
  | leave => exact .inr rfl
  | check =>
    simp only [Service.stopStreaming]
    split
    · exact .inl ⟨rfl, _, rfl⟩
    · exact .inl ⟨rfl, _, rfl⟩
  | terminate =>
    simp only [Service.stopStreaming, Service.terminate]
    split
    · exact .inl ⟨rfl, _, rfl⟩
    · exact .inl ⟨rfl, _, rfl⟩
  | cancel =>
    simp only [Service.stopStreaming]
    split_ifs
    · exact .inl ⟨rfl, _, rfl⟩
    · exact .inl ⟨rfl, _, rfl⟩
  | _ => exact .inl ⟨rfl, _, rfl⟩

/-- What a step can do. -/
inductive Move (cfg : Config) (s : Service) : Act → Service → Prop
  | same (a : Act) : Move cfg s a s
  | receive (msg : Message) (camera : String) (hmain : s.main = .idle) :
      Move cfg s (.receive msg) { s with main := .starting camera }
  | start (camera : String) (pt : StartPoint) (ans : Answer)
      (hlock : s.lock = some (.start camera pt)) (hmain : s.main = .within) :
      Move cfg s (.go .main ans) (s.startStreaming cfg camera ans pt)
  | stop (t : Thread) (pt : StopPoint) (ans : Answer) (hlock : s.lock = some (.stop t pt))
      (hmain : t = .main → s.main = .within) :
      Move cfg s (.go t ans) (s.stopStreaming cfg t ans pt)
  | enter (camera : String) (ans : Answer) (hlock : s.lock = none)
      (hmain : s.main = .starting camera) :
      Move cfg s (.go .main ans)
        { s with
          main := .within
          lock := some (.start camera .examine)
          trace := s.trace ++ [.entered camera] }
  | shutdown (ans : Answer) (hlock : s.lock = none) (hmain : s.main = .shutdown) :
      Move cfg s (.go .main ans) { s with main := .within, lock := some (.stop .main .check) }
  | serve (k : ℕ) (ans : Answer) (hlock : s.lock = none) (hwaiting : s.timers.Waiting k) :
      Move cfg s (.go (.timer k) ans)
        { s with timers := s.timers.serve k, lock := some (.stop (.timer k) .check) }
  | expire (k : ℕ) : Move cfg s (.expire k) { s with timers := s.timers.expire k }
  | exit (p : ℕ) : Move cfg s (.exit p) { s with running := Function.update s.running p false }
  | signal : Move cfg s .signal { s with main := .shutdown }

theorem proceed_move {cfg : Config} {s : Service} {h : Holder} {ans : Answer}
    (hlock : s.lock = some h) : Move cfg s (.go h.thread ans) (s.proceed cfg ans h) := by
  unfold Service.proceed
  rcases h with ⟨camera, pt⟩ | ⟨_ | k, pt⟩
  · split_ifs with hmain
    · exact .start camera pt ans hlock hmain
    · exact .same _
  · simp only
    split_ifs with hmain
    · exact .stop .main pt ans hlock fun _ => hmain
    · exact .same _
  · exact .stop (.timer k) pt ans hlock nofun

theorem acquire_move {cfg : Config} {s : Service} {ans : Answer} (t : Thread)
    (hlock : s.lock = none) : Move cfg s (.go t ans) (s.acquire t) := by
  unfold Service.acquire
  cases t with
  | main =>
    cases hmain : s.main with
    | starting camera => exact .enter camera ans hlock hmain
    | shutdown => exact .shutdown ans hlock hmain
    | _ => exact .same _
  | timer k =>
    simp only
    split_ifs with hwaiting
    · exact .serve k ans hlock hwaiting
    · exact .same _

theorem step_move (cfg : Config) (s : Service) (a : Act) : Move cfg s a (step cfg s a) := by
  cases a with
  | receive msg =>
    simp only [step]
    split
    · exact .receive msg _ ‹_›
    · exact .same _
  | go t ans =>
    simp only [step]
    cases hlock : s.lock with
    | none => exact acquire_move t hlock
    | some h =>
      simp only
      split_ifs with hthread
      · exact hthread ▸ proceed_move hlock
      · exact .same _
  | expire k => exact .expire k
  | exit p => exact .exit p
  | signal => exact .signal

end Doorbell
end ToonVpu
