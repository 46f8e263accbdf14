import ToonVpu.Foundation.Mutex
import ToonVpu.Kernel.PpConvert

/-!
# PpEngine — processes that share the PP (`kernel/mxc_vpu.c`)

Any number of processes convert pictures, set the coefficients and read them, all under `pp_lock`.
The engine works on its own, and `pp_irq_handler` runs between any two instructions.  `ppConvert` is
one conversion as a whole; here every access to a register, to the two variables of the handler and
to a word of the coefficients is an instruction of its own.

A reset stops the engine when it comes to its end, which is at any time after `PP_CNTL_SWRST` is
written.  The engine reports a frame when it has stopped, and an error at any time before that.  The
clock gates are left out, and so are the messages.
-/

namespace ToonVpu
namespace Kernel

open Foundation
open Foundation.CInt
open Foundation.Mutex
open Foundation.Runs
open ToonVpu.Stream (PpConvert)

/-! ## Coefficients, word by word -/

deriving instance DecidableEq for PpCsc

/-- One word of a `struct vpu_pp_csc` is copied. -/
def PpCsc.copyWord (dst src : PpCsc) : ℕ → PpCsc
  | 0 => { dst with c0 := src.c0, valid := ⟨src.valid.1, dst.valid.2⟩ }
  | 1 => { dst with c1 := src.c1, valid := ⟨dst.valid.1, src.valid.2.1, dst.valid.2.2⟩ }
  | 2 => { dst with
      c2 := src.c2, valid := ⟨dst.valid.1, dst.valid.2.1, src.valid.2.2.1, dst.valid.2.2.2⟩ }
  | 3 => { dst with
      c3 := src.c3
      valid := ⟨dst.valid.1, dst.valid.2.1, dst.valid.2.2.1, src.valid.2.2.2.1, dst.valid.2.2.2.2⟩ }
  | 4 => { dst with
      c4 := src.c4
      valid := ⟨dst.valid.1, dst.valid.2.1, dst.valid.2.2.1, dst.valid.2.2.2.1,
        src.valid.2.2.2.2.1, dst.valid.2.2.2.2.2⟩ }
  | _ => { dst with
      x0 := src.x0
      valid := ⟨dst.valid.1, dst.valid.2.1, dst.valid.2.2.1, dst.valid.2.2.2.1,
        dst.valid.2.2.2.2.1, src.valid.2.2.2.2.2⟩ }

/-- The first `k` words are copied. -/
def PpCsc.copied (src dst : PpCsc) : ℕ → PpCsc
  | 0 => dst
  | k + 1 => (copied src dst k).copyWord src k

theorem PpCsc.copied_all (src dst : PpCsc) : PpCsc.copied src dst 6 = src := by
  cases src
  cases dst
  rfl

/-! ## The engine -/

/-- Registers by offset, the two bits of `PP_INTRSTATUS`, whether the engine runs, and whether a reset
is under way. -/
structure PpHw where
  regs : ℕ → ℕ
  err : Bool
  frame : Bool
  running : Bool
  resetting : Bool

/-- `PPW`. -/
def PpHw.put (hw : PpHw) (offset value : ℕ) : PpHw :=
  { hw with regs := Function.update hw.regs offset value }

/-- A reset is asked for. -/
def PpHw.swrst (hw : PpHw) : PpHw := { hw.put 0 0x100 with resetting := true }

/-- Both bits of `PP_INTRSTATUS` are cleared. -/
def PpHw.ack (hw : PpHw) : PpHw := { hw with err := false, frame := false }

@[simp] theorem PpHw.swrst_cntl (hw : PpHw) : hw.swrst.regs 0 = 0x100 := by
  simp [PpHw.swrst, PpHw.put]

@[simp] theorem PpHw.ack_regs (hw : PpHw) : hw.ack.regs = hw.regs := rfl

@[simp] theorem PpHw.ack_resetting (hw : PpHw) : hw.ack.resetting = hw.resetting := rfl

/-- The registers that a conversion writes before it starts the engine, in their order. -/
def ppWrites (resize : Resize) : List (ℕ × (PpRegs → ℕ)) :=
  [(0x0c, PpRegs.sourceY), (0x10, PpRegs.sourceCb), (0x14, PpRegs.sourceCr),
    (0x18, PpRegs.destRgb), (0x1c, PpRegs.quantizer), (0x20, PpRegs.processPara),
    (0x24, PpRegs.frameWidth), (0x28, PpRegs.displayWidth), (0x2c, PpRegs.imageSize),
    (0x30, PpRegs.destFrameFmt), (0x38, PpRegs.cscCoef123), (0x3c, PpRegs.cscCoef4),
    (0x34, fun r => r.resize.index)] ++
  (List.range resize.tbl.length).map (fun i => (0x100 + 4 * i, fun r => r.resize.tbl.getD i 0)) ++
  [(0x04, fun _ => 5)]

/-- A conversion that has started the engine: its process, its request and what it met. -/
structure PpStart where
  pid : ℕ
  request : PpConvert
  resize : Resize
  env : PpEnv

/-- What it programs. -/
def PpStart.regs (e : PpStart) : PpRegs := (ppProgram e.env e.request e.resize).value

/-- The registers are those of the conversion. -/
def PpStart.Programmed (e : PpStart) (regs : ℕ → ℕ) : Prop :=
  ∀ w ∈ ppWrites e.resize, regs w.1 = w.2 e.regs

/-! ## The driver -/

/-- The engine with the variables of the driver.  The last four are there to be talked about: the
coefficients that were set last as a whole, the result of the last `pp_hw_reset`, who started the
engine, and the statuses that the handler has seen since then. -/
structure PpData where
  hw : PpHw
  ppDone : Bool
  ppStatus : ℕ
  csc : PpCsc
  whole : PpCsc
  lastReset : ℤ
  engine : Option PpStart
  handled : List ℕ

/-- What happens without the processes. -/
inductive PpEvent
  | finish
  | error (stops : Bool)
  /-- A reset comes to its end. -/
  | reset (regs : ℕ → ℕ)
  | irq

/-- `PP_INTRSTATUS & (PP_INTR_ERR | PP_INTR_FRAME)` -/
def PpHw.status (hw : PpHw) : ℕ := (if hw.err then 4 else 0) + if hw.frame then 1 else 0

/-- `pp_irq_handler` -/
def ppIrqHandler (d : PpData) : PpData :=
  if d.hw.status = 0 then
    d
  else
    { d with
      hw := d.hw.ack
      ppDone := true
      ppStatus := d.hw.status
      handled := d.handled ++ [d.hw.status] }

def PpData.event (d : PpData) : PpEvent → PpData
  | .finish =>
    if d.hw.running then { d with hw := { d.hw with frame := true, running := false } } else d
  | .error stops =>
    if d.hw.running then { d with hw := { d.hw with err := true, running := !stops } } else d
  | .reset regs =>
    if d.hw.resetting then
      { d with hw := { d.hw with regs := regs, running := false, resetting := false } }
    else d
  | .irq => ppIrqHandler d

/-! ## Processes -/

/-- What a reset is for: a conversion that is to start, or one that has failed. -/
inductive PpAim
  | first (c : PpConvert) (resize : Resize)
  | last (c : PpConvert) (ret : ℤ)
  deriving DecidableEq, Repr

inductive PpPc
  | idle
  | returned (ret : ℤ)
  | got (csc : PpCsc)
  -- `pp_convert`
  | enter (c : PpConvert) (resize : Resize)
  | swrst (aim : PpAim)
  | poll (aim : PpAim) (i : ℕ)
  | check (aim : PpAim)
  | clear (aim : PpAim)
  | write (c : PpConvert) (resize : Resize) (k : ℕ)
  | arm (c : PpConvert) (resize : Resize)
  | start (c : PpConvert) (resize : Resize)
  | wait (c : PpConvert)
  | judge (c : PpConvert)
  | leave (c : PpConvert) (started : Bool) (ret : ℤ)
  -- `VPU_IOC_PP_SET_CSC`
  | setEnter (csc : PpCsc)
  | set (csc : PpCsc) (k : ℕ)
  -- `VPU_IOC_PP_GET_CSC`
  | getEnter
  | get (csc : PpCsc) (k : ℕ)
  deriving DecidableEq

/-- The process has `pp_lock`. -/
def PpPc.inside : PpPc → Bool
  | .swrst _ | .poll _ _ | .check _ | .clear _ | .write _ _ _ | .arm _ _ | .start _ _ | .wait _
  | .judge _ | .leave _ _ _ | .set _ _ | .get _ _ => true
  | _ => false

/-- The process is in no call. -/
def PpPc.free : PpPc → Bool
  | .idle | .returned _ | .got _ => true
  | _ => false

/-- The occasions on which a process moves: it makes a call, it executes its next instruction, or the
wait for the interrupt gives up, on a signal or after its time. -/
inductive PpOccasion
  | convert (c : PpConvert)
  | setCsc (csc : PpCsc)
  | getCsc
  | go
  | giveUp (signal : Bool)

/-- The part of `pp_convert` before the lock. -/
def ppPrepare (ppBase : Bool) (c : PpConvert) : Except ℤ Resize :=
  match (ppValidate ppBase c).value with
  | some e => .error e
  | none =>
    match (ppBuildResize c.srcW c.srcH c.dstW c.dstH).value with
    | .error e => .error (if e = eNoSpc then eOpNotSupp else e)
    | .ok resize => .ok resize

def ppEntry (ppBase : Bool) (c : PpConvert) : PpPc :=
  match ppPrepare ppBase c with
  | .error e => .returned e
  | .ok resize => .enter c resize

/-- Where `pp_hw_reset` returns to. -/
def PpAim.after : PpAim → ℤ → PpPc
  | .first c resize, rc => if rc ≠ 0 then .leave c false rc else .write c resize 0
  | .last c ret, _ => .leave c true ret

/-- What a conversion meets that starts the engine now. -/
def PpData.env (ppBase : Bool) (d : PpData) : PpEnv := ⟨ppBase, d.csc, 0, d.hw.regs 0, 0, 0⟩

/-- A register is written. -/
def PpData.program (ppBase : Bool) (d : PpData) (c : PpConvert) (resize : Resize)
    (w : ℕ × (PpRegs → ℕ)) : PpData :=
  { d with hw := d.hw.put w.1 (w.2 (ppProgram (d.env ppBase) c resize).value) }

/-- `PP_CNTL` is read, changed and written. -/
def PpData.begin (ppBase : Bool) (d : PpData) (p : ℕ) (c : PpConvert) (resize : Resize) : PpData :=
  { d with
    hw := { d.hw.put 0 (ppProgram (d.env ppBase) c resize).value.cntl with running := true }
    engine := some ⟨p, c, resize, { d.env ppBase with csc := d.whole }⟩
    handled := [] }

/-- The next instruction. -/
def ppGo (ppBase : Bool) (p : ℕ) (d : PpData) : PpPc → Move PpPc PpData
  | .enter c resize => .acquire (.swrst (.first c resize)) d
  | .swrst aim => .work (.poll aim 0) { d with hw := d.hw.swrst }
  | .poll aim i =>
    if d.hw.regs 0 / 256 % 2 = 0 then .work (.check aim) d
    else if i + 1 < 1000 then .work (.poll aim (i + 1)) d
    else .work (aim.after (-62)) { d with lastReset := -62 }
  | .check aim =>
    -- What a reset leaves in `PP_CNTL`.
    if d.hw.regs 0 ≠ 0x876 then .work (aim.after (-5)) { d with lastReset := -5 }
    else .work (.clear aim) d
  | .clear aim => .work (aim.after 0) { d with hw := d.hw.ack, lastReset := 0 }
  | .write c resize k =>
    match (ppWrites resize)[k]? with
    | some w => .work (.write c resize (k + 1)) (d.program ppBase c resize w)
    | none => .work (.arm c resize) { d with ppStatus := 0 }
  | .arm c resize => .work (.start c resize) { d with ppDone := false }
  | .start c resize => .work (.wait c) (d.begin ppBase p c resize)
  | .wait c => if d.ppDone then .work (.judge c) d else .stay
  | .judge c =>
    -- The error bit, `PP_INTR_ERR`.
    if d.ppStatus / 4 % 2 = 1 then .work (.swrst (.last c (-5))) d else .work (.leave c true 0) d
  | .leave _ _ ret => .release (.returned ret) d
  | .setEnter csc => .acquire (.set csc 0) d
  | .set csc k =>
    if k < 6 then .work (.set csc (k + 1)) { d with csc := d.csc.copyWord csc k }
    else .release (.returned 0) { d with whole := csc }
  | .getEnter => .acquire (.get .init 0) d
  | .get csc k =>
    if k < 6 then .work (.get (csc.copyWord d.csc k) (k + 1)) d else .release (.got csc) d
  | _ => .stay

/-- `wait_event_interruptible_timeout` ends without an interrupt: zero after its time,
`-ERESTARTSYS` on a signal. -/
def ppGiveUp (signal : Bool) (d : PpData) : PpPc → Move PpPc PpData
  | .wait c =>
    if d.ppDone then .work (.judge c) d
    else .work (.swrst (.last c (if signal then -512 else -62))) d
  | _ => .stay

def ppMove (ppBase : Bool) (p : ℕ) (q : PpPc) (a : PpOccasion) (d : PpData) : Move PpPc PpData :=
  match a with
  | .convert c => if q.free then .goto (ppEntry ppBase c) else .stay
  | .setCsc csc => if q.free then .goto (.setEnter csc) else .stay
  | .getCsc => if q.free then .goto .getEnter else .stay
  | .go => ppGo ppBase p d q
  | .giveUp signal => ppGiveUp signal d q

theorem ppEntry_outside (ppBase : Bool) (c : PpConvert) : (ppEntry ppBase c).inside = false := by
  unfold ppEntry
  split <;> rfl

theorem PpAim.after_inside (aim : PpAim) (rc : ℤ) : (aim.after rc).inside = true := by
  cases aim with
  | first c resize =>
    simp only [PpAim.after]
    split <;> rfl
  | last c ret => rfl

theorem ppMove_fits (ppBase : Bool) (p : ℕ) (q : PpPc) (a : PpOccasion) (d : PpData) :
    (ppMove ppBase p q a d).Fits PpPc.inside q.inside := by
  have hfree : q.free = true → q.inside = false := by cases q <;> simp [PpPc.free, PpPc.inside]
  cases a with
  | convert c =>
    simp only [ppMove]
    split
    · rename_i h
      exact ⟨hfree h, ppEntry_outside ppBase c⟩
    · trivial
  | setCsc csc =>
    simp only [ppMove]
    split
    · rename_i h
      exact ⟨hfree h, rfl⟩
    · trivial
  | getCsc =>
    simp only [ppMove]
    split
    · rename_i h
      exact ⟨hfree h, rfl⟩
    · trivial
  | go =>
    cases q <;> simp only [ppMove, ppGo] <;> repeat' split
    all_goals first | trivial | exact ⟨rfl, rfl⟩ | exact ⟨rfl, PpAim.after_inside _ _⟩
  | giveUp signal =>
    cases q <;> simp only [ppMove, ppGiveUp] <;> repeat' split
    all_goals trivial

/-- The driver of a kernel in which `pp_base` is mapped, or is not. -/
def ppDriver (ppBase : Bool) : Program PpPc PpOccasion PpEvent PpData where
  inside := PpPc.inside
  move := ppMove ppBase
  env e d := d.event e
  fits := ppMove_fits ppBase

/-- After the module is loaded. -/
def ppInit (hw : PpHw) : Shared PpPc PpData :=
  .init .idle ⟨{ hw with running := false }, false, 0, .init, .init, 0, none, []⟩

/-! ## What is programmed -/

section Programming

variable {ppBase : Bool} {resize : Resize} {c : PpConvert} {env env' : PpEnv}

theorem ppWrites_nodup (resize : Resize) : ((ppWrites resize).map Prod.fst).Nodup := by
  simp only [ppWrites, List.map_append, List.map_cons, List.map_nil, List.map_map]
  rw [List.nodup_append, List.nodup_append]
  refine ⟨⟨by decide, ?_, ?_⟩, List.nodup_singleton _, ?_⟩
  · refine List.Nodup.map_on ?_ List.nodup_range
    intro i _ j _ heq
    simp only [Function.comp_apply] at heq
    omega
  · intro x hx y hy
    obtain ⟨i, -, rfl⟩ := List.mem_map.mp hy
    simp only [List.mem_cons, List.not_mem_nil, or_false, Function.comp_apply] at hx ⊢
    omega
  · intro x hx y hy
    rw [List.mem_singleton.mp hy]
    rcases List.mem_append.mp hx with hx | hx
    · simp only [List.mem_cons, List.not_mem_nil, or_false] at hx
      omega
    · obtain ⟨i, -, rfl⟩ := List.mem_map.mp hx
      simp only [Function.comp_apply]
      omega

/-- `PP_CNTL` is none of them. -/
theorem ppWrites_ne_cntl {w : ℕ × (PpRegs → ℕ)} (hw : w ∈ ppWrites resize) : w.1 ≠ 0 := by
  rcases List.mem_append.mp hw with hw | hw
  · rcases List.mem_append.mp hw with hw | hw
    · simp only [List.mem_cons, List.not_mem_nil, or_false] at hw
      rcases hw with h | h | h | h | h | h | h | h | h | h | h | h | h <;> simp [h]
    · obtain ⟨i, -, rfl⟩ := List.mem_map.mp hw
      simp
  · rw [List.mem_singleton.mp hw]
    decide

/-- Of what a conversion meets, only the coefficients go into these registers. -/
theorem ppWrites_congr (hcsc : env.csc = env'.csc) {w : ℕ × (PpRegs → ℕ)}
    (hw : w ∈ ppWrites resize) :
    w.2 (ppProgram env c resize).value = w.2 (ppProgram env' c resize).value := by
  have hsame : (ppProgram env c resize).value =
      { (ppProgram env' c resize).value with cntl := (ppProgram env c resize).value.cntl } := by
    unfold ppProgram
    simp only [value_bind, hcsc]
    rfl
  rw [hsame]
  rcases List.mem_append.mp hw with hw | hw
  · rcases List.mem_append.mp hw with hw | hw
    · simp only [List.mem_cons, List.not_mem_nil, or_false] at hw
      rcases hw with h | h | h | h | h | h | h | h | h | h | h | h | h <;> rw [h]
    · obtain ⟨i, -, rfl⟩ := List.mem_map.mp hw
      rfl
  · rw [List.mem_singleton.mp hw]

end Programming

/-! ## Invariants -/

/-- The engine is stopped, and nothing is going to stop it later. -/
def PpHw.Still (hw : PpHw) : Prop := hw.running = false ∧ hw.resetting = false

/-- Nothing can happen to the engine. -/
def PpHw.Quiet (hw : PpHw) : Prop := hw.Still ∧ hw.err = false ∧ hw.frame = false

/-- While the engine runs, its registers are those of the conversion that started it. -/
def PpData.JobKept (d : PpData) : Prop :=
  d.hw.running = true → ∃ e, d.engine = some e ∧ e.Programmed d.hw.regs

structure PpData.Coherent (d : PpData) : Prop where
  csc : d.csc = d.whole
  job : d.JobKept

/-- The engine is stopped unless a reset was given up. -/
def PpData.Rests (d : PpData) : Prop := d.hw.running = true → d.lastReset = -62

/-- The conversion `c` of the process `p` has started the engine. -/
structure PpData.Started (ppBase : Bool) (p : ℕ) (c : PpConvert) (d : PpData) (e : PpStart) :
    Prop where
  engine : d.engine = some e
  pid : e.pid = p
  request : e.request = c
  prepared : ppPrepare ppBase c = .ok e.resize
  base : e.env.ppBase = ppBase
  csc : e.env.csc = d.whole
  reset : e.env.reset = 0

/-- The wait and the status lead to `ret`. -/
def PpStart.Ends (e : PpStart) (ret : ℤ) : Prop :=
  ∃ wait status, ({ e.env with wait := wait, status := status } : PpEnv).outcome = ret

def PpAim.Ok (ppBase : Bool) (p : ℕ) (d : PpData) : PpAim → Prop
  | .first c resize => ppPrepare ppBase c = .ok resize ∧ d.Rests
  | .last c ret => ret ≠ 0 ∧ ∃ e, d.Started ppBase p c e ∧ e.Ends ret

/-- The first `k` registers are written. -/
def PpData.Written (ppBase : Bool) (c : PpConvert) (resize : Resize) (k : ℕ) (d : PpData) : Prop :=
  ∀ j < k, ∀ w, (ppWrites resize)[j]? = some w →
    d.hw.regs w.1 = w.2 (ppProgram (d.env ppBase) c resize).value

structure PpData.Programs (ppBase : Bool) (c : PpConvert) (resize : Resize) (k : ℕ) (d : PpData) :
    Prop where
  coherent : d.Coherent
  prepared : ppPrepare ppBase c = .ok resize
  quiet : d.hw.Quiet
  written : d.Written ppBase c resize k

/-- What the handler has seen of a conversion.  After a frame there is nothing more. -/
structure PpData.Tracks (d : PpData) : Prop where
  done : d.ppDone = true ↔ d.handled ≠ []
  last : ∀ st, d.handled.getLast? = some st → d.ppStatus = st
  seen : ∀ st ∈ d.handled, st = 1 ∨ st = 4 ∨ st = 5
  frame : d.hw.frame = true → d.hw.running = false
  ended : ∀ st ∈ d.handled, st % 2 = 1 →
    d.hw.running = false ∧ d.hw.err = false ∧ d.hw.frame = false

structure PpData.Runs (ppBase : Bool) (p : ℕ) (c : PpConvert) (d : PpData) : Prop where
  coherent : d.Coherent
  started : ∃ e, d.Started ppBase p c e
  resetting : d.hw.resetting = false
  tracks : d.Tracks

/-- A conversion that is about to return. -/
def PpData.Left (ppBase : Bool) (p : ℕ) (c : PpConvert) (started : Bool) (ret : ℤ) (d : PpData) :
    Prop :=
  if started then
    (∃ e, d.Started ppBase p c e ∧ e.Ends ret) ∧
      (ret = 0 → d.hw.Quiet ∧ d.handled.getLast? = some 1)
  else (∃ resize, ppPrepare ppBase c = .ok resize) ∧ ret ≠ 0

/-- What holds of the data while a process is inside. -/
def ppHeld (ppBase : Bool) (p : ℕ) (q : PpPc) (d : PpData) : Prop :=
  match q with
  | .swrst aim => d.Coherent ∧ aim.Ok ppBase p d
  | .poll aim _ => d.Coherent ∧ aim.Ok ppBase p d ∧
      (d.hw.resetting = true ∧ d.hw.regs 0 = 0x100 ∨ d.hw.Still)
  | .check aim => d.Coherent ∧ aim.Ok ppBase p d ∧ d.hw.Still
  | .clear aim => d.Coherent ∧ aim.Ok ppBase p d ∧ d.hw.Still
  | .write c resize k => d.Programs ppBase c resize k
  | .arm c resize => d.Programs ppBase c resize (ppWrites resize).length
  | .start c resize => d.Programs ppBase c resize (ppWrites resize).length ∧ d.ppDone = false
  | .wait c => d.Runs ppBase p c
  | .judge c => d.Runs ppBase p c ∧ d.handled ≠ []
  | .leave c started ret => d.Coherent ∧ d.Rests ∧ d.Left ppBase p c started ret
  | .set csc k => d.csc = csc.copied d.whole k ∧ k ≤ 6 ∧ d.JobKept ∧ d.Rests
  | .get csc k => d.Coherent ∧ d.Rests ∧ csc = d.csc.copied .init k ∧ k ≤ 6
  | _ => True

def ppFree (d : PpData) : Prop := d.Coherent ∧ d.Rests

/-- A conversion that waits for the lock has passed its checks. -/
def ppOut (ppBase : Bool) (_ : ℕ) : PpPc → Prop
  | .enter c resize => ppPrepare ppBase c = .ok resize
  | _ => True

/-! ## Events -/

section Events

variable {ppBase : Bool} {p : ℕ} {q : PpPc} {c : PpConvert} {d : PpData} {e : PpEvent}

/-- What an event leaves alone. -/
structure PpData.Kept (d d' : PpData) : Prop where
  csc : d'.csc = d.csc
  whole : d'.whole = d.whole
  lastReset : d'.lastReset = d.lastReset
  engine : d'.engine = d.engine
  running : d'.hw.running = true → d.hw.running = true ∧ d'.hw.regs = d.hw.regs
  still : d.hw.Still → d'.hw.Still ∧ d'.hw.regs = d.hw.regs
  resetting : d.hw.resetting = true ∧ d'.hw.resetting = true ∧ d'.hw.regs = d.hw.regs ∨
    d.hw.resetting = false ∧ d'.hw.resetting = false ∧ d'.hw.regs = d.hw.regs ∨ d'.hw.Still
  quiet : d.hw.Quiet → d' = d

theorem PpHw.Quiet.status {hw : PpHw} (h : hw.Quiet) : hw.status = 0 := by
  simp [PpHw.status, h.2.1, h.2.2]

theorem event_kept (d : PpData) (e : PpEvent) : d.Kept (d.event e) := by
  have hrefl : d.Kept d := by
    refine ⟨rfl, rfl, rfl, rfl, fun h => ⟨h, rfl⟩, fun h => ⟨h, rfl⟩, ?_, fun _ => rfl⟩
    cases h : d.hw.resetting <;> simp
  cases e with
  | finish =>
    simp only [PpData.event]
    split
    · rename_i hrun
      refine ⟨rfl, rfl, rfl, rfl, fun h => absurd h Bool.false_ne_true, fun h => ?_, ?_, fun h => ?_⟩
      · exact ⟨⟨rfl, h.2⟩, rfl⟩
      · cases h : d.hw.resetting <;> simp
      · rw [h.1.1] at hrun
        cases hrun
    · exact hrefl
  | error stops =>
    simp only [PpData.event]
    split
    · rename_i hrun
      refine ⟨rfl, rfl, rfl, rfl, fun _ => ⟨hrun, rfl⟩, fun h => ?_, ?_, fun h => ?_⟩
      · rw [h.1] at hrun
        cases hrun
      · cases h : d.hw.resetting <;> simp
      · rw [h.1.1] at hrun
        cases hrun
    · exact hrefl
  | reset regs =>
    simp only [PpData.event]
    split
    · rename_i hreset
      refine ⟨rfl, rfl, rfl, rfl, fun h => absurd h Bool.false_ne_true, fun h => ?_, ?_, fun h => ?_⟩
      · rw [h.2] at hreset
        cases hreset
      · exact .inr (.inr ⟨rfl, rfl⟩)
      · rw [h.1.2] at hreset
        cases hreset
    · exact hrefl
  | irq =>
    simp only [PpData.event, ppIrqHandler]
    split
    · exact hrefl
    · rename_i hstatus
      refine ⟨rfl, rfl, rfl, rfl, fun h => ⟨h, rfl⟩, fun h => ⟨h, rfl⟩, ?_, fun h => ?_⟩
      · cases h : d.hw.resetting <;> simp [h]
      · exact absurd h.status hstatus

theorem PpData.Kept.jobKept {d' : PpData} (h : d.Kept d') (hjob : d.JobKept) : d'.JobKept := by
  intro hrun
  obtain ⟨hbefore, hregs⟩ := h.running hrun
  rw [h.engine, hregs]
  exact hjob hbefore

theorem PpData.Kept.coherent {d' : PpData} (h : d.Kept d') (hcoh : d.Coherent) : d'.Coherent :=
  ⟨by rw [h.csc, h.whole, hcoh.csc], h.jobKept hcoh.job⟩

theorem PpData.Kept.rests {d' : PpData} (h : d.Kept d') (hrests : d.Rests) : d'.Rests := by
  intro hrun
  rw [h.lastReset]
  exact hrests (h.running hrun).1

theorem PpData.Kept.started {d' : PpData} (h : d.Kept d') {st : PpStart}
    (hst : d.Started ppBase p c st) : d'.Started ppBase p c st :=
  ⟨h.engine.trans hst.engine, hst.pid, hst.request, hst.prepared, hst.base,
    hst.csc.trans h.whole.symm, hst.reset⟩

theorem PpData.Kept.aim {d' : PpData} (h : d.Kept d') {aim : PpAim} (haim : aim.Ok ppBase p d) :
    aim.Ok ppBase p d' := by
  cases aim with
  | first c resize => exact ⟨haim.1, h.rests haim.2⟩
  | last c ret =>
    obtain ⟨hret, st, hst, hends⟩ := haim
    exact ⟨hret, st, h.started hst, hends⟩

theorem PpHw.status_cases (hw : PpHw) (h : hw.status ≠ 0) :
    (hw.status = 1 ∨ hw.status = 4 ∨ hw.status = 5) ∧ (hw.status % 2 = 1 → hw.frame = true) := by
  unfold PpHw.status at h ⊢
  cases herr : hw.err <;> cases hframe : hw.frame <;> simp [herr, hframe] at h ⊢

/-- The handler sees what the engine has reported. -/
theorem PpData.Tracks.event (h : d.Tracks) (hreset : d.hw.resetting = false) (e : PpEvent) :
    (d.event e).Tracks := by
  cases e with
  | finish =>
    simp only [PpData.event]
    -- An engine that runs has not reported its end.
    split
    · rename_i hrun
      refine ⟨h.done, h.last, h.seen, fun _ => rfl, fun st hst hodd => ?_⟩
      rw [(h.ended st hst hodd).1] at hrun
      cases hrun
    · exact h
  | error stops =>
    simp only [PpData.event]
    split
    · rename_i hrun
      refine ⟨h.done, h.last, h.seen, fun hframe => ?_, fun st hst hodd => ?_⟩
      · rw [h.frame hframe] at hrun
        cases hrun
      · rw [(h.ended st hst hodd).1] at hrun
        cases hrun
    · exact h
  | reset regs =>
    simp only [PpData.event]
    rw [if_neg (by simp [hreset])]
    exact h
  | irq =>
    simp only [PpData.event, ppIrqHandler]
    split
    · exact h
    · rename_i hstatus
      obtain ⟨hvalue, hodd⟩ := d.hw.status_cases hstatus
      refine ⟨by simp, fun st hst => ?_, fun st hst => ?_, fun hframe => absurd hframe
        Bool.false_ne_true, fun st hst hst' => ⟨?_, rfl, rfl⟩⟩
      · simpa using hst
      · rcases List.mem_append.mp hst with hst | hst
        · exact h.seen st hst
        · rw [List.mem_singleton.mp hst]
          exact hvalue
      · rcases List.mem_append.mp hst with hst | hst
        · exact (h.ended st hst hst').1
        · rw [List.mem_singleton.mp hst] at hst'
          exact h.frame (hodd hst')

theorem PpData.Programs.event {resize : Resize} {k : ℕ} (h : d.Programs ppBase c resize k)
    (e : PpEvent) : d.event e = d := (event_kept d e).quiet h.quiet

theorem PpData.Runs.event (h : d.Runs ppBase p c) (e : PpEvent) : (d.event e).Runs ppBase p c := by
  have hkept := event_kept d e
  obtain ⟨st, hst⟩ := h.started
  refine ⟨hkept.coherent h.coherent, ⟨st, hkept.started hst⟩, ?_, h.tracks.event h.resetting e⟩
  rcases hkept.resetting with ⟨htrue, -⟩ | ⟨-, hfalse, -⟩ | hstill
  · rw [h.resetting] at htrue
    cases htrue
  · exact hfalse
  · exact hstill.2

theorem event_handled (d : PpData) (e : PpEvent) (h : d.handled ≠ []) : (d.event e).handled ≠ [] := by
  cases e <;> simp only [PpData.event, ppIrqHandler] <;> split <;> simp [h]

theorem ppHeld_event (h : ppHeld ppBase p q d) (e : PpEvent) : ppHeld ppBase p q (d.event e) := by
  have hkept := event_kept d e
  cases q with
  | idle | returned | got | enter | setEnter | getEnter => trivial
  | swrst aim => exact ⟨hkept.coherent h.1, hkept.aim h.2⟩
  | check aim => exact ⟨hkept.coherent h.1, hkept.aim h.2.1, (hkept.still h.2.2).1⟩
  | clear aim => exact ⟨hkept.coherent h.1, hkept.aim h.2.1, (hkept.still h.2.2).1⟩
  | poll aim i =>
    refine ⟨hkept.coherent h.1, hkept.aim h.2.1, ?_⟩
    rcases h.2.2 with ⟨hreset, hcntl⟩ | hstill
    · rcases hkept.resetting with ⟨-, hreset', hregs⟩ | ⟨hfalse, -⟩ | hstill
      · exact .inl ⟨hreset', by rw [hregs, hcntl]⟩
      · rw [hreset] at hfalse
        cases hfalse
      · exact .inr hstill
    · exact .inr (hkept.still hstill).1
  | write c resize k => exact (h.event e).symm ▸ h
  | arm c resize => exact (h.event e).symm ▸ h
  | start c resize => exact (h.1.event e).symm ▸ h
  | wait c => exact h.event e
  | judge c => exact ⟨h.1.event e, event_handled d e h.2⟩
  | leave c started ret =>
    refine ⟨hkept.coherent h.1, hkept.rests h.2.1, ?_⟩
    obtain ⟨-, -, hleft⟩ := h
    unfold PpData.Left at hleft ⊢
    split
    · rename_i hstarted
      rw [if_pos hstarted] at hleft
      obtain ⟨⟨st, hst, hends⟩, hzero⟩ := hleft
      refine ⟨⟨st, hkept.started hst, hends⟩, fun hret => ?_⟩
      rw [hkept.quiet (hzero hret).1]
      exact hzero hret
    · rename_i hstarted
      rwa [if_neg hstarted] at hleft
  | set csc k =>
    exact ⟨by rw [hkept.csc, hkept.whole, h.1], h.2.1, hkept.jobKept h.2.2.1, hkept.rests h.2.2.2⟩
  | get csc k =>
    exact ⟨hkept.coherent h.1, hkept.rests h.2.1, by rw [hkept.csc]; exact h.2.2.1, h.2.2.2⟩

end Events

/-! ## Instructions -/

section Instructions

variable {ppBase : Bool} {p : ℕ} {c : PpConvert} {resize : Resize} {d : PpData} {aim : PpAim}

theorem PpData.JobKept.swrst (h : d.JobKept) : ({ d with hw := d.hw.swrst } : PpData).JobKept := by
  intro hrun
  obtain ⟨e, he, hregs⟩ := h hrun
  refine ⟨e, he, fun w hw => ?_⟩
  simp only [PpHw.swrst, PpHw.put, Function.update_of_ne (ppWrites_ne_cntl hw)]
  exact hregs w hw

theorem held_swrst (h : ppHeld ppBase p (.swrst aim) d) :
    ppHeld ppBase p (.poll aim 0) { d with hw := d.hw.swrst } := by
  refine ⟨⟨h.1.csc, h.1.job.swrst⟩, ?_, .inl ⟨rfl, d.hw.swrst_cntl⟩⟩
  cases aim with
  | first c resize => exact h.2
  | last c ret =>
    obtain ⟨hret, e, he, hends⟩ := h.2
    exact ⟨hret, e, ⟨he.engine, he.pid, he.request, he.prepared, he.base, he.csc, he.reset⟩, hends⟩

/-- A reset that has failed, before a conversion or after one. -/
theorem held_after_failed (hcoh : d.Coherent) (haim : aim.Ok ppBase p d) {rc : ℤ} (hrc : rc ≠ 0)
    (hrests : d.hw.running = true → rc = -62) :
    ppHeld ppBase p (aim.after rc) { d with lastReset := rc } := by
  cases aim with
  | first c resize =>
    rw [PpAim.after, if_pos hrc]
    exact ⟨⟨hcoh.csc, hcoh.job⟩, hrests, ⟨resize, haim.1⟩, hrc⟩
  | last c ret =>
    obtain ⟨hret, e, he, hends⟩ := haim
    exact ⟨⟨hcoh.csc, hcoh.job⟩, hrests,
      ⟨e, ⟨he.engine, he.pid, he.request, he.prepared, he.base, he.csc, he.reset⟩, hends⟩,
      fun hzero => absurd hzero hret⟩

theorem held_clear (h : ppHeld ppBase p (.clear aim) d) :
    ppHeld ppBase p (aim.after 0) { d with hw := d.hw.ack, lastReset := 0 } := by
  obtain ⟨hcoh, haim, hstill⟩ := h
  cases aim with
  | first c resize =>
    exact ⟨⟨hcoh.csc, hcoh.job⟩, haim.1, ⟨hstill, rfl, rfl⟩, fun j hj => absurd hj (Nat.not_lt_zero j)⟩
  | last c ret =>
    obtain ⟨hret, e, he, hends⟩ := haim
    refine ⟨⟨hcoh.csc, hcoh.job⟩, fun hrun => ?_,
      ⟨e, ⟨he.engine, he.pid, he.request, he.prepared, he.base, he.csc, he.reset⟩, hends⟩,
      fun hzero => absurd hzero hret⟩
    exact absurd (hstill.1.symm.trans hrun) Bool.false_ne_true

/-- One more register: the ones before stay. -/
theorem held_write (h : d.Programs ppBase c resize k) {w : ℕ × (PpRegs → ℕ)}
    (hw : (ppWrites resize)[k]? = some w) :
    (d.program ppBase c resize w).Programs ppBase c resize (k + 1) := by
  obtain ⟨hcoh, hprep, hquiet, hwritten⟩ := h
  have hmem := List.mem_of_getElem? hw
  refine ⟨⟨hcoh.csc, fun hrun => ?_⟩, hprep, hquiet, fun j hj w' hw' => ?_⟩
  · exact absurd (hquiet.1.1.symm.trans hrun) Bool.false_ne_true
  · have henv : (d.program ppBase c resize w).env ppBase = d.env ppBase := by
      simp only [PpData.env, PpData.program, PpHw.put, Function.update_of_ne (ppWrites_ne_cntl hmem).symm]
    rw [henv]
    simp only [PpData.program, PpHw.put]
    by_cases hjk : j = k
    · subst hjk
      obtain rfl : w' = w := Option.some.inj (hw'.symm.trans hw)
      rw [Function.update_self]
    · have hne : w'.1 ≠ w.1 := by
        intro heq
        have hfst : ((ppWrites resize).map Prod.fst)[j]? = some w'.1 := by simp [hw']
        have hfst' : ((ppWrites resize).map Prod.fst)[k]? = some w'.1 := by simp [hw, heq]
        have hlen := (List.getElem?_eq_some_iff.mp hfst).1
        exact hjk ((List.getElem?_inj hlen (ppWrites_nodup resize)).mp (hfst.trans hfst'.symm))
      rw [Function.update_of_ne hne]
      exact hwritten j (by omega) w' hw'

theorem held_begin (h : d.Programs ppBase c resize (ppWrites resize).length)
    (hdone : d.ppDone = false) : (d.begin ppBase p c resize).Runs ppBase p c := by
  obtain ⟨hcoh, hprep, hquiet, hwritten⟩ := h
  refine ⟨⟨hcoh.csc, fun _ => ⟨_, rfl, fun w hw => ?_⟩⟩, ⟨_, rfl, rfl, rfl, hprep, rfl, rfl, rfl⟩,
    hquiet.1.2, ?_⟩
  · obtain ⟨j, hj, hget⟩ := List.getElem_of_mem hw
    simp only [PpData.begin, PpHw.put, PpStart.regs, Function.update_of_ne (ppWrites_ne_cntl hw)]
    rw [hwritten j hj w (by rw [List.getElem?_eq_getElem hj, hget])]
    exact ppWrites_congr hcoh.csc hw
  · refine ⟨by simp [PpData.begin, hdone], by simp [PpData.begin], by simp [PpData.begin], ?_,
      by simp [PpData.begin]⟩
    simp [PpData.begin, PpHw.put, hquiet.2.2]

/-- The status that is judged is the last one that the handler has seen. -/
theorem held_judge (h : d.Runs ppBase p c) (hseen : d.handled ≠ []) :
    if d.ppStatus / 4 % 2 = 1 then ppHeld ppBase p (.swrst (.last c (-5))) d
    else ppHeld ppBase p (.leave c true 0) d := by
  obtain ⟨hcoh, ⟨e, he⟩, hreset, htracks⟩ := h
  have hlast := List.getLast?_eq_some_getLast hseen
  have hstatus := htracks.last _ hlast
  have hmem := List.getLast_mem hseen
  split
  · rename_i herr
    exact ⟨hcoh, by decide, e, he, 1, d.ppStatus, by simp [PpEnv.outcome, herr]⟩
  · rename_i herr
    have hone : d.handled.getLast hseen = 1 := by
      rcases htracks.seen _ hmem with h | h | h
      · exact h
      all_goals exact absurd (by rw [hstatus, h]) herr
    obtain ⟨hrun, herr', hframe⟩ := htracks.ended _ hmem (by rw [hone])
    refine ⟨hcoh, fun hrun' => absurd (hrun.symm.trans hrun') Bool.false_ne_true,
      ⟨e, he, 1, d.ppStatus, by simp [PpEnv.outcome, herr]⟩, fun _ => ?_⟩
    exact ⟨⟨⟨hrun, hreset⟩, herr', hframe⟩, by rw [hlast, hone]⟩

theorem held_giveUp (h : d.Runs ppBase p c) (signal : Bool) :
    ppHeld ppBase p (.swrst (.last c (if signal then -512 else -62))) d := by
  obtain ⟨hcoh, ⟨e, he⟩, -, -⟩ := h
  cases signal with
  | false => exact ⟨hcoh, by decide, e, he, 0, 0, by simp [PpEnv.outcome]⟩
  | true => exact ⟨hcoh, by decide, e, he, -512, 0, by simp [PpEnv.outcome]⟩

end Instructions

/-! ## Every interleaving -/

section Rules

variable {ppBase : Bool} {p : ℕ} {q q' : PpPc} {a : PpOccasion} {d d' : PpData}

theorem ppHeld_go (h : ppHeld ppBase p q d) (hmove : ppGo ppBase p d q = .work q' d') :
    ppHeld ppBase p q' d' := by
  cases q with
  | idle | returned | got | enter | setEnter | getEnter | leave => cases hmove
  | swrst aim =>
    cases hmove
    exact held_swrst h
  | poll aim i =>
    simp only [ppGo] at hmove
    obtain ⟨hcoh, haim, hpoll⟩ := h
    -- The reset bit has fallen, a round is left, or the rounds are used up.
    split at hmove
    · rename_i hbit
      cases hmove
      refine ⟨hcoh, haim, hpoll.resolve_left fun hpending => ?_⟩
      rw [hpending.2] at hbit
      cases hbit
    split at hmove
    · cases hmove
      exact ⟨hcoh, haim, hpoll⟩
    · cases hmove
      exact held_after_failed hcoh haim (by decide) fun _ => rfl
  | check aim =>
    simp only [ppGo] at hmove
    obtain ⟨hcoh, haim, hstill⟩ := h
    -- Whether the register has its reset value or not, the engine is still.
    split at hmove
    · cases hmove
      exact held_after_failed hcoh haim (by decide)
        fun hrun => absurd (hstill.1.symm.trans hrun) Bool.false_ne_true
    · cases hmove
      exact ⟨hcoh, haim, hstill⟩
  | clear aim =>
    cases hmove
    exact held_clear h
  | write c resize k =>
    simp only [ppGo] at hmove
    -- The next register of the job is written, or all of them are.
    split at hmove
    · rename_i w hw
      cases hmove
      exact held_write h hw
    · rename_i hend
      cases hmove
      have hlen := List.getElem?_eq_none_iff.mp hend
      exact ⟨⟨h.coherent.csc, h.coherent.job⟩, h.prepared, h.quiet,
        fun j hj => h.written j (hj.trans_le hlen)⟩
  | arm c resize =>
    cases hmove
    exact ⟨⟨⟨h.coherent.csc, h.coherent.job⟩, h.prepared, h.quiet, h.written⟩, rfl⟩
  | start c resize =>
    cases hmove
    exact held_begin h.1 h.2
  | wait c =>
    simp only [ppGo] at hmove
    split at hmove
    · rename_i hdone
      cases hmove
      exact ⟨h, h.tracks.done.mp hdone⟩
    · cases hmove
  | judge c =>
    have hjudge := held_judge h.1 h.2
    simp only [ppGo] at hmove
    split at hmove <;> rename_i herr <;> cases hmove
    · rwa [if_pos herr] at hjudge
    · rwa [if_neg herr] at hjudge
  | set csc k =>
    simp only [ppGo] at hmove
    obtain ⟨hcsc, -, hjob, hrests⟩ := h
    split at hmove
    · rename_i hk
      cases hmove
      exact ⟨by rw [PpCsc.copied, ← hcsc], hk, hjob, hrests⟩
    · cases hmove
  | get csc k =>
    simp only [ppGo] at hmove
    obtain ⟨hcoh, hrests, hcsc, -⟩ := h
    split at hmove
    · rename_i hk
      cases hmove
      exact ⟨hcoh, hrests, by rw [PpCsc.copied, ← hcsc], hk⟩
    · cases hmove

theorem ppHeld_giveUp {signal : Bool} (h : ppHeld ppBase p q d)
    (hmove : ppGiveUp signal d q = .work q' d') : ppHeld ppBase p q' d' := by
  cases q with
  | wait c =>
    simp only [ppGiveUp] at hmove
    split at hmove
    · rename_i hdone
      cases hmove
      exact ⟨h, h.tracks.done.mp hdone⟩
    · cases hmove
      exact held_giveUp h signal
  | _ => cases hmove

theorem ppHeld_release (h : ppHeld ppBase p q d) (hmove : ppGo ppBase p d q = .release q' d') :
    ppFree d' ∧ ppOut ppBase p q' := by
  cases q with
  | idle | returned | got | enter | setEnter | getEnter | swrst | clear | arm | start => cases hmove
  | poll | check | wait | judge =>
    simp only [ppGo] at hmove
    repeat' split at hmove
    all_goals cases hmove
  | write c resize k =>
    simp only [ppGo] at hmove
    split at hmove <;> cases hmove
  | leave c started ret =>
    cases hmove
    exact ⟨⟨h.1, h.2.1⟩, trivial⟩
  | set csc k =>
    simp only [ppGo] at hmove
    obtain ⟨hcsc, hk, hjob, hrests⟩ := h
    split at hmove
    · cases hmove
    · rename_i hend
      cases hmove
      obtain rfl : k = 6 := by omega
      rw [PpCsc.copied_all] at hcsc
      exact ⟨⟨⟨hcsc, hjob⟩, hrests⟩, trivial⟩
  | get csc k =>
    simp only [ppGo] at hmove
    split at hmove
    · cases hmove
    · cases hmove
      exact ⟨⟨h.1, h.2.1⟩, trivial⟩

theorem ppHeld_acquire (h : ppOut ppBase p q) (hfree : ppFree d)
    (hmove : ppGo ppBase p d q = .acquire q' d') : ppHeld ppBase p q' d' := by
  cases q with
  | enter c resize =>
    cases hmove
    exact ⟨hfree.1, h, hfree.2⟩
  | setEnter csc =>
    cases hmove
    exact ⟨hfree.1.csc, Nat.zero_le 6, hfree.1.job, hfree.2⟩
  | getEnter =>
    cases hmove
    exact ⟨hfree.1, hfree.2, rfl, Nat.zero_le 6⟩
  | idle | returned | got | swrst | clear | arm | start | leave => cases hmove
  | poll | check | wait | judge | set | get =>
    simp only [ppGo] at hmove
    repeat' split at hmove
    all_goals cases hmove
  | write c resize k =>
    simp only [ppGo] at hmove
    split at hmove <;> cases hmove

theorem ppEntry_out (ppBase : Bool) (p : ℕ) (c : PpConvert) : ppOut ppBase p (ppEntry ppBase c) := by
  unfold ppEntry
  split
  · trivial
  · assumption

theorem ppGo_ne_goto (ppBase : Bool) (p : ℕ) (d : PpData) (q q' : PpPc) :
    ppGo ppBase p d q ≠ .goto q' := by
  cases q <;> simp only [ppGo] <;> repeat' split
  all_goals simp

/-- Who gives up waiting keeps the lock. -/
theorem ppGiveUp_keeps {signal : Bool} {d : PpData} {q : PpPc} {m : Move PpPc PpData}
    (hmove : ppGiveUp signal d q = m) : m = .stay ∨ ∃ q' d', m = .work q' d' := by
  subst hmove
  cases q with
  | wait c =>
    simp only [ppGiveUp]
    split <;> exact .inr ⟨_, _, rfl⟩
  | _ => exact .inl rfl

/-- A process moves by its program, by giving up, or into a call. -/
theorem ppMove_cases (ppBase : Bool) (p : ℕ) (q : PpPc) (a : PpOccasion) (d : PpData) :
    ppMove ppBase p q a d = ppGo ppBase p d q ∨
      (∃ signal, ppMove ppBase p q a d = ppGiveUp signal d q) ∨
      ppMove ppBase p q a d = .stay ∨
      ∃ q', ppMove ppBase p q a d = .goto q' ∧ ppOut ppBase p q' := by
  cases a with
  | go => exact .inl rfl
  | giveUp signal => exact .inr (.inl ⟨signal, rfl⟩)
  | convert c =>
    simp only [ppMove]
    split
    · exact .inr (.inr (.inr ⟨_, rfl, ppEntry_out ppBase p c⟩))
    · exact .inr (.inr (.inl rfl))
  | setCsc csc =>
    simp only [ppMove]
    split
    · exact .inr (.inr (.inr ⟨.setEnter csc, rfl, trivial⟩))
    · exact .inr (.inr (.inl rfl))
  | getCsc =>
    simp only [ppMove]
    split
    · exact .inr (.inr (.inr ⟨.getEnter, rfl, trivial⟩))
    · exact .inr (.inr (.inl rfl))

theorem ppRules (ppBase : Bool) :
    Rules (ppDriver ppBase) ppFree (ppHeld ppBase) (ppOut ppBase) where
  goto := by
    intro p q a d q' _ hmove
    rcases ppMove_cases ppBase p q a d with h | ⟨signal, h⟩ | h | ⟨q'', h, hout⟩ <;>
      rw [show (ppDriver ppBase).move p q a d = _ from h] at hmove
    · exact absurd hmove (ppGo_ne_goto ppBase p d q q')
    · obtain hkeeps | ⟨_, _, hkeeps⟩ := ppGiveUp_keeps hmove <;> cases hkeeps
    · cases hmove
    · cases hmove
      exact hout
  acquire := by
    intro p q a d q' d' hout hfree hmove
    rcases ppMove_cases ppBase p q a d with h | ⟨signal, h⟩ | h | ⟨q'', h, -⟩ <;>
      rw [show (ppDriver ppBase).move p q a d = _ from h] at hmove
    · exact ppHeld_acquire hout hfree hmove
    · obtain hkeeps | ⟨_, _, hkeeps⟩ := ppGiveUp_keeps hmove <;> cases hkeeps
    · cases hmove
    · cases hmove
  work := by
    intro p q a d q' d' hheld hmove
    rcases ppMove_cases ppBase p q a d with h | ⟨signal, h⟩ | h | ⟨q'', h, -⟩ <;>
      rw [show (ppDriver ppBase).move p q a d = _ from h] at hmove
    · exact ppHeld_go hheld hmove
    · exact ppHeld_giveUp hheld hmove
    · cases hmove
    · cases hmove
  release := by
    intro p q a d q' d' hheld hmove
    rcases ppMove_cases ppBase p q a d with h | ⟨signal, h⟩ | h | ⟨q'', h, -⟩ <;>
      rw [show (ppDriver ppBase).move p q a d = _ from h] at hmove
    · exact ppHeld_release hheld hmove
    · obtain hkeeps | ⟨_, _, hkeeps⟩ := ppGiveUp_keeps hmove <;> cases hkeeps
    · cases hmove
    · cases hmove
  env_free := by
    intro e d hfree
    have hkept := event_kept d e
    exact ⟨hkept.coherent hfree.1, hkept.rests hfree.2⟩
  env_held := fun hheld => ppHeld_event hheld _

/-- The invariant of the lock, in every state that any interleaving reaches. -/
theorem ppStateAt (ppBase : Bool) (hw : PpHw) (acts : List (Act PpOccasion PpEvent)) (n : ℕ) :
    Inv (ppDriver ppBase) ppFree (ppHeld ppBase) (ppOut ppBase)
      (stateAt (ppDriver ppBase).step (ppInit hw) acts n) := by
  refine (ppRules ppBase).stateAt
    (Inv.init rfl (fun p => show ppOut ppBase p .idle from trivial) ⟨⟨rfl, ?_⟩, ?_⟩) acts n
  · exact fun hrun => absurd hrun Bool.false_ne_true
  · exact fun hrun => absurd hrun Bool.false_ne_true

end Rules

/-! ## Order -/

/-- The process is in the conversion `c`, and has started the engine. -/
def PpPc.Serves (c : PpConvert) : PpPc → Prop
  | .wait c' | .judge c' | .leave c' true _ => c' = c
  | .swrst (.last c' _) | .poll (.last c' _) _ | .check (.last c' _) | .clear (.last c' _) => c' = c
  | _ => False

/-- The process programs the engine. -/
def PpPc.Programs : PpPc → Prop
  | .write _ _ _ | .arm _ _ | .start _ _ => True
  | _ => False

structure PpOrderly (s : Shared PpPc PpData) : Prop where
  alone : ∀ p p', (s.pc p).inside = true → (s.pc p').inside = true → p' = p
  /-- The registers are those of one request, with coefficients that were set as a whole. -/
  registers : s.data.hw.running = true →
    ∃ e, s.data.engine = some e ∧ e.Programmed s.data.hw.regs
  /-- Who started the engine waits for it, but for a reset that was given up. -/
  owner : s.data.hw.running = true → s.data.lastReset = -62 ∨
    ∃ e, s.data.engine = some e ∧ s.lock = some e.pid ∧ (s.pc e.pid).Serves e.request
  stopped : ∀ p, (s.pc p).Programs → s.data.hw.running = false
  /-- What `VPU_IOC_PP_GET_CSC` has read is what was set last. -/
  coefficients : ∀ p csc, s.pc p = .get csc 6 → csc = s.data.whole

section Order

variable {ppBase : Bool} {p : ℕ} {q : PpPc} {d : PpData}

theorem ppHeld_job (h : ppHeld ppBase p q d) (hin : q.inside = true) : d.JobKept := by
  cases q with
  | idle | returned | got | enter | setEnter | getEnter => cases hin
  | swrst | poll | check | clear | leave | get => exact h.1.job
  | write | arm => exact h.coherent.job
  | start => exact h.1.coherent.job
  | wait => exact h.coherent.job
  | judge => exact h.1.coherent.job
  | set => exact h.2.2.1

theorem aim_owner {aim : PpAim} (h : aim.Ok ppBase p d) (hrun : d.hw.running = true) :
    d.lastReset = -62 ∨ ∃ e, d.engine = some e ∧ e.pid = p ∧ ∃ ret, aim = .last e.request ret := by
  cases aim with
  | first c resize => exact .inl (h.2 hrun)
  | last c ret =>
    obtain ⟨-, e, he, -⟩ := h
    exact .inr ⟨e, he.engine, he.pid, ret, by rw [he.request]⟩

theorem ppHeld_owner (h : ppHeld ppBase p q d) (hin : q.inside = true)
    (hrun : d.hw.running = true) :
    d.lastReset = -62 ∨ ∃ e, d.engine = some e ∧ e.pid = p ∧ q.Serves e.request := by
  have hquiet {hw : PpHw} (hstill : hw.Still) (hwrun : hw.running = true) : False :=
    absurd (hstill.1.symm.trans hwrun) Bool.false_ne_true
  cases q with
  | idle | returned | got | enter | setEnter | getEnter => cases hin
  | swrst aim =>
    refine (aim_owner h.2 hrun).imp_right ?_
    rintro ⟨e, he, hpid, ret, rfl⟩
    exact ⟨e, he, hpid, rfl⟩
  | poll aim i =>
    refine (aim_owner h.2.1 hrun).imp_right ?_
    rintro ⟨e, he, hpid, ret, rfl⟩
    exact ⟨e, he, hpid, rfl⟩
  | check aim => exact (hquiet h.2.2 hrun).elim
  | clear aim => exact (hquiet h.2.2 hrun).elim
  | write | arm => exact (hquiet h.quiet.1 hrun).elim
  | start => exact (hquiet h.1.quiet.1 hrun).elim
  | wait c =>
    obtain ⟨e, he⟩ := h.started
    exact .inr ⟨e, he.engine, he.pid, he.request.symm⟩
  | judge c =>
    obtain ⟨e, he⟩ := h.1.started
    exact .inr ⟨e, he.engine, he.pid, he.request.symm⟩
  | leave => exact .inl (h.2.1 hrun)
  | set => exact .inl (h.2.2.2 hrun)
  | get => exact .inl (h.2.1 hrun)

end Order

/-- Whatever the processes, the engine and the handler do, one conversion at a time has the engine:
its registers are written while it is stopped, and are those of one request while it runs. -/
theorem pp_engine_orderly (ppBase : Bool) (hw : PpHw) (acts : List (Act PpOccasion PpEvent))
    (n : ℕ) : PpOrderly (stateAt (ppDriver ppBase).step (ppInit hw) acts n) := by
  have hinv := ppStateAt ppBase hw acts n
  generalize stateAt (ppDriver ppBase).step (ppInit hw) acts n = s at hinv
  have hheld {p : ℕ} (hin : (s.pc p).inside = true) : ppHeld ppBase p (s.pc p) s.data :=
    hinv.held p ((hinv.guarded p).mp hin)
  refine ⟨fun p p' hp hp' => hinv.alone hp hp', fun hrun => ?_, fun hrun => ?_, fun p hprog => ?_,
    fun p csc hget => ?_⟩
  · cases hlock : s.lock with
    | none => exact (hinv.free hlock).1.job hrun
    | some p => exact ppHeld_job (hinv.held p hlock) ((hinv.guarded p).mpr hlock) hrun
  · cases hlock : s.lock with
    | none => exact .inl ((hinv.free hlock).2 hrun)
    | some p =>
      refine (ppHeld_owner (hinv.held p hlock) ((hinv.guarded p).mpr hlock) hrun).imp_right ?_
      rintro ⟨e, he, rfl, hserves⟩
      exact ⟨e, he, rfl, hserves⟩
  · cases hq : s.pc p with
    | write c resize k =>
      have h := hheld (p := p) (by rw [hq]; rfl)
      rw [hq] at h
      exact h.quiet.1.1
    | arm c resize =>
      have h := hheld (p := p) (by rw [hq]; rfl)
      rw [hq] at h
      exact h.quiet.1.1
    | start c resize =>
      have h := hheld (p := p) (by rw [hq]; rfl)
      rw [hq] at h
      exact h.1.quiet.1.1
    | _ =>
      rw [hq] at hprog
      exact hprog.elim
  · have h := hheld (p := p) (by rw [hget]; rfl)
    rw [hget] at h
    obtain ⟨hcoh, -, hcsc, -⟩ := h
    rw [hcsc, PpCsc.copied_all, hcoh.csc]

/-! ## Atomicity -/

theorem guarded_none {α : Type} {check : C (Option ℤ)} {run : C (Option α × ℤ)}
    (h : check.value = none) : (guarded check run).value = run.value := by
  unfold guarded
  rw [value_bind, h]

theorem ppRun_ok {env : PpEnv} {c : PpConvert} {build : C (Except ℤ Resize)} {resize : Resize}
    (h : build.value = .ok resize) :
    (ppRun env c build).value =
      if env.reset ≠ 0 then (none, env.reset)
      else (some (ppProgram env c resize).value, env.outcome) := by
  unfold ppRun
  rw [value_bind, h]
  by_cases hreset : env.reset = 0
  · simp only [hreset, ne_eq, not_true_eq_false, if_false]
    rw [value_bind]
    rfl
  · simp only [ne_eq, hreset, not_false_eq_true, if_true]
    rfl

theorem ppPrepare_ok {ppBase : Bool} {c : PpConvert} {resize : Resize}
    (h : ppPrepare ppBase c = .ok resize) :
    (ppValidate ppBase c).value = none ∧
      (ppBuildResize c.srcW c.srcH c.dstW c.dstH).value = .ok resize := by
  unfold ppPrepare at h
  generalize (ppValidate ppBase c).value = check at h ⊢
  generalize (ppBuildResize c.srcW c.srcH c.dstW c.dstH).value = build at h ⊢
  cases check with
  | some e => cases h
  | none =>
    cases build with
    | error e => cases h
    | ok resize' => exact ⟨rfl, h⟩

theorem ppConvert_eq (env : PpEnv) (c : PpConvert) (resize : Resize)
    (hprep : ppPrepare env.ppBase c = .ok resize) :
    (ppConvert env c).value =
      if env.reset ≠ 0 then (none, env.reset)
      else (some (ppProgram env c resize).value, env.outcome) := by
  obtain ⟨hcheck, hbuild⟩ := ppPrepare_ok hprep
  rw [ppConvert, guarded_none hcheck, ppRun_ok hbuild]

/-- A conversion that is about to return is one of `ppConvert`, with the coefficients that were set
last; the engine got what that programs.  Where it reports success the engine has stopped, and the
last interrupt of its run was that of the frame. -/
structure PpAtomic (ppBase : Bool) (c : PpConvert) (started : Bool) (ret : ℤ) (d : PpData) : Prop where
  converts : ∃ env, env.ppBase = ppBase ∧ env.csc = d.whole ∧
    (ppConvert env c).value = (if started then d.engine.map PpStart.regs else none, ret)
  finished : ret = 0 → d.hw.running = false ∧ d.handled.getLast? = some 1

theorem pp_conversion_atomic (ppBase : Bool) (hw : PpHw) (acts : List (Act PpOccasion PpEvent))
    (n p : ℕ) (c : PpConvert) (started : Bool) (ret : ℤ)
    (hleave : (stateAt (ppDriver ppBase).step (ppInit hw) acts n).pc p = .leave c started ret) :
    PpAtomic ppBase c started ret (stateAt (ppDriver ppBase).step (ppInit hw) acts n).data := by
  have hinv := ppStateAt ppBase hw acts n
  generalize stateAt (ppDriver ppBase).step (ppInit hw) acts n = s at hinv hleave
  have hheld := hinv.held p ((hinv.guarded p).mp (by rw [hleave]; rfl))
  rw [hleave] at hheld
  obtain ⟨-, -, hleft⟩ := hheld
  unfold PpData.Left at hleft
  cases started with
  | false =>
    rw [if_neg Bool.false_ne_true] at hleft
    obtain ⟨⟨resize, hprep⟩, hret⟩ := hleft
    refine ⟨⟨⟨ppBase, s.data.whole, ret, 0, 0, 0⟩, rfl, rfl, ?_⟩, fun hzero => absurd hzero hret⟩
    rw [ppConvert_eq _ c resize hprep, if_pos hret]
    rfl
  | true =>
    rw [if_pos rfl] at hleft
    obtain ⟨⟨e, he, wait, status, hends⟩, hzero⟩ := hleft
    refine ⟨⟨{ e.env with wait := wait, status := status }, he.base, he.csc, ?_⟩,
      fun hret => ⟨(hzero hret).1.1.1, (hzero hret).2⟩⟩
    rw [ppConvert_eq _ c e.resize (by rw [he.base]; exact he.prepared),
      if_neg (not_not.mpr he.reset), hends, if_pos rfl, he.engine]
    obtain rfl := he.request
    rfl

/-- An engine that has done nothing yet. -/
def readyHw : PpHw := ⟨fun _ => 0, false, false, false, false⟩

/-- An error of the engine, and then the frame, before the process looks. -/
def panelRun : List (Act PpOccasion PpEvent) :=
  [.proc 3 (.convert toPanel), .proc 3 .go, .proc 3 .go, .env (.reset fun _ => 0x876)] ++
    List.replicate 25 (.proc 3 .go) ++
    [.env (.error false), .env .irq, .env .finish, .env .irq, .proc 3 .go, .proc 3 .go]

/-- The table for 640x360 pixels to 800x450. -/
def panelResize : Resize := ⟨[249, 51, 107, 155, 211], 262148⟩

theorem panelRun_takes : (stateAt (ppDriver true).step (ppInit readyHw) panelRun 2).pc 3 =
    .swrst (.first toPanel panelResize) := by decide +kernel

theorem panelRun_leaves : (stateAt (ppDriver true).step (ppInit readyHw) panelRun 35).pc 3 =
    .leave toPanel true 0 := by decide +kernel

theorem panelRun_keeps : ∀ k ≤ (panelRun.drop 2).length,
    (stateAt (ppDriver true).step (stateAt (ppDriver true).step (ppInit readyHw) panelRun 2)
      (panelRun.drop 2) k).lock = some 3 := by decide +kernel

theorem pp_conversion_atomic_panel :
    (stateAt (ppDriver true).step (ppInit readyHw) panelRun 35).data.handled = [4, 1] ∧
      PpAtomic true toPanel true 0
        (stateAt (ppDriver true).step (ppInit readyHw) panelRun 35).data :=
  ⟨by decide +kernel, pp_conversion_atomic true readyHw panelRun 35 3 toPanel true 0 panelRun_leaves⟩

/-! ## How long the lock is held -/

/-- The instructions behind a reset. -/
def PpAim.rank : PpAim → ℕ
  | .first _ resize => (ppWrites resize).length + 1009
  | .last _ _ => 0

/-- No fewer than the instructions that a process has left inside of the lock. -/
def PpPc.rank : PpPc → ℕ
  | .swrst aim => aim.rank + 1004
  | .poll aim i => aim.rank + 3 + (1000 - i)
  | .check aim => aim.rank + 2
  | .clear aim => aim.rank + 1
  | .write _ resize k => (ppWrites resize).length - k + 1009
  | .arm _ _ => 1008
  | .start _ _ => 1007
  | .wait _ => 1006
  | .judge _ => 1005
  | .set _ k | .get _ k => 6 - k
  | _ => 0

theorem PpAim.after_rank (aim : PpAim) (rc : ℤ) : (aim.after rc).rank ≤ aim.rank := by
  cases aim with
  | first c resize =>
    simp only [PpAim.after]
    split <;> simp [PpPc.rank, PpAim.rank]
  | last c ret => rfl

theorem ppRanked (ppBase : Bool) : (ppDriver ppBase).Ranked PpPc.rank := by
  intro p q a d q' d' hmove
  -- The program, a wait that gives up, a step that stays, or the entry of a call.
  rcases ppMove_cases ppBase p q a d with h | ⟨signal, h⟩ | h | ⟨q'', h, -⟩ <;>
    rw [show (ppDriver ppBase).move p q a d = _ from h] at hmove
  · cases q with
    | idle | returned | got | enter | setEnter | getEnter | leave => cases hmove
    | swrst aim =>
      cases hmove
      simp [PpPc.rank]
    | poll aim i =>
      simp only [ppGo] at hmove
      have hafter := aim.after_rank (-62)
      split at hmove
      · cases hmove
        simp only [PpPc.rank]
        omega
      split at hmove
      · cases hmove
        simp only [PpPc.rank]
        omega
      · cases hmove
        show (aim.after (-62)).rank < aim.rank + 3 + (1000 - i)
        omega
    | check aim =>
      simp only [ppGo] at hmove
      have hafter := aim.after_rank (-5)
      split at hmove
      · cases hmove
        show (aim.after (-5)).rank < aim.rank + 2
        omega
      · cases hmove
        simp [PpPc.rank]
    | clear aim =>
      cases hmove
      exact Nat.lt_succ_of_le (aim.after_rank 0)
    | write c resize k =>
      simp only [ppGo] at hmove
      split at hmove
      · rename_i w hw
        cases hmove
        have hlen := (List.getElem?_eq_some_iff.mp hw).1
        simp only [PpPc.rank]
        omega
      · cases hmove
        simp only [PpPc.rank]
        omega
    | arm | start =>
      cases hmove
      simp [PpPc.rank]
    | wait c =>
      simp only [ppGo] at hmove
      split at hmove <;> cases hmove
      simp [PpPc.rank]
    | judge c =>
      simp only [ppGo] at hmove
      split at hmove <;> cases hmove <;> simp [PpPc.rank, PpAim.rank]
    | set csc k =>
      simp only [ppGo] at hmove
      split at hmove <;> cases hmove
      simp only [PpPc.rank]
      omega
    | get csc k =>
      simp only [ppGo] at hmove
      split at hmove <;> cases hmove
      simp only [PpPc.rank]
      omega
  · cases q with
    | wait c =>
      simp only [ppGiveUp] at hmove
      split at hmove <;> cases hmove <;> simp [PpPc.rank, PpAim.rank]
    | _ => cases hmove
  · cases hmove
  · cases hmove

/-- Inside of the lock a process moves, at the latest when its wait gives up. -/
theorem ppMoves (ppBase : Bool) (p : ℕ) {q : PpPc} (hin : q.inside = true) (d : PpData) :
    ∃ a, ((ppDriver ppBase).move p q a d).idle = false := by
  cases q with
  | idle | returned | got | enter | setEnter | getEnter => cases hin
  | wait c =>
    refine ⟨.giveUp false, ?_⟩
    simp only [ppDriver, ppMove, ppGiveUp]
    split <;> rfl
  | swrst | clear | arm | start | leave => exact ⟨.go, rfl⟩
  | poll | check | judge | set | get | write =>
    refine ⟨.go, ?_⟩
    simp only [ppDriver, ppMove, ppGo]
    repeat' split
    all_goals rfl

/-- A conversion that has taken `pp_lock` gives it back after no more than 2027 instructions and one
for each entry of its resize table, whatever the engine, the handler and the others do, and there is
always one that it can execute. -/
theorem pp_lock_given_back (ppBase : Bool) (s : Shared PpPc PpData)
    (acts : List (Act PpOccasion PpEvent)) (p : ℕ) (c : PpConvert) (resize : Resize)
    (htaken : s.pc p = .swrst (.first c resize))
    (hkeeps : ∀ k ≤ acts.length, (stateAt (ppDriver ppBase).step s acts k).lock = some p) :
    (ppDriver ppBase).worked p s acts ≤ resize.tbl.length + 2027 ∧
      ∃ a, (ppDriver ppBase).works p (stateAt (ppDriver ppBase).step s acts acts.length)
        (.proc p a) = true := by
  have hin : PpPc.inside (s.pc p) = true := by
    rw [htaken]
    rfl
  have hlen : (ppWrites resize).length = resize.tbl.length + 14 := by simp [ppWrites]
  constructor
  · have hle := (ppRanked ppBase).worked_le acts hin hkeeps
    rw [htaken] at hle
    simp only [PpPc.rank, PpAim.rank, hlen] at hle
    omega
  · have hthere := (ppRanked ppBase).inside_of_keeps acts hin hkeeps
    obtain ⟨a, ha⟩ := ppMoves ppBase p hthere
      (stateAt (ppDriver ppBase).step s acts acts.length).data
    exact ⟨a, by simp [Program.works, ha]⟩

theorem pp_lock_given_back_panel :
    (ppDriver true).worked 3 (stateAt (ppDriver true).step (ppInit readyHw) panelRun 2)
        (panelRun.drop 2) ≤ 5 + 2027 ∧
      ∃ a, (ppDriver true).works 3
        (stateAt (ppDriver true).step (stateAt (ppDriver true).step (ppInit readyHw) panelRun 2)
          (panelRun.drop 2) 33) (.proc 3 a) = true :=
  pp_lock_given_back true (stateAt (ppDriver true).step (ppInit readyHw) panelRun 2)
    (panelRun.drop 2) 3 toPanel panelResize panelRun_takes panelRun_keeps

end Kernel
end ToonVpu
