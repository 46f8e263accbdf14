import Mathlib.Data.Fin.Basic
import Mathlib.Data.List.FinRange
import ToonVpu.Lib.Bitstream

/-!
# Semaphore — libvpu's shared state and the decoder calls that lock it (`lib/vpu_lib.c`)

`semaphore_t` lives in kernel memory that every process of the library maps: the API mutex, the
pool of codec instances and the instance with a frame in progress.  The mutex is a normal one, so
a caller that already holds it waits until the timeout and fails.

The calls are those of an i.MX27.  Each is written as the sequence of stores it makes into the
shared memory, so that a process can be stopped between any two of them; `past` keeps the earlier
contents.  The answers of the hardware are arguments.  The report buffers of `DecInfo` are enabled
by `vpu_DecGiveCommand` only, which `vpu_stream` never calls, and are left out.
-/

namespace ToonVpu
namespace Lib

open Foundation

/-! ## State -/

/-- `CodStd`. -/
inductive CodStd
  | mpeg4
  | h263
  | avc
  | vc1
  | mpeg2
  | div3
  | rv
  | mjpg
  deriving DecidableEq, Repr

/-- The codec modes of an i.MX27. -/
inductive CodecMode
  | mp4Dec
  | mp4Enc
  | avcDec
  | avcEnc
  deriving DecidableEq, Repr

/-- The commands of the BIT processor that the decoder calls issue. -/
inductive BitCommand
  | seqInit
  | seqEnd
  | picRun
  | setFrameBuf
  | decBufFlush
  deriving DecidableEq, Repr

/-- `Rect`. -/
structure Rect where
  left : ℕ
  top : ℕ
  right : ℕ
  bottom : ℕ
  deriving DecidableEq, Repr

/-- The part of `DecInitialInfo` that decides how pictures are laid out. -/
structure DecInitialInfo where
  picWidth : ℕ
  picHeight : ℕ
  minFrameBufferCount : ℤ
  picCropRect : Rect
  deriving DecidableEq, Repr

/-- A codec instance.  Its `instIndex` is its place in the pool. -/
structure CodecInst where
  inUse : Bool
  codecMode : CodecMode
  bitstreamFormat : CodStd
  initialInfoObtained : Bool
  initialInfo : DecInitialInfo
  /-- Whether `frameBufPool` is set. -/
  frameBufPool : Bool
  numFrameBuffers : ℤ
  stride : ℤ
  deriving DecidableEq, Repr

/-- A zeroed instance. -/
def CodecInst.zero : CodecInst :=
  { inUse := false
    codecMode := .mp4Dec
    bitstreamFormat := .mpeg4
    initialInfoObtained := false
    initialInfo := ⟨0, 0, 0, ⟨0, 0, 0, 0⟩⟩
    frameBufPool := false
    numFrameBuffers := 0
    stride := 0 }

/-- `MAX_NUM_INSTANCE`. -/
abbrev maxNumInstance : ℕ := 4

/-- A place in the instance pool. -/
abbrev Inst := Fin maxNumInstance

/-- A `DecHandle`: a pointer into the pool, or any other pointer. -/
abbrev DecHandle := Option Inst

/-- `semaphore_t`. -/
structure Semaphore where
  isInitialized : Bool
  apiLock : Bool
  codecInstPool : Inst → CodecInst
  pendingInst : DecHandle
  /-- The number of times a mutex that nobody held was unlocked.  Never read by the program. -/
  freeUnlocks : ℕ

/-- The kernel zeroes the shared memory when it allocates it. -/
def Semaphore.zero : Semaphore :=
  { isInitialized := false
    apiLock := false
    codecInstPool := fun _ => CodecInst.zero
    pendingInst := none
    freeUnlocks := 0 }

/-- The library in one process. -/
structure Vpu where
  semap : Semaphore
  /-- The earlier contents of the shared memory, latest first. -/
  past : List Semaphore
  /-- The number of `LockVpu` calls that found the mutex held, and so waited out the timeout. -/
  selfWaits : ℕ
  /-- The commands given to the BIT processor. -/
  issued : List (Inst × BitCommand)

namespace Vpu

/-- A store into the shared memory. -/
def store (v : Vpu) (f : Semaphore → Semaphore) : Vpu :=
  { v with semap := f v.semap, past := v.semap :: v.past }

def lockVpu (v : Vpu) : Vpu × Bool :=
  if v.semap.apiLock then
    ({ v with selfWaits := v.selfWaits + 1 }, false)
  else
    (v.store fun s => { s with apiLock := true }, true)

def unlockVpu (v : Vpu) : Vpu :=
  v.store fun s =>
    { s with
      apiLock := false
      freeUnlocks := if s.apiLock then s.freeUnlocks else s.freeUnlocks + 1 }

def bitIssueCommand (v : Vpu) (i : Inst) (cmd : BitCommand) : Vpu :=
  { v with issued := v.issued ++ [(i, cmd)] }

/-- A store into one instance. -/
def storeInst (v : Vpu) (i : Inst) (f : CodecInst → CodecInst) : Vpu :=
  v.store fun s =>
    { s with
      codecInstPool := fun j => if j = i then f (s.codecInstPool j) else s.codecInstPool j }

/-- `*ppendingInst = p`. -/
def setPendingInst (v : Vpu) (p : DecHandle) : Vpu :=
  v.store fun s => { s with pendingInst := p }

/-- What a call does once it has the lock; without it, the call times out. -/
def underLock (v : Vpu) (body : Vpu → Vpu × RetCode) : Vpu × RetCode :=
  match v.lockVpu with
  | (v, false) => (v, .failureTimeout)
  | (v, true) => body v

end Vpu

/-! ## Instances -/

def checkDecInstanceValidity (s : Semaphore) (handle : DecHandle) : RetCode :=
  match handle with
  | none => .invalidHandle
  | some i =>
    let inst := s.codecInstPool i
    if !inst.inUse then
      .invalidHandle
    else if inst.codecMode ≠ .mp4Dec ∧ inst.codecMode ≠ .avcDec then
      .invalidHandle
    else
      .success

/-- The check that each decoder call makes on its handle first. -/
def onInstance (v : Vpu) (handle : DecHandle) (body : Inst → Vpu × RetCode) : Vpu × RetCode :=
  match handle, checkDecInstanceValidity v.semap handle with
  | some i, .success => body i
  | _, ret => (v, ret)

/-- `GetCodecInstance`: the first free instance, zeroed. -/
def getCodecInstance (v : Vpu) : Vpu × DecHandle :=
  match (List.finRange maxNumInstance).find? fun i => !(v.semap.codecInstPool i).inUse with
  | none => (v, none)
  | some i => (v.storeInst i fun _ => { CodecInst.zero with inUse := true }, some i)

def freeCodecInstance (v : Vpu) (i : Inst) : Vpu :=
  v.storeInst i fun inst => { inst with inUse := false }

/-! ## Initialisation -/

/-- `vpu_semaphore_open`: the mutex and the instance pool are reset. -/
def vpuSemaphoreOpen (v : Vpu) : Vpu :=
  let v := v.store fun s => { s with apiLock := false }
  let v := (List.finRange maxNumInstance).foldl freeCodecInstance v
  v.store fun s => { s with isInitialized := true }

/-- `vpu_Init` after its system calls: `initialized` says whether the BIT processor already runs,
`download` whether the firmware could be read. -/
def vpuInit (v : Vpu) (initialized download : Bool) : Vpu × RetCode :=
  (vpuSemaphoreOpen v).underLock fun v =>
    if !initialized && !download then
      (v.unlockVpu, .failure)
    else
      (v.unlockVpu, .success)

/-! ## Decoder calls -/

/-- The part of `DecOpenParam` that is checked. -/
structure DecOpenParam where
  bitstreamFormat : CodStd
  bitstreamBuffer : ℕ
  bitstreamBufferSize : ℤ
  qpReport : ℤ
  deriving DecidableEq, Repr

/-- `STD_H263` is decoded as `STD_MPEG4`. -/
def DecOpenParam.format (pop : DecOpenParam) : CodStd :=
  if pop.bitstreamFormat = .h263 then .mpeg4 else pop.bitstreamFormat

def checkDecOpenParam : Option DecOpenParam → RetCode
  | none => .invalidParam
  | some pop =>
    if pop.bitstreamBuffer % 4 ≠ 0 then
      .invalidParam
    else if pop.bitstreamBufferSize % 1024 ≠ 0 ∨ pop.bitstreamBufferSize < 1024 ∨
        16383 * 1024 < pop.bitstreamBufferSize then
      .invalidParam
    else if pop.format ≠ .mpeg4 ∧ pop.format ≠ .avc then
      .invalidParam
    else if pop.format = .mpeg4 ∧ pop.qpReport ≠ 0 ∧ pop.qpReport ≠ 1 then
      .invalidParam
    else
      .success

/-- The fields `vpu_DecOpen` sets in its new instance. -/
def openInst (pop : DecOpenParam) (inst : CodecInst) : CodecInst :=
  { inst with
    codecMode := if pop.format = .avc then .avcDec else .mp4Dec
    bitstreamFormat := pop.format
    frameBufPool := false
    initialInfoObtained := false }

/-- `vpu_DecOpen`; `initialized` is the answer of `isVpuInitialized`.  The lock is dropped between
taking an instance and setting its registers. -/
def vpuDecOpen (v : Vpu) (initialized : Bool) (param : Option DecOpenParam) :
    Vpu × DecHandle × RetCode :=
  if !initialized then
    (v, none, .notInitialized)
  else
    match param, checkDecOpenParam param with
    | some pop, .success =>
      match v.lockVpu with
      | (v, false) => (v, none, .failureTimeout)
      | (v, true) =>
        match getCodecInstance v with
        | (v, none) => (v.unlockVpu, none, .failure)
        | (v, some i) =>
          let v := v.unlockVpu.storeInst i (openInst pop)
          match v.lockVpu with
          | (v, false) => (v, some i, .failureTimeout)
          | (v, true) => (v.unlockVpu, some i, .success)
    | _, ret => (v, none, ret)

/-- `vpu_DecSetEscSeqInit`; the flag itself goes into a register. -/
def vpuDecSetEscSeqInit (v : Vpu) (handle : DecHandle) (_escape : ℤ) : Vpu × RetCode :=
  onInstance v handle fun _ => v.underLock fun v => (v.unlockVpu, .success)

/-- What the hardware reports of a sequence header. -/
structure SeqInit where
  /-- `DecBitstreamBufEmpty`. -/
  bufEmpty : Bool
  /-- `RET_DEC_SEQ_SUCCESS`. -/
  success : Bool
  /-- `RET_DEC_SEQ_SRC_SIZE`: two fields of ten bits. -/
  srcSize : ℕ
  /-- `RET_DEC_SEQ_FRAME_NEED`. -/
  frameNeed : ℤ
  /-- `RET_DEC_SEQ_CROP_LEFT_RIGHT` and `RET_DEC_SEQ_CROP_TOP_BOTTOM`. -/
  cropLeftRight : ℕ
  cropTopBottom : ℕ
  deriving DecidableEq, Repr

/-- The crop rectangle is reported for H.264 only. -/
def SeqInit.cropRect (seq : SeqInit) (picWidth picHeight : ℕ) (codecMode : CodecMode) : Rect :=
  if codecMode = .avcDec ∧ ¬ (seq.cropLeftRight = 0 ∧ seq.cropTopBottom = 0) then
    { left := seq.cropLeftRight / 1024 % 1024 * 2
      top := seq.cropTopBottom / 1024 % 1024 * 2
      right := u32 ((picWidth : ℤ) - seq.cropLeftRight % 1024 * 2)
      bottom := u32 ((picHeight : ℤ) - seq.cropTopBottom % 1024 * 2) }
  else
    ⟨0, 0, 0, 0⟩

def SeqInit.info (seq : SeqInit) (codecMode : CodecMode) : DecInitialInfo :=
  let picWidth := seq.srcSize / 1024 % 1024
  let picHeight := seq.srcSize % 1024
  ⟨picWidth, picHeight, seq.frameNeed, seq.cropRect picWidth picHeight codecMode⟩

/-- `vpu_DecGetInitialInfo`; `info` says whether the result pointer is set. -/
def vpuDecGetInitialInfo (v : Vpu) (handle : DecHandle) (info : Bool) (seq : SeqInit) :
    Vpu × RetCode :=
  onInstance v handle fun i =>
    if !info then
      (v, .invalidParam)
    else if (v.semap.codecInstPool i).initialInfoObtained then
      (v, .calledBefore)
    else
      v.underLock fun v =>
        if seq.bufEmpty then
          (v.unlockVpu, .wrongCallSequence)
        else
          let v := v.bitIssueCommand i .seqInit
          let info := seq.info (v.semap.codecInstPool i).codecMode
          if !seq.success then
            (v.unlockVpu, .failure)
          else if info.picWidth < 64 ∨ info.picHeight < 64 then
            (v.unlockVpu, .failure)
          else
            let v := v.unlockVpu.storeInst i fun inst =>
              { inst with initialInfo := info, initialInfoObtained := true }
            (v, .success)

/-- `vpu_DecRegisterFrameBuffer`; `bufArray` says whether the array is given.  The instance takes
the buffers before the lock is asked for. -/
def vpuDecRegisterFrameBuffer (v : Vpu) (handle : DecHandle) (bufArray : Bool)
    (num stride : ℤ) : Vpu × RetCode :=
  onInstance v handle fun i =>
    let inst := v.semap.codecInstPool i
    if inst.frameBufPool then
      (v, .calledBefore)
    else if !inst.initialInfoObtained then
      (v, .wrongCallSequence)
    else if !bufArray then
      (v, .invalidFrameBuffer)
    else if num < inst.initialInfo.minFrameBufferCount then
      (v, .insufficientFrameBuffers)
    else if stride < inst.initialInfo.picWidth ∨ stride % 8 ≠ 0 then
      (v, .invalidStride)
    else
      let v := v.storeInst i fun inst =>
        { inst with frameBufPool := true, numFrameBuffers := num, stride := stride }
      if inst.bitstreamFormat = .mjpg then
        (v, .success)
      else
        v.underLock fun v => ((v.bitIssueCommand i .setFrameBuf).unlockVpu, .success)

/-- `vpu_DecStartOneFrame`.  On success the lock stays held. -/
def vpuDecStartOneFrame (v : Vpu) (handle : DecHandle) : Vpu × RetCode :=
  onInstance v handle fun i =>
    if !(v.semap.codecInstPool i).frameBufPool then
      (v, .wrongCallSequence)
    else
      v.underLock fun v => ((v.bitIssueCommand i .picRun).setPendingInst (some i), .success)

/-- `vpu_DecGetOutputInfo`; `info` says whether the result pointer is set. -/
def vpuDecGetOutputInfo (v : Vpu) (handle : DecHandle) (info : Bool) : Vpu × RetCode :=
  onInstance v handle fun i =>
    if !info then
      (v, .invalidParam)
    else if v.semap.pendingInst = none then
      (v, .wrongCallSequence)
    else if v.semap.pendingInst ≠ some i then
      (v, .invalidHandle)
    else
      ((v.setPendingInst none).unlockVpu, .success)

def vpuDecBitBufferFlush (v : Vpu) (handle : DecHandle) : Vpu × RetCode :=
  onInstance v handle fun i =>
    if !(v.semap.codecInstPool i).frameBufPool then
      (v, .wrongCallSequence)
    else
      v.underLock fun v => ((v.bitIssueCommand i .decBufFlush).unlockVpu, .success)

def vpuDecClrDispFlag (v : Vpu) (handle : DecHandle) (index : ℤ) : Vpu × RetCode :=
  onInstance v handle fun i =>
    let inst := v.semap.codecInstPool i
    if !inst.frameBufPool then
      (v, .wrongCallSequence)
    else if index < 0 ∨ inst.numFrameBuffers - 1 < index then
      (v, .invalidParam)
    else
      v.underLock fun v => (v.unlockVpu, .success)

/-- `vpu_DecClose`.  An abandoned frame still holds the lock and is dropped first. -/
def vpuDecClose (v : Vpu) (handle : DecHandle) : Vpu × RetCode :=
  onInstance v handle fun i =>
    let v := if v.semap.pendingInst = some i then (v.setPendingInst none).unlockVpu else v
    v.underLock fun v =>
      let v :=
        if (v.semap.codecInstPool i).initialInfoObtained then v.bitIssueCommand i .seqEnd else v
      ((freeCodecInstance v i).unlockVpu, .success)

/-! ## What the primitives do -/

/-- Two contents of the shared memory in which the mutex and the pending instance are the same. -/
structure SameLock (s s' : Semaphore) : Prop where
  apiLock : s'.apiLock = s.apiLock
  pendingInst : s'.pendingInst = s.pendingInst
  freeUnlocks : s'.freeUnlocks = s.freeUnlocks

/-- Nobody holds the mutex and no frame is in progress. -/
structure Idle (s : Semaphore) : Prop where
  apiLock : s.apiLock = false
  pendingInst : s.pendingInst = none

/-- Instance `i` has a frame in progress, and the mutex is held for it. -/
structure Busy (i : Inst) (s : Semaphore) : Prop where
  apiLock : s.apiLock = true
  pendingInst : s.pendingInst = some i

section Primitives

variable {v : Vpu} {s s' s'' : Semaphore} {i : Inst} {handle : DecHandle}

theorem SameLock.refl (s : Semaphore) : SameLock s s := ⟨rfl, rfl, rfl⟩

theorem SameLock.trans (h : SameLock s s') (h' : SameLock s' s'') : SameLock s s'' :=
  ⟨h'.apiLock.trans h.apiLock, h'.pendingInst.trans h.pendingInst,
    h'.freeUnlocks.trans h.freeUnlocks⟩

theorem SameLock.idle (h : SameLock s s') (hidle : Idle s) : Idle s' :=
  ⟨h.apiLock.trans hidle.apiLock, h.pendingInst.trans hidle.pendingInst⟩

namespace Vpu

@[simp] theorem bitIssueCommand_semap (cmd : BitCommand) : (v.bitIssueCommand i cmd).semap = v.semap :=
  rfl

@[simp] theorem bitIssueCommand_selfWaits (cmd : BitCommand) :
    (v.bitIssueCommand i cmd).selfWaits = v.selfWaits := rfl

@[simp] theorem unlockVpu_selfWaits : v.unlockVpu.selfWaits = v.selfWaits := rfl

@[simp] theorem unlockVpu_pool : v.unlockVpu.semap.codecInstPool = v.semap.codecInstPool := rfl

@[simp] theorem unlockVpu_apiLock : v.unlockVpu.semap.apiLock = false := rfl

@[simp] theorem unlockVpu_pendingInst : v.unlockVpu.semap.pendingInst = v.semap.pendingInst := rfl

theorem unlockVpu_freeUnlocks (h : v.semap.apiLock = true) :
    v.unlockVpu.semap.freeUnlocks = v.semap.freeUnlocks := by
  simp [unlockVpu, store, h]

@[simp] theorem storeInst_selfWaits (f : CodecInst → CodecInst) :
    (v.storeInst i f).selfWaits = v.selfWaits := rfl

theorem storeInst_same (f : CodecInst → CodecInst) : SameLock v.semap (v.storeInst i f).semap :=
  ⟨rfl, rfl, rfl⟩

@[simp] theorem storeInst_apiLock (f : CodecInst → CodecInst) :
    (v.storeInst i f).semap.apiLock = v.semap.apiLock := rfl

theorem storeInst_at (f : CodecInst → CodecInst) :
    (v.storeInst i f).semap.codecInstPool i = f (v.semap.codecInstPool i) := by
  simp [storeInst, store]

theorem storeInst_other {j : Inst} (f : CodecInst → CodecInst) (hj : j ≠ i) :
    (v.storeInst i f).semap.codecInstPool j = v.semap.codecInstPool j := by
  simp [storeInst, store, hj]

/-- The library just after it took the lock. -/
def locked (v : Vpu) : Vpu := v.store fun s => { s with apiLock := true }

theorem underLock_free (h : v.semap.apiLock = false) (body : Vpu → Vpu × RetCode) :
    v.underLock body = body v.locked := by
  simp [underLock, lockVpu, h, locked]

theorem underLock_held (h : v.semap.apiLock = true) (body : Vpu → Vpu × RetCode) :
    v.underLock body = ({ v with selfWaits := v.selfWaits + 1 }, .failureTimeout) := by
  simp [underLock, lockVpu, h]

end Vpu

/-- A body that gives the lock back and touches no pending instance. -/
def Balanced (body : Vpu → Vpu × RetCode) : Prop :=
  ∀ v : Vpu, v.semap.apiLock = true →
    (body v).1.semap.apiLock = false ∧ (body v).1.semap.pendingInst = v.semap.pendingInst ∧
      (body v).1.semap.freeUnlocks = v.semap.freeUnlocks

theorem Balanced.underLock {body : Vpu → Vpu × RetCode} (hbody : Balanced body) (v : Vpu) :
    SameLock v.semap (v.underLock body).1.semap := by
  cases hlock : v.semap.apiLock with
  | true =>
    rw [Vpu.underLock_held hlock]
    exact SameLock.refl _
  | false =>
    rw [Vpu.underLock_free hlock]
    obtain ⟨hapi, hpending, hfree⟩ := hbody v.locked rfl
    exact ⟨hapi.trans hlock.symm, hpending, hfree⟩

theorem onInstance_valid (hvalid : checkDecInstanceValidity v.semap (some i) = .success)
    (body : Inst → Vpu × RetCode) : onInstance v (some i) body = body i := by
  simp [onInstance, hvalid]

theorem onInstance_invalid (hvalid : checkDecInstanceValidity v.semap handle ≠ .success)
    (body : Inst → Vpu × RetCode) :
    onInstance v handle body = (v, checkDecInstanceValidity v.semap handle) := by
  unfold onInstance
  split
  · contradiction
  · rfl

/-- The check passes for pointers into the pool only. -/
theorem exists_of_valid (hvalid : checkDecInstanceValidity v.semap handle = .success) :
    ∃ i, handle = some i := by
  cases handle with
  | none => simp [checkDecInstanceValidity] at hvalid
  | some i => exact ⟨i, rfl⟩

end Primitives

/-! ## What the calls do

Only `vpu_DecStartOneFrame` keeps the lock, and only `vpu_DecGetOutputInfo` and `vpu_DecClose` give
back a lock that an earlier call took. -/

section Calls

variable (v : Vpu) (handle : DecHandle)

/-- A call on an instance leaves the lock as it was if its body does. -/
theorem onInstance_same {v : Vpu} {handle : DecHandle} {body : Inst → Vpu × RetCode}
    (hbody : ∀ i, SameLock v.semap (body i).1.semap) :
    SameLock v.semap (onInstance v handle body).1.semap := by
  by_cases hvalid : checkDecInstanceValidity v.semap handle = .success
  · obtain ⟨i, rfl⟩ := exists_of_valid hvalid
    rw [onInstance_valid hvalid]
    exact hbody i
  · rw [onInstance_invalid hvalid]
    exact SameLock.refl _

theorem balanced_unlock (ret : RetCode) : Balanced fun v => (v.unlockVpu, ret) :=
  fun _ hlock => ⟨rfl, rfl, Vpu.unlockVpu_freeUnlocks hlock⟩

theorem balanced_issue (i : Inst) (cmd : BitCommand) (ret : RetCode) :
    Balanced fun v => ((v.bitIssueCommand i cmd).unlockVpu, ret) :=
  fun v hlock => ⟨rfl, rfl, Vpu.unlockVpu_freeUnlocks (v := v.bitIssueCommand i cmd) hlock⟩

theorem vpuDecSetEscSeqInit_same (escape : ℤ) :
    SameLock v.semap (vpuDecSetEscSeqInit v handle escape).1.semap :=
  onInstance_same fun _ => (balanced_unlock _).underLock v

theorem vpuDecGetInitialInfo_same (info : Bool) (seq : SeqInit) :
    SameLock v.semap (vpuDecGetInitialInfo v handle info seq).1.semap := by
  apply onInstance_same
  intro i
  split
  · exact SameLock.refl _
  split
  · exact SameLock.refl _
  -- under the lock, every branch unlocks once
  apply Balanced.underLock
  intro w hlock
  have hfree : (w.bitIssueCommand i .seqInit).unlockVpu.semap.freeUnlocks = w.semap.freeUnlocks :=
    Vpu.unlockVpu_freeUnlocks (v := w.bitIssueCommand i .seqInit) hlock
  split
  · exact ⟨rfl, rfl, Vpu.unlockVpu_freeUnlocks hlock⟩
  · simp only
    split_ifs
    · exact ⟨rfl, rfl, hfree⟩
    · exact ⟨rfl, rfl, hfree⟩
    · exact ⟨rfl, rfl, hfree⟩

theorem vpuDecRegisterFrameBuffer_same (bufArray : Bool) (num stride : ℤ) :
    SameLock v.semap (vpuDecRegisterFrameBuffer v handle bufArray num stride).1.semap := by
  apply onInstance_same
  intro i
  simp only
  split_ifs
  · exact SameLock.refl _
  · exact SameLock.refl _
  · exact SameLock.refl _
  · exact SameLock.refl _
  · exact SameLock.refl _
  · exact Vpu.storeInst_same _
  · exact (Vpu.storeInst_same _).trans ((balanced_issue _ _ _).underLock _)

theorem vpuDecBitBufferFlush_same :
    SameLock v.semap (vpuDecBitBufferFlush v handle).1.semap := by
  apply onInstance_same
  intro i
  split
  · exact SameLock.refl _
  · exact (balanced_issue _ _ _).underLock v

theorem vpuDecClrDispFlag_same (index : ℤ) :
    SameLock v.semap (vpuDecClrDispFlag v handle index).1.semap := by
  apply onInstance_same
  intro i
  simp only
  split_ifs
  · exact SameLock.refl _
  · exact SameLock.refl _
  · exact (balanced_unlock _).underLock v

theorem getCodecInstance_same : SameLock v.semap (getCodecInstance v).1.semap := by
  unfold getCodecInstance
  split
  · exact SameLock.refl _
  · exact Vpu.storeInst_same _

theorem lockVpu_free {v : Vpu} (hlock : v.semap.apiLock = false) : v.lockVpu = (v.locked, true) := by
  simp [Vpu.lockVpu, hlock, Vpu.locked]

theorem lockVpu_held {v : Vpu} (hlock : v.semap.apiLock = true) :
    v.lockVpu = ({ v with selfWaits := v.selfWaits + 1 }, false) := by
  simp [Vpu.lockVpu, hlock]

/-- The instance that `vpu_DecOpen` hands out passes the check of every decoder call. -/
theorem openInst_valid (v : Vpu) (i : Inst) (pop : DecOpenParam)
    (hinUse : (v.semap.codecInstPool i).inUse = true) :
    checkDecInstanceValidity (v.storeInst i (openInst pop)).semap (some i) = .success := by
  simp only [checkDecInstanceValidity, Vpu.storeInst_at, openInst, hinUse]
  by_cases havc : pop.format = .avc
  · simp [havc]
  · simp [havc]

/-- `vpu_DecOpen` with the lock free: it never waits, gives the lock back, and a successful call
returns a handle that the other calls accept. -/
theorem vpuDecOpen_free {v : Vpu} (hlock : v.semap.apiLock = false) (initialized : Bool)
    (param : Option DecOpenParam) :
    SameLock v.semap (vpuDecOpen v initialized param).1.semap ∧
      (vpuDecOpen v initialized param).1.selfWaits = v.selfWaits ∧
      ((vpuDecOpen v initialized param).2.2 = .success →
        ∃ i, (vpuDecOpen v initialized param).2.1 = some i ∧
          checkDecInstanceValidity (vpuDecOpen v initialized param).1.semap (some i) =
            .success) := by
  unfold vpuDecOpen
  split
  · exact ⟨SameLock.refl _, rfl, by simp⟩
  split
  · rename_i pop _
    have hget := getCodecInstance_same v.locked
    have hwaits : (getCodecInstance v.locked).1.selfWaits = v.selfWaits := by
      unfold getCodecInstance
      split <;> rfl
    have hinUse : ∀ i, (getCodecInstance v.locked).2 = some i →
        ((getCodecInstance v.locked).1.semap.codecInstPool i).inUse = true := by
      intro i hi
      unfold getCodecInstance at hi ⊢
      split at hi
      · simp at hi
      · simp only [Option.some.injEq] at hi
        simp [hi, Vpu.storeInst_at]
    have hunlock : SameLock v.semap (getCodecInstance v.locked).1.unlockVpu.semap :=
      ⟨hlock.symm, hget.pendingInst,
        (Vpu.unlockVpu_freeUnlocks (hget.apiLock.trans rfl)).trans hget.freeUnlocks⟩
    simp only [lockVpu_free hlock]
    generalize getCodecInstance v.locked = got at hunlock hwaits hinUse ⊢
    obtain ⟨w, free⟩ := got
    cases free with
    | none => exact ⟨hunlock, hwaits, by simp⟩
    | some i =>
      -- the second critical section starts from a free lock again
      have hstored := hunlock.trans (Vpu.storeInst_same (i := i) (openInst pop))
      have hvalid := openInst_valid w.unlockVpu i pop (hinUse i rfl)
      have hwaits' : (w.unlockVpu.storeInst i (openInst pop)).selfWaits = v.selfWaits := hwaits
      simp only at hstored ⊢
      generalize w.unlockVpu.storeInst i (openInst pop) = w' at hstored hvalid hwaits' ⊢
      have hfree : w'.semap.apiLock = false := hstored.apiLock.trans hlock
      simp only [lockVpu_free hfree]
      refine ⟨hstored.trans ⟨hfree.symm, rfl, ?_⟩, hwaits', fun _ => ⟨i, rfl, hvalid⟩⟩
      exact Vpu.unlockVpu_freeUnlocks (v := w'.locked) rfl
  · rename_i param _ _ hno
    refine ⟨SameLock.refl _, rfl, ?_⟩
    intro hsuccess
    cases param with
    | none => simp [checkDecOpenParam] at hsuccess
    | some pop => exact absurd hsuccess (hno pop rfl)

theorem vpuDecOpen_same (initialized : Bool) (param : Option DecOpenParam) :
    SameLock v.semap (vpuDecOpen v initialized param).1.semap := by
  cases hlock : v.semap.apiLock with
  | false => exact (vpuDecOpen_free hlock initialized param).1
  | true =>
    unfold vpuDecOpen
    split
    · exact SameLock.refl _
    split
    · simp only [lockVpu_held hlock]
      exact SameLock.refl _
    · exact SameLock.refl _

/-- `vpu_DecStartOneFrame` fails and changes nothing, or takes the lock for a frame. -/
theorem vpuDecStartOneFrame_cases :
    ((vpuDecStartOneFrame v handle).2 ≠ .success ∧
        SameLock v.semap (vpuDecStartOneFrame v handle).1.semap) ∨
      ∃ i, handle = some i ∧ (vpuDecStartOneFrame v handle).2 = .success ∧
        v.semap.apiLock = false ∧ Busy i (vpuDecStartOneFrame v handle).1.semap ∧
        (vpuDecStartOneFrame v handle).1.semap.freeUnlocks = v.semap.freeUnlocks := by
  unfold vpuDecStartOneFrame
  by_cases hvalid : checkDecInstanceValidity v.semap handle = .success
  · obtain ⟨i, rfl⟩ := exists_of_valid hvalid
    rw [onInstance_valid hvalid]
    split
    · exact .inl ⟨by simp, SameLock.refl _⟩
    cases hlock : v.semap.apiLock with
    | true =>
      rw [Vpu.underLock_held hlock]
      exact .inl ⟨by simp, SameLock.refl _⟩
    | false =>
      rw [Vpu.underLock_free hlock]
      exact .inr ⟨i, rfl, rfl, rfl, ⟨rfl, rfl⟩, rfl⟩
  · rw [onInstance_invalid hvalid]
    exact .inl ⟨hvalid, SameLock.refl _⟩

/-- `vpu_DecGetOutputInfo` fails and changes nothing, or ends the frame in progress. -/
theorem vpuDecGetOutputInfo_cases (info : Bool) :
    ((vpuDecGetOutputInfo v handle info).2 ≠ .success ∧
        (vpuDecGetOutputInfo v handle info).1 = v) ∨
      ∃ i, handle = some i ∧ v.semap.pendingInst = some i ∧
        vpuDecGetOutputInfo v handle info = ((v.setPendingInst none).unlockVpu, .success) := by
  unfold vpuDecGetOutputInfo
  by_cases hvalid : checkDecInstanceValidity v.semap handle = .success
  · obtain ⟨i, rfl⟩ := exists_of_valid hvalid
    rw [onInstance_valid hvalid]
    split_ifs with hinfo hnone hother
    · exact .inl ⟨by simp, rfl⟩
    · exact .inl ⟨by simp, rfl⟩
    · exact .inl ⟨by simp, rfl⟩
    · exact .inr ⟨i, rfl, not_not.mp hother, rfl⟩
  · rw [onInstance_invalid hvalid]
    exact .inl ⟨hvalid, rfl⟩

/-- The library after an abandoned frame was dropped. -/
theorem abandon_idle {v : Vpu} {i : Inst} (hbusy : Busy i v.semap) :
    Idle (v.setPendingInst none).unlockVpu.semap ∧
      (v.setPendingInst none).unlockVpu.semap.freeUnlocks = v.semap.freeUnlocks :=
  ⟨⟨rfl, rfl⟩, Vpu.unlockVpu_freeUnlocks (v := v.setPendingInst none) hbusy.apiLock⟩

theorem balanced_close (i : Inst) : Balanced fun v =>
    let v :=
      if (v.semap.codecInstPool i).initialInfoObtained then v.bitIssueCommand i .seqEnd else v
    ((freeCodecInstance v i).unlockVpu, .success) := by
  intro v hlock
  simp only
  split
  · exact ⟨rfl, rfl, Vpu.unlockVpu_freeUnlocks
      (v := freeCodecInstance (v.bitIssueCommand i .seqEnd) i) hlock⟩
  · exact ⟨rfl, rfl, Vpu.unlockVpu_freeUnlocks (v := freeCodecInstance v i) hlock⟩

/-- `vpu_DecClose` of an instance without a frame in progress leaves the lock as it was. -/
theorem vpuDecClose_same
    (hother : checkDecInstanceValidity v.semap handle = .success → v.semap.pendingInst ≠ handle) :
    SameLock v.semap (vpuDecClose v handle).1.semap := by
  unfold vpuDecClose
  by_cases hvalid : checkDecInstanceValidity v.semap handle = .success
  · have hne := hother hvalid
    obtain ⟨i, rfl⟩ := exists_of_valid hvalid
    rw [onInstance_valid hvalid]
    simp only [if_neg hne]
    exact (balanced_close i).underLock v
  · rw [onInstance_invalid hvalid]
    exact SameLock.refl _

/-- `vpu_DecClose` of the instance with the frame in progress ends the frame. -/
theorem vpuDecClose_busy {v : Vpu} {i : Inst} (hbusy : Busy i v.semap)
    (hvalid : checkDecInstanceValidity v.semap (some i) = .success) :
    Idle (vpuDecClose v (some i)).1.semap ∧ (vpuDecClose v (some i)).2 = .success ∧
      (vpuDecClose v (some i)).1.semap.freeUnlocks = v.semap.freeUnlocks := by
  obtain ⟨hidle, hfree⟩ := abandon_idle hbusy
  unfold vpuDecClose
  rw [onInstance_valid hvalid]
  simp only [if_pos hbusy.pendingInst]
  have hsame := (balanced_close i).underLock (v.setPendingInst none).unlockVpu
  refine ⟨hsame.idle hidle, ?_, hsame.freeUnlocks.trans hfree⟩
  rw [Vpu.underLock_free hidle.apiLock]

end Calls

/-! ## Calls that find the lock free -/

/-- From `v` to `v'` nobody waited for the lock, and the instances are the same. -/
structure NoWait (v v' : Vpu) : Prop where
  selfWaits : v'.selfWaits = v.selfWaits
  pool : v'.semap.codecInstPool = v.semap.codecInstPool

section Free

variable {v : Vpu} {handle : DecHandle} {i : Inst}

theorem NoWait.refl (v : Vpu) : NoWait v v := ⟨rfl, rfl⟩

theorem NoWait.trans {v' v'' : Vpu} (h : NoWait v v') (h' : NoWait v' v'') : NoWait v v'' :=
  ⟨h'.selfWaits.trans h.selfWaits, h'.pool.trans h.pool⟩

/-- A handle stays valid while the instances stay the same. -/
theorem NoWait.valid {v' : Vpu} (h : NoWait v v') (handle : DecHandle) :
    checkDecInstanceValidity v'.semap handle = checkDecInstanceValidity v.semap handle := by
  simp only [checkDecInstanceValidity, h.pool]

theorem noWait_underLock (hlock : v.semap.apiLock = false) {body : Vpu → Vpu × RetCode}
    (hbody : ∀ w : Vpu, NoWait w (body w).1) : NoWait v (v.underLock body).1 := by
  rw [Vpu.underLock_free hlock]
  have hlocked : NoWait v v.locked := ⟨rfl, rfl⟩
  exact hlocked.trans (hbody v.locked)

theorem noWait_onInstance {body : Inst → Vpu × RetCode} (hbody : ∀ i, NoWait v (body i).1) :
    NoWait v (onInstance v handle body).1 := by
  by_cases hvalid : checkDecInstanceValidity v.semap handle = .success
  · obtain ⟨i, rfl⟩ := exists_of_valid hvalid
    rw [onInstance_valid hvalid]
    exact hbody i
  · rw [onInstance_invalid hvalid]
    exact NoWait.refl v

theorem vpuDecSetEscSeqInit_noWait (hlock : v.semap.apiLock = false) (handle : DecHandle)
    (escape : ℤ) :
    NoWait v (vpuDecSetEscSeqInit v handle escape).1 :=
  noWait_onInstance fun _ => noWait_underLock hlock fun _ => ⟨rfl, rfl⟩

theorem vpuDecBitBufferFlush_noWait (hlock : v.semap.apiLock = false) (handle : DecHandle) :
    NoWait v (vpuDecBitBufferFlush v handle).1 := by
  apply noWait_onInstance
  intro i
  split
  · exact NoWait.refl v
  · exact noWait_underLock hlock fun _ => ⟨rfl, rfl⟩

theorem vpuDecClrDispFlag_noWait (hlock : v.semap.apiLock = false) (handle : DecHandle)
    (index : ℤ) :
    NoWait v (vpuDecClrDispFlag v handle index).1 := by
  apply noWait_onInstance
  intro i
  simp only
  split_ifs
  · exact NoWait.refl v
  · exact NoWait.refl v
  · exact noWait_underLock hlock fun _ => ⟨rfl, rfl⟩

/-- With the lock held, `vpu_DecClrDispFlag` of a registered buffer waits. -/
theorem vpuDecClrDispFlag_waits (hlock : v.semap.apiLock = true)
    (hvalid : checkDecInstanceValidity v.semap (some i) = .success)
    (hpool : (v.semap.codecInstPool i).frameBufPool = true) {index : ℤ} (hl : 0 ≤ index)
    (hu : index < (v.semap.codecInstPool i).numFrameBuffers) :
    (vpuDecClrDispFlag v (some i) index).1 = { v with selfWaits := v.selfWaits + 1 } := by
  unfold vpuDecClrDispFlag
  rw [onInstance_valid hvalid]
  simp only [hpool, Bool.not_true, Bool.false_eq_true, if_false]
  rw [if_neg (by omega), Vpu.underLock_held hlock]

theorem vpuDecStartOneFrame_noWait (hlock : v.semap.apiLock = false) (handle : DecHandle) :
    NoWait v (vpuDecStartOneFrame v handle).1 := by
  apply noWait_onInstance
  intro i
  split
  · exact NoWait.refl v
  · exact noWait_underLock hlock fun _ => ⟨rfl, rfl⟩

/-- The frame in progress is collected without asking for the lock. -/
theorem vpuDecGetOutputInfo_busy (hbusy : Busy i v.semap)
    (hvalid : checkDecInstanceValidity v.semap (some i) = .success) :
    vpuDecGetOutputInfo v (some i) true = ((v.setPendingInst none).unlockVpu, .success) := by
  unfold vpuDecGetOutputInfo
  rw [onInstance_valid hvalid]
  simp [hbusy.pendingInst]

/-- `vpu_DecGetInitialInfo` keeps the handles valid. -/
theorem vpuDecGetInitialInfo_free (hlock : v.semap.apiLock = false) (handle : DecHandle)
    (info : Bool) (seq : SeqInit) :
    (vpuDecGetInitialInfo v handle info seq).1.selfWaits = v.selfWaits ∧
      ∀ h, checkDecInstanceValidity (vpuDecGetInitialInfo v handle info seq).1.semap h =
        checkDecInstanceValidity v.semap h := by
  unfold vpuDecGetInitialInfo
  by_cases hvalid : checkDecInstanceValidity v.semap handle = .success
  · obtain ⟨i, rfl⟩ := exists_of_valid hvalid
    rw [onInstance_valid hvalid]
    split
    · exact ⟨rfl, fun _ => rfl⟩
    split
    · exact ⟨rfl, fun _ => rfl⟩
    rw [Vpu.underLock_free hlock]
    split
    · exact ⟨rfl, fun _ => rfl⟩
    simp only
    split_ifs
    · exact ⟨rfl, fun _ => rfl⟩
    · exact ⟨rfl, fun _ => rfl⟩
    · -- the stored header does not change who owns the instance
      refine ⟨rfl, fun h => ?_⟩
      cases h with
      | none => rfl
      | some j =>
        by_cases hj : j = i
        · subst hj
          simp only [checkDecInstanceValidity, Vpu.storeInst_at]
          rfl
        · simp only [checkDecInstanceValidity, Vpu.storeInst_other _ hj]
          rfl
  · rw [onInstance_invalid hvalid]
    exact ⟨rfl, fun _ => rfl⟩

/-- `vpu_DecRegisterFrameBuffer` keeps its handle valid; on success the instance has the
buffers, and the stride is wide enough for its pictures. -/
theorem vpuDecRegisterFrameBuffer_free (hlock : v.semap.apiLock = false)
    (hvalid : checkDecInstanceValidity v.semap (some i) = .success) (bufArray : Bool)
    (num stride : ℤ) :
    (vpuDecRegisterFrameBuffer v (some i) bufArray num stride).1.selfWaits = v.selfWaits ∧
      checkDecInstanceValidity
          (vpuDecRegisterFrameBuffer v (some i) bufArray num stride).1.semap (some i) =
        .success ∧
      ((vpuDecRegisterFrameBuffer v (some i) bufArray num stride).2 = .success →
        ((vpuDecRegisterFrameBuffer v (some i) bufArray num stride).1.semap.codecInstPool
            i).frameBufPool = true ∧
          ((vpuDecRegisterFrameBuffer v (some i) bufArray num stride).1.semap.codecInstPool
            i).numFrameBuffers = num ∧
          (v.semap.codecInstPool i).initialInfo.picWidth ≤ stride) := by
  unfold vpuDecRegisterFrameBuffer
  rw [onInstance_valid hvalid]
  simp only
  split_ifs with hbefore hinfo harray hnum hstride hmjpg
  · exact ⟨rfl, hvalid, by simp⟩
  · exact ⟨rfl, hvalid, by simp⟩
  · exact ⟨rfl, hvalid, by simp⟩
  · exact ⟨rfl, hvalid, by simp⟩
  · exact ⟨rfl, hvalid, by simp⟩
  · refine ⟨rfl, ?_, fun _ => ?_⟩
    · simp only [checkDecInstanceValidity, Vpu.storeInst_at] at hvalid ⊢
      exact hvalid
    · exact ⟨congrArg CodecInst.frameBufPool (Vpu.storeInst_at _),
        congrArg CodecInst.numFrameBuffers (Vpu.storeInst_at _), by omega⟩
  · rw [Vpu.underLock_free (by simpa using hlock)]
    have hat : ∀ f : CodecInst → CodecInst, ((((v.storeInst i f).locked.bitIssueCommand i
        .setFrameBuf).unlockVpu).semap.codecInstPool i) = f (v.semap.codecInstPool i) :=
      fun f => Vpu.storeInst_at f
    refine ⟨rfl, ?_, fun _ => ?_⟩
    · simp only [checkDecInstanceValidity, hat] at hvalid ⊢
      exact hvalid
    · exact ⟨congrArg CodecInst.frameBufPool (hat _),
        congrArg CodecInst.numFrameBuffers (hat _), by omega⟩

/-- `vpu_DecClose` never waits for a lock that is free or held for the instance it closes. -/
theorem vpuDecClose_free (hvalid : checkDecInstanceValidity v.semap (some i) = .success)
    (hlock : v.semap.apiLock = false ∨ v.semap.pendingInst = some i) :
    (vpuDecClose v (some i)).1.semap.apiLock = false ∧
      (vpuDecClose v (some i)).1.selfWaits = v.selfWaits ∧
      (vpuDecClose v (some i)).2 = .success := by
  unfold vpuDecClose
  rw [onInstance_valid hvalid]
  simp only
  split
  · rw [Vpu.underLock_free rfl]
    split <;> exact ⟨rfl, rfl, rfl⟩
  · rename_i hpending
    rw [Vpu.underLock_free (hlock.resolve_right hpending)]
    split <;> exact ⟨rfl, rfl, rfl⟩

end Free

/-! ## What a call has checked when it succeeds -/

section Checked

variable {v : Vpu} {handle : DecHandle}

theorem onInstance_success {body : Inst → Vpu × RetCode}
    (h : (onInstance v handle body).2 = .success) :
    ∃ i, handle = some i ∧ onInstance v handle body = body i := by
  by_cases hvalid : checkDecInstanceValidity v.semap handle = .success
  · obtain ⟨i, rfl⟩ := exists_of_valid hvalid
    exact ⟨i, rfl, onInstance_valid hvalid body⟩
  · rw [onInstance_invalid hvalid] at h
    exact absurd h hvalid

theorem underLock_success {body : Vpu → Vpu × RetCode} (h : (v.underLock body).2 = .success) :
    v.underLock body = body v.locked := by
  cases hlock : v.semap.apiLock with
  | false => exact Vpu.underLock_free hlock body
  | true =>
    rw [Vpu.underLock_held hlock] at h
    simp at h

/-- A frame buffer row is at least as long as a picture row.  The height is not checked. -/
theorem vpuDecRegisterFrameBuffer_stride {bufArray : Bool} {num stride : ℤ}
    (h : (vpuDecRegisterFrameBuffer v handle bufArray num stride).2 = .success) :
    ∃ i, handle = some i ∧ (v.semap.codecInstPool i).initialInfo.picWidth ≤ stride := by
  unfold vpuDecRegisterFrameBuffer at h
  obtain ⟨i, hi, hbody⟩ := onInstance_success h
  rw [hbody] at h
  refine ⟨i, hi, ?_⟩
  simp only at h
  split_ifs at h
  · omega
  · omega

/-- The picture sizes that are accepted. -/
def PicSizeOk (ii : DecInitialInfo) : Prop :=
  64 ≤ ii.picWidth ∧ ii.picWidth < 1024 ∧ 64 ≤ ii.picHeight ∧ ii.picHeight < 1024

theorem vpuDecGetInitialInfo_size {info : Bool} {seq : SeqInit}
    (h : (vpuDecGetInitialInfo v handle info seq).2 = .success) :
    ∃ i, handle = some i ∧
      PicSizeOk ((vpuDecGetInitialInfo v handle info seq).1.semap.codecInstPool i).initialInfo := by
  unfold vpuDecGetInitialInfo at h ⊢
  obtain ⟨i, hi, hbody⟩ := onInstance_success h
  rw [hbody] at h ⊢
  refine ⟨i, hi, ?_⟩
  split at h
  · simp at h
  rename_i hinfo
  rw [if_neg hinfo]
  split at h
  · simp at h
  rename_i hbefore
  rw [if_neg hbefore]
  have hlocked := underLock_success h
  rw [hlocked] at h ⊢
  split at h
  · simp at h
  rename_i hempty
  rw [if_neg hempty]
  simp only at h ⊢
  split_ifs at h ⊢ with hfail hsmall
  rw [Vpu.storeInst_at]
  simp only [not_or, not_lt] at hsmall
  refine ⟨hsmall.1, ?_, hsmall.2, ?_⟩
  · exact Nat.mod_lt _ (by decide)
  · exact Nat.mod_lt _ (by decide)

theorem vpuDecSetEscSeqInit_pool (v : Vpu) (handle : DecHandle) (escape : ℤ) :
    (vpuDecSetEscSeqInit v handle escape).1.semap.codecInstPool = v.semap.codecInstPool := by
  unfold vpuDecSetEscSeqInit onInstance
  split
  · cases hlock : v.semap.apiLock with
    | false =>
      rw [Vpu.underLock_free hlock]
      rfl
    | true =>
      rw [Vpu.underLock_held hlock]
  · rfl

end Checked

end Lib
end ToonVpu
