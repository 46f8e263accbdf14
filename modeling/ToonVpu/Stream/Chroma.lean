import ToonVpu.Kernel.PrpConvert
import ToonVpu.Stream.Placement
import ToonVpu.Stream.Screen

/-!
# Chroma — where the chroma planes of a frame are

A decoded frame has its Cb and Cr plane behind the Y plane.  `main` lays the planes out and
registers them with the decoder; whoever renders the frame works out again where they are.  The PP
is given the visible height and counts whole macroblocks, the PrP and `render_frame_cpu` are given
the height that the frame was laid out with.
-/

namespace ToonVpu
namespace Stream

open Foundation
open Foundation.CInt
open Foundation.Logged
open Kernel
open Lib

/-! ## The planes that are registered -/

/-- `FrameBuffer`. -/
structure FrameBuffer where
  strideY : ℤ
  strideC : ℤ
  bufY : ℕ
  bufCb : ℕ
  bufCr : ℕ
  bufMvCol : ℕ
  deriving DecidableEq, Repr

/-- The layout of `fb[i]` in the memory `fbmem[i]`. -/
def frameBuffer (b : Buffers) (m : PhyMem) : FrameBuffer :=
  let bufCb := u32 (m.phyAddr + b.ysize)
  let bufCr := u32 (bufCb + b.csize)
  { strideY := b.stride
    strideC := b.stride.tdiv 2
    bufY := m.phyAddr
    bufCb := bufCb
    bufCr := bufCr
    bufMvCol := u32 (bufCr + b.csize) }

def FrameBuffer.chroma (f : FrameBuffer) : ℕ × ℕ := (f.bufCb, f.bufCr)

/-! ## The planes that are read -/

/-- Where the driver looks for the chroma planes of a request.  A picture in RGB has none. -/
def Ioctl.chroma : Ioctl → Option (ℕ × ℕ)
  | .ppConvert p => some (ppPlanes p).value
  | .prpConvert c => if c.inFmt ≠ 0 then none else some (prpPlanes c).value

/-- `u` and `v` of `render_frame_cpu`, in a mapping that starts at `y`. -/
def cpuPlanes (r : RenderState) (y : ℕ) : ℕ × ℕ :=
  let cstride := r.stride.tdiv 2
  let u := u32 (y + u32 (r.stride * r.alignedH))
  (u, u32 (u + u32 (cstride * (r.alignedH / 2 : ℕ))))

/-- All renderers look for the chroma planes of a frame where they are registered. -/
structure ChromaAgrees (r : RenderState) (idx : ℤ) (f : FrameBuffer) : Prop where
  requests : ∀ cpuRender allowPp allowPrp disable ppOk env,
    ∀ x ∈ (renderFrame cpuRender r idx allowPp allowPrp disable ppOk env).ioctls,
      ∀ planes ∈ x.chroma, planes = f.chroma
  cpu : cpuPlanes r (r.fbmem idx) = f.chroma

/-! ## What is programmed -/

section Programmed

/-- A conversion that the PP is started with reads the planes of its request. -/
theorem ppConvert_chroma {env : PpEnv} {p : PpConvert} {regs : PpRegs}
    (h : (ppConvert env p).value.1 = some regs) :
    (Ioctl.ppConvert p).chroma = some (regs.sourceCb, regs.sourceCr) := by
  obtain ⟨-, hrun, -⟩ := guarded_some h
  obtain ⟨resize, -, rfl, -⟩ := ppRun_started hrun
  simp only [Ioctl.chroma, ppProgram, value_bind]
  rfl

/-- So does one of the PrP, for a picture in YUV. -/
theorem prpConvert_chroma {env : PrpEnv} {c : PrpConvert} {regs : PrpRegs}
    (hyuv : c.inFmt = 0) (h : (prpConvert env c).value.1 = some regs) :
    (Ioctl.prpConvert c).chroma = some (regs.sourceCb, regs.sourceCr) := by
  unfold prpConvert at h
  split at h
  · cases h
  split at h
  · cases h
  obtain ⟨w, v, -, rfl⟩ := prpRun_started h
  simp only [Ioctl.chroma, hyuv, ne_eq, not_true_eq_false, if_false, prpProgram, value_bind]
  rfl

end Programmed

/-! ## What is requested -/

section Requests

variable {r : RenderState} {idx : ℤ} {c : PrpConvert} {x : Converting}

/-- The source of the conversion is the decoded frame, with the rows it was laid out with. -/
structure FromFrame (r : RenderState) (idx : ℤ) (c : PrpConvert) : Prop where
  srcY : c.srcY = r.fbmem idx
  srcStride : c.srcStride = u32 r.stride
  srcH : c.srcH = r.alignedH
  inFmt : c.inFmt = 0

/-- A request of `render_frame`: to the PP with the visible rows, to the PrP with all rows, or to
the PrP for what is in the bounce buffer. -/
def Requested (r : RenderState) (idx : ℤ) (x : Ioctl) : Prop :=
  (∃ c, FromFrame r idx c ∧ x = .ppConvert (ppRequest r c)) ∨
    (∃ c, FromFrame r idx c ∧ x = .prpConvert c) ∨ ∃ c, x = .prpConvert (toPlaneRequest r c)

theorem directTarget_fromFrame (r : RenderState) (idx : ℤ) :
    FromFrame r idx (directTarget r idx).1 := by
  unfold directTarget
  simp only
  split_ifs <;> exact ⟨rfl, rfl, rfl, rfl⟩

theorem tryConvert_requested (hc : FromFrame r idx c) (hx : ∀ y ∈ x.ioctls, Requested r idx y)
    (tryPp allowPrp disable : Bool) (pp prp : Option ℕ) :
    ∀ y ∈ (tryConvert r c tryPp allowPrp disable pp prp x).ioctls, Requested r idx y := by
  -- one request is added at the end, whatever its answer
  have hpp : ∀ y ∈ (if tryPp then tryPpConvert r c disable pp x else x).ioctls,
      Requested r idx y := by
    split
    · have hadd : (tryPpConvert r c disable pp x).ioctls =
          x.ioctls ++ [.ppConvert (ppRequest r c)] := by
        unfold tryPpConvert
        cases pp <;> rfl
      rw [hadd]
      intro y hy
      rcases List.mem_append.mp hy with hy | hy
      · exact hx y hy
      · exact .inl ⟨c, hc, List.mem_singleton.mp hy⟩
    · exact hx
  unfold tryConvert
  simp only
  generalize (if tryPp then tryPpConvert r c disable pp x else x) = x' at hpp ⊢
  split
  · have hadd : (tryPrpConvert c prp x').ioctls = x'.ioctls ++ [.prpConvert c] := by
      unfold tryPrpConvert
      cases prp <;> rfl
    rw [hadd]
    intro y hy
    rcases List.mem_append.mp hy with hy | hy
    · exact hpp y hy
    · exact .inr (.inl ⟨c, hc, List.mem_singleton.mp hy⟩)
  · exact hpp

theorem finishRender_requested (hx : ∀ y ∈ x.ioctls, Requested r idx y) (env : ConvertEnv)
    (fbDirect : Bool) : ∀ y ∈ (finishRender r env c fbDirect x).ioctls, Requested r idx y := by
  unfold finishRender
  split
  · exact hx
  split
  · split
    · intro y hy
      rcases List.mem_append.mp hy with hy | hy
      · exact hx y hy
      · exact .inr (.inr ⟨c, List.mem_singleton.mp hy⟩)
    · exact hx
  · exact hx

theorem renderFrame_requested (cpuRender allowPp allowPrp disable ppOk : Bool) (env : ConvertEnv) :
    ∀ y ∈ (renderFrame cpuRender r idx allowPp allowPrp disable ppOk env).ioctls,
      Requested r idx y := by
  unfold renderFrame
  split
  · have hnone : (renderFrameCpu r idx ppOk).ioctls = [] := by
      unfold renderFrameCpu
      split <;> rfl
    rw [hnone]
    exact fun y hy => absurd hy List.not_mem_nil
  · have hfrom := directTarget_fromFrame r idx
    generalize directTarget r idx = target at hfrom ⊢
    rcases target with ⟨c, fbDirect⟩
    simp only at hfrom ⊢
    have hfirst := tryConvert_requested (x := ⟨[], true, env.errno, ppOk⟩) hfrom (by simp)
      (allowPp && ppOk) allowPrp disable (env.pp 0) (env.prp 0)
    split
    · -- the second pass differs in its destination only
      have hsecond : FromFrame r idx
          { c with dstBpp := 16, dstRgb := r.rgbmem, dstStride := u32 (r.out.outW * 2) } :=
        ⟨hfrom.srcY, hfrom.srcStride, hfrom.srcH, hfrom.inFmt⟩
      exact finishRender_requested (tryConvert_requested hsecond hfirst _ _ _ _ _) _ _
    · exact finishRender_requested hfirst _ _

/-- A call that may use the PP asks it first. -/
theorem renderFrame_asks_pp (r : RenderState) (idx : ℤ) (allowPrp disable : Bool) :
    .ppConvert (ppRequest r (directTarget r idx).1) ∈
      (renderFrame false r idx true allowPrp disable true
        ⟨fun _ => none, fun _ => none, none, 0⟩).ioctls := by
  generalize hask : Ioctl.ppConvert (ppRequest r (directTarget r idx).1) = ask
  simp only [renderFrame, tryConvert, tryPpConvert, Bool.and_self, if_true, Bool.false_eq_true,
    if_false, false_and, List.nil_append, hask, finishRender]
  split
  · split <;> simp
  · simp

end Requests

/-! ## Where they coincide -/

section Addresses

variable {c : Config} {ii : DecInitialInfo} {out : OutputRect} {env : AllocEnv} {b : Buffers}

/-- The layout of the frame buffers of a picture. -/
theorem allocBuffers_sides (h : allocBuffers c ii out env = some b) :
    b.stride = align16 ii.picWidth ∧ b.ah = align16 ii.picHeight := by
  simp only [allocBuffers, bind, Option.bind_eq_some_iff, pure, Option.some.injEq] at h
  obtain ⟨fbmem, -, -, -, -, -, rfl⟩ := h
  exact ⟨rfl, rfl⟩

/-- The planes behind `k` rows of macroblocks, each `p` macroblocks long. -/
theorem chromaPlanes_value {y p k : ℕ} (hp : p ≤ 64) (hk : k ≤ 64) :
    (chromaPlanes y (16 * p) (16 * k)).value =
      (u32 (y + (256 * (p * k) : ℕ)),
        u32 (u32 (y + (256 * (p * k) : ℕ)) + (64 * (p * k) : ℕ))) := by
  have hpk : p * k ≤ 64 * 64 := Nat.mul_le_mul hp hk
  have hysz : u32 (((16 * p : ℕ) : ℤ) * (16 * k : ℕ)) = 256 * (p * k) :=
    u32_eq (by push_cast; ring) (by omega)
  have hquarter : 256 * (p * k) / 4 = 64 * (p * k) := by omega
  simp only [chromaPlanes, value_bind, uint, hysz, hquarter]
  rfl

/-- Rows of different number have their planes at different places. -/
theorem chromaPlanes_inj {y p k q : ℕ} (hp : 0 < p) (hp' : p ≤ 64) (hk : k ≤ 64) (hq : q ≤ 64) :
    (chromaPlanes y (16 * p) (16 * k)).value = (chromaPlanes y (16 * p) (16 * q)).value ↔
      k = q := by
  constructor
  · intro h
    rw [chromaPlanes_value hp' hk, chromaPlanes_value hp' hq] at h
    have hcb := congrArg Prod.fst h
    have hpk : p * k ≤ 64 * 64 := Nat.mul_le_mul hp' hk
    have hpq : p * q ≤ 64 * 64 := Nat.mul_le_mul hp' hq
    have heq : p * k = p * q := by
      unfold u32 at hcb
      simp only at hcb
      omega
    exact Nat.eq_of_mul_eq_mul_left hp heq
  · rintro rfl
    rfl

theorem frameBuffer_chroma {p q : ℕ} (hb : Planes b p q) (m : PhyMem) :
    (frameBuffer b m).chroma = (chromaPlanes m.phyAddr (16 * p) (16 * q)).value := by
  rw [chromaPlanes_value hb.wide hb.high]
  simp only [FrameBuffer.chroma, frameBuffer, hb.ysize, hb.csize]
  push_cast
  rfl

theorem cpuPlanes_eq {p q : ℕ} (hp : p ≤ 64) (hq : q ≤ 64) {r : RenderState}
    (hstride : r.stride = 16 * p) (hrows : r.alignedH = 16 * q) (y : ℕ) :
    cpuPlanes r y = (chromaPlanes y (16 * p) (16 * q)).value := by
  have hpq : p * q ≤ 64 * 64 := Nat.mul_le_mul hp hq
  have hysz : u32 ((16 * (p : ℤ)) * (16 * q : ℕ)) = 256 * (p * q) :=
    u32_eq (by push_cast; ring) (by omega)
  have hhalf : (16 * (p : ℤ)).tdiv 2 = 8 * p := by
    rw [Int.tdiv_eq_ediv_of_nonneg (by omega)]
    omega
  have hrows' : 16 * q / 2 = 8 * q := by omega
  have hcsz : u32 (8 * (p : ℤ) * (8 * q : ℕ)) = 64 * (p * q) :=
    u32_eq (by push_cast; ring) (by omega)
  rw [chromaPlanes_value hp hq]
  simp only [cpuPlanes, hstride, hrows, hysz, hhalf, hrows', hcsz]

/-- A render state for frames of `p` by `q` macroblocks. -/
structure Renders (r : RenderState) (idx : ℤ) (m : PhyMem) (p q : ℕ) : Prop where
  frame : r.fbmem idx = m.phyAddr
  stride : r.stride = 16 * p
  rows : r.alignedH = 16 * q

variable {r : RenderState} {idx : ℤ} {m : PhyMem} {p q k : ℕ} {x : PrpConvert}

/-- The PP counts the macroblocks of the visible rows. -/
theorem ppRequest_chroma (h : Renders r idx m p q) (hp : p ≤ 64) (hx : FromFrame r idx x)
    (hk : k ≤ 64) (hvisible : align16 r.srcH = 16 * k) :
    (Ioctl.ppConvert (ppRequest r x)).chroma =
      some (chromaPlanes m.phyAddr (16 * p) (16 * k)).value := by
  have hstride : u32 r.stride = 16 * p := u32_eq (by rw [h.stride]; push_cast; rfl) (by omega)
  have hup : u32 ((r.srcH : ℤ) + 15) / 16 * 16 = 16 * k := by
    unfold align16 at hvisible
    rw [u32_eq (n := r.srcH + 15) (by push_cast; rfl) (by omega)]
    exact hvisible
  simp only [Ioctl.chroma, ppPlanes, ppRequest, value_bind, uint, hx.srcY, hx.srcStride, h.frame,
    hstride, hup]

theorem prpRequest_chroma (h : Renders r idx m p q) (hp : p ≤ 64) (hx : FromFrame r idx x) :
    (Ioctl.prpConvert x).chroma = some (chromaPlanes m.phyAddr (16 * p) (16 * q)).value := by
  have hstride : u32 r.stride = 16 * p := u32_eq (by rw [h.stride]; push_cast; rfl) (by omega)
  simp only [Ioctl.chroma, prpPlanes, hx.inFmt, ne_eq, not_true_eq_false, if_false, hx.srcY,
    hx.srcStride, hx.srcH, h.frame, h.rows, hstride]

/-- The renderers agree exactly when the visible rows take as many macroblocks as all rows. -/
theorem Renders.agrees_iff (h : Renders r idx m p q) (hb : Planes b p q) (hp : 0 < p)
    (hk : k ≤ 64) (hvisible : align16 r.srcH = 16 * k) :
    ChromaAgrees r idx (frameBuffer b m) ↔ k = q := by
  have hregistered := frameBuffer_chroma hb m
  constructor
  · intro hall
    have hplanes := hall.requests _ _ _ _ _ _ _ (renderFrame_asks_pp r idx false false) _
      (ppRequest_chroma h hb.wide (directTarget_fromFrame r idx) hk hvisible)
    rw [hregistered] at hplanes
    exact (chromaPlanes_inj hp hb.wide hk hb.high).mp hplanes
  · rintro rfl
    constructor
    · intro cpuRender allowPp allowPrp disable ppOk env x hx planes hplanes
      rw [hregistered]
      rcases renderFrame_requested cpuRender allowPp allowPrp disable ppOk env x hx with
        ⟨c, hc, rfl⟩ | ⟨c, hc, rfl⟩ | ⟨c, rfl⟩
      · rw [ppRequest_chroma h hb.wide hc hk hvisible] at hplanes
        exact (Option.some.inj hplanes).symm
      · rw [prpRequest_chroma h hb.wide hc] at hplanes
        exact (Option.some.inj hplanes).symm
      · -- the bounce buffer holds a picture in RGB
        simp [Ioctl.chroma, toPlaneRequest] at hplanes
    · rw [hregistered, h.frame]
      exact cpuPlanes_eq hb.wide hb.high h.stride h.rows _

end Addresses

/-- **Agreement on the chroma planes.** In a session with frame buffers laid out for its own
picture, the PP, the PrP and `render_frame_cpu` all look for the chroma planes of each frame where
they are registered with the decoder, exactly when the visible picture and the whole picture have
the same height in macroblocks. -/
theorem chroma_agrees_iff (c : Config) (dev : Device) (s : Session) (qpPhys : ℕ)
    (out : OutputRect) (env : AllocEnv) (b : Buffers) (hbufs : s.bufs = some b)
    (hown : allocBuffers c s.ii out env = some b) (hii : PicSizeOk s.ii) (idx : ℤ) (m : PhyMem)
    (hm : b.fbmem[idx.toNat]? = some m) :
    ChromaAgrees (renderState c dev s qpPhys) idx (frameBuffer b m) ↔
      align16 (visibleSize c s.ii).2 = align16 s.ii.picHeight := by
  obtain ⟨p, q, hplanes⟩ := allocBuffers_planes hown hii
  obtain ⟨hstride, hah⟩ := allocBuffers_sides hown
  obtain ⟨k, hk, -, hk'⟩ := align16_eq (visibleSize c s.ii).2
  have hvisible := (visibleSize_lt (c := c) hii).2
  have hrows : align16 s.ii.picHeight = 16 * q := by
    have := hplanes.ah
    omega
  have hwide : 0 < p := by
    obtain ⟨n, hn, hn', -⟩ := align16_eq s.ii.picWidth
    have hw := hii.1
    have := hplanes.stride
    omega
  have hrenders : Renders (renderState c dev s qpPhys) idx m p q := by
    refine ⟨?_, ?_, ?_⟩
    · simp [renderState, hbufs, hm]
    · simp [renderState, hbufs, hplanes.stride]
    · have hq := hplanes.high
      simp only [renderState, hbufs, Option.map_some, Option.getD_some, hplanes.ah]
      exact u32_eq (by push_cast; rfl) (by omega)
  rw [hk, hrows]
  have hagrees := hrenders.agrees_iff hplanes hwide (k := k) (by omega) hk
  constructor
  · intro h
    rw [hagrees.mp h]
  · intro h
    exact hagrees.mpr (by omega)

/-- H.264 on a plane of 800 by 480 pixels. -/
def avcConfig : Config := { tcpConfig with codec := .avc }

/-- 30 rows of macroblocks, the last two of them cropped. -/
def croppedInfo : DecInitialInfo := ⟨640, 480, 3, ⟨0, 0, 640, 448⟩⟩

def croppedBuffers : Buffers :=
  { clippedBuffers with
    blitBytes := 1280
    allocedFor := (croppedInfo, ⟨80, 16, 640, 448⟩) }

/-- A session that shows it. -/
def croppedSession : Session :=
  { Session.init false (startedVpu Semaphore.zero false true) with
    ii := croppedInfo
    out := ⟨80, 16, 640, 448⟩
    bufs := some croppedBuffers }

theorem chroma_agrees_iff_cropped :
    ChromaAgrees (renderState avcConfig ⟨0, 1600, 0, 0⟩ croppedSession 0) 0
        (frameBuffer croppedBuffers ⟨473088, 0⟩) ↔
      align16 (visibleSize avcConfig croppedSession.ii).2 =
        align16 croppedSession.ii.picHeight :=
  chroma_agrees_iff avcConfig ⟨0, 1600, 0, 0⟩ croppedSession 0 ⟨80, 16, 640, 448⟩
    ⟨4, List.replicate 7 (some 0), true, true, true⟩ croppedBuffers rfl (by decide +kernel)
    (by unfold PicSizeOk; decide) 0 ⟨473088, 0⟩ rfl

/-- The PP supports its size, and takes the last rows of the Y plane for the Cb plane. -/
theorem cropped_chroma_differs :
    outputRect avcConfig croppedInfo = ⟨80, 16, 640, 448⟩ ∧
      ppDimsSupported 640 448 640 448 = true ∧
      ¬ ChromaAgrees (renderState avcConfig ⟨0, 1600, 0, 0⟩ croppedSession 0) 0
        (frameBuffer croppedBuffers ⟨473088, 0⟩) := by
  refine ⟨by decide, by decide, ?_⟩
  intro h
  have hplanes := h.requests _ _ _ _ _ _ _ (renderFrame_asks_pp _ 0 false false) (286720, 358400)
    (by decide +kernel)
  revert hplanes
  decide

end Stream
end ToonVpu
