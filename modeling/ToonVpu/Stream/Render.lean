import ToonVpu.Stream.Buffers

/-!
# Render — one frame to the display (`render_frame` of `apps/vpu_stream.c`)

A decoded frame is converted by the PP or by the PrP of the eMMA, both reached by an `ioctl` on
`/dev/mxc_vpu`.  A conversion straight to a plane of 32-bit pixels that fails is tried again into the
bounce buffer, and what is there is then brought to the plane by the PrP or by the CPU.

The model keeps the requests in their order, the answers deciding which follow.  Pixels, times and
counters are left out.
-/

namespace ToonVpu
namespace Stream

open Foundation

/-! ## Requests -/

/-- `struct vpu_pp_convert`. -/
structure PpConvert where
  srcY : ℕ
  srcW : ℕ
  srcH : ℕ
  srcStride : ℕ
  dstRgb : ℕ
  dstW : ℕ
  dstH : ℕ
  dstStride : ℕ
  dstBpp : ℕ
  srcQp : ℕ
  deriving DecidableEq, Repr

/-- `struct vpu_prp_convert`. -/
structure PrpConvert where
  srcY : ℕ
  srcW : ℕ
  srcH : ℕ
  srcStride : ℕ
  dstRgb : ℕ
  dstW : ℕ
  dstH : ℕ
  dstStride : ℕ
  dstBpp : ℕ
  inFmt : ℕ
  deriving DecidableEq, Repr

/-- A request to the eMMA. -/
inductive Ioctl
  | ppConvert (p : PpConvert)
  | prpConvert (c : PrpConvert)
  deriving DecidableEq, Repr

def Ioctl.isPrp : Ioctl → Bool
  | .ppConvert _ => false
  | .prpConvert _ => true

/-- `struct render_state`, without what only the pixels depend on. -/
structure RenderState where
  prpFd : ℤ
  /-- `fbmem[idx].phy_addr`. -/
  fbmem : ℤ → ℕ
  /-- `fbmem[idx].virt_uaddr` is set. -/
  fbmemMapped : ℤ → Bool
  /-- `rgbmem->phy_addr`. -/
  rgbmem : ℕ
  srcW : ℕ
  srcH : ℕ
  alignedH : ℕ
  stride : ℤ
  fbBpp : ℤ
  fbStride : ℤ
  fbPhys : ℕ
  out : OutputRect
  dummyRgb : Bool
  qpPhys : ℕ

/-- The answers to the requests of one call, each an `errno` or none for success.  Pass `0` goes to
the plane, pass `1` to the bounce buffer; `toPlane` is the request that brings it to the plane. -/
structure ConvertEnv where
  pp : ℕ → Option ℕ
  prp : ℕ → Option ℕ
  toPlane : Option ℕ
  /-- `errno` before the call. -/
  errno : ℕ

/-- What a call did. -/
structure Rendered where
  ioctls : List Ioctl
  rc : ℤ
  /-- `*r->pp_ok` afterwards. -/
  ppOk : Bool
  /-- The CPU wrote the pixels. -/
  byCpu : Bool
  deriving DecidableEq, Repr

/-! ## The passes -/

/-- `-EINVAL`. -/
def eInval : ℤ := -22

/-- `render_frame_cpu`. -/
def renderFrameCpu (r : RenderState) (idx : ℤ) (ppOk : Bool) : Rendered :=
  if r.fbmemMapped idx = false ∨ r.fbBpp ≠ 16 then ⟨[], eInval, ppOk, false⟩
  else ⟨[], 0, ppOk, true⟩

/-- The destination of pass `0`, and whether it is the plane. -/
def directTarget (r : RenderState) (idx : ℤ) : PrpConvert × Bool :=
  let c : PrpConvert :=
    { srcY := r.fbmem idx
      srcW := r.srcW
      srcH := r.alignedH
      srcStride := u32 r.stride
      dstRgb := r.rgbmem
      dstW := u32 r.out.outW
      dstH := u32 r.out.outH
      dstStride := u32 (r.out.outW * 2)
      dstBpp := 16
      inFmt := 0 }
  let plane (bytes : ℤ) : ℕ :=
    u32 (r.fbPhys + u32 r.out.offY * r.fbStride + u32 r.out.offX * bytes)
  if r.dummyRgb = false ∧ r.fbBpp = 16 then
    ({ c with dstRgb := plane 2, dstStride := u32 r.fbStride }, true)
  else if r.dummyRgb = false ∧ r.fbBpp = 32 then
    ({ c with dstBpp := 32, dstRgb := plane 4, dstStride := u32 r.fbStride }, true)
  else
    (c, false)

/-- The request to the PP for the same conversion; it sees the visible height only. -/
def ppRequest (r : RenderState) (c : PrpConvert) : PpConvert :=
  { srcY := c.srcY
    srcW := c.srcW
    srcH := r.srcH
    srcStride := c.srcStride
    dstRgb := c.dstRgb
    dstW := c.dstW
    dstH := c.dstH
    dstStride := c.dstStride
    dstBpp := c.dstBpp
    srcQp := r.qpPhys }

/-- The state at the label `try_convert` and after it. -/
structure Converting where
  ioctls : List Ioctl
  /-- `cvt_rc` is negative. -/
  failed : Bool
  errno : ℕ
  ppOk : Bool
  deriving DecidableEq, Repr

/-- `ETIME`, `EIO` and `EINTR` pass by themselves. -/
def transientErrno (e : ℕ) : Bool := decide (e = 62 ∨ e = 5 ∨ e = 4)

/-- The request to the PP. -/
def tryPpConvert (r : RenderState) (c : PrpConvert) (disablePpOnFail : Bool) (answer : Option ℕ)
    (x : Converting) : Converting :=
  let x := { x with ioctls := x.ioctls ++ [Ioctl.ppConvert (ppRequest r c)] }
  match answer with
  | none => { x with failed := false }
  | some e =>
    { x with failed := true, errno := e, ppOk := x.ppOk && !(disablePpOnFail && !transientErrno e) }

/-- The request to the PrP. -/
def tryPrpConvert (c : PrpConvert) (answer : Option ℕ) (x : Converting) : Converting :=
  let x := { x with ioctls := x.ioctls ++ [Ioctl.prpConvert c] }
  match answer with
  | none => { x with failed := false }
  | some e => { x with failed := true, errno := e }

/-- From the label `try_convert` to the end of the pass. -/
def tryConvert (r : RenderState) (c : PrpConvert) (tryPp allowPrp disablePpOnFail : Bool)
    (pp prp : Option ℕ) (x : Converting) : Converting :=
  let x := if tryPp then tryPpConvert r c disablePpOnFail pp x else x
  if x.failed = true ∧ allowPrp = true then tryPrpConvert c prp x else x

/-- The request that brings the bounce buffer to the plane. -/
def toPlaneRequest (r : RenderState) (c : PrpConvert) : PrpConvert :=
  { srcY := c.dstRgb
    srcW := u32 r.out.outW
    srcH := u32 r.out.outH
    srcStride := u32 (r.out.outW * 2)
    dstRgb := u32 (r.fbPhys + u32 r.out.offY * r.fbStride + u32 r.out.offX * 4)
    dstW := u32 r.out.outW
    dstH := u32 r.out.outH
    dstStride := u32 r.fbStride
    dstBpp := 32
    inFmt := 0x2CA00565 }

/-- What follows the passes; `c` and `fbDirect` are those of the last pass. -/
def finishRender (r : RenderState) (env : ConvertEnv) (c : PrpConvert) (fbDirect : Bool)
    (x : Converting) : Rendered :=
  if x.failed then
    ⟨x.ioctls, -x.errno, x.ppOk, false⟩
  else if r.dummyRgb = false ∧ r.fbBpp = 32 ∧ fbDirect = false then
    if 0 ≤ r.prpFd then
      ⟨x.ioctls ++ [.prpConvert (toPlaneRequest r c)], 0, x.ppOk, decide (env.toPlane ≠ none)⟩
    else
      ⟨x.ioctls, 0, x.ppOk, true⟩
  else
    ⟨x.ioctls, 0, x.ppOk, false⟩

/-- `render_frame`; `ppOk` is `*r->pp_ok`. -/
def renderFrame (cpuRender : Bool) (r : RenderState) (idx : ℤ)
    (allowPp allowPrp disablePpOnFail ppOk : Bool) (env : ConvertEnv) : Rendered :=
  if cpuRender then
    renderFrameCpu r idx ppOk
  else
    let (c, fbDirect) := directTarget r idx
    let x := tryConvert r c (allowPp && ppOk) allowPrp disablePpOnFail (env.pp 0) (env.prp 0)
      ⟨[], true, env.errno, ppOk⟩
    if x.failed = true ∧ fbDirect = true ∧ r.fbBpp = 32 ∧ r.dummyRgb = false then
      -- The PP is asked again whatever `pp_ok` says by now.
      let c := { c with dstBpp := 16, dstRgb := r.rgbmem, dstStride := u32 (r.out.outW * 2) }
      finishRender r env c false
        (tryConvert r c true allowPrp disablePpOnFail (env.pp 1) (env.prp 1) x)
    else
      finishRender r env c fbDirect x

/-! ## When the PrP is asked -/

/-- Some request goes to the PrP. -/
def AsksPrp (ioctls : List Ioctl) : Prop := ∃ x ∈ ioctls, Ioctl.isPrp x = true

/-- The conversion to a plane of 32-bit pixels is not done by the first request to the PP, and the
second fills the bounce buffer. -/
structure TakesSecondPass (cpuRender : Bool) (r : RenderState) (tryPp : Bool) (env : ConvertEnv) :
    Prop where
  hardware : cpuRender = false
  plane : r.dummyRgb = false
  depth : r.fbBpp = 32
  fd : 0 ≤ r.prpFd
  direct : tryPp = true → env.pp 0 ≠ none
  bounce : env.pp 1 = none

section Prp

variable {r : RenderState} {c : PrpConvert} {env : ConvertEnv}

theorem not_asksPrp_nil : ¬ AsksPrp [] := by simp [AsksPrp]

theorem asksPrp_append_pp {ioctls : List Ioctl} {p : PpConvert} :
    AsksPrp (ioctls ++ [.ppConvert p]) ↔ AsksPrp ioctls := by
  simp [AsksPrp, Ioctl.isPrp, or_and_right, exists_or]

theorem asksPrp_append_prp (ioctls : List Ioctl) (c : PrpConvert) :
    AsksPrp (ioctls ++ [.prpConvert c]) :=
  ⟨.prpConvert c, by simp, rfl⟩

/-- A pass that may not use the PrP asks the PP only, and fails if the PP does. -/
theorem tryConvert_of_not_allowed (tryPp disable : Bool) (pp prp : Option ℕ) {x : Converting}
    (hfailed : x.failed = true) (hx : ¬ AsksPrp x.ioctls) :
    ¬ AsksPrp (tryConvert r c tryPp false disable pp prp x).ioctls ∧
      ((tryConvert r c tryPp false disable pp prp x).failed = true ↔
        (tryPp = true → pp ≠ none)) := by
  unfold tryConvert tryPpConvert
  cases tryPp with
  | false => simp [hfailed, hx]
  | true =>
    cases pp with
    | none => simp [asksPrp_append_pp, hx]
    | some e => simp [asksPrp_append_pp, hx]

/-- After a pass that asked the PP only, the PrP is asked exactly to bring the bounce buffer to the
plane. -/
theorem finishRender_asksPrp_iff (fbDirect : Bool) {x : Converting} (hx : ¬ AsksPrp x.ioctls) :
    AsksPrp (finishRender r env c fbDirect x).ioctls ↔
      x.failed = false ∧ r.dummyRgb = false ∧ r.fbBpp = 32 ∧ fbDirect = false ∧ 0 ≤ r.prpFd := by
  unfold finishRender
  split
  · rename_i hfailed
    simp [hx, hfailed]
  split
  · rename_i hok htarget
    split
    · rename_i hfd
      simp only [hfd, htarget, and_true]
      exact ⟨fun _ => by simpa using hok, fun _ => asksPrp_append_prp _ _⟩
    · rename_i hfd
      simp [hx, hfd]
  · rename_i hok htarget
    simp only [hx, false_iff]
    rintro ⟨-, hplane, hdepth, hdirect, -⟩
    exact htarget ⟨hplane, hdepth, hdirect⟩

/-- The first pass goes to the plane itself where its pixels have 32 bits. -/
theorem directTarget_direct (r : RenderState) (idx : ℤ) (hplane : r.dummyRgb = false)
    (hdepth : r.fbBpp = 32) : (directTarget r idx).2 = true := by
  simp [directTarget, hplane, hdepth]

/-- **A call with `allow_prp = 0`** asks the PrP exactly when it takes the second pass. -/
theorem renderFrame_asksPrp_iff (cpuRender : Bool) (r : RenderState) (idx : ℤ)
    (allowPp disable ppOk : Bool) (env : ConvertEnv) :
    AsksPrp (renderFrame cpuRender r idx allowPp false disable ppOk env).ioctls ↔
      TakesSecondPass cpuRender r (allowPp && ppOk) env := by
  unfold renderFrame
  cases cpuRender with
  | true =>
    have hcpu : ¬ AsksPrp (renderFrameCpu r idx ppOk).ioctls := by
      unfold renderFrameCpu
      split <;> exact not_asksPrp_nil
    simp only [if_true, hcpu, false_iff]
    exact fun h => absurd h.hardware (by decide)
  | false =>
    simp only [Bool.false_eq_true, if_false]
    have hfirst := tryConvert_of_not_allowed (r := r) (c := (directTarget r idx).1)
      (allowPp && ppOk) disable (env.pp 0) (env.prp 0) (x := ⟨[], true, env.errno, ppOk⟩) rfl
      not_asksPrp_nil
    have hdirect := directTarget_direct r idx
    generalize directTarget r idx = target at hfirst hdirect ⊢
    obtain ⟨c, fbDirect⟩ := target
    simp only at hfirst hdirect ⊢
    generalize tryConvert r c (allowPp && ppOk) false disable (env.pp 0) (env.prp 0)
      ⟨[], true, env.errno, ppOk⟩ = x at hfirst ⊢
    obtain ⟨hnone, hfailed⟩ := hfirst
    -- The conversion to the plane has failed, and the PP is asked again for the bounce buffer.
    split
    · rename_i hagain
      obtain ⟨hx, -, hdepth, hplane⟩ := hagain
      obtain ⟨hnone', hfailed'⟩ := tryConvert_of_not_allowed (r := r)
        (c := { c with dstBpp := 16, dstRgb := r.rgbmem, dstStride := u32 (r.out.outW * 2) })
        true disable (env.pp 1) (env.prp 1) hx hnone
      rw [finishRender_asksPrp_iff false hnone']
      constructor
      · rintro ⟨hok, -, -, -, hfd⟩
        refine ⟨rfl, hplane, hdepth, hfd, hfailed.mp hx, ?_⟩
        by_contra hne
        rw [hfailed'.mpr fun _ => hne] at hok
        cases hok
      · intro h
        refine ⟨?_, hplane, hdepth, rfl, h.fd⟩
        rw [Bool.eq_false_iff]
        exact fun hx' => hfailed'.mp hx' rfl h.bounce
    · rename_i honce
      rw [finishRender_asksPrp_iff fbDirect hnone]
      constructor
      · rintro ⟨-, hplane, hdepth, hoff, -⟩
        rw [hdirect hplane hdepth] at hoff
        cases hoff
      · intro h
        exact absurd ⟨hfailed.mpr h.direct, hdirect h.plane h.depth, h.depth, h.plane⟩ honce

end Prp

end Stream
end ToonVpu
