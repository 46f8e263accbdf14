import ToonVpu.Kernel.PpTables
import ToonVpu.Stream.Render

/-!
# PpConvert — a conversion by the PP (`pp_convert` of `kernel/mxc_vpu.c`)

`VPU_IOC_PP_CONVERT` hands ten words from user space to the PP.  The driver checks them, builds the
resize table, resets the PP and programs its registers.  The words are arbitrary: only lower bounds,
alignment and the two line strides are checked.

Times, messages and the wait for the interrupt are left out but for its outcome.
-/

namespace ToonVpu
namespace Kernel

open Foundation
open Foundation.CInt
open Foundation.Logged
open ToonVpu.Stream (PpConvert)

/-! ## The driver -/

/-- `struct vpu_pp_csc`, as `pp_csc_valid` lets it be set. -/
structure PpCsc where
  c0 : ℕ
  c1 : ℕ
  c2 : ℕ
  c3 : ℕ
  c4 : ℕ
  x0 : ℕ
  valid : c0 ≤ 255 ∧ c1 ≤ 255 ∧ c2 ≤ 255 ∧ c3 ≤ 255 ∧ c4 ≤ 511 ∧ x0 ≤ 1

/-- The coefficients that the driver starts with. -/
def PpCsc.init : PpCsc := ⟨0x95, 0xcc, 0x32, 0x68, 0x104, 1, by decide⟩

/-- What a conversion meets in the driver and in the hardware. -/
structure PpEnv where
  /-- `pp_base` is mapped. -/
  ppBase : Bool
  csc : PpCsc
  /-- What `pp_hw_reset` returns. -/
  reset : ℤ
  /-- `PP_CNTL` after the reset. -/
  cntl : ℕ
  /-- What the wait for the interrupt returns, and `pp_status` then. -/
  wait : ℤ
  status : ℕ

/-- The registers that are programmed. -/
structure PpRegs where
  sourceY : ℕ
  sourceCb : ℕ
  sourceCr : ℕ
  destRgb : ℕ
  quantizer : ℕ
  processPara : ℕ
  frameWidth : ℕ
  displayWidth : ℕ
  imageSize : ℕ
  destFrameFmt : ℕ
  cscCoef123 : ℕ
  cscCoef4 : ℕ
  resize : Resize
  cntl : ℕ
  deriving DecidableEq, Repr

/-! ## The checks -/

/-- `dst_bpp`: zero stands for 16. -/
def ppDstBpp (c : PpConvert) : ℕ := if c.dstBpp ≠ 0 then c.dstBpp else 16

/-- `dst_bytes`. -/
def ppDstBytes (c : PpConvert) : ℕ := ppDstBpp c / 8

/-- `-ENODEV`. -/
def eNoDev : ℤ := -19

/-- `-EINVAL`. -/
def eInvalid : ℤ := -22

/-- The mode with four bytes a pixel cannot resize. -/
def ppHangs (c : PpConvert) : Prop :=
  ppDstBpp c = 32 ∧ (c.srcW ≠ c.dstW ∨ c.srcH ≠ c.dstH)

instance (c : PpConvert) : Decidable (ppHangs c) := inferInstanceAs (Decidable (_ ∧ _))

/-- The conditions that need no arithmetic. -/
structure PpShapeOk (c : PpConvert) : Prop where
  srcW : 32 ≤ c.srcW
  srcH : 32 ≤ c.srcH
  dstW : 8 ≤ c.dstW
  dstH : 8 ≤ c.dstH
  alignSrc : c.srcW % 8 = 0 ∧ c.srcH % 8 = 0 ∧ c.srcStride % 8 = 0
  alignDst : c.dstW % 2 = 0 ∧ c.dstH % 2 = 0

instance (c : PpConvert) : Decidable (PpShapeOk c) :=
  decidable_of_iff ((32 ≤ c.srcW ∧ 32 ≤ c.srcH ∧ 8 ≤ c.dstW ∧ 8 ≤ c.dstH) ∧
      (c.srcW % 8 = 0 ∧ c.srcH % 8 = 0 ∧ c.srcStride % 8 = 0) ∧ c.dstW % 2 = 0 ∧ c.dstH % 2 = 0)
    ⟨fun ⟨⟨h1, h2, h3, h4⟩, h5, h6⟩ => ⟨h1, h2, h3, h4, h5, h6⟩,
      fun ⟨h1, h2, h3, h4, h5, h6⟩ => ⟨⟨h1, h2, h3, h4⟩, h5, h6⟩⟩

/-- The checks of `pp_convert` before the table is built; `none` where they pass. -/
def ppValidate (ppBase : Bool) (c : PpConvert) : C (Option ℤ) :=
  if ppHangs c then
    pure (some eOpNotSupp)
  else if ppBase = false then
    pure (some eNoDev)
  else if ¬ PpShapeOk c then
    pure (some eInvalid)
  else do
    let mask ← uint ((ppDstBytes c : ℤ) - 1)
    if c.dstStride &&& mask ≠ 0 then
      pure (some eInvalid)
    else if (c.srcY ||| c.dstRgb) % 4 ≠ 0 then
      pure (some eInvalid)
    else if c.srcStride < c.srcW then
      pure (some eInvalid)
    else
      let row ← uint (c.dstW * ppDstBytes c)
      if c.dstStride < row then pure (some eInvalid) else pure none

/-! ## Programming -/

/-- `PP_DEST_FRAME_FMT_CNTL`: the offsets and the widths of the three components. -/
def ppFormat (dstBpp : ℕ) : ℕ :=
  if dstBpp = 32 then
    18 * 2 ^ 26 ||| 10 * 2 ^ 21 ||| 2 * 2 ^ 16 ||| 6 * 2 ^ 8 ||| 6 * 2 ^ 4 ||| 6
  else
    11 * 2 ^ 26 ||| 5 * 2 ^ 21 ||| 0 * 2 ^ 16 ||| 5 * 2 ^ 8 ||| 6 * 2 ^ 4 ||| 5

/-- Bits 11 and 10 of `PP_CNTL`, from the highest bit that a component has. -/
def ppRgbMode (dstBpp fmt : ℕ) : ℕ :=
  let red := fmt / 2 ^ 26 % 64 + fmt / 2 ^ 8 % 16
  let grn := fmt / 2 ^ 21 % 32 + fmt / 2 ^ 4 % 16
  let blu := fmt / 2 ^ 16 % 32 + fmt % 16
  let w := max (max red blu) grn
  if dstBpp = 32 then 0 else if 16 < w then 3 else if 8 < w then 2 else 1

/-- The bytes of a pixel in each of the four modes. -/
def ppModeBytes (mode : ℕ) : ℕ := if mode = 0 then 4 else mode

/-- `PP_CNTL`: the operation bits are replaced, the resolution and the enable bits set. -/
def ppCntl (cntl srcQp mode : ℕ) : ℕ :=
  let kept := cntl &&& (0xffffffff - if srcQp ≠ 0 then 0x34 else 0x36)
  let deblock := if srcQp ≠ 0 then kept ||| 0x02 else kept
  (deblock &&& (0xffffffff - 0xc00)) ||| mode * 2 ^ 10 ||| 0x10 ||| 0x20 ||| 0x01

/-- The Cb and Cr planes behind a Y plane of `rows` lines of `stride` bytes. -/
def chromaPlanes (srcY stride rows : ℕ) : C (ℕ × ℕ) := do
  let ysz ← uint (stride * rows)
  let cb ← uint (srcY + ysz)
  let cr ← uint (cb + (ysz / 4 : ℕ))
  pure (cb, cr)

/-- The planes of a source picture: its rows are counted in whole macroblocks. -/
def ppPlanes (c : PpConvert) : C (ℕ × ℕ) := do
  let rows ← uint (c.srcH + 15)
  chromaPlanes c.srcY c.srcStride (rows / 16 * 16)

/-- Two sizes in one register. -/
def packSize (w h : ℕ) : C ℕ := do
  let high ← uint (w * 65536)
  pure (high ||| h)

/-- `PP_CSC_COEF_123` and `PP_CSC_COEF_4`. -/
def ppCscRegs (csc : PpCsc) : ℕ × ℕ :=
  (csc.c0 * 2 ^ 24 ||| csc.c1 * 2 ^ 16 ||| csc.c2 * 2 ^ 8 ||| csc.c3,
    (if csc.x0 ≠ 0 then 2 ^ 9 else 0) ||| csc.c4)

/-- The registers of a conversion. -/
def ppProgram (env : PpEnv) (c : PpConvert) (resize : Resize) : C PpRegs := do
  let planes ← ppPlanes c
  let processPara ← packSize c.srcW c.srcH
  let imageSize ← packSize c.dstW c.dstH
  let fmt := ppFormat (ppDstBpp c)
  pure {
    sourceY := c.srcY
    sourceCb := planes.1
    sourceCr := planes.2
    destRgb := c.dstRgb
    quantizer := c.srcQp
    processPara := processPara
    frameWidth := c.srcStride
    displayWidth := c.dstStride
    imageSize := imageSize
    destFrameFmt := fmt
    cscCoef123 := (ppCscRegs env.csc).1
    cscCoef4 := (ppCscRegs env.csc).2
    resize := resize
    cntl := ppCntl env.cntl c.srcQp (ppRgbMode (ppDstBpp c) fmt) }

/-- What the wait for the interrupt leads to. -/
def PpEnv.outcome (env : PpEnv) : ℤ :=
  if env.wait ≤ 0 then (if env.wait < 0 then env.wait else -62)
  else if env.status / 4 % 2 = 1 then -5
  else 0

/-- `pp_convert` behind its checks, with the call of `pp_build_resize`. -/
def ppRun (env : PpEnv) (c : PpConvert) (build : C (Except ℤ Resize)) :
    C (Option PpRegs × ℤ) := do
  match ← build with
  | .error e => pure (none, if e = eNoSpc then eOpNotSupp else e)
  | .ok resize =>
    if env.reset ≠ 0 then
      pure (none, env.reset)
    else
      let regs ← ppProgram env c resize
      pure (some regs, env.outcome)

/-- Goes on unless a check has failed. -/
def guarded {α : Type} (check : C (Option ℤ)) (run : C (Option α × ℤ)) : C (Option α × ℤ) := do
  match ← check with
  | some e => pure (none, e)
  | none => run

/-- `pp_convert`: the registers with which the engine is started, and the return value. -/
def ppConvert (env : PpEnv) (c : PpConvert) : C (Option PpRegs × ℤ) :=
  guarded (ppValidate env.ppBase c) (ppRun env c (ppBuildResize c.srcW c.srcH c.dstW c.dstH))

/-! ## What is promised -/

/-- `PP_PROCESS_PARA` and `PP_IMAGE_SIZE` have a width in the high half and a height in the low
half. -/
def unpackSize (reg : ℕ) : ℕ × ℕ := (reg / 65536, reg % 65536)

/-- The bytes of an output pixel. -/
def PpRegs.pixelBytes (r : PpRegs) : ℕ := ppModeBytes (r.cntl / 2 ^ 10 % 4)

/-- A started conversion does what its request says. -/
structure PpFaithful (env : PpEnv) (c : PpConvert) (r : PpRegs) : Prop where
  sound : Sound (ppConvert env c)
  source : unpackSize r.processPara = (c.srcW, c.srcH)
  image : unpackSize r.imageSize = (c.dstW, c.dstH)
  rows : c.dstW * r.pixelBytes ≤ c.dstStride

/-! ## What the checks leave open -/

section Checks

variable {ppBase : Bool} {env : PpEnv} {c : PpConvert}

/-- What is known of a request that passes, and what its checks compute. -/
structure PpPassed (ppBase : Bool) (c : PpConvert) : Prop where
  shape : PpShapeOk c
  srcStride : c.srcW ≤ c.srcStride
  dstStride : u32 (c.dstW * ppDstBytes c) ≤ c.dstStride
  sound_iff : Sound (ppValidate ppBase c) ↔
    Sound (uint ((ppDstBytes c : ℤ) - 1)) ∧ Sound (uint (c.dstW * ppDstBytes c))

theorem ppValidate_passed (h : (ppValidate ppBase c).value = none) : PpPassed ppBase c := by
  have hdef := h
  unfold ppValidate at h
  split at h
  · cases h
  rename_i hhangs
  split at h
  · cases h
  rename_i hbase
  split at h
  · cases h
  rename_i hshape
  rw [value_bind] at h
  split at h
  · cases h
  rename_i hmask
  split at h
  · cases h
  rename_i haddr
  split at h
  · cases h
  rename_i hsrc
  rw [value_bind] at h
  split at h
  · cases h
  rename_i hdst
  refine ⟨not_not.mp hshape, Nat.not_lt.mp hsrc, Nat.not_lt.mp hdst, ?_⟩
  unfold ppValidate
  rw [if_neg hhangs, if_neg hbase, if_neg hshape]
  simp only [sound_bind, if_neg hmask, if_neg haddr, if_neg hsrc, if_neg hdst]
  simp [sound_pure]

theorem ppRun_started {build : C (Except ℤ Resize)} {r : PpRegs}
    (h : (ppRun env c build).value.1 = some r) :
    ∃ resize, build.value = .ok resize ∧ r = (ppProgram env c resize).value ∧
      (Sound (ppRun env c build) ↔ Sound build ∧ Sound (ppProgram env c resize)) := by
  unfold ppRun at h ⊢
  rw [value_bind] at h
  simp only [sound_bind]
  cases hbuild : build.value with
  | error e =>
    rw [hbuild] at h
    cases h
  | ok resize =>
    rw [hbuild] at h
    simp only at h ⊢
    split at h
    · cases h
    rename_i hreset
    rw [value_bind] at h
    refine ⟨resize, rfl, (Option.some.inj h).symm, ?_⟩
    rw [if_neg hreset]
    simp [sound_bind, sound_pure]

theorem guarded_some {α : Type} {check : C (Option ℤ)} {run : C (Option α × ℤ)} {a : α}
    (h : (guarded check run).value.1 = some a) :
    check.value = none ∧ run.value.1 = some a ∧
      (Sound (guarded check run) ↔ Sound check ∧ Sound run) := by
  unfold guarded at h ⊢
  rw [value_bind] at h
  simp only [sound_bind]
  cases hcheck : check.value with
  | some e =>
    rw [hcheck] at h
    cases h
  | none =>
    rw [hcheck] at h
    exact ⟨rfl, h, Iff.rfl⟩

end Checks

/-! ## Programming without loss -/

section Registers

variable {env : PpEnv} {c : PpConvert} {resize : Resize} {w h : ℕ}

theorem unpackSize_packSize (hw : w < 65536) (hh : h < 65536) :
    Gives (packSize w h) (w * 65536 + h) ∧ unpackSize (w * 65536 + h) = (w, h) := by
  have hhigh : Gives (uint ((w : ℤ) * 65536)) (w * 65536) := gives_uint (by push_cast; rfl) (by omega)
  have hor : w * 65536 ||| h = w * 65536 + h := by
    rw [Nat.mul_comm]
    exact (Nat.two_pow_add_eq_or_of_lt (i := 16) hh w).symm
  refine ⟨hhigh.bind ((Yields.pure _).of_eq hor), ?_⟩
  · unfold unpackSize
    rw [Prod.mk.injEq]
    omega

/-- A width that is packed without loss and a height that is read back fit in a half. -/
theorem packSize_fits (hsound : Sound (packSize w h))
    (hback : unpackSize (packSize w h).value = (w, h)) : w < 65536 ∧ h < 65536 := by
  have hhigh : (0 : ℤ) ≤ w * 65536 ∧ (w : ℤ) * 65536 < 4294967296 :=
    sound_uint.mp (sound_bind.mp hsound).1
  have hlow : (packSize w h).value % 65536 = h := congrArg Prod.snd hback
  have hlt := Nat.mod_lt (packSize w h).value (by decide : 0 < 65536)
  omega

/-- The bytes of the Y plane with its rows in whole macroblocks. -/
def lumaBytes (c : PpConvert) : ℕ := c.srcStride * ((c.srcH + 15) / 16 * 16)

theorem gives_chromaPlanes {y stride rows : ℕ}
    (hfit : y + stride * rows + stride * rows / 4 < 4294967296) :
    Gives (chromaPlanes y stride rows)
      (y + stride * rows, y + stride * rows + stride * rows / 4) := by
  generalize hluma : stride * rows = luma at hfit ⊢
  have hysz : Gives (uint ((stride : ℤ) * rows)) luma :=
    gives_uint (by rw [← hluma]; push_cast; rfl) (by omega)
  have hcb : Gives (uint ((y : ℤ) + luma)) (y + luma) := gives_uint (by push_cast; rfl) (by omega)
  have hcr : Gives (uint (((y + luma : ℕ) : ℤ) + (luma / 4 : ℕ))) (y + luma + luma / 4) :=
    gives_uint (by push_cast; rfl) (by omega)
  exact hysz.bind (hcb.bind (hcr.bind (Yields.pure _)))

theorem chromaPlanes_fits {y stride rows : ℕ} (hsound : Sound (chromaPlanes y stride rows)) :
    y + stride * rows + stride * rows / 4 < 4294967296 := by
  unfold chromaPlanes at hsound
  rw [sound_bind, sound_uint] at hsound
  obtain ⟨⟨-, hysz⟩, hsound⟩ := hsound
  rw [sound_bind, sound_uint] at hsound
  obtain ⟨⟨-, hcb⟩, hsound⟩ := hsound
  rw [sound_bind, sound_uint] at hsound
  obtain ⟨⟨-, hcr⟩, -⟩ := hsound
  have hluma : (stride : ℤ) * rows = (stride * rows : ℕ) := by
    push_cast
    rfl
  have hysz' : (uint ((stride : ℤ) * rows)).value = stride * rows := value_uint hluma (by omega)
  rw [hysz'] at hcb hcr
  generalize stride * rows = luma at hcb hcr ⊢
  have hcb' : (uint ((y : ℤ) + luma)).value = y + luma :=
    value_uint (by push_cast; rfl) (by omega)
  rw [hcb'] at hcr
  omega

theorem mode_bits (kept : ℕ) {mode : ℕ} (hmode : mode < 4) :
    ((kept &&& (0xffffffff - 0xc00)) ||| mode * 2 ^ 10 ||| 0x10 ||| 0x20 ||| 0x01) / 2 ^ 10 % 4 =
      mode := by
  have hmask : (0xffffffff - 0xc00) >>> 10 &&& 3 = 0 := by decide
  calc ((kept &&& (0xffffffff - 0xc00)) ||| mode * 2 ^ 10 ||| 0x10 ||| 0x20 ||| 0x01) / 2 ^ 10 % 4
      = ((kept &&& (0xffffffff - 0xc00)) ||| mode * 2 ^ 10 ||| 0x10 ||| 0x20 ||| 0x01) >>> 10 &&& 3 := by
        rw [Nat.shiftRight_eq_div_pow]
        exact (Nat.and_two_pow_sub_one_eq_mod _ 2).symm
    _ = ((kept >>> 10 &&& (0xffffffff - 0xc00) >>> 10) ||| mode) &&& 3 := by
        have hshift : (mode * 2 ^ 10) >>> 10 = mode := by
          rw [Nat.shiftRight_eq_div_pow, Nat.mul_div_cancel _ (by decide)]
        have hlow : (0x10 >>> 10 = 0 ∧ 0x20 >>> 10 = 0) ∧ 0x01 >>> 10 = 0 := by decide
        simp only [Nat.shiftRight_or_distrib, Nat.shiftRight_and_distrib, hshift, hlow.1.1, hlow.1.2,
          hlow.2, Nat.or_zero]
    _ = mode &&& 3 := by
        rw [Nat.and_or_distrib_right, Nat.and_assoc, hmask, Nat.and_zero, Nat.zero_or]
    _ = mode := by
        rw [Nat.and_two_pow_sub_one_eq_mod mode 2]
        exact Nat.mod_eq_of_lt hmode

/-- The two resolution bits of `PP_CNTL` are the mode. -/
theorem ppCntl_mode (cntl srcQp : ℕ) {mode : ℕ} (hmode : mode < 4) :
    ppCntl cntl srcQp mode / 2 ^ 10 % 4 = mode :=
  mode_bits _ hmode

/-- The PP writes two bytes for a pixel, or four where 32 bits are asked for. -/
theorem ppProgram_pixelBytes :
    (ppProgram env c resize).value.pixelBytes = if ppDstBpp c = 32 then 4 else 2 := by
  have hmode : ∀ mode : ℕ, mode < 4 → ppRgbMode (ppDstBpp c) (ppFormat (ppDstBpp c)) = mode →
      (ppProgram env c resize).value.pixelBytes = ppModeBytes mode := by
    rintro mode hlt rfl
    exact congrArg ppModeBytes (ppCntl_mode env.cntl c.srcQp hlt)
  by_cases h32 : ppDstBpp c = 32
  · rw [if_pos h32]
    exact hmode 0 (by decide) (by simp only [ppRgbMode, h32, if_true])
  · rw [if_neg h32]
    refine hmode 2 (by decide) ?_
    simp only [ppRgbMode, ppFormat, if_neg h32]
    decide

end Registers

/-! ## The exact condition -/

/-- The words for which nothing is lost. -/
structure PpSafe (c : PpConvert) : Prop where
  srcW : c.srcW < 65536
  srcH : c.srcH < 65536
  dstW : c.dstW < 65536
  dstH : c.dstH < 65536
  /-- A pixel has a byte. -/
  depth : 8 ≤ ppDstBpp c
  row : c.dstW * ppDstBytes c < 4294967296
  /-- The end of the planes has an address. -/
  planes : c.srcY + lumaBytes c + lumaBytes c / 4 < 4294967296
  /-- A depth below 16 bits is checked as one byte a pixel, and programmed as two. -/
  stride : 16 ≤ ppDstBpp c ∨ 2 * c.dstW ≤ c.dstStride

section Condition

variable {env : PpEnv} {c : PpConvert} {r : PpRegs}

theorem gives_ppPlanes (hrows : c.srcH < 65536)
    (hplanes : c.srcY + lumaBytes c + lumaBytes c / 4 < 4294967296) :
    Gives (ppPlanes c)
      (c.srcY + lumaBytes c, c.srcY + lumaBytes c + lumaBytes c / 4) := by
  have hup : Gives (uint ((c.srcH : ℤ) + 15)) (c.srcH + 15) :=
    gives_uint (by push_cast; rfl) (by omega)
  exact hup.bind (gives_chromaPlanes hplanes)

theorem PpSafe.program (h : PpSafe c) (env : PpEnv) (resize : Resize) :
    Sound (ppProgram env c resize) ∧
      (ppProgram env c resize).value.processPara = c.srcW * 65536 + c.srcH ∧
      (ppProgram env c resize).value.imageSize = c.dstW * 65536 + c.dstH := by
  have hpack := (unpackSize_packSize h.srcW h.srcH).1
  have hpack' := (unpackSize_packSize h.dstW h.dstH).1
  have hplanes := gives_ppPlanes h.srcH h.planes
  refine ⟨?_, hpack.1, hpack'.1⟩
  unfold ppProgram
  exact sound_bind.mpr ⟨hplanes.2, sound_bind.mpr ⟨hpack.2, sound_bind.mpr ⟨hpack'.2, sound_pure _⟩⟩⟩

theorem PpSafe.faithful (h : PpSafe c) (hstart : (ppConvert env c).value.1 = some r) :
    PpFaithful env c r := by
  obtain ⟨hvalid, hrun, hsound⟩ := guarded_some hstart
  obtain ⟨hshape, -, hstride, hchecks⟩ := ppValidate_passed hvalid
  obtain ⟨resize, hbuilt, rfl, hsound'⟩ := ppRun_started hrun
  obtain ⟨hprogram, hsource, himage⟩ := h.program env resize
  -- Sound arithmetic, the two sizes that the registers take, and rows within the stride.
  refine ⟨?_, ?_, ?_, ?_⟩
  · refine hsound.mpr ⟨hchecks.mpr ⟨?_, ?_⟩, hsound'.mpr ⟨?_, ?_⟩⟩
    · have hdepth : 1 ≤ ppDstBytes c := (Nat.le_div_iff_mul_le (by decide)).mpr h.depth
      have hrow : ppDstBytes c ≤ c.dstW * ppDstBytes c := Nat.le_mul_of_pos_left _ (by
        have := hshape.dstW
        omega)
      have := h.row
      exact sound_uint.mpr ⟨by omega, by omega⟩
    · have hrow : (c.dstW : ℤ) * ppDstBytes c = (c.dstW * ppDstBytes c : ℕ) := by
        push_cast
        rfl
      have := h.row
      exact sound_uint.mpr ⟨by omega, by omega⟩
    · have hsw := hshape.srcW
      have hsh := hshape.srcH
      have hdw := hshape.dstW
      have hdh := hshape.dstH
      have hsw' := h.srcW
      have hsh' := h.srcH
      have hdw' := h.dstW
      have hdh' := h.dstH
      exact (pp_resize_tables_exact c.srcW c.srcH c.dstW c.dstH (by omega) (by omega) (by omega)
        (by omega)).1
    · exact hprogram
  · rw [hsource]
    exact (unpackSize_packSize h.srcW h.srcH).2
  · rw [himage]
    exact (unpackSize_packSize h.dstW h.dstH).2
  · rw [ppProgram_pixelBytes]
    have hrow : u32 (c.dstW * ppDstBytes c) = c.dstW * ppDstBytes c :=
      u32_eq (by push_cast; rfl) h.row
    rw [hrow] at hstride
    by_cases h32 : ppDstBpp c = 32
    · rw [if_pos h32]
      rwa [ppDstBytes, h32] at hstride
    · rw [if_neg h32]
      rcases h.stride with hdeep | hwide
      · have htwo : 2 ≤ ppDstBytes c := (Nat.le_div_iff_mul_le (by decide)).mpr hdeep
        calc c.dstW * 2 ≤ c.dstW * ppDstBytes c := Nat.mul_le_mul_left _ htwo
          _ ≤ c.dstStride := hstride
      · omega

theorem PpFaithful.safe (h : PpFaithful env c r) (hstart : (ppConvert env c).value.1 = some r) :
    PpSafe c := by
  obtain ⟨hvalid, hrun, hsound⟩ := guarded_some hstart
  obtain ⟨hshape, -, hstride, hchecks⟩ := ppValidate_passed hvalid
  obtain ⟨resize, hbuilt, rfl, hsound'⟩ := ppRun_started hrun
  obtain ⟨hcheck, hrunsound⟩ := hsound.mp h.sound
  obtain ⟨hmask, hrow⟩ := hchecks.mp hcheck
  have hprogram := (hsound'.mp hrunsound).2
  unfold ppProgram at hprogram
  rw [sound_bind] at hprogram
  obtain ⟨hplanes, hprogram⟩ := hprogram
  rw [sound_bind] at hprogram
  obtain ⟨hpack, hprogram⟩ := hprogram
  rw [sound_bind] at hprogram
  obtain ⟨hpack', -⟩ := hprogram
  obtain ⟨hsw, hsh⟩ := packSize_fits hpack h.source
  obtain ⟨hdw, hdh⟩ := packSize_fits hpack' h.image
  have hrow' : c.dstW * ppDstBytes c < 4294967296 := by
    have hlt := (sound_uint.mp hrow).2
    exact_mod_cast hlt
  have hdepth : 8 ≤ ppDstBpp c := by
    have hlow := (sound_uint.mp hmask).1
    unfold ppDstBytes at hlow
    omega
  refine ⟨hsw, hsh, hdw, hdh, hdepth, hrow', ?_, ?_⟩
  · unfold ppPlanes at hplanes
    rw [sound_bind] at hplanes
    have hup : (uint ((c.srcH : ℤ) + 15)).value = c.srcH + 15 :=
      value_uint (by push_cast; rfl) (by omega)
    rw [hup] at hplanes
    exact chromaPlanes_fits hplanes.2
  · have hbytes := h.rows
    rw [ppProgram_pixelBytes] at hbytes
    by_cases hdeep : 16 ≤ ppDstBpp c
    · exact .inl hdeep
    · rw [if_neg (by omega)] at hbytes
      exact .inr (by omega)

end Condition

/-- **The checks of `pp_convert`.** A conversion that is started has lost nothing of its request, and
its rows stay within the line stride, exactly when the sizes have sixteen bits, a pixel has a byte,
neither the row nor the planes wrap, and a depth below 16 bits has room for two bytes a pixel. -/
theorem pp_convert_faithful_iff (env : PpEnv) (c : PpConvert) (r : PpRegs)
    (hstart : (ppConvert env c).value.1 = some r) : PpFaithful env c r ↔ PpSafe c :=
  ⟨fun h => h.safe hstart, fun h => h.faithful hstart⟩

/-- A mapped PP that answers. -/
def readyPp : PpEnv := ⟨true, PpCsc.init, 0, 0x876, 1, 1⟩

/-- 640x360 pixels to 800x450. -/
def toPanel : PpConvert := ⟨0x1000000, 640, 360, 640, 0x2000000, 800, 450, 1600, 16, 0⟩

theorem pp_convert_faithful_panel :
    ∃ r, (ppConvert readyPp toPanel).value.1 = some r ∧ PpFaithful readyPp toPanel r := by
  have hstarted : (ppConvert readyPp toPanel).value.1.isSome = true := by
    decide +kernel
  obtain ⟨r, hr⟩ := Option.isSome_iff_exists.mp hstarted
  refine ⟨r, hr, (pp_convert_faithful_iff readyPp toPanel r hr).mpr ?_⟩
  exact ⟨by decide, by decide, by decide, by decide, by decide, by decide, by decide, by decide⟩

/-- A picture that is not resized, with 8 bits a pixel and rows of 640 bytes. -/
def toBytes : PpConvert := ⟨0x1000000, 640, 480, 640, 0x2000000, 640, 480, 640, 8, 0⟩

/-- The PP is started and writes rows of 1280 bytes. -/
theorem pp_convert_rows_overlap :
    ∃ r, (ppConvert readyPp toBytes).value.1 = some r ∧ ¬ PpFaithful readyPp toBytes r := by
  have hbytes : (ppConvert readyPp toBytes).value.1.map PpRegs.pixelBytes = some 2 := by
    decide +kernel
  obtain ⟨r, hr, htwo⟩ := Option.map_eq_some_iff.mp hbytes
  refine ⟨r, hr, fun h => ?_⟩
  have hrows := h.rows
  rw [htwo] at hrows
  exact absurd hrows (by decide)

end Kernel
end ToonVpu
