import ToonVpu.Kernel.PpConvert
import ToonVpu.Kernel.PrpTables

/-!
# PrpConvert — a conversion by the PrP (`prp_convert` of `kernel/mxc_vpu.c`)

`VPU_IOC_PRP_CONVERT` only checks lower bounds.  The output size that is programmed is the one that
`prp_scale` found, not the one that was asked for, with the width made even.

Times, messages and the wait for the interrupt are left out but for its outcome.
-/

namespace ToonVpu
namespace Kernel

open Foundation
open Foundation.CInt
open Foundation.Logged
open ToonVpu.Stream (PrpConvert)

/-! ## Registers -/

/-- The three registers of one direction: two words of coefficients and the valid bits. -/
structure ScalerRegs where
  coef1 : ℕ
  coef2 : ℕ
  valid : ℕ
  deriving DecidableEq, Repr

/-- One round of the loop of `prp_set_scaler`. -/
def scalerStep (tbl : List ℕ) (r : ScalerRegs) (i : ℕ) : ScalerRegs :=
  let c := tbl.getD i 0
  let put (x : ℕ) : ℕ :=
    let x := x * 8 ||| c % 8
    (if i = 5 ∨ i = 15 then x * 2 else x) % 4294967296
  let valid := (r.valid * 2 ||| c / 8) % 4294967296
  if 9 < i then ⟨r.coef1, put r.coef2, valid⟩ else ⟨put r.coef1, r.coef2, valid⟩

/-- `prp_set_scaler`: the entries go in from the last to the first. -/
def prpSetScaler (t : Scale) : ScalerRegs :=
  let r := (List.range prpMaxTbl).reverse.foldl (scalerStep t.tbl) ⟨0, 0, 0⟩
  { r with valid := r.valid ||| t.len * 2 ^ 24 ||| if t.algo = .bil then 2 ^ 31 else 0 }

/-- The registers that are programmed. -/
structure PrpRegs where
  srcPixelFormat : ℕ
  sourceFrameSize : ℕ
  sourceLineStride : ℕ
  sourceY : ℕ
  sourceCb : ℕ
  sourceCr : ℕ
  ch1PixelFormat : ℕ
  ch1OutImageSize : ℕ
  ch1LineStride : ℕ
  destRgb1 : ℕ
  hori : ScalerRegs
  vert : ScalerRegs
  cntl : ℕ
  deriving DecidableEq, Repr

/-- What a conversion meets in the driver and in the hardware. -/
structure PrpEnv where
  /-- `prp_base` is mapped. -/
  prpBase : Bool
  /-- What the wait for the interrupt returns. -/
  wait : ℤ

/-! ## The call -/

/-- The tables and output sizes of both directions; the height is not tried where the width is
refused. -/
def prpTables (c : PrpConvert) : C (Except ℤ ((Scale × ℕ) × (Scale × ℕ))) := do
  match ← prpScale Scale.fresh (i32 c.srcW) (i32 c.dstW) (i32 c.srcW) with
  | none => pure (.error eInvalid)
  | some w =>
    match ← prpScale Scale.fresh (i32 c.srcH) (i32 c.dstH) (i32 c.srcH) with
    | none => pure (.error eInvalid)
    | some h => pure (.ok (w, h))

/-- The planes of the source: an RGB picture has one. -/
def prpPlanes (c : PrpConvert) : C (ℕ × ℕ) :=
  if c.inFmt ≠ 0 then pure (c.srcY, c.srcY) else chromaPlanes c.srcY c.srcStride c.srcH

/-- The registers of a conversion. -/
def prpProgram (c : PrpConvert) (w h : Scale × ℕ) : C PrpRegs := do
  let frame ← packSize c.srcW c.srcH
  let planes ← prpPlanes c
  -- The width must be even.
  let outw := w.2 / 2 * 2
  let out ← packSize outw h.2
  let deep := (if c.dstBpp ≠ 0 then c.dstBpp else 16) = 32
  pure {
    srcPixelFormat := c.inFmt
    sourceFrameSize := frame
    sourceLineStride := c.srcStride
    sourceY := c.srcY
    sourceCb := planes.1
    sourceCr := planes.2
    ch1PixelFormat := if deep then 0x49420666 else 0x2CA00565
    ch1OutImageSize := out
    ch1LineStride := c.dstStride
    destRgb1 := c.dstRgb
    hori := prpSetScaler w.1
    vert := prpSetScaler h.1
    cntl := (if c.inFmt ≠ 0 then 2 ^ 4 else 0) ||| (if deep then 2 * 2 ^ 5 else 2 ^ 5) ||| 1 }

/-- The size check of `prp_convert`. -/
def PrpSizesOk (c : PrpConvert) : Prop := 32 ≤ c.srcW ∧ 32 ≤ c.srcH ∧ 8 ≤ c.dstW ∧ 8 ≤ c.dstH

instance (c : PrpConvert) : Decidable (PrpSizesOk c) :=
  inferInstanceAs (Decidable (_ ∧ _ ∧ _ ∧ _))

/-- `prp_convert` behind its checks, with the tables. -/
def prpRun (env : PrpEnv) (c : PrpConvert) (tables : C (Except ℤ ((Scale × ℕ) × (Scale × ℕ)))) :
    C (Option PrpRegs × ℤ) := do
  match ← tables with
  | .error e => pure (none, e)
  | .ok (w, h) =>
    let regs ← prpProgram c w h
    pure (some regs, if env.wait ≤ 0 then -62 else 0)

/-- `prp_convert`: the registers with which the engine is started, and the return value. -/
def prpConvert (env : PrpEnv) (c : PrpConvert) : C (Option PrpRegs × ℤ) :=
  if env.prpBase = false then
    pure (none, eNoDev)
  else if ¬ PrpSizesOk c then
    pure (none, eInvalid)
  else
    prpRun env c (prpTables c)

/-! ## What is written -/

/-- The bytes of an output pixel. -/
def PrpRegs.pixelBytes (r : PrpRegs) : ℕ := if r.ch1PixelFormat = 0x49420666 then 4 else 2

/-- The offsets of `h` rows of `w` bytes at a pitch of `stride`. -/
def rectBytes (w h stride : ℕ) : Set ℕ := { x | ∃ row < h, ∃ col < w, x = row * stride + col }

/-- The bytes that the engine writes, from the destination on. -/
def PrpRegs.written (r : PrpRegs) : Set ℕ :=
  rectBytes ((unpackSize r.ch1OutImageSize).1 * r.pixelBytes) (unpackSize r.ch1OutImageSize).2
    r.ch1LineStride

/-- The output is no larger than the rectangle that was asked for, and nothing is written outside of
it. -/
structure WithinRequest (c : PrpConvert) (r : PrpRegs) : Prop where
  width : (unpackSize r.ch1OutImageSize).1 ≤ c.dstW
  height : (unpackSize r.ch1OutImageSize).2 ≤ c.dstH
  written : c.dstW * r.pixelBytes ≤ c.dstStride →
    r.written ⊆ rectBytes (c.dstW * r.pixelBytes) c.dstH c.dstStride

/-- The requested size fits a table itself; of an even width the next may fit as well, since the
width is made even again. -/
structure FitsRequest (c : PrpConvert) : Prop where
  width : FitsTable c.srcW c.dstW ∨ c.dstW % 2 = 0 ∧ FitsTable c.srcW (c.dstW + 1)
  height : FitsTable c.srcH c.dstH

/-- A request to make a picture smaller, in sizes of sixteen bits. -/
structure Downscale (c : PrpConvert) : Prop where
  srcW : 32 ≤ c.srcW ∧ c.srcW < 65536
  srcH : 32 ≤ c.srcH ∧ c.srcH < 65536
  dstW : 8 ≤ c.dstW ∧ c.dstW ≤ c.srcW
  dstH : 8 ≤ c.dstH ∧ c.dstH ≤ c.srcH

section Output

variable {env : PrpEnv} {c : PrpConvert} {r : PrpRegs}

theorem rectBytes_mono {w w' h h' stride : ℕ} (hw : w ≤ w') (hh : h ≤ h') :
    rectBytes w h stride ⊆ rectBytes w' h' stride := by
  rintro x ⟨row, hrow, col, hcol, rfl⟩
  exact ⟨row, hrow.trans_le hh, col, hcol.trans_le hw, rfl⟩

/-- A first fit is unique. -/
theorem firstFit_zero_iff {src dst k : ℕ} (h : FirstFit src dst k) : k = 0 ↔ FitsTable src dst := by
  constructor
  · rintro rfl
    exact h.1
  · intro hfits
    by_contra hne
    exact h.2 0 (Nat.pos_of_ne_zero hne) hfits

/-- A made-even width stays within the request when at most one was added to an even width. -/
theorem width_le_iff {src dst k : ℕ} (h : FirstFit src dst k) :
    (dst + k) / 2 * 2 ≤ dst ↔ FitsTable src dst ∨ dst % 2 = 0 ∧ FitsTable src (dst + 1) := by
  by_cases hzero : FitsTable src dst
  · have hk := (firstFit_zero_iff h).mpr hzero
    subst hk
    exact ⟨fun _ => .inl hzero, fun _ => by omega⟩
  · have hk : k ≠ 0 := mt (firstFit_zero_iff h).mp hzero
    constructor
    · intro hle
      have hone : k = 1 := by omega
      subst hone
      exact .inr ⟨by omega, h.1⟩
    · rintro (hfits | ⟨heven, hnext⟩)
      · exact absurd hfits hzero
      · have hone : k = 1 := by
          by_contra hne
          exact h.2 1 (by omega) hnext
        omega

theorem i32_natCast {n : ℕ} (hn : n < 2147483648) : i32 (n : ℤ) = n :=
  i32_eq (by omega) (by omega)

/-- The tables of a request to make a picture smaller. -/
theorem prpTables_downscale (hdown : Downscale c) :
    (∃ kw kh tw th, FirstFit c.srcW c.dstW kw ∧ c.dstW + kw ≤ c.srcW ∧ FirstFit c.srcH c.dstH kh ∧
      c.dstH + kh ≤ c.srcH ∧
      Gives (prpTables c) (.ok ((tw, c.dstW + kw), (th, c.dstH + kh)))) ∨
    Gives (prpTables c) (.error eInvalid) := by
  obtain ⟨hsw, hsh, hdw, hdh⟩ := hdown
  unfold prpTables
  rw [i32_natCast (by omega), i32_natCast (by omega), i32_natCast (by omega),
    i32_natCast (by omega)]
  rcases gives_prpScale c.srcW c.dstW (by omega) hdw.2 (by omega) with
    ⟨kw, -, hfirst, hbelow, tw, outw, -, hout, hrun⟩ | ⟨-, hrun⟩
  · rcases gives_prpScale c.srcH c.dstH (by omega) hdh.2 (by omega) with
      ⟨kh, -, hfirst', hbelow', th, outh, -, hout', hrun'⟩ | ⟨-, hrun'⟩
    · refine .inl ⟨kw, kh, tw, th, hfirst, hbelow, hfirst', hbelow', hrun.bind ?_⟩
      rw [hout hsw.2]
      refine hrun'.bind ?_
      rw [hout' hsh.2]
      exact Yields.pure _
    · refine .inr (hrun.bind ?_)
      refine hrun'.bind ?_
      exact Yields.pure _
  · refine .inr (hrun.bind ?_)
    exact Yields.pure _

theorem prpRun_started {tables : C (Except ℤ ((Scale × ℕ) × (Scale × ℕ)))}
    (h : (prpRun env c tables).value.1 = some r) :
    ∃ w h, tables.value = .ok (w, h) ∧ r = (prpProgram c w h).value := by
  unfold prpRun at h
  rw [value_bind] at h
  cases htables : tables.value with
  | error e =>
    rw [htables] at h
    cases h
  | ok x =>
    rw [htables] at h
    exact ⟨x.1, x.2, rfl, (Option.some.inj h).symm⟩

/-- What is programmed for a request that is accepted. -/
theorem prpConvert_started (hdown : Downscale c) (hstart : (prpConvert env c).value.1 = some r) :
    ∃ kw kh, FirstFit c.srcW c.dstW kw ∧ FirstFit c.srcH c.dstH kh ∧
      unpackSize r.ch1OutImageSize = ((c.dstW + kw) / 2 * 2, c.dstH + kh) ∧
      r.ch1LineStride = c.dstStride := by
  unfold prpConvert at hstart
  split at hstart
  · cases hstart
  split at hstart
  · cases hstart
  obtain ⟨w, h, htables, rfl⟩ := prpRun_started hstart
  rcases prpTables_downscale hdown with
    ⟨kw, kh, tw, th, hfirst, hbelow, hfirst', hbelow', hvalue, -⟩ | ⟨hvalue, -⟩
  · rw [htables] at hvalue
    cases hvalue
    have hsw := hdown.srcW.2
    have hsh := hdown.srcH.2
    obtain ⟨hpack, hunpack⟩ := unpackSize_packSize (w := (c.dstW + kw) / 2 * 2) (h := c.dstH + kh)
      (by omega) (by omega)
    refine ⟨kw, kh, hfirst, hfirst', ?_, rfl⟩
    have hout : (prpProgram c (tw, c.dstW + kw) (th, c.dstH + kh)).value.ch1OutImageSize =
        (c.dstW + kw) / 2 * 2 * 65536 + (c.dstH + kh) := hpack.1
    rw [hout]
    exact hunpack
  · rw [htables] at hvalue
    cases hvalue

end Output

/-- **The output of the PrP.** A request to make a picture smaller that is accepted stays within its
rectangle exactly when the requested sizes themselves fit a table, an even width also when the next
one does. -/
theorem prp_output_within_iff (env : PrpEnv) (c : PrpConvert) (r : PrpRegs) (hdown : Downscale c)
    (hstart : (prpConvert env c).value.1 = some r) : WithinRequest c r ↔ FitsRequest c := by
  obtain ⟨kw, kh, hfirst, hfirst', hout, hstride⟩ := prpConvert_started hdown hstart
  have hwidth := width_le_iff hfirst
  have hheight := firstFit_zero_iff hfirst'
  constructor
  · rintro ⟨hw, hh, -⟩
    rw [hout] at hw hh
    refine ⟨hwidth.mp hw, hheight.mp ?_⟩
    simp only at hh
    omega
  · rintro ⟨hw, hh⟩
    have hw' : (unpackSize r.ch1OutImageSize).1 ≤ c.dstW := by
      rw [hout]
      exact hwidth.mpr hw
    have hh' : (unpackSize r.ch1OutImageSize).2 ≤ c.dstH := by
      rw [hout, hheight.mpr hh]
      exact Nat.le_refl _
    refine ⟨hw', hh', fun _ => ?_⟩
    unfold PrpRegs.written
    rw [hstride]
    exact rectBytes_mono (Nat.mul_le_mul_right _ hw') hh'

/-- A mapped PrP that answers. -/
def readyPrp : PrpEnv := ⟨true, 1⟩

/-- 640x480 pixels to half the size. -/
def toHalf : PrpConvert := ⟨0x1000000, 640, 480, 640, 0x2000000, 320, 240, 640, 16, 0⟩

theorem prp_output_within_half :
    ∃ r, (prpConvert readyPrp toHalf).value.1 = some r ∧ WithinRequest toHalf r := by
  have hstarted : (prpConvert readyPrp toHalf).value.1.isSome = true := by
    decide +kernel
  obtain ⟨r, hr⟩ := Option.isSome_iff_exists.mp hstarted
  refine ⟨r, hr, (prp_output_within_iff readyPrp toHalf r ?_ hr).mpr ?_⟩
  · exact ⟨by decide, by decide, by decide, by decide⟩
  · exact ⟨.inl (by unfold FitsTable; decide), by unfold FitsTable; decide⟩

/-- 640x480 pixels to 636x240. -/
def toNarrower : PrpConvert := ⟨0x1000000, 640, 480, 640, 0x2000000, 636, 240, 1272, 16, 0⟩

/-- The sizes 636 to 639 do not fit, and 640 columns are written. -/
theorem prp_output_exceeds :
    ∃ r, Downscale toNarrower ∧ (prpConvert readyPrp toNarrower).value.1 = some r ∧
      ¬ WithinRequest toNarrower r := by
  have hout : (prpConvert readyPrp toNarrower).value.1.map PrpRegs.ch1OutImageSize =
      some (640 * 65536 + 240) := by
    decide +kernel
  obtain ⟨r, hr, hsize⟩ := Option.map_eq_some_iff.mp hout
  refine ⟨r, ⟨by decide, by decide, by decide, by decide⟩, hr, fun h => ?_⟩
  have hwidth := h.width
  rw [hsize] at hwidth
  exact absurd hwidth (by decide)

end Kernel
end ToonVpu
