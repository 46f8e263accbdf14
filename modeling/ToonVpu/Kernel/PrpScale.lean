import ToonVpu.Kernel.PpResize

/-!
# PrpScale — the resize tables of the PrP (`prp_scale` of `kernel/mxc_vpu.c`)

The PrP resizes down by a table of at most 20 entries for each direction, either by averaging or, for
less than 2:1, by bilinear weights.  `prp_scale` reduces the ratio; when the reduced ratio does not fit
it tries the next larger output size, up to sixteen times.  The sizes come from user space as unsigned
words and are used as `int`s.

The `char`s of `scale_t` are unsigned, as on the ARM.
-/

namespace ToonVpu
namespace Kernel

open Foundation
open Foundation.CInt
open Foundation.Logged

/-! ## Tables -/

/-- `ALGO_AUTO`, `ALGO_BIL`, `ALGO_AVG`. -/
inductive ScaleAlgo
  | auto
  | bil
  | avg
  deriving DecidableEq, Repr

/-- `MAX_TBL`, the size of both arrays of `scale_t`. -/
def prpMaxTbl : ℕ := 20

/-- `scale_t`. -/
structure Scale where
  tbl : List ℕ
  len : ℕ
  algo : ScaleAlgo
  ratio : List ℕ
  deriving DecidableEq, Repr

/-- Twenty zeros. -/
def zeroTbl : List ℕ := List.replicate prpMaxTbl 0

/-- A `scale_t` as `prp_convert` sets it up. -/
def Scale.fresh : Scale := ⟨zeroTbl, 0, .auto, zeroTbl⟩

/-- `(char)x`. -/
def uchar (x : ℤ) : ℕ := (x % 256).toNat

/-- A store into an array of 20 `char`s. -/
def storeChar (xs : List ℕ) (i x : ℤ) : C (List ℕ) := do
  access i prpMaxTbl
  pure (xs.set i.toNat (uchar x))

/-- A read from an array of 20 `char`s. -/
def readChar (xs : List ℕ) (i : ℤ) : C ℕ := do
  access i prpMaxTbl
  pure (xs.getD i.toNat 0)

/-! ## Ratios -/

/-- One round of `prp_gcd`. -/
def gcdStep (p : ℤ × ℤ) : C ((ℤ × ℤ) ⊕ ℤ) := do
  let k ← rem p.1 p.2
  if k ≠ 0 then pure (.inl (p.2, k)) else pure (.inr p.2)

/-- `prp_gcd`. -/
def prpGcd (x y : ℤ) : C ℤ :=
  let (x, y) := if x < y then (y, x) else (x, y)
  loop y gcdStep intValues (x, y)

/-- `prp_ratio`: numerator and denominator, the numerator `0` where there is no ratio. -/
def prpRatio (x y : ℤ) : C (ℤ × ℤ) :=
  if x = 0 ∨ y = 0 then
    pure (0, 0)
  else do
    let g ← prpGcd x y
    let den ← quot y g
    let num ← quot x g
    pure (num, den)

/-! ## Bilinear entries -/

/-- `prp_scale_bilinear`; the flag says whether the entries fit. -/
def prpScaleBilinear (t : Scale) (coeff base nxt : ℤ) : C (Scale × Bool) :=
  if prpMaxTbl ≤ t.len then
    pure (t, false)
  else do
    let scaled ← int (coeff * 8)
    let rounded ← int (scaled + base / 2)
    let coeff ← quot rounded base
    let coeff ← (if 7 ≤ coeff then int (coeff - 1) else pure coeff)
    let tbl ← storeChar t.tbl t.len (Int.lor coeff 8)
    loop (t, false) (fun (t, i) => do
      if i < nxt then
        if prpMaxTbl ≤ t.len then
          pure (.inr (t, false))
        else
          let tbl ← storeChar t.tbl t.len 0
          let i ← int (i + 1)
          pure (.inl ({ t with tbl := tbl, len := t.len + 1 }, i))
      else
        pure (.inr (t, true))) (prpMaxTbl + 1) ({ t with tbl := tbl, len := t.len + 1 }, 1)

/-! ## Averaging entries -/

/-- `prp_ave_coeff`. -/
def prpAveCoeff : List (List ℕ) :=
  [[7], [4, 4], [2, 4, 2], [2, 2, 2, 2], [1, 2, 2, 2, 1], [1, 1, 2, 2, 1, 1],
    [1, 1, 1, 2, 1, 1, 1], [1, 1, 1, 1, 1, 1, 1, 1], [1, 1, 1, 1, 1, 1, 1, 1, 0],
    [0, 1, 1, 1, 1, 1, 1, 1, 1, 0], [0, 1, 1, 1, 1, 0, 1, 1, 1, 1, 0],
    [0, 1, 1, 0, 1, 1, 1, 1, 0, 1, 1, 0], [0, 1, 1, 0, 1, 1, 0, 1, 1, 0, 1, 1, 0],
    [0, 1, 1, 0, 1, 1, 0, 1, 1, 0, 1, 0, 1, 0], [0, 1, 0, 1, 0, 1, 1, 0, 1, 1, 0, 1, 0, 1, 0],
    [1, 0, 1, 0, 1, 0, 1, 0, 1, 0, 1, 0, 1, 0, 1, 0],
    [0, 1, 0, 1, 0, 1, 0, 1, 0, 1, 0, 1, 0, 1, 0, 1, 0],
    [0, 1, 0, 1, 0, 1, 0, 1, 0, 0, 1, 0, 1, 0, 1, 0, 1, 0],
    [0, 1, 0, 1, 0, 1, 0, 1, 0, 0, 1, 0, 1, 0, 1, 0, 0, 1, 0],
    [0, 1, 0, 0, 1, 0, 1, 0, 1, 0, 0, 1, 0, 1, 0, 1, 0, 0, 1, 0]]

/-- `prp_scale_ave`. -/
def prpScaleAve (t : Scale) (base : ℕ) : C (Scale × Bool) :=
  if prpMaxTbl < t.len + base then
    pure (t, false)
  else do
    access ((base : ℤ) - 1) prpMaxTbl
    let coeffs := prpAveCoeff.getD (base - 1) []
    let tbl := t.tbl.take t.len ++ coeffs ++ t.tbl.drop (t.len + base)
    let last : ℤ := (t.len + base : ℕ) - 1
    let c ← readChar tbl last
    let tbl ← storeChar tbl last (c ||| 8 : ℕ)
    pure ({ t with tbl := tbl, len := t.len + base }, true)

/-- The loop that fills `a`. -/
def fillCounts (inv outv : ℤ) : List ℕ × ℤ → C ((List ℕ × ℤ) ⊕ List ℕ)
  | (a, v) => do
    if v < outv then
      let q ← quot inv outv
      let a ← storeChar a v q
      let v ← int (v + 1)
      pure (.inl (a, v))
    else
      pure (.inr a)

/-- The loop `for (; v < inv; v++) a[v]++`. -/
def raiseCounts (inv : ℤ) : List ℕ × ℤ → C ((List ℕ × ℤ) ⊕ List ℕ)
  | (a, v) => do
    if v < inv then
      let x ← readChar a v
      let a ← storeChar a v ((x : ℤ) + 1)
      let v ← int (v + 1)
      pure (.inl (a, v))
    else
      pure (.inr a)

/-- The loop that writes the entries of one output after another. -/
def aveCounts (outv : ℤ) (a : List ℕ) : Scale × ℤ → C ((Scale × ℤ) ⊕ (Scale × Bool))
  | (t, v) => do
    if v < outv then
      let x ← readChar a v
      let (t, ok) ← prpScaleAve t x
      if ok then
        let ratio ← storeChar t.ratio v x
        let v ← int (v + 1)
        pure (.inl ({ t with ratio := ratio }, v))
      else
        pure (.inr (t, false))
    else
      pure (.inr (t, true))

/-- `prp_ave_scale`. -/
def prpAveScale (t : Scale) (inv outv : ℤ) : C (Scale × Bool) := do
  if outv ≠ 1 then
    let a ← loop [] (fillCounts inv outv) intValues (zeroTbl, 0)
    let inv ← rem inv outv
    let a ← (if inv ≠ 0 then do
        let d ← int (outv - inv)
        let inv ← int (inv + d / 2)
        loop [] (raiseCounts inv) intValues (a, d / 2)
      else
        pure a)
    loop (t, false) (aveCounts outv a) intValues (t, 0)
  else
    let (t, ok) ← prpScaleAve t (uchar inv)
    if ok then
      let ratio ← storeChar t.ratio 0 inv
      pure ({ t with ratio := ratio }, true)
    else
      pure (t, false)

/-! ## Building -/

/-- One output of a bilinear downscale by two or more. -/
def prpHalve (coeff outv : ℤ) : Scale × ℤ → C ((Scale × ℤ) ⊕ (Scale × Bool))
  | (t, v) => do
    let v ← int (v + coeff)
    let (v, nxt) ← loop (v, 2) (ppDrop outv) intValues (v, 2)
    let (t, ok) ← prpScaleBilinear t 1 2 nxt
    if ok then
      if v ≠ 0 then pure (.inl (t, v)) else pure (.inr (t, true))
    else
      pure (.inr (t, false))

/-- What the loop of a fractional downscale keeps. -/
structure PrpPhase where
  t : Scale
  v : ℤ
  outPos : ℤ
  carry : ℤ
  deriving DecidableEq, Repr

/-- One output of a bilinear downscale by less than two. -/
def prpDownscale (inPosInc outPosInc initCarry : ℤ) (x : PrpPhase) :
    C (PrpPhase ⊕ (Scale × Bool)) := do
  let coeff ← int (x.v - x.outPos)
  let outPos ← int (x.outPos + outPosInc)
  let carry ← int (x.carry + outPosInc)
  let (v, carry, nxt) ← loop (x.v, carry, 0) (ppAdvance inPosInc outPos) intValues (x.v, carry, 0)
  let (t, ok) ← prpScaleBilinear x.t coeff inPosInc nxt
  if ok then
    if carry ≠ initCarry then pure (.inl ⟨t, v, outPos, carry⟩) else pure (.inr (t, true))
  else
    pure (.inr (t, false))

/-- The choice of the algorithm; one that was chosen in an earlier attempt stays. -/
def chooseAlgo (algo : ScaleAlgo) (inv outv : ℤ) : C ScaleAlgo := do
  let algo ← (if algo = .auto then
      if outv ≠ inv then do
        let twice ← int (2 * outv)
        pure (if inv < twice then .bil else .avg)
      else
        pure .avg
    else
      pure algo)
  pure (if inv = outv ∧ algo = .bil then .avg else algo)

/-- The bilinear part of `prp_scale_build`. -/
def prpBuildBilinear (t : Scale) (inv outv : ℤ) : C (Scale × Bool) := do
  let twice ← int (2 * outv)
  if twice ≤ inv then
    let coeff ← int (inv - twice)
    loop (t, false) (prpHalve coeff outv) (prpMaxTbl + 1) (t, 0)
  else
    let inPosInc := twice
    let outPosInc ← int (2 * inv)
    let initCarry ← int (inv - outv)
    let v ← int (outv + inPosInc)
    loop (t, false) (prpDownscale inPosInc outPosInc initCarry) (prpMaxTbl + 1)
      ⟨t, v, inv, initCarry⟩

/-- `prp_scale_build`. -/
def prpScaleBuild (t : Scale) (inv outv : ℤ) : C (Scale × Bool) := do
  let algo ← chooseAlgo t.algo inv outv
  let ratio := if algo = .bil then (t.ratio.set 0 (uchar inv)).set 1 (uchar outv) else zeroTbl
  let t : Scale := { tbl := zeroTbl, len := 0, algo := algo, ratio := ratio }
  if inv = outv then
    prpScaleAve { t with ratio := t.ratio.set 0 1 } 1
  else if inv < outv then
    pure (t, false)
  else if algo ≠ .bil then
    prpAveScale t inv outv
  else
    prpBuildBilinear t inv outv

/-! ## The output size -/

/-- `prp_scale_get` with a place for the number of inputs: the weight, that number and the next
entry. -/
def prpScaleGet (t : Scale) (i : ℕ) : C (ℕ × ℕ × ℕ) := do
  let c ← readChar t.tbl i
  let i ← urem (i + 1) t.len
  let (out, i) ← loop (0, 0) (fun (out, i) => do
    if i ≠ 0 ∧ i < t.len then
      let x ← readChar t.tbl i
      if x = 0 then pure (.inl (out + 1, i + 1)) else pure (.inr (out, i))
    else
      pure (.inr (out, i))) (prpMaxTbl + 1) (1, i)
  let i := if i = t.len then 0 else i
  let weight := c % 8
  pure (if weight = 7 then 8 else weight, out, i)

/-- The outputs for the inputs that are left after whole cycles of a bilinear table. -/
def bilRest (t : Scale) : ℤ × ℕ × ℕ → C ((ℤ × ℕ × ℕ) ⊕ ℕ)
  | (inv, i, j) => do
    if 0 < inv then
      let (k, nxt, i) ← prpScaleGet t i
      if inv = 1 ∧ k < 8 then
        pure (.inr j)
      else
        let inv ← int (inv - nxt)
        pure (.inl (inv, i, (j + 1) % 256))
    else
      pure (.inr j)

/-- The sum of the averaged inputs and the number of outputs in a cycle. -/
def sumRatio (t : Scale) : ℕ × ℕ → C ((ℕ × ℕ) ⊕ (ℕ × ℕ))
  | (tot, i) => do
    let x ← readChar t.ratio i
    if x ≠ 0 then pure (.inl ((tot + x) % 256, (i + 1) % 256)) else pure (.inr (tot, i))

/-- The outputs for the inputs that are left after whole cycles of averaging. -/
def aveRest (t : Scale) : ℤ × ℕ × ℕ → C ((ℤ × ℕ × ℕ) ⊕ ℕ)
  | (inv, i, outv) => do
    if 0 < inv then
      let x ← readChar t.ratio i
      let inv ← int (inv - x)
      pure (.inl (inv, (i + 1) % 256, (outv + 1) % 65536))
    else
      pure (.inr outv)

/-- The output size that a table gives for `inv` inputs. -/
def prpOutput (t : Scale) (inv : ℤ) : C ℕ :=
  if t.algo = .bil then do
    let r0 ← readChar t.ratio 0
    let r1 ← readChar t.ratio 1
    let q ← quot inv r0
    let p ← int (q * r1)
    let inv ← rem inv r0
    let j ← loop 0 (bilRest t) intValues (inv, 0, 0)
    pure (((p % 65536).toNat + j) % 65536)
  else do
    let (tot, i) ← loop (0, 0) (sumRatio t) intValues (0, 0)
    let q ← quot inv tot
    let p ← int (q % 65536 * i)
    let inv ← rem inv tot
    loop 0 (aveRest t) intValues (inv, 0, (p % 65536).toNat)

/-! ## Attempts -/

/-- `SCALE_RETRY`. -/
def scaleRetry : ℕ := 16

/-- How an attempt at one output size ends. -/
inductive Attempt
  /-- There is no ratio. -/
  | refused
  | retry
  | built
  deriving DecidableEq, Repr

/-- From the label `lp_retry` to the test of the table. -/
def prpAttempt (t : Scale) (din dout : ℤ) : C (Scale × Attempt) := do
  let (num, den) ← prpRatio din dout
  if num = 0 then
    pure (t, .refused)
  else if 20 < num then
    pure (t, .retry)
  else
    let (t, ok) ← prpScaleBuild t num den
    pure (t, if ok then .built else .retry)

/-- The attempts; `none` stands for `-1`. -/
def prpAttempts (din : ℤ) : ℕ → Scale → ℤ → C (Option Scale)
  | retry, t, dout => do
    let (t, how) ← prpAttempt t din dout
    match how with
    | .refused => pure none
    | .built => pure (some t)
    | .retry => do
      let dout ← int (dout + 1)
      match retry with
      | 0 => pure none
      | retry + 1 => prpAttempts din retry t dout

/-- `prp_scale`: the table and the output size; `vout` is zero before the call. -/
def prpScale (t : Scale) (din dout inv : ℤ) : C (Option (Scale × ℕ)) :=
  if din < dout then
    pure none
  else do
    match ← prpAttempts din scaleRetry t dout with
    | none => pure none
    | some t =>
      let outv ← prpOutput t inv
      pure (some (t, outv))

end Kernel
end ToonVpu
