import ToonVpu.Kernel.PrpConvert

/-!
# PrpExact — the resize registers of the PrP (`prp_set_scaler` of `kernel/mxc_vpu.c`)

The registers of a direction hold a cycle of up to twenty entries, each with a weight in eighths and a
flag.  An averaging cycle has an entry for each sample, and the flag ends an output.  A bilinear cycle
has a flagged entry for each output, with the weight of the left one of its two samples; the entries
without a flag behind it stand for further samples to advance by.

This file reads the registers as the block does and says what one cycle makes of its samples.
-/

namespace ToonVpu
namespace Kernel

open Foundation
open Foundation.CInt
open Foundation.Logged
open ToonVpu.Stream (PrpConvert)

/-! ## Reading the registers -/

/-- An entry: the weight in eighths and the flag. -/
structure ScalerEntry where
  weight : ℕ
  flag : Bool
  deriving DecidableEq, Repr

namespace ScalerRegs

/-- Five weights of three bits, a gap of one bit, and five more; a weight of seven stands for eight. -/
def entry (r : ScalerRegs) (i : ℕ) : ScalerEntry :=
  let w := (if i < 10 then r.coef1 else r.coef2) / 2 ^ (3 * (i % 10) + i % 10 / 5) % 8
  ⟨if w = 7 then 8 else w, r.valid / 2 ^ i % 2 = 1⟩

/-- The number of entries of a cycle. -/
def length (r : ScalerRegs) : ℕ := r.valid / 2 ^ 24 % 32

def bilinear (r : ScalerRegs) : Bool := r.valid / 2 ^ 31 = 1

/-- The entries that the block repeats. -/
def cycle (r : ScalerRegs) : List ScalerEntry := (List.range r.length).map r.entry

end ScalerRegs

/-! ## Averaging -/

/-- The weights of the samples of each output, and those behind the last output. -/
def averaged : List ScalerEntry → List (List ℕ) × List ℕ
  | [] => ([], [])
  | e :: es =>
    let rest := averaged es
    if e.flag then ([e.weight] :: rest.1, rest.2)
    else
      match rest.1 with
      | [] => ([], e.weight :: rest.2)
      | g :: gs => ((e.weight :: g) :: gs, rest.2)

/-- `den` outputs take all `num` samples, each as many as any other or one more, with weights that
make up a whole. -/
structure Averages (es : List ScalerEntry) (num den : ℕ) : Prop where
  samples : es.length = num
  outputs : (averaged es).1.length = den
  complete : (averaged es).2 = []
  shared : ∀ g ∈ (averaged es).1, g.length = num / den ∨ g.length = num / den + 1
  whole : ∀ g ∈ (averaged es).1, g.sum = 8

/-! ## Interpolation -/

/-- An output: the weight of its left sample, and how far the next output's left sample is. -/
structure Tap where
  weight : ℕ
  advance : ℕ
  deriving DecidableEq, Repr

/-- The outputs of a cycle, and the number of entries in front of the first. -/
def taps : List ScalerEntry → List Tap × ℕ
  | [] => ([], 0)
  | e :: es =>
    let rest := taps es
    if e.flag then (⟨e.weight, rest.2 + 1⟩ :: rest.1, 0) else (rest.1, rest.2 + 1)

/-- The left sample of each output. -/
def leftSamples (ts : List Tap) : List ℕ := (ts.map Tap.advance).scanl (· + ·) 0

/-- Where the centre of the output `j` lies between the centres of its left sample `i` and the one
behind it: what is left to the latter, in parts of `2 * den`. -/
def leftShare (num den i j : ℕ) : ℤ := den * (2 * i + 3) - num * (2 * j + 1)

/-- The centre lies between the two samples, and the weight is the share of the left one up to half an
eighth; only the weight six stands for seven eighths as well. -/
structure TapFits (num den i j weight : ℕ) : Prop where
  between : 0 ≤ leftShare num den i j ∧ leftShare num den i j ≤ 2 * den
  close : |(2 * den * weight : ℤ) - 8 * leftShare num den i j| ≤ if weight = 6 then 3 * den else den

instance (num den i j weight : ℕ) : Decidable (TapFits num den i j weight) :=
  decidable_of_iff ((0 ≤ leftShare num den i j ∧ leftShare num den i j ≤ 2 * den) ∧
      |(2 * den * weight : ℤ) - 8 * leftShare num den i j| ≤ if weight = 6 then 3 * den else den)
    ⟨fun ⟨h1, h2⟩ => ⟨h1, h2⟩, fun ⟨h1, h2⟩ => ⟨h1, h2⟩⟩

/-- `den` outputs advance by `num` samples, and each lies where it belongs. -/
structure Interpolates (es : List ScalerEntry) (num den : ℕ) : Prop where
  outputs : (taps es).1.length = den
  aligned : (taps es).2 = 0
  advances : ((taps es).1.map Tap.advance).sum = num
  fits : ∀ j < den, TapFits num den ((leftSamples (taps es).1).getD j 0) j
    (((taps es).1.map Tap.weight).getD j 0)

/-! ## Every table is exact -/

instance (es : List ScalerEntry) (num den : ℕ) : Decidable (Averages es num den) :=
  decidable_of_iff (es.length = num ∧ (averaged es).1.length = den ∧ (averaged es).2 = [] ∧
      (∀ g ∈ (averaged es).1, g.length = num / den ∨ g.length = num / den + 1) ∧
      ∀ g ∈ (averaged es).1, g.sum = 8)
    ⟨fun ⟨h1, h2, h3, h4, h5⟩ => ⟨h1, h2, h3, h4, h5⟩,
      fun ⟨h1, h2, h3, h4, h5⟩ => ⟨h1, h2, h3, h4, h5⟩⟩

instance (es : List ScalerEntry) (num den : ℕ) : Decidable (Interpolates es num den) :=
  decidable_of_iff ((taps es).1.length = den ∧ (taps es).2 = 0 ∧
      ((taps es).1.map Tap.advance).sum = num ∧
      ∀ j < den, TapFits num den ((leftSamples (taps es).1).getD j 0) j
        (((taps es).1.map Tap.weight).getD j 0))
    ⟨fun ⟨h1, h2, h3, h4⟩ => ⟨h1, h2, h3, h4⟩, fun ⟨h1, h2, h3, h4⟩ => ⟨h1, h2, h3, h4⟩⟩

/-- The block turns `num` samples into `den` with these registers. -/
def ScalerRegs.Turns (r : ScalerRegs) (num den : ℕ) : Prop :=
  if r.bilinear then Interpolates r.cycle num den else Averages r.cycle num den

instance (r : ScalerRegs) (num den : ℕ) : Decidable (r.Turns num den) :=
  inferInstanceAs (Decidable (if r.bilinear then _ else _))

/-- The table that is built for a reduced ratio. -/
def builtScale (num den : ℕ) : Scale := (prpScaleBuild Scale.fresh num den).value.1

theorem built_turns_of_lt :
    ∀ num < 21, ∀ den < num, 0 < den → Nat.gcd num den = 1 →
      (prpSetScaler (builtScale num den)).Turns num den := by
  decide +kernel

theorem built_turns {num den : ℕ} (hden : 0 < den) (hle : den ≤ num) (hsmall : num ≤ prpMaxTbl)
    (hcop : Nat.Coprime num den) : (prpSetScaler (builtScale num den)).Turns num den := by
  rcases Nat.lt_or_eq_of_le hle with hlt | rfl
  · exact built_turns_of_lt num (Nat.lt_succ_of_le hsmall) den hlt hden hcop
  · have hone : den = 1 := (Nat.coprime_self den).mp hcop
    subst hone
    decide +kernel

/-! ## The table of a request -/

/-- A cycle of the registers, repeated as often as the ratio was reduced, takes `src` samples and gives
`dst`. -/
structure ScalerRegs.Resizes (r : ScalerRegs) (src dst : ℕ) : Prop where
  cycle : r.Turns (src / Nat.gcd src dst) (dst / Nat.gcd src dst)
  takes : Nat.gcd src dst * (src / Nat.gcd src dst) = src
  gives : Nat.gcd src dst * (dst / Nat.gcd src dst) = dst

section Requests

variable {src dst : ℕ}

/-- The table of the ratio of `src` to `dst`. -/
def scaleFor (src dst : ℕ) : Scale := builtScale (src / Nat.gcd src dst) (dst / Nat.gcd src dst)

theorem scaleFor_resizes (hdst : 0 < dst) (hle : dst ≤ src) (hfits : FitsTable src dst) :
    (prpSetScaler (scaleFor src dst)).Resizes src dst := by
  have hg : 0 < Nat.gcd src dst := Nat.gcd_pos_of_pos_right src hdst
  have hden : 0 < dst / Nat.gcd src dst :=
    Nat.div_pos (Nat.le_of_dvd hdst (Nat.gcd_dvd_right src dst)) hg
  exact ⟨built_turns hden (Nat.div_le_div_right hle) hfits (Nat.coprime_div_gcd_div_gcd hg),
    Nat.mul_div_cancel' (Nat.gcd_dvd_left src dst), Nat.mul_div_cancel' (Nat.gcd_dvd_right src dst)⟩

/-- The attempt at a size that fits builds the table of its ratio. -/
theorem prpAttempt_value (hdst : 0 < dst) (hle : dst ≤ src) (hsrc : src < 2147483648)
    (hfits : FitsTable src dst) :
    (prpAttempt Scale.fresh src dst).value.1 = scaleFor src dst := by
  have hpos : 0 < src := Nat.lt_of_lt_of_le hdst hle
  have hg : 0 < Nat.gcd src dst := Nat.gcd_pos_of_pos_left dst hpos
  have hratio := (gives_prpRatio hpos hdst hsrc (Nat.lt_of_le_of_lt hle hsrc)).1
  have hnum : 0 < src / Nat.gcd src dst :=
    Nat.div_pos (Nat.le_of_dvd hpos (Nat.gcd_dvd_left src dst)) hg
  have hnum0 : ¬ ((src / Nat.gcd src dst : ℕ) : ℤ) = 0 := by omega
  have hsmall : ¬ (20 : ℤ) < (src / Nat.gcd src dst : ℕ) := by
    unfold FitsTable prpMaxTbl at hfits
    omega
  unfold prpAttempt
  rw [value_bind, hratio]
  simp only [if_neg hnum0, if_neg hsmall]
  rw [value_bind]
  rfl

/-- The attempts end with the table of the first size that fits. -/
theorem prpAttempts_value (retry : ℕ) {t : Scale} {k : ℕ} (hdst : 0 < dst) (hle : dst ≤ src)
    (hsrc : src < 2147483648) (hfirst : FirstFit src dst k)
    (hrun : (prpAttempts src retry Scale.fresh dst).value = some t) :
    t = scaleFor src (dst + k) := by
  induction k generalizing dst retry with
  | zero =>
    have hvalue := prpAttempt_value hdst hle hsrc hfirst.1
    rcases gives_prpAttempt hdst hle hsrc with ⟨-, t', -, hbuilt⟩ | ⟨hnot, -⟩
    · rw [(gives_prpAttempts_built hbuilt).1] at hrun
      rw [hbuilt.1] at hvalue
      cases hrun
      exact hvalue
    · exact absurd hfirst.1 hnot
  | succ k ih =>
    have hnot : ¬ FitsTable src dst := hfirst.2 0 (Nat.succ_pos k)
    rcases gives_prpAttempt hdst hle hsrc with ⟨hfits, -⟩ | ⟨-, hretry⟩
    · exact absurd hfits hnot
    · have hlt := lt_of_not_fits hdst hle hnot
      cases retry with
      | zero =>
        rw [(gives_prpAttempts_last hretry (by omega) (by omega)).1] at hrun
        cases hrun
      | succ retry =>
        have hnext : ∀ j, dst + (j + 1) = dst + 1 + j := fun j => by omega
        have hfirst' : FirstFit src (dst + 1) k :=
          ⟨hnext k ▸ hfirst.1, fun j hj => hnext j ▸ hfirst.2 (j + 1) (Nat.succ_lt_succ hj)⟩
        have hint : (int ((dst : ℤ) + 1)).value = (dst + 1 : ℕ) :=
          (gives_int (by omega) (by omega)).1
        rw [prpAttempts, value_bind, hretry.1] at hrun
        simp only [value_bind, hint] at hrun
        rw [hnext]
        exact ih retry (Nat.succ_pos dst) hlt hfirst' hrun

/-- The table that `prp_scale` returns. -/
theorem prpScale_value {t : Scale} {outv k : ℕ} (hdst : 0 < dst) (hle : dst ≤ src)
    (hsrc : src < 2147483648) (hfirst : FirstFit src dst k)
    (hrun : (prpScale Scale.fresh src dst src).value = some (t, outv)) :
    t = scaleFor src (dst + k) := by
  unfold prpScale at hrun
  rw [if_neg (by omega), value_bind] at hrun
  cases htable : (prpAttempts src scaleRetry Scale.fresh dst).value with
  | none =>
    rw [htable] at hrun
    cases hrun
  | some t' =>
    rw [htable] at hrun
    have hsame : t' = t := congrArg Prod.fst (Option.some.inj hrun)
    rw [← hsame]
    exact prpAttempts_value scaleRetry hdst hle hsrc hfirst htable

variable {env : PrpEnv} {c : PrpConvert} {r : PrpRegs}

/-- Both tables of a request. -/
theorem prpTables_value {w h : Scale × ℕ} (hdown : Downscale c)
    (htables : (prpTables c).value = .ok (w, h)) :
    (prpScale Scale.fresh c.srcW c.dstW c.srcW).value = some w ∧
      (prpScale Scale.fresh c.srcH c.dstH c.srcH).value = some h := by
  obtain ⟨hsw, hsh, hdw, hdh⟩ := hdown
  unfold prpTables at htables
  rw [i32_natCast (by omega), i32_natCast (by omega), i32_natCast (by omega),
    i32_natCast (by omega), value_bind] at htables
  cases hw : (prpScale Scale.fresh c.srcW c.dstW c.srcW).value with
  | none =>
    rw [hw] at htables
    cases htables
  | some w' =>
    rw [hw] at htables
    simp only [value_bind] at htables
    cases hh : (prpScale Scale.fresh c.srcH c.dstH c.srcH).value with
    | none =>
      rw [hh] at htables
      cases htables
    | some h' =>
      rw [hh] at htables
      cases htables
      exact ⟨rfl, rfl⟩

end Requests

/-- **The resize registers of the PrP.** A request to make a picture smaller that is accepted programs
for each direction a cycle that takes the source and gives the first size from the requested one on
that fits a table: each output of an averaging cycle has the whole weight of its own samples, and each
output of a bilinear cycle lies between its two samples and weighs them as it lies. -/
theorem prp_registers_resize_exactly (env : PrpEnv) (c : PrpConvert) (r : PrpRegs)
    (hdown : Downscale c) (hstart : (prpConvert env c).value.1 = some r) :
    ∃ kw kh, FirstFit c.srcW c.dstW kw ∧ FirstFit c.srcH c.dstH kh ∧
      r.hori.Resizes c.srcW (c.dstW + kw) ∧ r.vert.Resizes c.srcH (c.dstH + kh) := by
  unfold prpConvert at hstart
  split at hstart
  · cases hstart
  split at hstart
  · cases hstart
  obtain ⟨w, h, htables, rfl⟩ := prpRun_started hstart
  obtain ⟨hw, hh⟩ := prpTables_value hdown htables
  obtain ⟨hsw, hsh, hdw, hdh⟩ := hdown
  rcases prpTables_downscale ⟨hsw, hsh, hdw, hdh⟩ with
    ⟨kw, kh, tw, th, hfirst, hbelow, hfirst', hbelow', hvalue, -⟩ | ⟨hvalue, -⟩
  · have htw := prpScale_value (t := w.1) (by omega) hdw.2 (by omega) hfirst hw
    have hth := prpScale_value (t := h.1) (by omega) hdh.2 (by omega) hfirst' hh
    refine ⟨kw, kh, hfirst, hfirst', ?_, ?_⟩
    · have hhori : (prpProgram c w h).value.hori = prpSetScaler w.1 := rfl
      rw [hhori, htw]
      exact scaleFor_resizes (by omega) hbelow hfirst.1
    · have hvert : (prpProgram c w h).value.vert = prpSetScaler h.1 := rfl
      rw [hvert, hth]
      exact scaleFor_resizes (by omega) hbelow' hfirst'.1
  · rw [htables] at hvalue
    cases hvalue

/-- 640x480 pixels to 427x360: no table has 427 columns, the first that fits has 440. -/
def toThirds : PrpConvert := ⟨0x1000000, 640, 480, 640, 0x2000000, 427, 360, 854, 16, 0⟩

theorem prp_registers_resize_exactly_thirds :
    ∃ r, (prpConvert readyPrp toThirds).value.1 = some r ∧
      ∃ kw kh, FirstFit toThirds.srcW toThirds.dstW kw ∧ FirstFit toThirds.srcH toThirds.dstH kh ∧
        r.hori.Resizes toThirds.srcW (toThirds.dstW + kw) ∧
        r.vert.Resizes toThirds.srcH (toThirds.dstH + kh) := by
  have hstarted : (prpConvert readyPrp toThirds).value.1.isSome = true := by
    decide +kernel
  obtain ⟨r, hr⟩ := Option.isSome_iff_exists.mp hstarted
  exact ⟨r, hr, prp_registers_resize_exactly readyPrp toThirds r
    ⟨by decide, by decide, by decide, by decide⟩ hr⟩

end Kernel
end ToonVpu
