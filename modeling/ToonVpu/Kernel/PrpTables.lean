import ToonVpu.Foundation.Euclid
import ToonVpu.Kernel.PpTables
import ToonVpu.Kernel.PrpScale

/-!
# PrpTables — the tables that `prp_scale` finds (`kernel/mxc_vpu.c`)

A table has twenty entries, so only finitely many reduced ratios come to be built, and each of them is
built.  For positive sizes an attempt therefore succeeds exactly when the reduced source is at most
20, and `prp_scale` takes the first such output size.
-/

namespace ToonVpu
namespace Kernel

open Foundation
open Foundation.CInt
open Foundation.Logged

/-! ## Every reduced ratio is built -/

/-- A table for `num` inputs and `den` outputs, as the computation of the output size reads it. -/
def TableFor (num den : ℕ) (t : Scale) : Prop :=
  (1 ≤ t.len ∧ t.len ≤ prpMaxTbl) ∧
    (t.algo = .bil → t.ratio.getD 0 0 = num ∧ t.ratio.getD 1 0 = den) ∧
    (t.algo ≠ .bil → (loop (0, 0) (sumRatio t) intValues (0, 0)).value = (num, den) ∧
      Sound (loop (0, 0) (sumRatio t) intValues (0, 0)))

instance (num den : ℕ) (t : Scale) : Decidable (TableFor num den t) :=
  inferInstanceAs (Decidable (_ ∧ _ ∧ _))

/-- The ratio is built soundly from a fresh table. -/
def Buildable (num den : ℕ) : Prop :=
  Sound (prpScaleBuild Scale.fresh num den) ∧ (prpScaleBuild Scale.fresh num den).value.2 = true ∧
    TableFor num den (prpScaleBuild Scale.fresh num den).value.1

instance (num den : ℕ) : Decidable (Buildable num den) :=
  inferInstanceAs (Decidable (_ ∧ _ ∧ _))

/-- The ratios below one that fit are finitely many. -/
theorem buildable_of_lt :
    ∀ num < 21, ∀ den < num, 0 < den → Nat.gcd num den = 1 → Buildable num den := by
  decide +kernel

theorem buildable_one : Buildable 1 1 := by
  decide +kernel

theorem buildable {num den : ℕ} (hden : 0 < den) (hle : den ≤ num) (hsmall : num ≤ prpMaxTbl)
    (hcop : Nat.Coprime num den) : Buildable num den := by
  rcases Nat.lt_or_eq_of_le hle with hlt | heq
  · exact buildable_of_lt num (Nat.lt_succ_of_le hsmall) den hlt hden hcop
  · subst heq
    have hone : den = 1 := (Nat.coprime_self den).mp hcop
    rw [hone]
    exact buildable_one

/-! ## The output size -/

section Output

variable {t : Scale} {num den g : ℕ}

/-- A table for a reduced ratio gives the size that was reduced; nothing is left over. -/
theorem gives_prpOutput (h : TableFor num den t) (hnum : 0 < num) (hnum' : num ≤ prpMaxTbl)
    (hden : den ≤ num) (hfit : g * num < 2147483648) :
    ∃ outv, (g < 65536 → outv = g * den % 65536) ∧ Gives (prpOutput t (g * num : ℕ)) outv := by
  have hg : g ≤ g * num := Nat.le_mul_of_pos_right g hnum
  have hquot : Gives (quot (g * num : ℕ) num) g :=
    (gives_quot_nat hnum hfit).of_eq (by rw [Nat.mul_div_cancel _ hnum])
  have hrem : Gives (rem (g * num : ℕ) num) 0 :=
    (gives_rem_nat hnum hfit).of_eq (by rw [Nat.mul_mod_left]; rfl)
  have hread : ∀ i : ℤ, 0 ≤ i → i < 20 → Gives (readChar t.ratio i) (t.ratio.getD i.toNat 0) :=
    fun i hl hu => (gives_access hl hu).bind (Yields.pure _)
  unfold prpOutput
  -- A bilinear table holds its ratio in two entries; an averaging one is summed up.
  by_cases hbil : t.algo = .bil
  · obtain ⟨hr0, hr1⟩ := h.2.1 hbil
    have hmul : g * den ≤ g * num := Nat.mul_le_mul_left g hden
    have hp : Gives (int ((g : ℤ) * den)) (g * den : ℕ) :=
      (gives_int (by rw [← Int.natCast_mul]; omega) (by rw [← Int.natCast_mul]; omega)).of_eq
        (Int.natCast_mul _ _).symm
    have hrest : Gives (loop 0 (bilRest t) intValues (0, 0, 0)) 0 :=
      gives_loop_done 4294967295 (Yields.pure _)
    refine ⟨((((g * den : ℕ) : ℤ) % 65536).toNat + 0) % 65536, fun _ => by omega, ?_⟩
    rw [if_pos hbil]
    refine ((hread 0 (by decide) (by decide)).of_eq hr0).bind ?_
    refine ((hread 1 (by decide) (by decide)).of_eq hr1).bind ?_
    exact hquot.bind (hp.bind (hrem.bind (hrest.bind (Yields.pure _))))
  · obtain ⟨hsum, hsound⟩ := h.2.2 hbil
    have hbound : g % 65536 * den ≤ 65535 * 20 := Nat.mul_le_mul (by omega) (hden.trans hnum')
    have hcast : (g : ℤ) % 65536 * den = (g % 65536 * den : ℕ) := by
      push_cast
      rfl
    have hp : Gives (int ((g : ℤ) % 65536 * den)) (g % 65536 * den : ℕ) :=
      (gives_int (by omega) (by omega)).of_eq hcast
    have hrest : Gives (loop 0 (aveRest t) intValues
        (0, 0, (((g % 65536 * den : ℕ) : ℤ) % 65536).toNat))
        (((g % 65536 * den : ℕ) : ℤ) % 65536).toNat :=
      gives_loop_done 4294967295 (Yields.pure _)
    refine ⟨(((g % 65536 * den : ℕ) : ℤ) % 65536).toNat, fun hlt => ?_, ?_⟩
    · rw [Nat.mod_eq_of_lt hlt]
      omega
    · rw [if_neg hbil]
      have hloop : Gives (loop (0, 0) (sumRatio t) intValues (0, 0)) (num, den) := ⟨hsum, hsound⟩
      exact hloop.bind (hquot.bind (hp.bind (hrem.bind hrest)))

end Output

/-! ## The greatest common divisor -/

section Gcd

variable {x y : ℤ}

theorem gcdStep_value_next (h : x.tmod y ≠ 0) : (gcdStep (x, y)).value = .inl (y, x.tmod y) := by
  unfold gcdStep
  rw [value_bind]
  exact congrArg Logged.value (if_pos h)

theorem gcdStep_value_done (h : x.tmod y = 0) : (gcdStep (x, y)).value = .inr y := by
  unfold gcdStep
  rw [value_bind]
  exact congrArg Logged.value (if_neg (not_not.mpr h))

theorem sound_gcdStep : Sound (gcdStep (x, y)) ↔ Sound (rem x y) := by
  unfold gcdStep
  rw [sound_bind]
  split <;> simp [sound_pure]

theorem gcd_loop_value (fuel : ℕ) (out : ℤ) (hy : y ≠ 0) (hfuel : y.natAbs ≤ fuel) :
    (loop out gcdStep fuel (x, y)).value = lastRemainder x y := by
  induction fuel generalizing x y with
  | zero => exact absurd hfuel (by omega)
  | succ fuel ih =>
    rw [loop, value_bind, lastRemainder_step hy]
    by_cases hk : x.tmod y = 0
    · rw [gcdStep_value_done hk, hk, lastRemainder_zero]
      rfl
    · rw [gcdStep_value_next hk]
      have hlt := natAbs_tmod_lt (x := x) hy
      exact ih hk (by omega)

/-- The remainders are smaller than any `int`, so that only the first step can overflow. -/
theorem gcd_loop_sound (fuel : ℕ) (out : ℤ) (hy : y ≠ 0) (hfuel : y.natAbs ≤ fuel)
    (hy' : y.natAbs < 2147483648) (hl : -2147483648 ≤ x) (hu : x < 2147483648)
    (hover : ¬ (x = -2147483648 ∧ y = -1)) : Sound (loop out gcdStep fuel (x, y)) := by
  induction fuel generalizing x y with
  | zero => exact absurd hfuel (by omega)
  | succ fuel ih =>
    have hround : Sound (gcdStep (x, y)) :=
      sound_gcdStep.mpr (sound_rem.mpr ⟨hy, (tdiv_fits_iff hl hu hy).mpr hover⟩)
    rw [loop, sound_bind]
    refine ⟨hround, ?_⟩
    by_cases hk : x.tmod y = 0
    · rw [gcdStep_value_done hk]
      exact sound_pure _
    · rw [gcdStep_value_next hk]
      have hlt := natAbs_tmod_lt (x := x) hy
      exact ih hk (by omega) (by omega) (by omega) (by omega) (by omega)

end Gcd

/-! ## Positive sizes -/

/-- The reduced source fits a table. -/
def FitsTable (src dst : ℕ) : Prop := src / Nat.gcd src dst ≤ prpMaxTbl

/-- `k` more than the requested size is the first that fits. -/
def FirstFit (src dst k : ℕ) : Prop :=
  FitsTable src (dst + k) ∧ ∀ j < k, ¬ FitsTable src (dst + j)

section Positive

variable {src dst : ℕ}

theorem gives_prpGcd (hsrc : 0 < src) (hdst : 0 < dst) (hsrc' : src < 2147483648)
    (hdst' : dst < 2147483648) : Gives (prpGcd src dst) (Nat.gcd src dst) := by
  have hloop : ∀ (x y : ℕ) (out : ℤ), 0 < y → x < 2147483648 → y < 2147483648 →
      Gives (loop out gcdStep intValues ((x : ℤ), (y : ℤ))) (Nat.gcd x y) := by
    intro x y out hy hx hy'
    have hfuel : (y : ℤ).natAbs ≤ intValues := by
      unfold intValues
      omega
    refine ⟨?_, gcd_loop_sound intValues out (by omega) hfuel (by omega) (by omega) (by omega)
      (by omega)⟩
    rw [gcd_loop_value intValues out (by omega) hfuel, lastRemainder_natCast]
  unfold prpGcd
  by_cases hlt : (src : ℤ) < dst
  · rw [if_pos hlt, Nat.gcd_comm]
    exact hloop dst src _ hsrc hdst' hsrc'
  · rw [if_neg hlt]
    exact hloop src dst _ hdst hsrc' hdst'

theorem gives_prpRatio (hsrc : 0 < src) (hdst : 0 < dst) (hsrc' : src < 2147483648)
    (hdst' : dst < 2147483648) :
    Gives (prpRatio src dst) (((src / Nat.gcd src dst : ℕ) : ℤ), ((dst / Nat.gcd src dst : ℕ) : ℤ)) := by
  have hg : 0 < Nat.gcd src dst := Nat.gcd_pos_of_pos_left dst hsrc
  unfold prpRatio
  rw [if_neg (by omega)]
  refine (gives_prpGcd hsrc hdst hsrc' hdst').bind ?_
  exact (gives_quot_nat hg hdst').bind ((gives_quot_nat hg hsrc').bind (Yields.pure _))

/-- One attempt with positive sizes: it is built where it fits, and else nothing happened. -/
theorem gives_prpAttempt (hdst : 0 < dst) (hle : dst ≤ src) (hsrc : src < 2147483648) :
    (FitsTable src dst ∧ ∃ t, TableFor (src / Nat.gcd src dst) (dst / Nat.gcd src dst) t ∧
      Gives (prpAttempt Scale.fresh src dst) (t, .built)) ∨
    (¬ FitsTable src dst ∧ Gives (prpAttempt Scale.fresh src dst) (Scale.fresh, .retry)) := by
  have hpos : 0 < src := Nat.lt_of_lt_of_le hdst hle
  have hg : 0 < Nat.gcd src dst := Nat.gcd_pos_of_pos_left dst hpos
  have hratio := gives_prpRatio hpos hdst hsrc (Nat.lt_of_le_of_lt hle hsrc)
  have hnum : 0 < src / Nat.gcd src dst :=
    Nat.div_pos (Nat.le_of_dvd hpos (Nat.gcd_dvd_left src dst)) hg
  have hden : 0 < dst / Nat.gcd src dst :=
    Nat.div_pos (Nat.le_of_dvd hdst (Nat.gcd_dvd_right src dst)) hg
  have hnum0 : ¬ ((src / Nat.gcd src dst : ℕ) : ℤ) = 0 := by omega
  unfold FitsTable
  rcases Nat.lt_or_ge prpMaxTbl (src / Nat.gcd src dst) with hlong | hfits
  · refine .inr ⟨Nat.not_le.mpr hlong, hratio.bind ?_⟩
    have hbig : (20 : ℤ) < (src / Nat.gcd src dst : ℕ) := by
      unfold prpMaxTbl at hlong
      omega
    simp only [if_neg hnum0, if_pos hbig]
    exact Yields.pure _
  · obtain ⟨hsound, hok, htable⟩ := buildable hden (Nat.div_le_div_right hle) hfits
      (Nat.coprime_div_gcd_div_gcd hg)
    refine .inl ⟨hfits, _, htable, hratio.bind ?_⟩
    have hsmall : ¬ (20 : ℤ) < (src / Nat.gcd src dst : ℕ) := by
      unfold prpMaxTbl at hfits
      omega
    simp only [if_neg hnum0, if_neg hsmall]
    refine Yields.bind ⟨rfl, hsound⟩ ?_
    simp only [hok, if_true]
    exact Yields.pure _

section Rounds

variable {din dout : ℤ} {retry : ℕ} {t t' : Scale} {r : Option Scale}

theorem gives_prpAttempts_built (h : Gives (prpAttempt t din dout) (t', .built)) :
    Gives (prpAttempts din retry t dout) (some t') := by
  unfold prpAttempts
  refine h.bind ?_
  exact Yields.pure _

theorem gives_prpAttempts_next (h : Gives (prpAttempt t din dout) (t', .retry))
    (hl : -2147483648 ≤ dout + 1) (hu : dout + 1 < 2147483648)
    (hrest : Gives (prpAttempts din retry t' (dout + 1)) r) :
    Gives (prpAttempts din (retry + 1) t dout) r := by
  rw [prpAttempts]
  refine h.bind ?_
  exact (gives_int hl hu).bind hrest

theorem gives_prpAttempts_last (h : Gives (prpAttempt t din dout) (t', .retry))
    (hl : -2147483648 ≤ dout + 1) (hu : dout + 1 < 2147483648) :
    Gives (prpAttempts din 0 t dout) none := by
  rw [prpAttempts]
  refine h.bind ?_
  exact (gives_int hl hu).bind (Yields.pure _)

end Rounds

/-- The full size always fits. -/
theorem fitsTable_self (hsrc : 0 < src) : FitsTable src src := by
  unfold FitsTable
  rw [Nat.gcd_self, Nat.div_self hsrc]
  decide

/-- A size that does not fit is below the source, so that the next is not above it. -/
theorem lt_of_not_fits (hdst : 0 < dst) (hle : dst ≤ src) (hnot : ¬ FitsTable src dst) :
    dst < src := by
  rcases Nat.lt_or_eq_of_le hle with h | h
  · exact h
  · subst h
    exact absurd (fitsTable_self hdst) hnot

/-- The attempts with positive sizes end at the first that fits. -/
theorem gives_prpAttempts (retry : ℕ) (hdst : 0 < dst) (hle : dst ≤ src) (hsrc : src < 2147483648) :
    (∃ k ≤ retry, FirstFit src dst k ∧ dst + k ≤ src ∧ ∃ t,
      TableFor (src / Nat.gcd src (dst + k)) ((dst + k) / Nat.gcd src (dst + k)) t ∧
      Gives (prpAttempts src retry Scale.fresh dst) (some t)) ∨
    ((∀ k ≤ retry, ¬ FitsTable src (dst + k)) ∧
      Gives (prpAttempts src retry Scale.fresh dst) none) := by
  induction retry generalizing dst with
  | zero =>
    rcases gives_prpAttempt hdst hle hsrc with ⟨hfits, t, htable, hrun⟩ | ⟨hnot, hrun⟩
    · exact .inl ⟨0, Nat.le_refl 0, ⟨hfits, fun j hj => absurd hj (Nat.not_lt_zero j)⟩, hle, t,
        htable, gives_prpAttempts_built hrun⟩
    · have hlt := lt_of_not_fits hdst hle hnot
      refine .inr ⟨?_, gives_prpAttempts_last hrun (by omega) (by omega)⟩
      intro k hk
      rwa [Nat.le_zero.mp hk]
  | succ retry ih =>
    rcases gives_prpAttempt hdst hle hsrc with ⟨hfits, t, htable, hrun⟩ | ⟨hnot, hrun⟩
    · exact .inl ⟨0, Nat.zero_le _, ⟨hfits, fun j hj => absurd hj (Nat.not_lt_zero j)⟩, hle, t,
        htable, gives_prpAttempts_built hrun⟩
    · have hlt := lt_of_not_fits hdst hle hnot
      have hnext : ∀ k, dst + 1 + k = dst + (k + 1) := fun k => by omega
      rcases ih (Nat.succ_pos dst) hlt with
        ⟨k, hk, ⟨hfits, hfirst⟩, hbelow, t, htable, hrest⟩ | ⟨hnone, hrest⟩
      · refine .inl ⟨k + 1, Nat.succ_le_succ hk, ⟨?_, ?_⟩, by omega, t, ?_, ?_⟩
        · rwa [← hnext]
        · intro j hj
          cases j with
          | zero => exact hnot
          | succ j =>
            rw [← hnext]
            exact hfirst j (Nat.lt_of_succ_lt_succ hj)
        · rwa [← hnext]
        · exact gives_prpAttempts_next hrun (by omega) (by omega) hrest
      · refine .inr ⟨?_, gives_prpAttempts_next hrun (by omega) (by omega) hrest⟩
        intro k hk
        cases k with
        | zero => exact hnot
        | succ k =>
          rw [← hnext]
          exact hnone k (Nat.le_of_succ_le_succ hk)

/-- **Positive sizes.** The table is for the first size that fits, and the output has that size; where
none of the seventeen fits the call fails. -/
theorem gives_prpScale (src dst : ℕ) (hdst : 0 < dst) (hle : dst ≤ src) (hsrc : src < 2147483648) :
    (∃ k ≤ scaleRetry, FirstFit src dst k ∧ dst + k ≤ src ∧ ∃ t outv,
      (1 ≤ t.len ∧ t.len ≤ prpMaxTbl) ∧ (src < 65536 → outv = dst + k) ∧
      Gives (prpScale Scale.fresh src dst src) (some (t, outv))) ∨
    ((∀ k ≤ scaleRetry, ¬ FitsTable src (dst + k)) ∧
      Gives (prpScale Scale.fresh src dst src) none) := by
  have hpos : 0 < src := Nat.lt_of_lt_of_le hdst hle
  unfold prpScale
  rw [if_neg (by omega)]
  rcases gives_prpAttempts scaleRetry hdst hle hsrc with
    ⟨k, hk, hfirst, hbelow, t, htable, hrun⟩ | ⟨hnone, hrun⟩
  · left
    have hg : 0 < Nat.gcd src (dst + k) := Nat.gcd_pos_of_pos_left _ hpos
    have hs := Nat.mul_div_cancel' (Nat.gcd_dvd_left src (dst + k))
    have hd := Nat.mul_div_cancel' (Nat.gcd_dvd_right src (dst + k))
    have hnum : 0 < src / Nat.gcd src (dst + k) :=
      Nat.div_pos (Nat.le_of_dvd hpos (Nat.gcd_dvd_left src (dst + k))) hg
    obtain ⟨outv, hout, hrunOut⟩ := gives_prpOutput (g := Nat.gcd src (dst + k)) htable hnum
      hfirst.1 (Nat.div_le_div_right hbelow) (by rw [hs]; exact hsrc)
    rw [hs] at hrunOut
    rw [hd] at hout
    refine ⟨k, hk, hfirst, hbelow, t, outv, htable.1, fun hsmall => ?_, ?_⟩
    · have hgle : Nat.gcd src (dst + k) ≤ src := Nat.gcd_le_left _ hpos
      rw [hout (by omega), Nat.mod_eq_of_lt (by omega)]
    · refine hrun.bind ?_
      exact hrunOut.bind (Yields.pure _)
  · refine .inr ⟨hnone, hrun.bind ?_⟩
    exact Yields.pure _

end Positive

end Kernel
end ToonVpu
