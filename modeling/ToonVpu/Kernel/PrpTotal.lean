import ToonVpu.Kernel.PrpConvert

/-!
# PrpTotal — when `prp_scale` is defined (`kernel/mxc_vpu.c`)

The sizes of a request are unsigned and become `int`s, so that sizes of 2^31 and more are negative.
Only lower bounds are checked.  With a negative output size the greatest common divisor has the sign
of the last remainder, and the reduced ratio has mixed signs or does not fit an `int`.  This module
says which of the seventeen attempts go wrong.
-/

namespace ToonVpu
namespace Kernel

open Foundation
open Foundation.CInt
open Foundation.Logged
open ToonVpu.Stream (PrpConvert)

/-! ## Ratios with a negative output size -/

/-- A source and an output size as they come from a request, the output size negative and not above
the source. -/
structure NegativeSize (s d : ℤ) : Prop where
  src_ne : s ≠ 0
  src_lt : s < 2147483648
  dst_neg : d < 0
  dst_le : d ≤ s
  dst_ge : -2147483648 ≤ d

/-- Source and output size divided by the last remainder. -/
def reducedSrc (s d : ℤ) : ℤ := s.tdiv (lastRemainder s d)

def reducedDst (s d : ℤ) : ℤ := d.tdiv (lastRemainder s d)

theorem reducedSrc_mul (s d : ℤ) : reducedSrc s d * lastRemainder s d = s :=
  Int.tdiv_mul_cancel (lastRemainder_dvd_left s d)

theorem reducedDst_mul (s d : ℤ) : reducedDst s d * lastRemainder s d = d :=
  Int.tdiv_mul_cancel (lastRemainder_dvd_right s d)

section Ratio

variable {s d : ℤ}

theorem prpGcd_eq (hle : d ≤ s) : prpGcd s d = loop d gcdStep intValues (s, d) := by
  unfold prpGcd
  rw [if_neg (Int.not_lt.mpr hle)]

theorem NegativeSize.gcd_value (h : NegativeSize s d) : (prpGcd s d).value = lastRemainder s d := by
  have hneg := h.dst_neg
  have hge := h.dst_ge
  rw [prpGcd_eq h.dst_le]
  exact gcd_loop_value intValues d (by omega) (by unfold intValues; omega)

/-- The one remainder that is none is taken where the smallest output size meets the source `-1`. -/
theorem NegativeSize.gcd_sound (h : NegativeSize s d) (hover : ¬ (d = -2147483648 ∧ s = -1)) :
    Sound (prpGcd s d) := by
  obtain ⟨hsne, hslt, hneg, hle, hge⟩ := h
  rw [prpGcd_eq hle]
  rcases Int.lt_or_le (-2147483648) d with hlt | hmin
  · exact gcd_loop_sound intValues d (by omega) (by unfold intValues; omega) (by omega) (by omega)
      hslt (by omega)
  · have hd : d = -2147483648 := by omega
    subst hd
    have hquot := (tdiv_fits_iff hle hslt (by decide : (-2147483648 : ℤ) ≠ 0)).mpr (by omega)
    have hround : Sound (gcdStep (s, -2147483648)) :=
      sound_gcdStep.mpr (sound_rem.mpr ⟨by decide, hquot⟩)
    have hfuel : intValues = 4294967295 + 1 := rfl
    rw [hfuel, loop, sound_bind]
    refine ⟨hround, ?_⟩
    rcases Int.lt_or_le (-2147483648) s with hslow | hsmin
    · -- The source is the first remainder.
      have hk : s.tmod (-2147483648) = s := by
        rw [Int.tmod_neg]
        rcases Int.le_total 0 s with hs | hs
        · exact Int.tmod_eq_of_lt hs hslt
        · have hneg' : (-s).tmod 2147483648 = -s := Int.tmod_eq_of_lt (by omega) (by omega)
          rw [Int.neg_tmod] at hneg'
          omega
      rw [gcdStep_value_next (by rw [hk]; exact hsne), hk]
      exact gcd_loop_sound 4294967295 _ hsne (by omega) (by omega) (by decide) (by decide)
        (by omega)
    · have hs : s = -2147483648 := by omega
      subst hs
      rw [gcdStep_value_done (by decide)]
      exact sound_pure _

theorem NegativeSize.dst_ne (h : NegativeSize s d) : d ≠ 0 := by
  have hneg := h.dst_neg
  omega

theorem NegativeSize.ratio_eq (h : NegativeSize s d) :
    prpRatio s d = prpGcd s d >>= fun g => quot d g >>= fun den => quot s g >>= fun num =>
      pure (num, den) := by
  unfold prpRatio
  rw [if_neg (not_or.mpr ⟨h.src_ne, h.dst_ne⟩)]

/-- The one quotient that is none. -/
def QuotientFits (s d : ℤ) : Prop := ¬ (d = -2147483648 ∧ lastRemainder s d = -1)

theorem NegativeSize.sound_ratio (h : NegativeSize s d) :
    Sound (prpRatio s d) ↔ QuotientFits s d := by
  have hne := lastRemainder_ne_zero (x := s) h.dst_ne
  have hge := h.dst_ge
  have hle := h.dst_le
  have hslt := h.src_lt
  have hden : Sound (quot d (lastRemainder s d)) ↔ QuotientFits s d := by
    rw [sound_quot, tdiv_fits_iff hge (by have := h.dst_neg; omega) hne]
    exact and_iff_right hne
  rw [h.ratio_eq, sound_bind, sound_bind, sound_bind, h.gcd_value, hden]
  constructor
  · exact fun hs => hs.2.1
  · intro hfits
    refine ⟨h.gcd_sound ?_, hfits, ?_, sound_pure _⟩
    · rintro ⟨hd, hs⟩
      have hdvd := lastRemainder_dvd_left s d
      have hneg : lastRemainder s d < 0 := lastRemainder_neg (by omega) (by omega)
      rw [hs, Int.dvd_neg] at hdvd
      have hone := Int.le_of_dvd (by decide) ((Int.neg_dvd).mpr hdvd)
      rw [hs] at hneg
      refine hfits ⟨hd, ?_⟩
      rw [hs]
      omega
    · refine sound_quot.mpr ⟨hne, (tdiv_fits_iff (by omega) hslt hne).mpr ?_⟩
      rintro ⟨hs, hone⟩
      exact hfits ⟨by omega, hone⟩

theorem NegativeSize.gives_ratio (h : NegativeSize s d) (hfits : QuotientFits s d) :
    Gives (prpRatio s d) (reducedSrc s d, reducedDst s d) := by
  have hsound := h.sound_ratio.mpr hfits
  refine ⟨?_, hsound⟩
  rw [h.ratio_eq] at hsound ⊢
  rw [sound_bind, sound_bind, sound_bind, h.gcd_value] at hsound
  rw [value_bind, value_bind, value_bind, h.gcd_value, value_quot hsound.2.1,
    value_quot hsound.2.2.1]
  rfl

/-- The sizes are equal: the ratio is one. -/
theorem NegativeSize.reduced_self (h : NegativeSize s s) :
    reducedSrc s s = 1 ∧ reducedDst s s = 1 := by
  have hself : lastRemainder s s = s := lastRemainder_of_dvd h.dst_ne (Int.dvd_refl s)
  have hone : s.tdiv s = 1 := Int.tdiv_self h.dst_ne
  unfold reducedSrc reducedDst
  rw [hself]
  exact ⟨hone, hone⟩

/-- A negative divisor turns the ratio around, into one that makes the picture larger. -/
theorem NegativeSize.reduced_upscale (h : NegativeSize s d) (hne : s ≠ d)
    (hg : lastRemainder s d < 0) : 0 < reducedDst s d ∧ reducedSrc s d < reducedDst s d := by
  have hsrc := reducedSrc_mul s d
  have hdst := reducedDst_mul s d
  have hle := h.dst_le
  have hneg := h.dst_neg
  constructor
  · by_contra hnot
    have hprod : 0 ≤ reducedDst s d * lastRemainder s d :=
      Int.mul_nonneg_of_nonpos_of_nonpos (by omega) (by omega)
    omega
  · by_contra hnot
    have hprod : reducedSrc s d * lastRemainder s d ≤ reducedDst s d * lastRemainder s d :=
      Int.mul_le_mul_of_nonpos_right (by omega) (by omega)
    omega

/-- A positive divisor leaves a ratio of mixed signs with a remainder. -/
theorem NegativeSize.reduced_mixed (h : NegativeSize s d) (hg : 0 < lastRemainder s d) :
    0 < reducedSrc s d ∧ reducedDst s d < 0 ∧ ¬ reducedDst s d ∣ reducedSrc s d := by
  have hsrc := reducedSrc_mul s d
  have hdst := reducedDst_mul s d
  have hneg := h.dst_neg
  have hspos : 0 < s := by
    by_contra hnot
    have hsneg := lastRemainder_neg (x := s) (y := d) (by have := h.src_ne; omega) (by omega)
    omega
  refine ⟨?_, ?_, ?_⟩
  · by_contra hnot
    have hprod := Int.mul_nonpos_of_nonpos_of_nonneg (Int.not_lt.mp hnot) (Int.le_of_lt hg)
    omega
  · by_contra hnot
    have hprod := Int.mul_nonneg (Int.not_lt.mp hnot) (Int.le_of_lt hg)
    omega
  · -- Otherwise the output size itself would be the last remainder.
    intro hdvd
    have hall : d ∣ s := by
      rw [← hsrc]
      nth_rewrite 1 [← hdst]
      exact Int.mul_dvd_mul_right _ hdvd
    have hlast := lastRemainder_of_dvd h.dst_ne hall
    omega

end Ratio

/-! ## Building such a ratio -/

section Build

variable {t : Scale} {inv outv : ℤ}

/-- The table of the ratio one. -/
def unitScale : Scale := (prpScaleBuild Scale.fresh 1 1).value.1

theorem gives_build_unit (t : Scale) : Gives (prpScaleBuild t 1 1) (unitScale, true) := by
  have hchoice : ∀ algo, Gives (chooseAlgo algo 1 1) .avg := by
    intro algo
    cases algo <;> exact ⟨rfl, by decide⟩
  have hentry : Gives (prpScaleAve ⟨zeroTbl, 0, .avg, zeroTbl.set 0 1⟩ 1) (unitScale, true) :=
    ⟨rfl, by decide⟩
  exact (hchoice t.algo).bind hentry

theorem chooseAlgo_ne_auto (algo : ScaleAlgo) (inv outv : ℤ) :
    (chooseAlgo algo inv outv).value ≠ .auto := by
  unfold chooseAlgo
  rw [value_bind]
  have hchoice : ∀ algo' : ScaleAlgo, algo' ≠ .auto →
      (if inv = outv ∧ algo' = .bil then ScaleAlgo.avg else algo') ≠ .auto := by
    intro algo' hne
    split
    · exact ScaleAlgo.noConfusion
    · exact hne
  apply hchoice
  split
  · split
    · rw [value_bind]
      show (if _ then ScaleAlgo.bil else ScaleAlgo.avg) ≠ .auto
      split <;> exact ScaleAlgo.noConfusion
    · exact ScaleAlgo.noConfusion
  · assumption

/-- Only the automatic choice doubles the output size. -/
theorem sound_chooseAlgo {algo : ScaleAlgo} (hne : outv ≠ inv) :
    Sound (chooseAlgo algo inv outv) ↔ (algo = .auto → Sound (int (2 * outv))) := by
  unfold chooseAlgo
  rw [sound_bind]
  by_cases hauto : algo = .auto
  · rw [if_pos hauto, if_pos hne, sound_bind]
    exact ⟨fun h _ => h.1.1, fun h => ⟨⟨h hauto, sound_pure _⟩, sound_pure _⟩⟩
  · rw [if_neg hauto]
    exact ⟨fun _ h => absurd h hauto, fun _ => ⟨sound_pure _, sound_pure _⟩⟩

/-- A larger output is refused, but the algorithm is chosen. -/
theorem build_upscale (hlt : inv < outv) :
    (Sound (prpScaleBuild t inv outv) ↔ (t.algo = .auto → Sound (int (2 * outv)))) ∧
      (prpScaleBuild t inv outv).value.2 = false ∧
      (prpScaleBuild t inv outv).value.1.algo ≠ .auto := by
  unfold prpScaleBuild
  rw [sound_bind, value_bind, if_neg (by omega), if_pos hlt, sound_chooseAlgo (by omega)]
  exact ⟨and_iff_left (sound_pure _), rfl, chooseAlgo_ne_auto t.algo inv outv⟩

/-- The index of the first count that is raised is negative. -/
theorem not_sound_prpAveScale (hinv : 0 < inv) (hout : outv < 0) (hdvd : ¬ outv ∣ inv) :
    ¬ Sound (prpAveScale t inv outv) := by
  intro hsound
  have hrem : 0 < inv.tmod outv := by
    have hnonneg : 0 ≤ inv.tmod outv := Int.tmod_nonneg outv (Int.le_of_lt hinv)
    have hne : inv.tmod outv ≠ 0 := mt Int.dvd_of_tmod_eq_zero hdvd
    omega
  unfold prpAveScale at hsound
  rw [if_pos (by omega), sound_bind, sound_bind] at hsound
  have hraise := (sound_bind.mp hsound.2.2).1
  have hvalue : (rem inv outv).value = inv.tmod outv := rfl
  rw [hvalue, if_pos (by omega), sound_bind] at hraise
  obtain ⟨hdiff, hrest⟩ := hraise
  rw [value_int hdiff, sound_bind] at hrest
  obtain ⟨hsum, hloop⟩ := hrest
  have hfuel : intValues = 4294967295 + 1 := rfl
  rw [value_int hsum, hfuel, loop, sound_bind] at hloop
  have hround := hloop.1
  have hbefore : (outv - inv.tmod outv) / 2 < inv.tmod outv + (outv - inv.tmod outv) / 2 := by
    omega
  simp only [raiseCounts, if_pos hbefore, readChar, sound_bind, sound_access] at hround
  have hindex := hround.1.1.1
  omega

/-- Dropping a negative size only ends by an overflow. -/
theorem not_sound_ppDrop_loop (hout : outv < 0) (out : ℤ × ℤ) (fuel : ℕ) {v : ℤ} (hv : 0 ≤ v)
    (nxt : ℤ) : ¬ Sound (loop out (ppDrop outv) fuel (v, nxt)) := by
  induction fuel generalizing v nxt with
  | zero =>
    intro hsound
    exact hsound .endless (List.mem_singleton_self _)
  | succ fuel ih =>
    intro hsound
    rw [loop, sound_bind] at hsound
    obtain ⟨hround, hrest⟩ := hsound
    have hle : outv ≤ v := by omega
    simp only [ppDrop, if_pos hle, sound_bind] at hround
    obtain ⟨hdiff, hcount, -⟩ := hround
    have hvalue : (ppDrop outv (v, nxt)).value = .inl (v - outv, nxt + 1) := by
      simp only [ppDrop, if_pos hle, value_bind, value_int hdiff, value_int hcount]
      rfl
    rw [hvalue] at hrest
    exact ih (by omega) _ hrest

theorem not_sound_prpBuildBilinear (hinv : 0 < inv) (hout : outv < 0) :
    ¬ Sound (prpBuildBilinear t inv outv) := by
  intro hsound
  unfold prpBuildBilinear at hsound
  rw [sound_bind] at hsound
  obtain ⟨htwice, hrest⟩ := hsound
  rw [value_int htwice, if_pos (by omega), sound_bind] at hrest
  obtain ⟨hcoeff, hloop⟩ := hrest
  rw [value_int hcoeff, loop, sound_bind] at hloop
  have hround := hloop.1
  unfold prpHalve at hround
  rw [sound_bind] at hround
  obtain ⟨hsum, hdrop⟩ := hround
  rw [value_int hsum, sound_bind] at hdrop
  exact not_sound_ppDrop_loop hout _ intValues (by omega) 2 hdrop.1

/-- A ratio of mixed signs cannot be built, whatever the algorithm. -/
theorem not_sound_build_mixed (hinv : 0 < inv) (hout : outv < 0) (hdvd : ¬ outv ∣ inv) :
    ¬ Sound (prpScaleBuild t inv outv) := by
  intro hsound
  unfold prpScaleBuild at hsound
  rw [sound_bind, if_neg (by omega), if_neg (by omega)] at hsound
  by_cases hbil : (chooseAlgo t.algo inv outv).value = .bil
  · rw [if_neg (not_not.mpr hbil)] at hsound
    exact not_sound_prpBuildBilinear hinv hout hsound.2
  · rw [if_pos hbil] at hsound
    exact not_sound_prpAveScale hinv hout hdvd hsound.2

end Build

/-! ## Attempts -/

/-- One attempt at a negative output size goes well; `auto` says that no algorithm was chosen before
it. -/
structure AttemptSafe (s d : ℤ) (auto : Prop) : Prop where
  quotient : QuotientFits s d
  /-- A ratio of mixed signs is too long to be built. -/
  sign : lastRemainder s d < 0 ∨ 20 < reducedSrc s d
  /-- Twice the reduced output size is an `int`, where it is computed. -/
  twice : auto → reducedSrc s d ≤ 20 → reducedDst s d < 1073741824

section Attempts

variable {s d num den : ℤ} {t : Scale}

theorem prpAttempt_of_ratio (hratio : Gives (prpRatio s d) (num, den)) (hnum : num ≠ 0) :
    (Sound (prpAttempt t s d) ↔ (num ≤ 20 → Sound (prpScaleBuild t num den))) ∧
      (prpAttempt t s d).value = if 20 < num then (t, .retry) else
        ((prpScaleBuild t num den).value.1,
          if (prpScaleBuild t num den).value.2 then .built else .retry) := by
  unfold prpAttempt
  rw [sound_bind, value_bind, hratio.1]
  simp only [if_neg hnum]
  by_cases hlong : 20 < num
  · rw [if_pos hlong, if_pos hlong]
    exact ⟨⟨fun _ h => absurd hlong (Int.not_lt.mpr h), fun _ => ⟨hratio.2, sound_pure _⟩⟩, rfl⟩
  · rw [if_neg hlong, if_neg hlong, sound_bind]
    exact ⟨⟨fun h _ => h.2.1, fun h => ⟨hratio.2, h (Int.not_lt.mp hlong), sound_pure _⟩⟩, rfl⟩

theorem NegativeSize.reducedSrc_ne (h : NegativeSize s d) : reducedSrc s d ≠ 0 := by
  intro hzero
  have hprod := reducedSrc_mul s d
  rw [hzero, Int.zero_mul] at hprod
  exact h.src_ne hprod.symm

theorem NegativeSize.lastRemainder_cases (h : NegativeSize s d) :
    lastRemainder s d < 0 ∨ 0 < lastRemainder s d := by
  have hne := lastRemainder_ne_zero (x := s) h.dst_ne
  omega

/-- An attempt is defined exactly when nothing of `AttemptSafe` is violated. -/
theorem NegativeSize.sound_attempt (h : NegativeSize s d) :
    Sound (prpAttempt t s d) ↔ AttemptSafe s d (t.algo = .auto) := by
  by_cases hfits : QuotientFits s d
  · obtain ⟨hsound, -⟩ := prpAttempt_of_ratio (t := t) (h.gives_ratio hfits) h.reducedSrc_ne
    rw [hsound]
    rcases h.lastRemainder_cases with hg | hg
    · by_cases hself : s = d
      · subst hself
        obtain ⟨hone, hone'⟩ := h.reduced_self
        rw [hone, hone']
        refine ⟨fun _ => ⟨hfits, .inl hg, fun _ _ => ?_⟩, fun _ _ => (gives_build_unit t).2⟩
        rw [hone']
        decide
      · obtain ⟨hpos, hlt⟩ := h.reduced_upscale hself hg
        rw [(build_upscale hlt).1, sound_int]
        constructor
        · intro hbuild
          refine ⟨hfits, .inl hg, fun hauto hshort => ?_⟩
          have htwice := (hbuild hshort hauto).2
          omega
        · intro hsafe hshort hauto
          have htwice := hsafe.twice hauto hshort
          omega
    · obtain ⟨hnum, hden, hdvd⟩ := h.reduced_mixed hg
      constructor
      · intro hbuild
        have hlong : 20 < reducedSrc s d := by
          by_contra hshort
          exact not_sound_build_mixed hnum hden hdvd (hbuild (Int.not_lt.mp hshort))
        exact ⟨hfits, .inr hlong, fun _ hshort => absurd hlong (Int.not_lt.mpr hshort)⟩
      · intro hsafe hshort
        rcases hsafe.sign with hneg | hlong
        · exact absurd hneg (Int.not_lt.mpr (Int.le_of_lt hg))
        · exact absurd hlong (Int.not_lt.mpr hshort)
  · refine iff_of_false ?_ (fun hsafe => hfits hsafe.quotient)
    unfold prpAttempt
    rw [sound_bind]
    exact fun hsound => hfits (h.sound_ratio.mp hsound.1)

/-- Equal sizes are built. -/
theorem NegativeSize.attempt_self (h : NegativeSize s s)
    (hsafe : AttemptSafe s s (t.algo = .auto)) :
    (prpAttempt t s s).value = (unitScale, .built) := by
  obtain ⟨-, hvalue⟩ := prpAttempt_of_ratio (t := t) (h.gives_ratio hsafe.quotient) h.reducedSrc_ne
  obtain ⟨hone, hone'⟩ := h.reduced_self
  rw [hvalue, hone, hone', (gives_build_unit t).1]
  rfl

/-- Other sizes are not, and only a ratio that is too long leaves the algorithm open. -/
theorem NegativeSize.attempt_retry (h : NegativeSize s d) (hne : s ≠ d)
    (hsafe : AttemptSafe s d (t.algo = .auto)) :
    (prpAttempt t s d).value.2 = .retry ∧
      ((prpAttempt t s d).value.1.algo = .auto ↔ t.algo = .auto ∧ 20 < reducedSrc s d) := by
  obtain ⟨-, hvalue⟩ := prpAttempt_of_ratio (t := t) (h.gives_ratio hsafe.quotient) h.reducedSrc_ne
  rw [hvalue]
  by_cases hlong : 20 < reducedSrc s d
  · rw [if_pos hlong]
    exact ⟨rfl, (and_iff_left hlong).symm⟩
  · have hg : lastRemainder s d < 0 := hsafe.sign.resolve_right hlong
    obtain ⟨-, hrefused, hchosen⟩ := build_upscale (t := t) (h.reduced_upscale hne hg).2
    rw [if_neg hlong, hrefused]
    exact ⟨rfl, iff_of_false hchosen (fun hboth => hlong hboth.2)⟩

end Attempts

/-- The attempts at `d` and up to `retry` larger sizes go well. -/
def AttemptsSafe (s : ℤ) (retry : ℕ) (auto : Prop) (d : ℤ) : Prop :=
  ∀ k : ℕ, k ≤ retry → d + k < 0 → d + k ≤ s →
    AttemptSafe s (d + k) (auto ∧ ∀ j : ℕ, j < k → 20 < reducedSrc s (d + j))

section Rounds

variable {s d : ℤ} {t : Scale} {retry : ℕ} {auto : Prop}

theorem AttemptsSafe.head (h : AttemptsSafe s retry auto d) (hneg : d < 0) (hle : d ≤ s) :
    AttemptSafe s d auto := by
  have hfirst := h 0 (Nat.zero_le _)
  rw [Int.natCast_zero, Int.add_zero] at hfirst
  have hauto : (auto ∧ ∀ j : ℕ, j < 0 → 20 < reducedSrc s (d + j)) ↔ auto :=
    and_iff_left (fun j hj => absurd hj (Nat.not_lt_zero j))
  rw [hauto] at hfirst
  exact hfirst hneg hle

/-- The first attempt and the others. -/
theorem attemptsSafe_succ (hneg : d < 0) (hle : d ≤ s) :
    AttemptsSafe s (retry + 1) auto d ↔
      AttemptSafe s d auto ∧ AttemptsSafe s retry (auto ∧ 20 < reducedSrc s d) (d + 1) := by
  have hshift : ∀ k : ℕ, d + 1 + k = d + (k + 1 : ℕ) := fun k => by omega
  have hauto : ∀ k : ℕ, ((auto ∧ 20 < reducedSrc s d) ∧
      ∀ j : ℕ, j < k → 20 < reducedSrc s (d + 1 + j)) ↔
      (auto ∧ ∀ j : ℕ, j < k + 1 → 20 < reducedSrc s (d + j)) := by
    intro k
    constructor
    · rintro ⟨⟨ha, hzero⟩, hrest⟩
      refine ⟨ha, fun j hj => ?_⟩
      cases j with
      | zero => rwa [Int.natCast_zero, Int.add_zero]
      | succ j =>
        rw [← hshift]
        exact hrest j (Nat.lt_of_succ_lt_succ hj)
    · rintro ⟨ha, hall⟩
      refine ⟨⟨ha, ?_⟩, fun j hj => ?_⟩
      · have hzero := hall 0 (Nat.succ_pos k)
        rwa [Int.natCast_zero, Int.add_zero] at hzero
      · rw [hshift]
        exact hall (j + 1) (Nat.succ_lt_succ hj)
  constructor
  · intro h
    refine ⟨h.head hneg hle, fun k hk hkneg hkle => ?_⟩
    rw [hauto, hshift]
    rw [hshift] at hkneg hkle
    exact h (k + 1) (Nat.succ_le_succ hk) hkneg hkle
  · rintro ⟨hfirst, hrest⟩ k hk hkneg hkle
    cases k with
    | zero =>
      rw [Int.natCast_zero, Int.add_zero]
      exact ⟨hfirst.quotient, hfirst.sign, fun ha => hfirst.twice ha.1⟩
    | succ k =>
      rw [← hshift, ← hauto]
      rw [← hshift] at hkneg hkle
      exact hrest k (Nat.le_of_succ_le_succ hk) hkneg hkle

/-- An output size of zero is refused. -/
theorem gives_prpAttempts_zero (s : ℤ) (retry : ℕ) (t : Scale) :
    Gives (prpAttempts s retry t 0) none := by
  have hattempt : Gives (prpAttempt t s 0) (t, .refused) := by
    unfold prpAttempt prpRatio
    rw [if_pos (.inr rfl)]
    exact Yields.bind (Yields.pure _) (Yields.pure _)
  unfold prpAttempts
  exact hattempt.bind (Yields.pure _)

/-- What attempts at negative sizes find: the table for the ratio one, where the size of a negative
source is reached. -/
def negativeTable (s d : ℤ) (retry : ℕ) : Option Scale :=
  if s < 0 ∧ s ≤ d + retry then some unitScale else none

theorem sound_attempt_of_attempts (h : Sound (prpAttempts s retry t d)) :
    Sound (prpAttempt t s d) := by
  unfold prpAttempts at h
  exact (sound_bind.mp h).1

/-- A round that is not the last, and one that is. -/
theorem prpAttempts_retry (retry : ℕ) (hretry : (prpAttempt t s d).value.2 = .retry)
    (hnext : Sound (int (d + 1))) :
    (Sound (prpAttempts s (retry + 1) t d) ↔
        Sound (prpAttempt t s d) ∧ Sound (prpAttempts s retry (prpAttempt t s d).value.1 (d + 1))) ∧
      (prpAttempts s (retry + 1) t d).value =
        (prpAttempts s retry (prpAttempt t s d).value.1 (d + 1)).value := by
  rw [prpAttempts, sound_bind, value_bind]
  simp only [hretry, sound_bind, value_bind, value_int hnext]
  exact ⟨and_congr_right fun _ => and_iff_right hnext, trivial⟩

theorem prpAttempts_last (hretry : (prpAttempt t s d).value.2 = .retry)
    (hnext : Sound (int (d + 1))) :
    (Sound (prpAttempts s 0 t d) ↔ Sound (prpAttempt t s d)) ∧
      (prpAttempts s 0 t d).value = none := by
  rw [prpAttempts, sound_bind, value_bind]
  simp only [hretry, sound_bind, value_bind]
  exact ⟨and_iff_left ⟨hnext, sound_pure _⟩, rfl⟩

/-- The attempt at the source size itself always goes well. -/
theorem NegativeSize.safe_self (h : NegativeSize s s) : AttemptSafe s s auto := by
  have hself : lastRemainder s s = s := lastRemainder_of_dvd h.dst_ne (Int.dvd_refl s)
  have hneg := h.dst_neg
  refine ⟨?_, .inl (by omega), fun _ _ => ?_⟩
  · rintro ⟨hmin, hone⟩
    omega
  · rw [h.reduced_self.2]
    decide

/-- The attempts from `d` on are defined exactly when all of them are safe, and find the table of
`negativeTable`. -/
structure AttemptsSpec (s d : ℤ) (retry : ℕ) (t : Scale) : Prop where
  sound : Sound (prpAttempts s retry t d) ↔ AttemptsSafe s retry (t.algo = .auto) d
  value : Sound (prpAttempts s retry t d) →
    (prpAttempts s retry t d).value = negativeTable s d retry

theorem NegativeSize.attempts_self (h : NegativeSize s s) (retry : ℕ) (t : Scale) :
    AttemptsSpec s s retry t := by
  have hsafe : AttemptSafe s s (t.algo = .auto) := h.safe_self
  have htable : negativeTable s s retry = some unitScale := if_pos ⟨h.dst_neg, by omega⟩
  have hrun : Gives (prpAttempts s retry t s) (some unitScale) :=
    gives_prpAttempts_built ⟨h.attempt_self hsafe, h.sound_attempt.mpr hsafe⟩
  refine ⟨iff_of_true hrun.2 ?_, fun _ => hrun.1.trans htable.symm⟩
  intro k _ _ hle
  have hzero : k = 0 := by omega
  subst hzero
  rw [Int.natCast_zero, Int.add_zero]
  exact h.safe_self

theorem NegativeSize.attempts_fail (h : NegativeSize s d) (retry : ℕ)
    (hfails : ¬ AttemptSafe s d (t.algo = .auto)) : AttemptsSpec s d retry t := by
  have hunsound : ¬ Sound (prpAttempts s retry t d) :=
    fun hsound => hfails (h.sound_attempt.mp (sound_attempt_of_attempts hsound))
  exact ⟨iff_of_false hunsound (fun hall => hfails (hall.head h.dst_neg h.dst_le)),
    fun hsound => absurd hsound hunsound⟩

/-- Attempts from a negative size on. -/
theorem NegativeSize.attempts (h : NegativeSize s d) (retry : ℕ) (t : Scale) :
    AttemptsSpec s d retry t := by
  -- The size grows; at the source size the ratio is one, and zero is refused.
  induction retry generalizing t d with
  | zero =>
    rcases eq_or_ne s d with rfl | hne
    · exact h.attempts_self 0 t
    by_cases hsafe : AttemptSafe s d (t.algo = .auto)
    · have hneg := h.dst_neg
      have hge := h.dst_ge
      have hle := h.dst_le
      have hnone : negativeTable s d 0 = none := if_neg (by omega)
      obtain ⟨hsound, hvalue⟩ := prpAttempts_last (h.attempt_retry hne hsafe).1
        (sound_int.mpr ⟨by omega, by omega⟩)
      refine ⟨iff_of_true (hsound.mpr (h.sound_attempt.mpr hsafe)) ?_, fun _ => ?_⟩
      · intro k hk _ _
        rw [Nat.le_zero.mp hk, Int.natCast_zero, Int.add_zero]
        exact ⟨hsafe.quotient, hsafe.sign, fun hauto => hsafe.twice hauto.1⟩
      · rw [hvalue, hnone]
    · exact h.attempts_fail 0 hsafe
  | succ retry ih =>
    rcases eq_or_ne s d with rfl | hne
    · exact h.attempts_self (retry + 1) t
    by_cases hsafe : AttemptSafe s d (t.algo = .auto)
    · have hneg := h.dst_neg
      have hge := h.dst_ge
      have hle := h.dst_le
      obtain ⟨hretry, halgo⟩ := h.attempt_retry hne hsafe
      obtain ⟨hsound, hvalue⟩ := prpAttempts_retry retry hretry
        (sound_int.mpr ⟨by omega, by omega⟩)
      have htable : negativeTable s d (retry + 1) = negativeTable s (d + 1) retry := by
        unfold negativeTable
        have hsum : d + (retry + 1 : ℕ) = d + 1 + retry := by omega
        rw [hsum]
      have hrest : AttemptsSpec s (d + 1) retry (prpAttempt t s d).value.1 := by
        rcases Int.lt_or_eq_of_le (Int.add_one_le_iff.mpr hneg) with hbelow | hzero
        · exact ih ⟨h.src_ne, h.src_lt, hbelow, by omega, by omega⟩ _
        · have hrefused := gives_prpAttempts_zero s retry (prpAttempt t s d).value.1
          have hnone : negativeTable s 0 retry = none := if_neg (by omega)
          rw [hzero]
          exact ⟨iff_of_true hrefused.2 (fun k _ hk => by omega),
            fun _ => hrefused.1.trans hnone.symm⟩
      refine ⟨?_, fun hs => ?_⟩
      · rw [hsound, attemptsSafe_succ hneg hle, h.sound_attempt, hrest.sound, halgo]
      · rw [hvalue, htable, hrest.value (hsound.mp hs).2]
    · exact h.attempts_fail (retry + 1) hsafe

end Rounds

/-! ## One direction -/

/-- All attempts of a call of `prp_scale` go well.  This says nothing about sizes that are positive
and output sizes above the source. -/
def PrpDefined (s d : ℤ) : Prop := AttemptsSafe s scaleRetry True d

/-- A call of `prp_scale` that is defined finds a table. -/
def PrpAccepts (s d : ℤ) : Prop :=
  d ≤ s ∧
    (0 < d ∧ (∃ k ≤ scaleRetry, FitsTable s.toNat (d.toNat + k)) ∨ s < 0 ∧ s ≤ d + scaleRetry)

/-- The length of a table that is returned. -/
def LengthOk (r : Option (Scale × ℕ)) : Prop := ∀ x ∈ r, 1 ≤ x.1.len ∧ x.1.len ≤ prpMaxTbl

section Direction

variable {s d : ℤ}

theorem prpDefined_of_pos (h : 0 < d ∨ s < d) : PrpDefined s d := by
  intro k _ hneg hle
  omega

/-- The output size that the ratio one gives is computed without an overflow. -/
theorem gives_prpOutput_unit (hl : -2147483648 ≤ s) (hu : s < 2147483648) :
    ∃ outv, Gives (prpOutput unitScale s) outv := by
  have halgo : unitScale.algo ≠ .bil := by decide
  obtain ⟨hvalue, hsound⟩ := buildable_one.2.2.2.2 halgo
  have hsum : Gives (loop (0, 0) (sumRatio unitScale) intValues (0, 0)) (1, 1) := ⟨hvalue, hsound⟩
  have hquot : Gives (quot s ((1 : ℕ) : ℤ)) s := by
    have hone : s.tdiv ((1 : ℕ) : ℤ) = s := Int.tdiv_one s
    refine (gives_quot (by decide) ?_ ?_).of_eq hone <;> rwa [hone]
  have hrem : Gives (rem s ((1 : ℕ) : ℤ)) 0 := by
    have hone : s.tdiv ((1 : ℕ) : ℤ) = s := Int.tdiv_one s
    refine (gives_rem (by decide) ?_ ?_).of_eq (Int.tmod_one s) <;> rwa [hone]
  have hprod : Gives (int (s % 65536 * ((1 : ℕ) : ℤ))) (s % 65536) :=
    (gives_int (by omega) (by omega)).of_eq (by omega)
  have hrest : ∀ n, Gives (loop 0 (aveRest unitScale) intValues (0, 0, n)) n :=
    fun n => gives_loop_done 4294967295 (Yields.pure _)
  unfold prpOutput
  rw [if_neg halgo]
  exact ⟨_, hsum.bind (hquot.bind (hprod.bind (hrem.bind (hrest _))))⟩

/-- What is known of a call of `prp_scale` in one direction. -/
structure DirectionSpec (s d : ℤ) : Prop where
  sound : Sound (prpScale Scale.fresh s d s) ↔ PrpDefined s d
  accepts : Sound (prpScale Scale.fresh s d s) →
    ((prpScale Scale.fresh s d s).value.isSome ↔ PrpAccepts s d)
  length : Sound (prpScale Scale.fresh s d s) → LengthOk (prpScale Scale.fresh s d s).value

theorem DirectionSpec.of_none (hrun : Gives (prpScale Scale.fresh s d s) none)
    (hdefined : PrpDefined s d) (hrefused : ¬ PrpAccepts s d) : DirectionSpec s d := by
  refine ⟨iff_of_true hrun.2 hdefined, fun _ => ?_, fun _ => ?_⟩
  · rw [hrun.1]
    exact iff_of_false Bool.false_ne_true hrefused
  · rw [hrun.1]
    exact fun _ h => absurd h (Option.not_mem_none _)

theorem DirectionSpec.of_some {t : Scale} {n : ℕ}
    (hrun : Gives (prpScale Scale.fresh s d s) (some (t, n))) (hlen : 1 ≤ t.len ∧ t.len ≤ prpMaxTbl)
    (hdefined : PrpDefined s d) (haccepts : PrpAccepts s d) : DirectionSpec s d := by
  refine ⟨iff_of_true hrun.2 hdefined, fun _ => ?_, fun _ => ?_⟩
  · rw [hrun.1]
    exact iff_of_true rfl haccepts
  · rw [hrun.1]
    intro x hx
    rw [← Option.some.inj hx]
    exact hlen

theorem directionSpec_positive {src dst : ℕ} (hdst : 0 < dst) (hle : dst ≤ src)
    (hsrc : src < 2147483648) : DirectionSpec src dst := by
  have hdefined : PrpDefined src dst := prpDefined_of_pos (.inl (by omega))
  rcases gives_prpScale src dst hdst hle hsrc with
    ⟨k, hk, hfirst, -, t, outv, hlen, -, hrun⟩ | ⟨hnone, hrun⟩
  · exact .of_some hrun hlen hdefined ⟨by omega, .inl ⟨by omega, k, hk, hfirst.1⟩⟩
  · refine .of_none hrun hdefined ?_
    rintro ⟨-, ⟨-, k, hk, hfits⟩ | ⟨hneg, -⟩⟩
    · exact hnone k hk hfits
    · omega

/-- Without the test in front of it, the conversion is the attempts and the table. -/
theorem prpScale_of_le (hle : d ≤ s) :
    prpScale Scale.fresh s d s = prpAttempts s scaleRetry Scale.fresh d >>= fun r =>
      match r with
      | none => pure none
      | some t => prpOutput t s >>= fun outv => pure (some (t, outv)) := by
  unfold prpScale
  exact if_neg (Int.not_lt.mpr hle)

theorem NegativeSize.directionSpec (h : NegativeSize s d) : DirectionSpec s d := by
  have hneg := h.dst_neg
  have hattempts := h.attempts scaleRetry Scale.fresh
  have hdefined : Sound (prpAttempts s scaleRetry Scale.fresh d) ↔ PrpDefined s d := by
    rw [hattempts.sound, PrpDefined, eq_true (show Scale.fresh.algo = .auto from rfl)]
  have hrun := prpScale_of_le h.dst_le
  by_cases hsound : Sound (prpAttempts s scaleRetry Scale.fresh d)
  · have hvalue := hattempts.value hsound
    by_cases hreached : s < 0 ∧ s ≤ d + scaleRetry
    · have hle := h.dst_le
      have hge := h.dst_ge
      obtain ⟨outv, hout⟩ := gives_prpOutput_unit (s := s) (by omega) h.src_lt
      have htable : negativeTable s d scaleRetry = some unitScale := if_pos hreached
      refine .of_some (t := unitScale) (n := outv) ?_ (by decide) (hdefined.mp hsound)
        ⟨hle, .inr hreached⟩
      rw [hrun]
      exact Yields.bind ⟨hvalue.trans htable, hsound⟩ (hout.bind (Yields.pure _))
    · have htable : negativeTable s d scaleRetry = none := if_neg hreached
      refine .of_none ?_ (hdefined.mp hsound) ?_
      · rw [hrun]
        exact Yields.bind ⟨hvalue.trans htable, hsound⟩ (Yields.pure _)
      · rintro ⟨-, ⟨hpos, -⟩ | hall⟩
        · omega
        · exact hreached hall
  · have hunsound : ¬ Sound (prpScale Scale.fresh s d s) := by
      rw [hrun, sound_bind]
      exact fun hs => hsound hs.1
    exact ⟨iff_of_false hunsound (mt hdefined.mpr hsound), fun hs => absurd hs hunsound,
      fun hs => absurd hs hunsound⟩

/-- Every pair of sizes that are `int`s and not zero. -/
theorem directionSpec (hs : s ≠ 0) (hs' : s < 2147483648) (hd : d ≠ 0) (hd' : -2147483648 ≤ d) :
    DirectionSpec s d := by
  rcases Int.lt_or_le s d with hlt | hle
  · refine .of_none ?_ (prpDefined_of_pos (.inr hlt)) (fun haccepts => ?_)
    · unfold prpScale
      rw [if_pos hlt]
      exact Yields.pure none
    · exact absurd hlt (Int.not_lt.mpr haccepts.1)
  · rcases Int.lt_or_le d 0 with hneg | hnonneg
    · exact NegativeSize.directionSpec ⟨hs, hs', hneg, hle, hd'⟩
    · obtain ⟨dst, rfl⟩ := Int.eq_ofNat_of_zero_le hnonneg
      obtain ⟨src, rfl⟩ := Int.eq_ofNat_of_zero_le (hnonneg.trans hle)
      exact directionSpec_positive (by omega) (by omega) (by omega)

end Direction

/-! ## Requests -/

/-- The tables of a request are built without undefined behaviour, and those that are returned have
1 to 20 entries. -/
structure TablesTotal (c : PrpConvert) : Prop where
  sound : Sound (prpTables c)
  length : ∀ w h, (prpTables c).value = .ok (w, h) →
    (1 ≤ w.1.len ∧ w.1.len ≤ prpMaxTbl) ∧ (1 ≤ h.1.len ∧ h.1.len ≤ prpMaxTbl)

/-- The fields are `u32`s. -/
structure GeometryInRange (c : PrpConvert) : Prop where
  srcW : c.srcW < 4294967296
  srcH : c.srcH < 4294967296
  dstW : c.dstW < 4294967296
  dstH : c.dstH < 4294967296

section Requests

variable {c : PrpConvert}

theorem i32_ne_zero {n : ℕ} (hpos : 0 < n) (hn : n < 4294967296) : i32 n ≠ 0 := by
  unfold i32
  omega

theorem i32_bounds (x : ℤ) : -2147483648 ≤ i32 x ∧ i32 x < 2147483648 := by
  unfold i32
  omega

/-- Both directions, the second only where the first has a table. -/
theorem sound_prpTables (hw : DirectionSpec (i32 c.srcW) (i32 c.dstW))
    (hh : DirectionSpec (i32 c.srcH) (i32 c.dstH)) :
    Sound (prpTables c) ↔ PrpDefined (i32 c.srcW) (i32 c.dstW) ∧
      (PrpAccepts (i32 c.srcW) (i32 c.dstW) → PrpDefined (i32 c.srcH) (i32 c.dstH)) := by
  unfold prpTables
  rw [sound_bind, ← hw.sound, ← hh.sound]
  refine and_congr_right fun hsound => ?_
  rw [← hw.accepts hsound]
  cases hvalue : (prpScale Scale.fresh (i32 c.srcW) (i32 c.dstW) (i32 c.srcW)).value with
  | none => exact iff_of_true (sound_pure _) (fun h => absurd h Bool.false_ne_true)
  | some w =>
    rw [sound_bind]
    constructor
    · exact fun h _ => h.1
    · intro h
      refine ⟨h rfl, ?_⟩
      split <;> exact sound_pure _

/-- Where both directions are defined, the tables that are returned come from them. -/
theorem gives_prpTables (hw : DirectionSpec (i32 c.srcW) (i32 c.dstW))
    (hh : DirectionSpec (i32 c.srcH) (i32 c.dstH))
    (hdefined : PrpDefined (i32 c.srcW) (i32 c.dstW) ∧
      (PrpAccepts (i32 c.srcW) (i32 c.dstW) → PrpDefined (i32 c.srcH) (i32 c.dstH))) :
    ∃ r, Gives (prpTables c) r ∧ ∀ w h, r = .ok (w, h) →
      (1 ≤ w.1.len ∧ w.1.len ≤ prpMaxTbl) ∧ (1 ≤ h.1.len ∧ h.1.len ≤ prpMaxTbl) := by
  have hsound := hw.sound.mpr hdefined.1
  have haccepts := hw.accepts hsound
  have hlength := hw.length hsound
  have hrunW : Gives (prpScale Scale.fresh (i32 c.srcW) (i32 c.dstW) (i32 c.srcW)) _ :=
    ⟨rfl, hsound⟩
  revert hrunW haccepts hlength
  generalize (prpScale Scale.fresh (i32 c.srcW) (i32 c.dstW) (i32 c.srcW)).value = rw
  intro haccepts hlength hrunW
  cases rw with
  | none =>
    refine ⟨.error eInvalid, hrunW.bind (Yields.pure _), fun w h hok => ?_⟩
    cases hok
  | some w =>
    have hsound' := hh.sound.mpr (hdefined.2 (haccepts.mp rfl))
    have hlength' := hh.length hsound'
    have hrunH : Gives (prpScale Scale.fresh (i32 c.srcH) (i32 c.dstH) (i32 c.srcH)) _ :=
      ⟨rfl, hsound'⟩
    revert hrunH hlength'
    generalize (prpScale Scale.fresh (i32 c.srcH) (i32 c.dstH) (i32 c.srcH)).value = rh
    intro hlength' hrunH
    cases rh with
    | none =>
      refine ⟨.error eInvalid, hrunW.bind (hrunH.bind (Yields.pure _)), fun w h hok => ?_⟩
      cases hok
    | some h =>
      refine ⟨.ok (w, h), hrunW.bind (hrunH.bind (Yields.pure _)), fun w' h' hok => ?_⟩
      cases hok
      exact ⟨hlength w rfl, hlength' h rfl⟩

end Requests

/-- **The tables of the PrP.** For a request that passes the size checks the tables are built
without undefined behaviour exactly when each direction that is tried is `PrpDefined`; then they have
1 to 20 entries. -/
theorem prp_tables_total_iff (c : PrpConvert) (hrange : GeometryInRange c) (hsizes : PrpSizesOk c) :
    TablesTotal c ↔ PrpDefined (i32 c.srcW) (i32 c.dstW) ∧
      (PrpAccepts (i32 c.srcW) (i32 c.dstW) → PrpDefined (i32 c.srcH) (i32 c.dstH)) := by
  obtain ⟨hsw, hsh, hdw, hdh⟩ := hsizes
  have hw : DirectionSpec (i32 c.srcW) (i32 c.dstW) :=
    directionSpec (i32_ne_zero (by omega) hrange.srcW) (i32_bounds _).2
      (i32_ne_zero (by omega) hrange.dstW) (i32_bounds _).1
  have hh : DirectionSpec (i32 c.srcH) (i32 c.dstH) :=
    directionSpec (i32_ne_zero (by omega) hrange.srcH) (i32_bounds _).2
      (i32_ne_zero (by omega) hrange.dstH) (i32_bounds _).1
  constructor
  · exact fun htotal => (sound_prpTables hw hh).mp htotal.sound
  · intro hdefined
    obtain ⟨r, ⟨hvalue, hsound⟩, hlength⟩ := gives_prpTables hw hh hdefined
    exact ⟨hsound, fun w h hok => hlength w h (hvalue.symm.trans hok)⟩

theorem prp_tables_total_half : TablesTotal toHalf := by
  refine (prp_tables_total_iff toHalf ?_ ?_).mpr ⟨?_, fun _ => ?_⟩
  · exact ⟨by decide, by decide, by decide, by decide⟩
  · exact ⟨by decide, by decide, by decide, by decide⟩
  · exact prpDefined_of_pos (.inl (by decide))
  · exact prpDefined_of_pos (.inl (by decide))

/-- A width of 100 pixels to one of 2^32 - 30. -/
def toNegative : PrpConvert := ⟨0x1000000, 100, 480, 100, 0x2000000, 4294967266, 240, 640, 16, 0⟩

/-- The ratio is 10 to -3: `a[-2]` is raised, and the sum that the width is divided by is zero. -/
theorem prp_tables_undefined :
    GeometryInRange toNegative ∧ PrpSizesOk toNegative ∧ ¬ TablesTotal toNegative := by
  refine ⟨⟨by decide, by decide, by decide, by decide⟩, by decide, fun htotal => ?_⟩
  have hunsound : ¬ Sound (prpTables toNegative) := by
    decide +kernel
  exact hunsound htotal.sound

end Kernel
end ToonVpu
