import ToonVpu.Kernel.PpResize

/-!
# PpTables — what `pp_build_resize` accepts and builds (`kernel/mxc_vpu.c`)

The two segments of a table are found through `PP_RESIZE_INDEX`, which has the last entry of the
horizontal segment and the first and last entry of the vertical one.  For sizes of sixteen bits the
table is built exactly when the PP can do both ratios and their entries fit, and then each segment,
repeated as often as the ratio was reduced, takes the source and gives the destination.
-/

namespace ToonVpu
namespace Kernel

open Foundation
open Foundation.CInt
open Foundation.Logged

/-! ## Reading the table -/

/-- The entries that the PP repeats for a row. -/
def Resize.horizontal (r : Resize) : List ℕ := r.tbl.take (r.index / 65536 % 256 + 1)

/-- The entries that the PP repeats for a column. -/
def Resize.vertical (r : Resize) : List ℕ :=
  (r.tbl.take (r.index % 256 + 1)).drop (r.index / 256 % 256)

/-- The segment resizes `src` samples to `dst`. -/
structure ResizesExactly (es : List ℕ) (src dst : ℕ) : Prop where
  segment : Segment es (dst / Nat.gcd src dst) (src / Nat.gcd src dst)
  consumes : Nat.gcd src dst * (es.map entryAdvance).sum = src
  produces : Nat.gcd src dst * (es.map entryOutput).sum = dst

theorem Segment.resizesExactly {es : List ℕ} {src dst : ℕ}
    (h : Segment es (dst / Nat.gcd src dst) (src / Nat.gcd src dst)) : ResizesExactly es src dst := by
  refine ⟨h, ?_, ?_⟩
  · rw [h.advance]
    exact Nat.mul_div_cancel' (Nat.gcd_dvd_left src dst)
  · rw [h.outputs]
    exact Nat.mul_div_cancel' (Nat.gcd_dvd_right src dst)

/-- The entries that one direction needs. -/
def entriesNeeded (src dst : ℕ) : ℕ := if src = 4 * dst then 4 else dst / Nat.gcd src dst

/-- Both directions have the same reduced ratio. -/
def SameRatio (srcW srcH dstW dstH : ℕ) : Prop :=
  srcW / Nat.gcd srcW dstW = srcH / Nat.gcd srcH dstH ∧
    dstW / Nat.gcd srcW dstW = dstH / Nat.gcd srcH dstH

instance (srcW srcH dstW dstH : ℕ) : Decidable (SameRatio srcW srcH dstW dstH) :=
  inferInstanceAs (Decidable (_ ∧ _))

/-- The entries of the whole table: a ratio that both directions share is counted once. -/
def tableEntries (srcW srcH dstW dstH : ℕ) : ℕ :=
  if SameRatio srcW srcH dstW dstH then entriesNeeded srcW dstW
  else entriesNeeded srcW dstW + entriesNeeded srcH dstH

/-! ## Reduced ratios -/

section Ratios

theorem gives_ppGcd {x y : ℕ} (hx : 0 < x) (hy : 0 < y) (hx' : x < 4294967296)
    (hy' : y < 4294967296) : Gives (ppGcd x y) (Nat.gcd x y) := by
  have hloop : ∀ (fuel x y out : ℕ), 0 < y → y ≤ fuel → Gives (loop out (fun p : ℕ × ℕ => do
      let k ← urem p.1 p.2
      if k ≠ 0 then pure (.inl (p.2, k)) else pure (.inr p.2)) fuel (x, y)) (Nat.gcd x y) := by
    intro fuel
    induction fuel with
    | zero => exact fun x y out hy hle => absurd hy (Nat.not_lt.mpr hle)
    | succ fuel ih =>
      intro x y out hy hle
      have hrem := gives_urem (x := x) hy
      by_cases hzero : x % y = 0
      · rw [Nat.gcd_eq_right (Nat.dvd_of_mod_eq_zero hzero)]
        refine gives_loop_done _ (hrem.bind ?_)
        rw [if_neg (by simpa using hzero)]
        exact Yields.pure _
      · have hlt : x % y < y := Nat.mod_lt x hy
        have hgcd : Nat.gcd x y = Nat.gcd y (x % y) := by
          rw [Nat.gcd_comm, Nat.gcd_rec, Nat.gcd_comm]
        rw [hgcd]
        refine gives_loop_next _ (t := (y, x % y)) (hrem.bind ?_)
          (ih y (x % y) out (Nat.pos_of_ne_zero hzero) (by omega))
        rw [if_pos hzero]
        exact Yields.pure _
  unfold ppGcd
  by_cases hlt : x < y
  · rw [if_pos hlt, Nat.gcd_comm]
    exact hloop intValues y x x hx (by unfold intValues; omega)
  · rw [if_neg hlt]
    exact hloop intValues x y y hy (by unfold intValues; omega)

theorem gives_orElse {x y : C Bool} {a b : Bool} (hx : Gives x a) (hy : Gives y b) :
    Gives (orElse x y) (a || b) := by
  refine hx.bind ?_
  cases a with
  | true => exact Yields.pure _
  | false => exact hy

theorem gives_ppExceedsUp {n d : ℕ} (hn : n ≤ 65535) :
    Gives (ppExceedsUp n d) (decide (4 * n < d)) := by
  refine (gives_int (by omega) (by omega)).bind ((Yields.pure _).of_eq ?_)
  rw [decide_eq_decide]
  omega

theorem gives_ppExceedsDown {n d : ℕ} (hd : d ≤ 65535) :
    Gives (ppExceedsDown n d) (decide (2 * d < n ∧ n ≠ 4 * d)) := by
  refine (gives_int (by omega) (by omega)).bind ?_
  by_cases hlt : 2 * d < n
  · rw [if_pos (by omega)]
    refine (gives_int (by omega) (by omega)).bind ((Yields.pure _).of_eq ?_)
    rw [decide_eq_decide]
    omega
  · rw [if_neg (by omega)]
    refine (Yields.pure _).of_eq ?_
    rw [eq_comm, decide_eq_false_iff_not]
    exact fun h => hlt h.1

/-- The two limits together. -/
theorem ratioOk_iff {n d : ℕ} : RatioOk n d ↔ ¬ 4 * n < d ∧ ¬ (2 * d < n ∧ n ≠ 4 * d) := by
  unfold RatioOk
  omega

variable {src dst : ℕ}

theorem ratioOk_reduced (hsrc : 0 < src) :
    RatioOk (src / Nat.gcd src dst) (dst / Nat.gcd src dst) ↔ RatioOk src dst := by
  have hg : 0 < Nat.gcd src dst := Nat.gcd_pos_of_pos_left dst hsrc
  have hs := Nat.mul_div_cancel' (Nat.gcd_dvd_left src dst)
  have hd := Nat.mul_div_cancel' (Nat.gcd_dvd_right src dst)
  generalize Nat.gcd src dst = g at hg hs hd ⊢
  generalize src / g = n at hs ⊢
  generalize dst / g = d at hd ⊢
  subst hs hd
  have hmul : ∀ a b c : ℕ, g * a ≤ c * (g * b) ↔ a ≤ c * b := by
    intro a b c
    rw [Nat.mul_left_comm]
    exact Nat.mul_le_mul_left_iff hg
  have hmul' : g * n = 4 * (g * d) ↔ n = 4 * d := by
    rw [Nat.mul_left_comm]
    exact Nat.mul_right_inj (Nat.ne_of_gt hg)
  unfold RatioOk
  rw [hmul, hmul, hmul']

theorem entries_reduced (hsrc : 0 < src) :
    ppEntries (src / Nat.gcd src dst) (dst / Nat.gcd src dst) = entriesNeeded src dst := by
  have hg : 0 < Nat.gcd src dst := Nat.gcd_pos_of_pos_left dst hsrc
  have hs := Nat.mul_div_cancel' (Nat.gcd_dvd_left src dst)
  have hd := Nat.mul_div_cancel' (Nat.gcd_dvd_right src dst)
  have hiff : src / Nat.gcd src dst = 4 * (dst / Nat.gcd src dst) ↔ src = 4 * dst := by
    generalize Nat.gcd src dst = g at hg hs hd ⊢
    generalize src / g = n at hs ⊢
    generalize dst / g = d at hd ⊢
    subst hs hd
    rw [Nat.mul_left_comm 4]
    exact (Nat.mul_right_inj (Nat.ne_of_gt hg)).symm
  unfold ppEntries entriesNeeded
  simp only [hiff]

end Ratios

/-! ## The register -/

section Index

variable {h v vlen : ℕ} {es es' : List ℕ}

theorem index_shared (hh : h < 256) : h * 65536 ||| h = h * 65536 + 0 * 256 + h := by
  rw [Nat.zero_mul, Nat.add_zero, Nat.mul_comm]
  exact (Nat.two_pow_add_eq_or_of_lt (i := 16) (by omega) h).symm

theorem index_split (hv : v < 256) (hvlen : vlen < 256) :
    h * 65536 ||| v * 256 ||| vlen = h * 65536 + v * 256 + vlen := by
  have hlow : v * 256 ||| vlen = v * 256 + vlen := by
    rw [Nat.mul_comm]
    exact (Nat.two_pow_add_eq_or_of_lt (i := 8) hvlen v).symm
  rw [Nat.or_assoc, hlow, Nat.add_assoc, Nat.mul_comm h]
  exact (Nat.two_pow_add_eq_or_of_lt (i := 16) (by omega) h).symm

/-- The three fields of the register. -/
theorem index_fields (h v vlen : ℕ) (hh : h < 256) (hv : v < 256) (hvlen : vlen < 256) :
    (h * 65536 + v * 256 + vlen) / 65536 % 256 = h ∧
      (h * 65536 + v * 256 + vlen) / 256 % 256 = v ∧ (h * 65536 + v * 256 + vlen) % 256 = vlen := by
  have hhigh : (h * 65536 + v * 256 + vlen) / 65536 = h := by omega
  have hmiddle : (h * 65536 + v * 256 + vlen) / 256 = h * 256 + v := by omega
  rw [hhigh, hmiddle]
  omega

/-- Both directions use the one segment. -/
theorem segments_shared (es : List ℕ) (hpos : 0 < es.length) (hle : es.length ≤ 40) :
    (⟨es, (es.length - 1) * 65536 ||| (es.length - 1)⟩ : Resize).horizontal = es ∧
      (⟨es, (es.length - 1) * 65536 ||| (es.length - 1)⟩ : Resize).vertical = es := by
  obtain ⟨hend, hfirst, hlast⟩ := index_fields (es.length - 1) 0 (es.length - 1) (by omega)
    (by decide) (by omega)
  have hlen : es.length - 1 + 1 = es.length := Nat.sub_add_cancel hpos
  rw [index_shared (by omega)]
  unfold Resize.horizontal Resize.vertical
  simp only [hend, hfirst, hlast, hlen, List.take_length, List.drop_zero, and_self]

/-- The vertical segment follows the horizontal one. -/
theorem segments_split (es es' : List ℕ) (hpos : 0 < es.length) (hle : es.length + es'.length ≤ 40) :
    (⟨es ++ es', (es.length - 1) * 65536 ||| es.length * 256 |||
        ((es ++ es').length - 1)⟩ : Resize).horizontal = es ∧
      (⟨es ++ es', (es.length - 1) * 65536 ||| es.length * 256 |||
        ((es ++ es').length - 1)⟩ : Resize).vertical = es' := by
  have hlength : (es ++ es').length = es.length + es'.length := List.length_append
  obtain ⟨hend, hfirst, hlast⟩ := index_fields (es.length - 1) es.length
    ((es ++ es').length - 1) (by omega) (by omega) (by omega)
  have hlen : es.length - 1 + 1 = es.length := Nat.sub_add_cancel hpos
  have hlen' : (es ++ es').length - 1 + 1 = (es ++ es').length := by omega
  rw [index_split (by omega) (by omega)]
  unfold Resize.horizontal Resize.vertical
  simp only [hend, hfirst, hlast, hlen, hlen', List.take_length, List.take_left, List.drop_left,
    and_self]

end Index

/-! ## Both directions -/

/-- What `pp_build_resize` returns: a table whose segments resize exactly, where both ratios can be
done and the entries fit, and else an error. -/
structure ResizeSpec (srcW srcH dstW dstH : ℕ) (r : Except ℤ Resize) : Prop where
  exact : ∀ t, r = .ok t → ResizesExactly t.horizontal srcW dstW ∧
    ResizesExactly t.vertical srcH dstH ∧
    (t.vertical = t.horizontal ∧ t.tbl = t.horizontal ∨ t.tbl = t.horizontal ++ t.vertical) ∧
    t.tbl.length = tableEntries srcW srcH dstW dstH
  accepts : (∃ t, r = .ok t) ↔
    RatioOk srcW dstW ∧ RatioOk srcH dstH ∧ tableEntries srcW srcH dstW dstH ≤ ppTblMax

section Build

variable {srcW srcH dstW dstH : ℕ}

theorem ResizeSpec.error (hreject : ¬ (RatioOk srcW dstW ∧ RatioOk srcH dstH ∧
    tableEntries srcW srcH dstW dstH ≤ ppTblMax)) (e : ℤ) :
    ResizeSpec srcW srcH dstW dstH (.error e) := by
  refine ⟨?_, ?_⟩
  · intro t ht
    cases ht
  · refine ⟨?_, fun h => absurd h hreject⟩
    rintro ⟨t, ht⟩
    cases ht

theorem entriesNeeded_pos (src : ℕ) {dst : ℕ} (hdst : 0 < dst) : 0 < entriesNeeded src dst := by
  unfold entriesNeeded
  split
  · decide
  · exact Nat.div_pos (Nat.le_of_dvd hdst (Nat.gcd_dvd_right src dst))
      (Nat.gcd_pos_of_pos_right src hdst)

/-- Two ratios that the PP can do. -/
theorem gives_ppBuildSegments (hsw : 0 < srcW) (hsh : 0 < srcH) (hdw : 0 < dstW)
    (hdh : 0 < dstH) (hsw' : srcW ≤ 65535) (hsh' : srcH ≤ 65535) (hdw' : dstW ≤ 65535)
    (hdh' : dstH ≤ 65535) (hw : RatioOk srcW dstW) (hh : RatioOk srcH dstH) :
    ∃ r, ResizeSpec srcW srcH dstW dstH r ∧
      Gives (ppBuildSegments ↑(srcW / Nat.gcd srcW dstW) ↑(dstW / Nat.gcd srcW dstW)
        ↑(srcH / Nat.gcd srcH dstH) ↑(dstH / Nat.gcd srcH dstH)) r := by
  -- One direction, in lowest terms, behind what the table holds already.
  have hone : ∀ {src dst : ℕ}, 0 < src → 0 < dst → src ≤ 65535 → dst ≤ 65535 → RatioOk src dst →
      ∀ tbl : List ℕ, tbl.length ≤ ppTblMax →
        ∃ r, Built tbl (entriesNeeded src dst) (dst / Nat.gcd src dst) (src / Nat.gcd src dst) r ∧
          Gives (ppScale1d tbl ↑(src / Nat.gcd src dst) ↑(dst / Nat.gcd src dst)) r := by
    intro src dst hs hd hs' hd' hratio tbl hlen
    have hg : 0 < Nat.gcd src dst := Nat.gcd_pos_of_pos_left dst hs
    rw [← entries_reduced hs]
    exact gives_ppScale1d (Nat.div_pos (Nat.le_of_dvd hs (Nat.gcd_dvd_left src dst)) hg)
      (Nat.div_pos (Nat.le_of_dvd hd (Nat.gcd_dvd_right src dst)) hg)
      ((Nat.div_le_self _ _).trans hs') ((Nat.div_le_self _ _).trans hd')
      (Nat.coprime_div_gcd_div_gcd hg) ((ratioOk_reduced hs).mpr hratio) hlen
  obtain ⟨rh, hbuiltH, hrunH⟩ := hone hsw hdw hsw' hdw' hw [] (Nat.zero_le _)
  have hposW := entriesNeeded_pos srcW hdw
  have hposH := entriesNeeded_pos srcH hdh
  have hsame : SameRatio srcW srcH dstW dstH ↔
      ((srcW / Nat.gcd srcW dstW : ℕ) : ℤ) = (srcH / Nat.gcd srcH dstH : ℕ) ∧
        ((dstW / Nat.gcd srcW dstW : ℕ) : ℤ) = (dstH / Nat.gcd srcH dstH : ℕ) := by
    rw [SameRatio, Int.natCast_inj, Int.natCast_inj]
  rcases Nat.lt_or_ge ppTblMax (entriesNeeded srcW dstW) with htoo | hfits
  · -- The horizontal segment alone is too long.
    have herr : rh = .error eNoSpc := hbuiltH.full (by simpa using htoo)
    subst herr
    refine ⟨.error eNoSpc, ResizeSpec.error ?_ _, hrunH.bind (Yields.pure _)⟩
    rintro ⟨-, -, hle⟩
    unfold tableEntries at hle
    split at hle <;> omega
  obtain ⟨es, hsegH, hlenH, rfl⟩ := hbuiltH.fits (by simpa using hfits)
  rw [List.nil_append] at hrunH
  have hne : es.length ≠ 0 := by omega
  -- Equal ratios use the horizontal entries twice.
  by_cases hshare : SameRatio srcW srcH dstW dstH
  · have htotal : tableEntries srcW srcH dstW dstH = es.length := by
      rw [tableEntries, if_pos hshare, hlenH]
    obtain ⟨hhor, hver⟩ := segments_shared es (by omega) (by
      rw [hlenH]
      exact hfits)
    refine ⟨.ok ⟨es, (es.length - 1) * 65536 ||| (es.length - 1)⟩, ⟨?_, ?_⟩, ?_⟩
    · rintro t ht
      cases ht
      rw [hhor, hver]
      refine ⟨hsegH.resizesExactly, ?_, .inl ⟨rfl, rfl⟩, htotal.symm⟩
      refine Segment.resizesExactly ?_
      rw [← hshare.1, ← hshare.2]
      exact hsegH
    · refine ⟨fun _ => ⟨hw, hh, ?_⟩, fun _ => ⟨_, rfl⟩⟩
      rw [htotal, hlenH]
      exact hfits
    · refine hrunH.bind ?_
      simp only [if_neg hne, if_pos (hsame.mp hshare)]
      exact Yields.pure _
  · have htotal : tableEntries srcW srcH dstW dstH =
        es.length + entriesNeeded srcH dstH := by
      rw [tableEntries, if_neg hshare, hlenH]
    obtain ⟨rv, hbuiltV, hrunV⟩ := hone hsh hdh hsh' hdh' hh es (by
      rw [hlenH]
      exact hfits)
    -- The vertical segment stands behind the horizontal one, and the table may end within it.
    rcases Nat.lt_or_ge ppTblMax (es.length + entriesNeeded srcH dstH) with htoo | hfitsV
    · have herr : rv = .error eNoSpc := hbuiltV.full htoo
      subst herr
      refine ⟨.error eNoSpc, ResizeSpec.error ?_ _, hrunH.bind ?_⟩
      · rintro ⟨-, -, hle⟩
        omega
      · simp only [if_neg hne, if_neg (mt hsame.mpr hshare)]
        exact hrunV.bind (Yields.pure _)
    · obtain ⟨es', hsegV, hlenV, rfl⟩ := hbuiltV.fits hfitsV
      obtain ⟨hhor, hver⟩ := segments_split es es' (by omega) (by
        rw [hlenV]
        exact hfitsV)
      refine ⟨.ok ⟨es ++ es', (es.length - 1) * 65536 ||| es.length * 256 |||
        ((es ++ es').length - 1)⟩, ⟨?_, ?_⟩, ?_⟩
      · rintro t ht
        cases ht
        rw [hhor, hver]
        refine ⟨hsegH.resizesExactly, hsegV.resizesExactly, .inr rfl, ?_⟩
        rw [htotal, List.length_append, hlenV]
      · refine ⟨fun _ => ⟨hw, hh, ?_⟩, fun _ => ⟨_, rfl⟩⟩
        rw [htotal]
        exact hfitsV
      · refine hrunH.bind ?_
        simp only [if_neg hne, if_neg (mt hsame.mpr hshare)]
        refine hrunV.bind ?_
        have hlonger : ¬ (es ++ es').length ≤ es.length := by
          rw [List.length_append]
          omega
        simp only [if_neg hlonger]
        exact Yields.pure _

theorem gives_ppBuildResize (srcW srcH dstW dstH : ℕ) (hsw : 0 < srcW) (hsh : 0 < srcH)
    (hdw : 0 < dstW) (hdh : 0 < dstH) (hsw' : srcW ≤ 65535) (hsh' : srcH ≤ 65535)
    (hdw' : dstW ≤ 65535) (hdh' : dstH ≤ 65535) :
    ∃ r, ResizeSpec srcW srcH dstW dstH r ∧ Gives (ppBuildResize srcW srcH dstW dstH) r := by
  have hi32 : ∀ x g : ℕ, x ≤ 65535 → i32 ((x / g : ℕ) : ℤ) = (x / g : ℕ) := by
    intro x g hx
    have hle : x / g ≤ 65535 := (Nat.div_le_self x g).trans hx
    generalize x / g = y at hle ⊢
    exact i32_eq (by omega) (by omega)
  have hgcdW := gives_ppGcd hsw hdw (by omega) (by omega)
  have hgcdH := gives_ppGcd hsh hdh (by omega) (by omega)
  have hup := gives_orElse
    (gives_ppExceedsUp (n := srcW / Nat.gcd srcW dstW) (d := dstW / Nat.gcd srcW dstW)
      ((Nat.div_le_self _ _).trans hsw'))
    (gives_ppExceedsUp (n := srcH / Nat.gcd srcH dstH) (d := dstH / Nat.gcd srcH dstH)
      ((Nat.div_le_self _ _).trans hsh'))
  have hdown := gives_orElse
    (gives_ppExceedsDown (n := srcW / Nat.gcd srcW dstW) (d := dstW / Nat.gcd srcW dstW)
      ((Nat.div_le_self _ _).trans hdw'))
    (gives_ppExceedsDown (n := srcH / Nat.gcd srcH dstH) (d := dstH / Nat.gcd srcH dstH)
      ((Nat.div_le_self _ _).trans hdh'))
  have hlimits := ratioOk_iff (n := srcW / Nat.gcd srcW dstW) (d := dstW / Nat.gcd srcW dstW)
  have hlimits' := ratioOk_iff (n := srcH / Nat.gcd srcH dstH) (d := dstH / Nat.gcd srcH dstH)
  rw [ratioOk_reduced hsw] at hlimits
  rw [ratioOk_reduced hsh] at hlimits'
  -- Behind the two reductions.
  have hbuild : ∀ {r : Except ℤ Resize}, Gives (do
      let up ← orElse (ppExceedsUp ↑(srcW / Nat.gcd srcW dstW) ↑(dstW / Nat.gcd srcW dstW))
        (ppExceedsUp ↑(srcH / Nat.gcd srcH dstH) ↑(dstH / Nat.gcd srcH dstH))
      if up then
        pure (.error eOpNotSupp)
      else do
        let down ← orElse (ppExceedsDown ↑(srcW / Nat.gcd srcW dstW) ↑(dstW / Nat.gcd srcW dstW))
          (ppExceedsDown ↑(srcH / Nat.gcd srcH dstH) ↑(dstH / Nat.gcd srcH dstH))
        if down then
          pure (.error eOpNotSupp)
        else
          ppBuildSegments ↑(srcW / Nat.gcd srcW dstW) ↑(dstW / Nat.gcd srcW dstW)
            ↑(srcH / Nat.gcd srcH dstH) ↑(dstH / Nat.gcd srcH dstH)) r →
      Gives (ppBuildResize srcW srcH dstW dstH) r := by
    intro r hr
    refine hgcdW.bind (hgcdH.bind ?_)
    simp only [hi32 _ _ hsw', hi32 _ _ hsh', hi32 _ _ hdw', hi32 _ _ hdh']
    exact hr
  by_cases hexceedsUp : (decide (4 * (srcW / Nat.gcd srcW dstW) < dstW / Nat.gcd srcW dstW) ||
      decide (4 * (srcH / Nat.gcd srcH dstH) < dstH / Nat.gcd srcH dstH)) = true
  · refine ⟨.error eOpNotSupp, ResizeSpec.error ?_ _, hbuild (hup.bind ?_)⟩
    · rw [hlimits, hlimits']
      rintro ⟨⟨hw, -⟩, ⟨hh, -⟩, -⟩
      simp [hw, hh] at hexceedsUp
    · rw [if_pos hexceedsUp]
      exact Yields.pure _
  by_cases hexceedsDown : (decide (2 * (dstW / Nat.gcd srcW dstW) < srcW / Nat.gcd srcW dstW ∧
        srcW / Nat.gcd srcW dstW ≠ 4 * (dstW / Nat.gcd srcW dstW)) ||
      decide (2 * (dstH / Nat.gcd srcH dstH) < srcH / Nat.gcd srcH dstH ∧
        srcH / Nat.gcd srcH dstH ≠ 4 * (dstH / Nat.gcd srcH dstH))) = true
  · refine ⟨.error eOpNotSupp, ResizeSpec.error ?_ _, hbuild (hup.bind ?_)⟩
    · rw [hlimits, hlimits']
      rintro ⟨⟨-, hw⟩, ⟨-, hh⟩, -⟩
      rw [Bool.or_eq_true, decide_eq_true_eq, decide_eq_true_eq] at hexceedsDown
      exact hexceedsDown.elim hw hh
    · rw [if_neg hexceedsUp]
      refine hdown.bind ?_
      rw [if_pos hexceedsDown]
      exact Yields.pure _
  · rw [Bool.or_eq_true, decide_eq_true_eq, decide_eq_true_eq, not_or] at hexceedsUp
    have hboth := hexceedsDown
    rw [Bool.or_eq_true, decide_eq_true_eq, decide_eq_true_eq, not_or] at hboth
    obtain ⟨r, hspec, hrun⟩ := gives_ppBuildSegments hsw hsh hdw hdh hsw' hsh' hdw' hdh'
      (hlimits.mpr ⟨hexceedsUp.1, hboth.1⟩) (hlimits'.mpr ⟨hexceedsUp.2, hboth.2⟩)
    refine ⟨r, hspec, hbuild (hup.bind ?_)⟩
    rw [if_neg (by simpa using hexceedsUp)]
    refine hdown.bind ?_
    rw [if_neg hexceedsDown]
    exact hrun

end Build

/-- **The tables of the PP are exact.** For all sizes of 8 to 65535 pixels `pp_build_resize` ends,
writes inside of its 40 entries and overflows nowhere.  It builds a table exactly when each ratio is
at most 1:4 up and at most 2:1 or just 4:1 down and the entries fit; then each segment takes the
source and gives the destination when it is repeated as often as the ratio was reduced. -/
theorem pp_resize_tables_exact (srcW srcH dstW dstH : ℕ) (hsw : 8 ≤ srcW ∧ srcW ≤ 65535)
    (hsh : 8 ≤ srcH ∧ srcH ≤ 65535) (hdw : 8 ≤ dstW ∧ dstW ≤ 65535) (hdh : 8 ≤ dstH ∧ dstH ≤ 65535) :
    Sound (ppBuildResize srcW srcH dstW dstH) ∧
      ResizeSpec srcW srcH dstW dstH (ppBuildResize srcW srcH dstW dstH).value := by
  obtain ⟨r, hspec, hvalue, hsound⟩ := gives_ppBuildResize srcW srcH dstW dstH (by omega)
    (by omega) (by omega) (by omega) hsw.2 hsh.2 hdw.2
    hdh.2
  rw [hvalue]
  exact ⟨hsound, hspec⟩

theorem pp_resize_tables_exact_360 :
    Sound (ppBuildResize 640 360 800 450) ∧
      ResizeSpec 640 360 800 450 (ppBuildResize 640 360 800 450).value :=
  pp_resize_tables_exact 640 360 800 450 (by decide) (by decide) (by decide) (by decide)

end Kernel
end ToonVpu
