import Mathlib.Data.Int.Bitwise
import Mathlib.Tactic.Ring
import ToonVpu.Foundation.CInt

/-!
# PpResize — the resize tables of the PP (`kernel/mxc_vpu.c`)

The PP resizes by a table of at most 40 entries.  An entry has a weight, the number of input samples
to advance by, and whether an output sample is produced; the hardware repeats a segment of the table
for each direction.  `pp_build_resize` reduces both ratios, builds the horizontal segment and then,
unless both ratios are the same, the vertical one behind it.

The table is modelled as the list of the entries written so far, so that the index `k` of the program
is its length.
-/

namespace ToonVpu
namespace Kernel

open Foundation
open Foundation.CInt
open Foundation.Logged

/-! ## Ratios -/

/-- `pp_gcd`. -/
def ppGcd (x y : ℕ) : C ℕ :=
  let (x, y) := if x < y then (y, x) else (x, y)
  loop y (fun (x, y) => do
    let k ← urem x y
    if k ≠ 0 then pure (.inl (y, k)) else pure (.inr y)) intValues (x, y)

/-! ## Entries -/

/-- `PP_TBL_MAX`. -/
def ppTblMax : ℕ := 40

/-- `-ENOSPC`. -/
def eNoSpc : ℤ := -28

/-- `-EOPNOTSUPP`. -/
def eOpNotSupp : ℤ := -95

/-- A store into the next element of the table, an array of `u16`. -/
def ppStore (tbl : List ℕ) (e : ℤ) : C (List ℕ) := do
  access tbl.length ppTblMax
  pure (tbl ++ [(e % 65536).toNat])

/-- The entries that only skip input, one after another. -/
def ppSkip : List ℕ × ℤ → C ((List ℕ × ℤ) ⊕ Except ℤ (List ℕ))
  | (tbl, nxt) => do
    if ppTblMax ≤ tbl.length then
      pure (.inr (.error eNoSpc))
    else
      let coeff := if 1 < nxt then 1 else nxt
      let e ← int (coeff * 2)
      let tbl ← ppStore tbl e
      let nxt ← int (nxt - 1)
      if 0 < nxt then pure (.inl (tbl, nxt)) else pure (.inr (.ok tbl))

/-- The weight of an entry, in units of 1/32: `31` counts as `32`, and `1` is not valid. -/
def ppWeight (coeff base : ℤ) : C ℤ := do
  let scaled ← int (coeff * 32)
  let rounded ← int (scaled + base / 2)
  let coeff ← quot rounded base
  if 31 ≤ coeff then int (coeff - 1)
  else if coeff = 1 then int (coeff + 1)
  else pure coeff

/-- `pp_scale_0d`. -/
def ppScale0d (tbl : List ℕ) (coeff base nxt : ℤ) : C (Except ℤ (List ℕ)) :=
  if ppTblMax ≤ tbl.length then
    pure (.error eNoSpc)
  else do
    let coeff ← ppWeight coeff base
    let coeff ← int (coeff * 4)
    if nxt < 4 then
      let e ← int (2 * Int.lor coeff nxt + 1)
      let tbl ← ppStore tbl e
      pure (.ok tbl)
    else
      -- More inputs than an entry holds go on in entries without a weight.
      let e ← int (2 * Int.lor coeff 1 + 1)
      let tbl ← ppStore tbl e
      let nxt ← int (nxt - 1)
      loop (.error eNoSpc) ppSkip (ppTblMax + 1) (tbl, nxt)

/-! ## One direction -/

/-- Goes on with the table, or returns the error. -/
def onTable {σ : Type} (r : Except ℤ (List ℕ)) (next : List ℕ → σ ⊕ Except ℤ (List ℕ)) :
    C (σ ⊕ Except ℤ (List ℕ)) :=
  match r with
  | .error e => pure (.inr (.error e))
  | .ok tbl => pure (next tbl)

/-- One output of an upscale. -/
def ppUpscale (inv outv : ℤ) : List ℕ × ℤ → C ((List ℕ × ℤ) ⊕ Except ℤ (List ℕ))
  | (tbl, v) => do
    let coeff ← int (outv - v)
    let v ← int (v + inv)
    let (v, nxt) ← (if outv ≤ v then do
        let v ← int (v - outv)
        pure (v, (1 : ℤ))
      else
        pure (v, 0))
    let r ← ppScale0d tbl coeff outv nxt
    onTable r fun tbl => if v ≠ 0 then .inl (tbl, v) else .inr (.ok tbl)

/-- The loop `while (v >= outv)`, with the number of its rounds added to `nxt`. -/
def ppDrop (outv : ℤ) : ℤ × ℤ → C ((ℤ × ℤ) ⊕ (ℤ × ℤ))
  | (v, nxt) => do
    if outv ≤ v then
      let v ← int (v - outv)
      let nxt ← int (nxt + 1)
      pure (.inl (v, nxt))
    else
      pure (.inr (v, nxt))

/-- One output of a downscale by a whole number. -/
def ppHalve (coeff outv : ℤ) : List ℕ × ℤ → C ((List ℕ × ℤ) ⊕ Except ℤ (List ℕ))
  | (tbl, v) => do
    let v ← int (v + coeff)
    let (v, nxt) ← loop (v, 2) (ppDrop outv) intValues (v, 2)
    let r ← ppScale0d tbl 1 2 nxt
    onTable r fun tbl => if v ≠ 0 then .inl (tbl, v) else .inr (.ok tbl)

/-- `v`, `carry` and `nxt` in the loop `for (nxt = 0; v < out_pos; nxt++)`. -/
def ppAdvance (inPosInc outPos : ℤ) : ℤ × ℤ × ℤ → C ((ℤ × ℤ × ℤ) ⊕ (ℤ × ℤ × ℤ))
  | (v, carry, nxt) => do
    if v < outPos then
      let v ← int (v + inPosInc)
      let carry ← int (carry - inPosInc)
      let nxt ← int (nxt + 1)
      pure (.inl (v, carry, nxt))
    else
      pure (.inr (v, carry, nxt))

/-- What the loop of a fractional downscale keeps. -/
structure PpPhase where
  tbl : List ℕ
  v : ℤ
  outPos : ℤ
  carry : ℤ
  deriving DecidableEq, Repr

/-- One output of a fractional downscale. -/
def ppDownscale (inPosInc outPosInc initCarry : ℤ) (x : PpPhase) :
    C (PpPhase ⊕ Except ℤ (List ℕ)) := do
  let coeff ← int (x.v - x.outPos)
  let outPos ← int (x.outPos + outPosInc)
  let carry ← int (x.carry + outPosInc)
  let (v, carry, nxt) ← loop (x.v, carry, 0) (ppAdvance inPosInc outPos) intValues (x.v, carry, 0)
  let r ← ppScale0d x.tbl coeff inPosInc nxt
  onTable r fun tbl => if carry ≠ initCarry then .inl ⟨tbl, v, outPos, carry⟩ else .inr (.ok tbl)

/-- `pp_scale_1d`. -/
def ppScale1d (tbl : List ℕ) (inv outv : ℤ) : C (Except ℤ (List ℕ)) :=
  if inv = outv then
    ppScale0d tbl 1 1 1
  else if inv < outv then
    loop (.error eNoSpc) (ppUpscale inv outv) (ppTblMax + 1) (tbl, 0)
  else do
    let twice ← int (2 * outv)
    -- From 2:1 on only 2:1 and 4:1 are done.
    if twice ≤ inv then
      let fourfold ← (if inv ≠ twice then int (4 * outv) else pure inv)
      if inv ≠ fourfold then
        pure (.error eOpNotSupp)
      else
        let coeff ← int (inv - twice)
        loop (.error eNoSpc) (ppHalve coeff outv) (ppTblMax + 1) (tbl, 0)
    else
      let inPosInc := twice
      let outPosInc ← int (2 * inv)
      let initCarry ← int (inv - outv)
      let v ← int (outv + inPosInc)
      loop (.error eNoSpc) (ppDownscale inPosInc outPosInc initCarry) (ppTblMax + 1)
        ⟨tbl, v, inv, initCarry⟩

/-! ## Both directions -/

/-- The table with the value of `PP_RESIZE_INDEX`. -/
structure Resize where
  tbl : List ℕ
  index : ℕ
  deriving DecidableEq, Repr

/-- `d > 4 * n`. -/
def ppExceedsUp (n d : ℤ) : C Bool := do
  let limit ← int (4 * n)
  pure (decide (limit < d))

/-- `n > 2 * d && n != 4 * d`. -/
def ppExceedsDown (n d : ℤ) : C Bool := do
  let twice ← int (2 * d)
  if twice < n then
    let fourfold ← int (4 * d)
    pure (decide (n ≠ fourfold))
  else
    pure false

/-- `||`. -/
def orElse (x y : C Bool) : C Bool := do
  if ← x then pure true else y

/-- The part of `pp_build_resize` behind its checks. -/
def ppBuildSegments (hn hd vn vd : ℤ) : C (Except ℤ Resize) := do
  match ← ppScale1d [] hn hd with
  | .error e => pure (.error e)
  | .ok tbl =>
    let hlen := tbl.length
    if hlen = 0 then
      pure (.error eOpNotSupp)
    -- Both directions use the same entries.
    else if hn = vn ∧ hd = vd then
      pure (.ok ⟨tbl, (hlen - 1) * 65536 ||| (hlen - 1)⟩)
    else
      match ← ppScale1d tbl vn vd with
      | .error e => pure (.error e)
      | .ok tbl =>
        let vlen := tbl.length
        if vlen ≤ hlen then
          pure (.error eOpNotSupp)
        else
          pure (.ok ⟨tbl, (hlen - 1) * 65536 ||| hlen * 256 ||| (vlen - 1)⟩)

/-- `pp_build_resize`. -/
def ppBuildResize (srcW srcH dstW dstH : ℕ) : C (Except ℤ Resize) := do
  let g ← ppGcd srcW dstW
  let hn := i32 ↑(srcW / g)
  let hd := i32 ↑(dstW / g)
  let g ← ppGcd srcH dstH
  let vn := i32 ↑(srcH / g)
  let vd := i32 ↑(dstH / g)
  if ← orElse (ppExceedsUp hn hd) (ppExceedsUp vn vd) then
    pure (.error eOpNotSupp)
  else if ← orElse (ppExceedsDown hn hd) (ppExceedsDown vn vd) then
    pure (.error eOpNotSupp)
  else
    ppBuildSegments hn hd vn vd

/-! ## What a segment does -/

/-- The weights that the PP takes: `0`, `2` to `30`, and `31`. -/
def ValidWeight (w : ℕ) : Prop := w ≤ 31 ∧ w ≠ 1

/-- An entry is `weight << 3 | advance << 1 | output`. -/
def entryWeight (e : ℕ) : ℕ := e / 8

def entryAdvance (e : ℕ) : ℕ := e / 2 % 4

def entryOutput (e : ℕ) : ℕ := e % 2

/-- One pass through the entries produces `outs` samples from `ins`. -/
structure Segment (es : List ℕ) (outs ins : ℕ) : Prop where
  outputs : (es.map entryOutput).sum = outs
  advance : (es.map entryAdvance).sum = ins
  weights : ∀ e ∈ es, ValidWeight (entryWeight e)

theorem Segment.append {es es' : List ℕ} {outs ins outs' ins' : ℕ} (h : Segment es outs ins)
    (h' : Segment es' outs' ins') : Segment (es ++ es') (outs + outs') (ins + ins') := by
  refine ⟨?_, ?_, ?_⟩
  · rw [List.map_append, List.sum_append, h.outputs, h'.outputs]
  · rw [List.map_append, List.sum_append, h.advance, h'.advance]
  · intro e he
    rcases List.mem_append.mp he with he | he
    · exact h.weights e he
    · exact h'.weights e he

theorem Segment.entry {w n : ℕ} (hw : ValidWeight w) (hn : n < 4) :
    Segment [w * 8 + n * 2 + 1] 1 n := by
  refine ⟨?_, ?_, ?_⟩
  · simp only [List.map_singleton, List.sum_singleton, entryOutput]
    omega
  · simp only [List.map_singleton, List.sum_singleton, entryAdvance]
    omega
  · intro e he
    have hweight : entryWeight (w * 8 + n * 2 + 1) = w := by
      unfold entryWeight
      omega
    rwa [List.mem_singleton.mp he, hweight]

/-! ## One entry -/

section Entries

variable {tbl : List ℕ}

theorem gives_ppStore (hlen : tbl.length < ppTblMax) {n : ℕ} {e : ℤ} (he : e = n) (hn : n < 65536) :
    Gives (ppStore tbl e) (tbl ++ [n]) := by
  have hindex : (tbl.length : ℤ) < ppTblMax := by exact_mod_cast hlen
  refine Yields.bind (gives_access (Int.natCast_nonneg _) hindex) ?_
  refine (Yields.pure _).of_eq ?_
  congr
  omega

/-- Every weight that is computed is valid. -/
theorem gives_ppWeight {coeff base : ℕ} (hbase : 0 < base) (hle : coeff ≤ base)
    (hsmall : base ≤ 131070) :
    ∃ w, ValidWeight w ∧ Gives (ppWeight coeff base) w := by
  -- The rounded quotient is at most 32, and 32 and 31 are each lowered by one.
  have hq : ((coeff * 32 + base / 2 : ℕ) : ℤ).tdiv base = ((coeff * 32 + base / 2) / base : ℕ) := by
    rw [Int.ofNat_tdiv]
  have hle32 : (coeff * 32 + base / 2) / base ≤ 32 := by
    rw [← Nat.lt_succ_iff, Nat.div_lt_iff_lt_mul hbase]
    omega
  generalize hw : (coeff * 32 + base / 2) / base = q at hq hle32
  have hscaled : Gives (int ((coeff : ℤ) * 32)) (coeff * 32 : ℕ) := by
    refine (gives_int ?_ ?_).of_eq ?_
    · omega
    · omega
    · push_cast
      rfl
  have hrounded : Gives (int (((coeff * 32 : ℕ) : ℤ) + (base : ℤ) / 2))
      (coeff * 32 + base / 2 : ℕ) := by
    refine (gives_int ?_ ?_).of_eq ?_
    · omega
    · omega
    · push_cast
      rfl
  have hquot : Gives (quot (coeff * 32 + base / 2 : ℕ) base) q := by
    rw [← hq]
    refine gives_quot ?_ ?_ ?_
    · omega
    · rw [hq]
      omega
    · rw [hq]
      omega
  have hrun : ∀ {w : ℕ}, Gives (if (31 : ℤ) ≤ q then int ((q : ℤ) - 1)
      else if (q : ℤ) = 1 then int ((q : ℤ) + 1) else pure (q : ℤ)) w →
      Gives (ppWeight coeff base) w :=
    fun hlast => hscaled.bind (hrounded.bind (hquot.bind hlast))
  rcases Nat.lt_or_ge q 31 with hlt | hge
  · by_cases hone : q = 1
    · subst hone
      exact ⟨2, ⟨by decide, by decide⟩, hrun ⟨rfl, by decide⟩⟩
    · refine ⟨q, ⟨by omega, hone⟩, hrun ?_⟩
      rw [if_neg (by omega), if_neg (by omega)]
      exact Yields.pure _
  · refine ⟨q - 1, ⟨by omega, by omega⟩, hrun ?_⟩
    rw [if_pos (by omega)]
    exact (gives_int (by omega) (by omega)).of_eq (by omega)

theorem lor_mul_four {w n : ℕ} (hn : n < 4) : Int.lor ((w * 4 : ℕ) : ℤ) n = (w * 4 + n : ℕ) := by
  have hor : w * 4 + n = w * 4 ||| n := by
    rw [Nat.mul_comm]
    exact Nat.two_pow_add_eq_or_of_lt (i := 2) hn w
  rw [hor]
  rfl

/-- An entry that is followed by fewer than four samples takes one place of the table. -/
theorem gives_ppScale0d (tbl : List ℕ) (coeff base n : ℕ) (hbase : 0 < base) (hle : coeff ≤ base)
    (hsmall : base ≤ 131070) (hn : n < 4) :
    ∃ e, Segment [e] 1 n ∧ Gives (ppScale0d tbl coeff base n)
      (if tbl.length < ppTblMax then .ok (tbl ++ [e]) else .error eNoSpc) := by
  obtain ⟨w, hvalid, hweight⟩ := gives_ppWeight hbase hle hsmall
  refine ⟨w * 8 + n * 2 + 1, Segment.entry hvalid hn, ?_⟩
  have hw := hvalid.1
  unfold ppScale0d
  rcases Nat.lt_or_ge tbl.length ppTblMax with hlen | hfull
  · rw [if_neg (Nat.not_le.mpr hlen), if_pos hlen]
    have hshift : Gives (int ((w : ℤ) * 4)) (w * 4 : ℕ) := by
      refine (gives_int ?_ ?_).of_eq ?_ <;> omega
    refine hweight.bind (hshift.bind ?_)
    rw [if_pos (by exact_mod_cast hn), lor_mul_four hn]
    refine (gives_int ?_ ?_).bind ?_
    · omega
    · omega
    · refine (gives_ppStore hlen ?_ ?_).bind (Yields.pure _)
      · omega
      · omega
  · rw [if_pos hfull, if_neg (Nat.not_lt.mpr hfull)]
    exact Yields.pure _

/-- The four entries of a 4:1 ratio: one output, then three that only skip. -/
def quarterEntries : List ℕ := [131, 2, 2, 2]

theorem quarterEntries_segment : Segment quarterEntries 1 4 :=
  ⟨by decide, by decide, by unfold ValidWeight; decide⟩

/-- One of the entries that only skip, with `n` more to come. -/
theorem gives_ppSkip (hlen : tbl.length < ppTblMax) {n : ℕ} (hn : n < 4) :
    Gives (ppSkip (tbl, ((n + 1 : ℕ) : ℤ)))
      (if 0 < n then .inl (tbl ++ [2], (n : ℤ)) else .inr (.ok (tbl ++ [2]))) := by
  have hone : (if (1 : ℤ) < ((n + 1 : ℕ) : ℤ) then 1 else ((n + 1 : ℕ) : ℤ)) = 1 := by
    split <;> omega
  simp only [ppSkip, if_neg (Nat.not_le.mpr hlen), hone]
  refine Yields.bind ⟨rfl, by decide⟩ ?_
  refine (gives_ppStore hlen (n := 2) (by decide) (by decide)).bind ?_
  have hnext : Gives (int (((n + 1 : ℕ) : ℤ) - 1)) (n : ℤ) :=
    (gives_int (by omega) (by omega)).of_eq (by omega)
  refine hnext.bind ?_
  by_cases hpos : 0 < n
  · rw [if_pos hpos, if_pos (by omega)]
    exact Yields.pure _
  · rw [if_neg hpos, if_neg (by omega)]
    exact Yields.pure _

theorem gives_ppSkip_full (hfull : ppTblMax ≤ tbl.length) (nxt : ℤ) :
    Gives (ppSkip (tbl, nxt)) (.inr (.error eNoSpc)) := by
  simp only [ppSkip, if_pos hfull]
  exact Yields.pure _

theorem gives_ppSkip_loop (fuel : ℕ) {n : ℕ} (hfuel : n < fuel) (hn : n < 4) (tbl : List ℕ) :
    Gives (loop (.error eNoSpc) ppSkip fuel (tbl, ((n + 1 : ℕ) : ℤ)))
      (if tbl.length + n < ppTblMax then .ok (tbl ++ List.replicate (n + 1) 2)
        else .error eNoSpc) := by
  induction n generalizing fuel tbl with
  | zero =>
    obtain ⟨fuel, rfl⟩ : ∃ m, fuel = m + 1 := ⟨fuel - 1, by omega⟩
    rcases Nat.lt_or_ge tbl.length ppTblMax with hlen | hfull
    · rw [if_pos (by simpa using hlen)]
      exact gives_loop_done _ (gives_ppSkip hlen hn)
    · rw [if_neg (by simpa using hfull)]
      exact gives_loop_done _ (gives_ppSkip_full hfull _)
  | succ n ih =>
    obtain ⟨fuel, rfl⟩ : ∃ m, fuel = m + 1 := ⟨fuel - 1, by omega⟩
    rcases Nat.lt_or_ge tbl.length ppTblMax with hlen | hfull
    · have hrest := ih fuel (by omega) (by omega) (tbl ++ [2])
      have hlength : (tbl ++ [2]).length + n = tbl.length + (n + 1) := by
        rw [List.length_append, List.length_singleton]
        omega
      have hlist : tbl ++ [2] ++ List.replicate (n + 1) 2 = tbl ++ List.replicate (n + 1 + 1) 2 := by
        rw [List.append_assoc]
        rfl
      rw [hlength, hlist] at hrest
      exact gives_loop_next _ (gives_ppSkip hlen hn) hrest
    · rw [if_neg (by omega)]
      exact gives_loop_done _ (gives_ppSkip_full hfull _)

theorem gives_ppScale0d_four (tbl : List ℕ) :
    Gives (ppScale0d tbl 1 2 4)
      (if tbl.length + 4 ≤ ppTblMax then .ok (tbl ++ quarterEntries) else .error eNoSpc) := by
  unfold ppScale0d
  rcases Nat.lt_or_ge tbl.length ppTblMax with hlen | hfull
  · rw [if_neg (Nat.not_le.mpr hlen)]
    have hweight : Gives (ppWeight 1 2) 16 := ⟨rfl, by decide⟩
    have hskip := gives_ppSkip_loop (ppTblMax + 1) (n := 2) (by decide) (by decide) (tbl ++ [131])
    have hlength : (tbl ++ [131]).length + 2 < ppTblMax ↔ tbl.length + 4 ≤ ppTblMax := by
      rw [List.length_append, List.length_singleton]
      omega
    have hlist : tbl ++ [131] ++ List.replicate (2 + 1) 2 = tbl ++ quarterEntries := by
      rw [List.append_assoc]
      rfl
    simp only [hlength, hlist] at hskip
    refine hweight.bind (Yields.bind ⟨rfl, by decide⟩ ?_)
    refine Yields.bind ⟨rfl, by decide⟩ ?_
    refine (gives_ppStore hlen (n := 131) (by decide) (by decide)).bind ?_
    exact Yields.bind ⟨rfl, by decide⟩ hskip
  · rw [if_pos hfull, if_neg (by omega)]
    exact Yields.pure _

end Entries

/-! ## One direction

After `j` outputs and `a` inputs the phase of a cycle is determined, and it is that of the start again
exactly when `j * inv = a * outv`.  With a reduced ratio this first happens after `outv` outputs. -/

/-- What a direction that needs `n` entries leads to: they follow the table where they fit. -/
structure Built (tbl : List ℕ) (n outs ins : ℕ) (r : Except ℤ (List ℕ)) : Prop where
  fits : tbl.length + n ≤ ppTblMax →
    ∃ es, Segment es outs ins ∧ es.length = n ∧ r = .ok (tbl ++ es)
  full : ppTblMax < tbl.length + n → r = .error eNoSpc

section Building

variable {tbl : List ℕ} {n outs ins e ins' : ℕ} {r : Except ℤ (List ℕ)}

/-- No entry fits any more. -/
theorem Built.of_full (hfull : ppTblMax ≤ tbl.length) (hn : 0 < n) :
    Built tbl n outs ins (.error eNoSpc) :=
  ⟨fun hfits => by omega, fun _ => rfl⟩

/-- The last entry. -/
theorem Built.last (hseg : Segment [e] 1 ins) (hroom : tbl.length < ppTblMax) :
    Built tbl 1 1 ins (.ok (tbl ++ [e])) :=
  ⟨fun _ => ⟨[e], hseg, rfl, rfl⟩, fun hfull => by omega⟩

/-- One entry, and those after it. -/
theorem Built.cons (hseg : Segment [e] 1 ins') (h : Built (tbl ++ [e]) n outs ins r) :
    Built tbl (n + 1) (1 + outs) (ins' + ins) r := by
  have hlength : (tbl ++ [e]).length + n = tbl.length + (n + 1) := by
    rw [List.length_append, List.length_singleton]
    omega
  refine ⟨fun hfits => ?_, fun hfull => ?_⟩
  · obtain ⟨es, hsegs, hlen, hr⟩ := h.fits (hlength ▸ hfits)
    refine ⟨e :: es, hseg.append hsegs, ?_, ?_⟩
    · rw [List.length_cons, hlen]
    · rw [hr, List.append_assoc]
      rfl
  · exact h.full (hlength ▸ hfull)

end Building

section Cycle

variable {inv outv : ℕ}

/-- A cycle closes only after all of its outputs. -/
theorem cycle_closed {j a : ℕ} (hcop : Nat.Coprime inv outv) (hj : 0 < j) (hle : j ≤ outv)
    (hclosed : j * inv = a * outv) : j = outv ∧ a = inv := by
  have hdvd : outv ∣ j := hcop.symm.dvd_of_dvd_mul_right ⟨a, by rw [hclosed, Nat.mul_comm]⟩
  have hjeq : j = outv := Nat.le_antisymm hle (Nat.le_of_dvd hj hdvd)
  subst hjeq
  refine ⟨rfl, ?_⟩
  rw [Nat.mul_comm] at hclosed
  exact (Nat.eq_of_mul_eq_mul_right hj hclosed).symm

/-- One round of an upscale: the phase goes on by `inv`, and past `outv` the input advances. -/
theorem gives_ppUpscale (hpos : 0 < inv) (hlt : inv < outv) (hsmall : outv ≤ 65535)
    (tbl : List ℕ) {v : ℕ} (hv : v < outv) :
    ∃ e n v', Segment [e] 1 n ∧ v' < outv ∧ n * outv + v' = v + inv ∧
      Gives (ppUpscale inv outv (tbl, (v : ℤ)))
        (if tbl.length < ppTblMax then
          (if v' ≠ 0 then .inl (tbl ++ [e], (v' : ℤ)) else .inr (.ok (tbl ++ [e])))
        else .inr (.error eNoSpc)) := by
  have hcoeff : Gives (int ((outv : ℤ) - v)) (outv - v : ℕ) :=
    (gives_int (by omega) (by omega)).of_eq (by omega)
  have hphase : Gives (int ((v : ℤ) + inv)) (v + inv : ℕ) :=
    (gives_int (by omega) (by omega)).of_eq (by omega)
  -- Whether the input advances is decided by the phase; the rest of the round is the same.
  have hround : ∀ n v' : ℕ, n < 4 → Gives (if (outv : ℤ) ≤ (v + inv : ℕ) then do
        let v ← int (((v + inv : ℕ) : ℤ) - outv)
        pure (v, (1 : ℤ))
      else
        pure (((v + inv : ℕ) : ℤ), 0)) ((v' : ℤ), (n : ℤ)) →
      ∃ e, Segment [e] 1 n ∧ Gives (ppUpscale inv outv (tbl, (v : ℤ)))
        (if tbl.length < ppTblMax then
          (if v' ≠ 0 then .inl (tbl ++ [e], (v' : ℤ)) else .inr (.ok (tbl ++ [e])))
        else .inr (.error eNoSpc)) := by
    intro n v' hn hadvance
    obtain ⟨e, hseg, hentry⟩ := gives_ppScale0d tbl (outv - v) _ _ (by omega : 0 < outv)
      (Nat.sub_le _ _) (by omega) hn
    refine ⟨e, hseg, hcoeff.bind (hphase.bind (hadvance.bind (hentry.bind ?_)))⟩
    split
    · by_cases hzero : v' = 0
      · simp only [onTable, hzero]
        exact Yields.pure _
      · have hzero' : (v' : ℤ) ≠ 0 := by omega
        simp only [onTable, ne_eq, hzero, hzero', not_false_eq_true, if_true]
        exact Yields.pure _
    · exact Yields.pure _
  rcases Nat.lt_or_ge (v + inv) outv with hbelow | hpast
  · obtain ⟨e, hseg, hrun⟩ := hround 0 (v + inv) (by decide) (by
      rw [if_neg (by omega)]
      exact Yields.pure _)
    exact ⟨e, 0, v + inv, hseg, hbelow, by omega, hrun⟩
  · obtain ⟨e, hseg, hrun⟩ := hround 1 (v + inv - outv) (by decide) (by
      rw [if_pos (by omega)]
      have hwrap : Gives (int (((v + inv : ℕ) : ℤ) - outv)) (v + inv - outv : ℕ) :=
        (gives_int (by omega) (by omega)).of_eq (by omega)
      exact hwrap.bind (Yields.pure _))
    exact ⟨e, 1, v + inv - outv, hseg, by omega, by omega, hrun⟩

theorem gives_ppUpscale_loop (hpos : 0 < inv) (hlt : inv < outv) (hsmall : outv ≤ 65535)
    (hcop : Nat.Coprime inv outv) (fuel : ℕ) (tbl : List ℕ) {j a v : ℕ} (hj : j < outv)
    (hv : v < outv) (hphase : j * inv = a * outv + v) (hlen : tbl.length ≤ ppTblMax)
    (hfuel : ppTblMax < tbl.length + fuel) :
    ∃ r, Built tbl (outv - j) (outv - j) (inv - a) r ∧
      Gives (loop (.error eNoSpc) (ppUpscale inv outv) fuel (tbl, (v : ℤ))) r := by
  -- By induction on the fuel: a round goes from one phase of the cycle to the next.
  induction fuel generalizing tbl j a v with
  | zero => omega
  | succ fuel ih =>
    obtain ⟨e, n, v', hseg, hv', hnext, hround⟩ := gives_ppUpscale hpos hlt hsmall tbl hv
    have hphase' : (j + 1) * inv = (a + n) * outv + v' := by
      rw [Nat.succ_mul, hphase, Nat.add_mul]
      omega
    rcases Nat.lt_or_ge tbl.length ppTblMax with hroom | hfull
    · rw [if_pos hroom] at hround
      by_cases hzero : v' = 0
      · -- The cycle closes.
        rw [hzero, Nat.add_zero] at hphase'
        obtain ⟨hjeq, haeq⟩ := cycle_closed hcop (Nat.succ_pos j) hj hphase'
        have hout : outv - j = 1 := by omega
        have hin : inv - a = n := by omega
        rw [hout, hin]
        rw [if_neg (by simpa using hzero)] at hround
        exact ⟨_, Built.last hseg hroom, gives_loop_done _ hround⟩
      · -- Only the last output closes the cycle.
        have hj' : j + 1 < outv := by
          rcases Nat.lt_or_eq_of_le hj with h | h
          · exact h
          · have hmul : outv ∣ (a + n) * outv + v' := ⟨inv, by rw [← hphase', ← h]⟩
            have hdvd : outv ∣ v' := (Nat.dvd_add_right (Nat.dvd_mul_left _ _)).mp hmul
            exact absurd (Nat.eq_zero_of_dvd_of_lt hdvd hv') hzero
        have ha : a + n ≤ inv := by
          have hmul : (a + n) * outv ≤ inv * outv := by
            calc (a + n) * outv ≤ (j + 1) * inv := by omega
              _ ≤ outv * inv := Nat.mul_le_mul_right _ hj
              _ = inv * outv := Nat.mul_comm _ _
          exact Nat.le_of_mul_le_mul_right hmul (by omega)
        have hlength : (tbl ++ [e]).length = tbl.length + 1 := List.length_append
        obtain ⟨r, hbuilt, hrest⟩ := ih (tbl ++ [e]) hj' hv' hphase' (by omega) (by omega)
        have hcons := hbuilt.cons hseg
        have hn : outv - (j + 1) + 1 = outv - j := by omega
        have hout : 1 + (outv - (j + 1)) = outv - j := by omega
        have hin : n + (inv - (a + n)) = inv - a := by omega
        rw [hn, hout, hin] at hcons
        rw [if_pos hzero] at hround
        exact ⟨r, hcons, gives_loop_next _ hround hrest⟩
    · -- The table is full.
      rw [if_neg (Nat.not_lt.mpr hfull)] at hround
      exact ⟨_, Built.of_full hfull (by omega), gives_loop_done _ hround⟩

/-! A fractional downscale.  Between two rounds `out_pos ≤ v < out_pos + in_pos_inc`, and `carry` is
the distance of `v` from the end of that window. -/

/-- The inner loop brings `v` to the first position that is not before `out_pos`. -/
theorem gives_ppAdvance_loop (inPosInc outPos : ℤ) (hinc : 0 < inPosInc)
    (hsmall : outPos + inPosInc < 2147483648) (out : ℤ × ℤ × ℤ) (fuel : ℕ) {v n : ℤ} (hv : 0 ≤ v)
    (hn : 0 ≤ n) (hstart : v < outPos + inPosInc) (hcount : n + (outPos - v) < 2147483648)
    (hn' : n < 2147483648) (hfuel : outPos - v < fuel) (hfuel' : 0 < fuel) :
    ∃ m : ℕ, outPos ≤ v + m * inPosInc ∧ v + m * inPosInc < outPos + inPosInc ∧
      Gives (loop out (ppAdvance inPosInc outPos) fuel (v, outPos - v + inPosInc, n))
        (v + m * inPosInc, outPos - (v + m * inPosInc) + inPosInc, n + m) := by
  induction fuel generalizing v n with
  | zero => exact absurd hfuel' (by decide)
  | succ fuel ih =>
    by_cases hbefore : v < outPos
    · obtain ⟨m, hlow, hhigh, hrest⟩ := ih (v := v + inPosInc) (n := n + 1) (by omega) (by omega)
        (by omega) (by omega) (by omega) (by omega) (by omega)
      have hstep : v + ((m + 1 : ℕ) : ℤ) * inPosInc = v + inPosInc + m * inPosInc := by
        rw [Int.natCast_add, Int.add_mul]
        omega
      refine ⟨m + 1, by rwa [hstep], by rwa [hstep], ?_⟩
      have hround : Gives (ppAdvance inPosInc outPos (v, outPos - v + inPosInc, n))
          (.inl (v + inPosInc, outPos - (v + inPosInc) + inPosInc, n + 1)) := by
        have hcarry : Gives (int (outPos - v + inPosInc - inPosInc))
            (outPos - (v + inPosInc) + inPosInc) :=
          (gives_int (by omega) (by omega)).of_eq (by omega)
        simp only [ppAdvance, if_pos hbefore]
        refine (gives_int (by omega) (by omega)).bind (hcarry.bind ?_)
        exact (gives_int (by omega) (by omega)).bind (Yields.pure _)
      have hcount : n + ((m + 1 : ℕ) : ℤ) = n + 1 + m := by omega
      rw [hstep, hcount]
      exact gives_loop_next _ hround hrest
    · refine ⟨0, by simpa using hbefore, by simpa using hstart, ?_⟩
      have hround : Gives (ppAdvance inPosInc outPos (v, outPos - v + inPosInc, n))
          (.inr (v, outPos - v + inPosInc, n)) := by
        simp only [ppAdvance, if_neg hbefore]
        exact Yields.pure _
      simpa using gives_loop_done fuel hround

/-- The window that `v` lies in after the outputs up to `j`, with `a` samples taken. -/
structure InWindow (inv outv j a : ℕ) (x : PpPhase) : Prop where
  outPos_eq : x.outPos = inv + 2 * inv * j
  v_eq : x.v = 3 * outv + 2 * outv * a
  carry_eq : x.carry = x.outPos - x.v + 2 * outv
  low : x.outPos ≤ x.v
  high : x.v < x.outPos + 2 * outv

/-- One round of a fractional downscale. -/
theorem gives_ppDownscale (hlt : outv < inv) (hlt2 : inv < 2 * outv) (hsmall : inv ≤ 65535)
    {j a : ℕ} {x : PpPhase} (hx : InWindow inv outv j a x) (hj : j ≤ ppTblMax) :
    ∃ e n x', Segment [e] 1 n ∧ InWindow inv outv (j + 1) (a + n) x' ∧ x'.tbl = x.tbl ++ [e] ∧
      Gives (ppDownscale (2 * outv) (2 * inv) (inv - outv) x)
        (if x.tbl.length < ppTblMax then
          (if x'.carry ≠ inv - outv then .inl x' else .inr (.ok x'.tbl))
        else .inr (.error eNoSpc)) := by
  obtain ⟨hout, hv, hcarry, hlow, hhigh⟩ := hx
  -- Everything stays far below the bound of an `int`, since the table is full after 40 outputs.
  have hj' : (2 * inv * j : ℤ) ≤ 2 * inv * 40 := by
    apply Int.mul_le_mul_of_nonneg_left
    · exact_mod_cast hj
    · omega
  have hpos : 0 ≤ (2 * inv * j : ℤ) := by
    exact_mod_cast Nat.zero_le _
  obtain ⟨m, hlow', hhigh', hinner⟩ := gives_ppAdvance_loop (2 * outv) (x.outPos + 2 * inv)
    (by omega) (by omega) (x.v, x.carry + 2 * inv, 0) intValues
    (v := x.v) (n := 0) (by omega) (by omega) (by omega) (by omega) (by decide)
    (by unfold intValues; omega) (by decide)
  have hm : m < 4 := by
    by_contra hge
    have hmul : (4 * (2 * outv) : ℤ) ≤ m * (2 * outv) := by
      apply Int.mul_le_mul_of_nonneg_right
      · omega
      · omega
    omega
  have hc : ((x.v - x.outPos).toNat : ℤ) = x.v - x.outPos := Int.toNat_of_nonneg (by omega)
  obtain ⟨e, hseg, hentry⟩ := gives_ppScale0d x.tbl (x.v - x.outPos).toNat (2 * outv) _ (by omega)
    (by omega) (by omega) hm
  rw [hc] at hentry
  refine ⟨e, m, ⟨x.tbl ++ [e], x.v + m * (2 * outv), x.outPos + 2 * inv,
    x.outPos + 2 * inv - (x.v + m * (2 * outv)) + 2 * outv⟩, hseg, ⟨?_, ?_, rfl, hlow', hhigh'⟩,
    rfl, ?_⟩
  · rw [hout]
    push_cast
    ring
  · rw [hv]
    push_cast
    ring
  · have hcarry' : Gives (int (x.carry + 2 * inv)) (x.outPos + 2 * inv - x.v + 2 * outv) :=
      (gives_int (by omega) (by omega)).of_eq (by omega)
    have hcarry'' : x.carry + 2 * inv = x.outPos + 2 * inv - x.v + 2 * outv := by omega
    rw [hcarry''] at hinner
    rw [Int.zero_add] at hinner
    refine (gives_int (by omega) (by omega)).bind ((gives_int (by omega) (by omega)).bind
      (hcarry'.bind (hinner.bind ?_)))
    push_cast at hentry
    refine hentry.bind ?_
    split
    · simp only [onTable]
      exact Yields.pure _
    · exact Yields.pure _

/-- At the end of a cycle, and only there, as many samples are taken as the ratio says. -/
theorem InWindow.closed_iff {j a : ℕ} {x : PpPhase} (h : InWindow inv outv j a x)
    (hcop : Nat.Coprime inv outv) (hj : 0 < j) (hle : j ≤ outv) :
    x.carry = inv - outv ↔ j = outv ∧ a = inv := by
  obtain ⟨hout, hv, hcarry, hlow, hhigh⟩ := h
  have hcycle : x.carry = inv - outv ↔ j * inv = a * outv := by
    have hdiff : x.carry - (inv - outv) = 2 * ((j * inv : ℕ) - (a * outv : ℕ)) := by
      rw [hcarry, hout, hv]
      push_cast
      ring
    omega
  rw [hcycle]
  constructor
  · exact cycle_closed hcop hj hle
  · rintro ⟨rfl, rfl⟩
    exact Nat.mul_comm _ _

/-- No more samples are taken than the ratio says. -/
theorem InWindow.ins_le {j a : ℕ} {x : PpPhase} (h : InWindow inv outv j a x)
    (hlt2 : inv < 2 * outv) (hle : j ≤ outv) : a ≤ inv := by
  obtain ⟨hout, hv, hcarry, hlow, hhigh⟩ := h
  by_contra hmore
  have hins : (2 * outv : ℤ) * (inv + 1) ≤ 2 * outv * a := by
    apply Int.mul_le_mul_of_nonneg_left
    · omega
    · omega
  have houts : (2 * inv : ℤ) * j ≤ 2 * inv * outv := by
    apply Int.mul_le_mul_of_nonneg_left
    · exact_mod_cast hle
    · omega
  have hsame : (2 * outv : ℤ) * (inv + 1) = 2 * inv * outv + 2 * outv := by ring
  omega

/-- After the last output the window leaves one choice. -/
theorem InWindow.ins_eq {a : ℕ} {x : PpPhase} (h : InWindow inv outv outv a x)
    (hlt : outv < inv) (hlt2 : inv < 2 * outv) : a = inv := by
  refine Nat.le_antisymm (h.ins_le hlt2 (Nat.le_refl _)) ?_
  obtain ⟨hout, hv, hcarry, hlow, hhigh⟩ := h
  by_contra hless
  have hins : (2 * outv : ℤ) * a ≤ 2 * outv * (inv - 1) := by
    apply Int.mul_le_mul_of_nonneg_left
    · omega
    · omega
  have hsame : (2 * outv : ℤ) * (inv - 1) = 2 * inv * outv - 2 * outv := by ring
  omega

theorem gives_ppDownscale_loop (hlt : outv < inv) (hlt2 : inv < 2 * outv) (hsmall : inv ≤ 65535)
    (hcop : Nat.Coprime inv outv) (fuel : ℕ) {j a : ℕ} {x : PpPhase} (hx : InWindow inv outv j a x)
    (hj : j < outv) (hlen : x.tbl.length ≤ ppTblMax) (hjlen : j ≤ x.tbl.length)
    (hfuel : ppTblMax < x.tbl.length + fuel) :
    ∃ r, Built x.tbl (outv - j) (outv - j) (inv - a) r ∧
      Gives (loop (.error eNoSpc) (ppDownscale (2 * outv) (2 * inv) (inv - outv)) fuel x) r := by
  induction fuel generalizing j a x with
  | zero => omega
  | succ fuel ih =>
    obtain ⟨e, n, x', hseg, hx', htbl, hround⟩ :=
      gives_ppDownscale hlt hlt2 hsmall hx (by omega)
    have hclosed := hx'.closed_iff hcop (Nat.succ_pos j) hj
    rcases Nat.lt_or_ge x.tbl.length ppTblMax with hroom | hfull
    · rw [if_pos hroom] at hround
      by_cases hend : x'.carry = inv - outv
      · obtain ⟨hjeq, haeq⟩ := hclosed.mp hend
        have hout : outv - j = 1 := by omega
        have hin : inv - a = n := by omega
        rw [hout, hin]
        rw [if_neg (by simpa using hend), htbl] at hround
        exact ⟨_, Built.last hseg hroom, gives_loop_done _ hround⟩
      · have hj' : j + 1 < outv := by
          rcases Nat.lt_or_eq_of_le hj with h | h
          · exact h
          · have hlast : j + 1 = outv := h
            rw [hlast] at hx'
            exact absurd (hclosed.mpr ⟨hlast, hx'.ins_eq hlt hlt2⟩) hend
        have ha : a + n ≤ inv := hx'.ins_le hlt2 hj
        have hlength : x'.tbl.length = x.tbl.length + 1 := by
          rw [htbl]
          exact List.length_append
        obtain ⟨r, hbuilt, hrest⟩ := ih hx' hj' (by omega) (by omega) (by omega)
        rw [htbl] at hbuilt
        have hcons := hbuilt.cons hseg
        have hn : outv - (j + 1) + 1 = outv - j := by omega
        have hout : 1 + (outv - (j + 1)) = outv - j := by omega
        have hin : n + (inv - (a + n)) = inv - a := by omega
        rw [hn, hout, hin] at hcons
        rw [if_pos hend] at hround
        exact ⟨r, hcons, gives_loop_next _ hround hrest⟩
    · rw [if_neg (Nat.not_lt.mpr hfull)] at hround
      exact ⟨_, Built.of_full hfull (by omega), gives_loop_done _ hround⟩

/-- The entries that a reduced ratio needs. -/
def ppEntries (inv outv : ℕ) : ℕ := if inv = 4 * outv then 4 else outv

/-- The ratios that the PP can do: up to 1:4 up, up to 2:1 or 4:1 down. -/
def RatioOk (inv outv : ℕ) : Prop := outv ≤ 4 * inv ∧ (inv ≤ 2 * outv ∨ inv = 4 * outv)

/-- A downscale by two: one entry. -/
theorem gives_ppScale1d_half (tbl : List ℕ) :
    ∃ r, Built tbl 1 1 2 r ∧ Gives (ppScale1d tbl 2 1) r := by
  obtain ⟨e, hseg, hentry⟩ := gives_ppScale0d tbl 1 2 2 (by decide)
    (by decide) (by decide) (by decide)
  have hdrop : Gives (loop (0, 2) (ppDrop 1) intValues (0, 2)) (0, 2) :=
    gives_loop_done 4294967295 ⟨rfl, by decide⟩
  have hround : Gives (ppHalve 0 1 (tbl, 0))
      (if tbl.length < ppTblMax then .inr (.ok (tbl ++ [e])) else .inr (.error eNoSpc)) := by
    refine Yields.bind ⟨rfl, by decide⟩ (hdrop.bind (hentry.bind ?_))
    split <;> exact Yields.pure _
  have hscale : ∀ r, Gives (loop (.error eNoSpc) (ppHalve 0 1) (ppTblMax + 1) (tbl, 0)) r →
      Gives (ppScale1d tbl 2 1) r := by
    intro r hr
    exact Yields.bind ⟨rfl, by decide⟩ (Yields.bind ⟨rfl, by decide⟩ (Yields.bind ⟨rfl, by decide⟩ hr))
  rcases Nat.lt_or_ge tbl.length ppTblMax with hroom | hfull
  · rw [if_pos hroom] at hround
    exact ⟨_, Built.last hseg hroom, hscale _ (gives_loop_done _ hround)⟩
  · rw [if_neg (Nat.not_lt.mpr hfull)] at hround
    exact ⟨_, Built.of_full hfull (by decide), hscale _ (gives_loop_done _ hround)⟩

/-- A downscale by four: four entries. -/
theorem gives_ppScale1d_quarter (tbl : List ℕ) :
    ∃ r, Built tbl 4 1 4 r ∧ Gives (ppScale1d tbl 4 1) r := by
  have hentry := gives_ppScale0d_four tbl
  have hdrop : Gives (loop (2, 2) (ppDrop 1) intValues (2, 2)) (0, 4) := by
    refine gives_loop_next 4294967295 (t := (1, 3)) ⟨rfl, by decide⟩ ?_
    refine gives_loop_next 4294967294 (t := (0, 4)) ⟨rfl, by decide⟩ ?_
    exact gives_loop_done 4294967293 ⟨rfl, by decide⟩
  have hround : Gives (ppHalve 2 1 (tbl, 0))
      (.inr (if tbl.length + 4 ≤ ppTblMax then .ok (tbl ++ quarterEntries) else .error eNoSpc)) := by
    refine Yields.bind ⟨rfl, by decide⟩ (hdrop.bind (hentry.bind ?_))
    split <;> exact Yields.pure _
  refine ⟨if tbl.length + 4 ≤ ppTblMax then .ok (tbl ++ quarterEntries) else .error eNoSpc, ?_, ?_⟩
  · refine ⟨fun hfits => ?_, fun hfull => ?_⟩
    · rw [if_pos hfits]
      exact ⟨quarterEntries, quarterEntries_segment, rfl, rfl⟩
    · rw [if_neg (Nat.not_le.mpr hfull)]
  · exact Yields.bind ⟨rfl, by decide⟩ (Yields.bind ⟨rfl, by decide⟩ (Yields.bind ⟨rfl, by decide⟩
      (gives_loop_done _ hround)))

/-- **One direction.** A reduced ratio that the PP can do leads to a segment that takes `inv` samples
and gives `outv`, where its entries fit. -/
theorem gives_ppScale1d (hpos : 0 < inv) (hpos' : 0 < outv) (hsmall : inv ≤ 65535)
    (hsmall' : outv ≤ 65535) (hcop : Nat.Coprime inv outv) (hratio : RatioOk inv outv)
    {tbl : List ℕ} (hlen : tbl.length ≤ ppTblMax) :
    ∃ r, Built tbl (ppEntries inv outv) outv inv r ∧ Gives (ppScale1d tbl inv outv) r := by
  rcases Nat.lt_trichotomy inv outv with hup | hsame | hdown
  · -- An upscale starts at phase 0.
    have hentries : ppEntries inv outv = outv := by
      unfold ppEntries
      rw [if_neg (by omega)]
    obtain ⟨r, hbuilt, hrun⟩ := gives_ppUpscale_loop hpos hup hsmall' hcop (ppTblMax + 1) tbl
      (j := 0) (a := 0) (v := 0) hpos' hpos' (by omega) hlen (by omega)
    refine ⟨r, by rwa [hentries], ?_⟩
    unfold ppScale1d
    rw [if_neg (by omega), if_pos (by omega)]
    exact hrun
  · -- Equal sides in lowest terms are 1:1, which takes one entry.
    subst hsame
    have hone : inv = 1 := (Nat.coprime_self inv).mp hcop
    subst hone
    obtain ⟨e, hseg, hentry⟩ := gives_ppScale0d tbl 1 1 1 (by decide)
      (by decide) (by decide) (by decide)
    rcases Nat.lt_or_ge tbl.length ppTblMax with hroom | hfull
    · rw [if_pos hroom] at hentry
      exact ⟨_, Built.last hseg hroom, hentry⟩
    · rw [if_neg (Nat.not_lt.mpr hfull)] at hentry
      exact ⟨_, Built.of_full hfull (by decide), hentry⟩
  · rcases Nat.lt_or_ge inv (2 * outv) with hfrac | hwhole
    · have hentries : ppEntries inv outv = outv := by
        unfold ppEntries
        rw [if_neg (by omega)]
      have hstart : InWindow inv outv 0 0 ⟨tbl, 3 * outv, inv, inv - outv⟩ := by
        refine ⟨?_, ?_, ?_, ?_, ?_⟩ <;> simp only <;> omega
      obtain ⟨r, hbuilt, hrun⟩ := gives_ppDownscale_loop hdown hfrac hsmall hcop (ppTblMax + 1)
        hstart hpos' hlen (Nat.zero_le _) (by simp only; omega)
      refine ⟨r, by rwa [hentries], ?_⟩
      unfold ppScale1d
      rw [if_neg (by omega), if_neg (by omega)]
      refine (gives_int (by omega) (by omega)).bind ?_
      rw [if_neg (by omega)]
      have hv : Gives (int ((outv : ℤ) + 2 * outv)) (3 * outv) :=
        (gives_int (by omega) (by omega)).of_eq (by ring)
      refine (gives_int (by omega) (by omega)).bind ((gives_int (by omega) (by omega)).bind ?_)
      exact hv.bind hrun
    · -- Of the whole ratios only 2:1 and 4:1 are left, and they are reduced.
      have hdvd : outv ∣ inv := by
        rcases hratio.2 with h | h
        · exact ⟨2, by omega⟩
        · exact ⟨4, by omega⟩
      have hone : outv = 1 := Nat.Coprime.eq_one_of_dvd hcop.symm hdvd
      subst hone
      have hcases : inv = 2 ∨ inv = 4 := by
        rcases hratio.2 with h | h <;> omega
      rcases hcases with rfl | rfl
      · exact gives_ppScale1d_half tbl
      · exact gives_ppScale1d_quarter tbl

end Cycle

end Kernel
end ToonVpu
