import Mathlib.Algebra.Order.Round
import Mathlib.Data.List.DropRight
import Mathlib.Data.Rat.Floor
import ToonVpu.Foundation.LastWins
import ToonVpu.Stream.Buffers
import ToonVpu.Stream.RtspUrl

/-!
# PpCsc — the colour settings of the PP (`load_pp_csc_config` of `apps/vpu_stream.c`)

The six coefficients of the colour conversion come from `toonui.cfg`.  A coefficient can be given by
a key of its own, all six together by `camera_pp_csc`, and what is given by neither is scaled from
five percentages.

`fgets` reads up to 159 bytes; a line that is longer comes in pieces, and each piece counts as a
line.
-/

namespace ToonVpu
namespace Stream

open Foundation
open Foundation.LastWins
open Foundation.Text

/-! ## Numbers -/

/-- The value of a digit of a base of at most 36. -/
def digitIn (base : ℕ) (c : UInt8) : Option ℕ :=
  let d :=
    if isDigit c then c.toNat - 48
    else if 97 ≤ lower c ∧ lower c ≤ 122 then (lower c).toNat - 87
    else base
  if d < base then some d else none

/-- The digits at the front. -/
def digitsIn (base : ℕ) : List UInt8 → List ℕ
  | [] => []
  | c :: rest =>
    match digitIn base c with
    | none => []
    | some d => d :: digitsIn base rest

/-- An integer with the base that its prefix says, and what comes behind it. -/
def scanInt (s : List UInt8) : Option (ℤ × List UInt8) :=
  let s := s.dropWhile isSpace
  let neg := s.head? = some 45
  let s := if s.head? = some 45 ∨ s.head? = some 43 then s.drop 1 else s
  let (base, s) :=
    if beginsWith (ascii "0x") s then (16, s.drop 2)
    else if s.head? = some 48 then (8, s)
    else (10, s)
  let ds := digitsIn base s
  if ds = [] then
    none
  else
    let n : ℤ := (ds.foldl (fun n d => n * base + d) 0 : ℕ)
    some (if neg then -n else n, s.drop ds.length)

/-- `strtoul(s, NULL, 0)`. -/
def strtoul (s : List UInt8) : ℕ :=
  match scanInt s with
  | none => 0
  | some (n, _) => if 4294967295 < n.natAbs then 4294967295 else u32 n

/-- `(int)strtoul(s, NULL, 0)`. -/
def strtoulInt (s : List UInt8) : ℤ := i32 (strtoul s)

/-- What `sscanf` converts by `%i,%i,..` before the first mismatch. -/
def scanCsv : ℕ → List UInt8 → List ℤ
  | 0, _ => []
  | n + 1, s =>
    match scanInt s with
    | none => []
    | some (x, rest) =>
      max (-2147483648) (min x 2147483647) ::
        (match rest with
        | 44 :: rest => scanCsv n rest
        | _ => [])

/-! ## Coefficients -/

/-- A field of `struct vpu_pp_csc`. -/
inductive Coeff
  | c0
  | c1
  | c2
  | c3
  | c4
  | x0
  deriving DecidableEq, Repr

/-- `struct vpu_pp_csc`. -/
structure VpuPpCsc where
  c0 : ℕ
  c1 : ℕ
  c2 : ℕ
  c3 : ℕ
  c4 : ℕ
  x0 : ℕ
  deriving DecidableEq, Repr

def VpuPpCsc.get (csc : VpuPpCsc) : Coeff → ℕ
  | .c0 => csc.c0
  | .c1 => csc.c1
  | .c2 => csc.c2
  | .c3 => csc.c3
  | .c4 => csc.c4
  | .x0 => csc.x0

def VpuPpCsc.set (csc : VpuPpCsc) (x : Coeff) (v : ℕ) : VpuPpCsc :=
  match x with
  | .c0 => { csc with c0 := v }
  | .c1 => { csc with c1 := v }
  | .c2 => { csc with c2 := v }
  | .c3 => { csc with c3 := v }
  | .c4 => { csc with c4 := v }
  | .x0 => { csc with x0 := v }

def scaleCoeff (base : ℕ) (pct : ℤ) (max : ℕ) : ℕ :=
  let pct := clampInt pct 0 200
  let v := u32 ((u32 (base * u32 pct) : ℤ) + 50) / 100
  if max < v then max else v

/-- `parse_pp_csc_csv`; `none` stands for `-1`, with `csc` left alone. -/
def parsePpCscCsv (v : List UInt8) : Option VpuPpCsc :=
  match scanCsv 6 v with
  | [c0, c1, c2, c3, c4, x0] => some ⟨u32 c0, u32 c1, u32 c2, u32 c3, u32 c4, u32 x0⟩
  | _ => none

/-! ## The file -/

/-- What `trim_ws` takes away. -/
def isWs (c : UInt8) : Bool := c == 32 || c == 9 || c == 13 || c == 10

def trimWs (s : List UInt8) : List UInt8 := (s.dropWhile isWs).rdropWhile isWs

/-- One `fgets` into an array of `size` bytes: what is read, with its newline, and what is left. -/
def fgets : (size : ℕ) → List UInt8 → List UInt8 × List UInt8
  | 0, s => ([], s)
  | 1, s => ([], s)
  | _ + 2, [] => ([], [])
  | size + 2, c :: rest =>
    if c = 10 then
      ([c], rest)
    else
      let (line, rest) := fgets (size + 1) rest
      (c :: line, rest)

/-- The calls of `fgets` until the end of the file. -/
def fgetsLines : (fuel : ℕ) → List UInt8 → List (List UInt8)
  | 0, _ => []
  | _ + 1, [] => []
  | fuel + 1, s =>
    let (line, rest) := fgets 160 s
    line :: fgetsLines fuel rest

/-- The key and the value of a line; a string ends at its first zero byte. -/
def cfgEntry (line : List UInt8) : Option (List UInt8 × List UInt8) :=
  let k := trimWs (line.takeWhile (· ≠ 0))
  if k.head? = none ∨ k.head? = some 35 then
    none
  else
    match strchr k 61 with
    | none => none
    | some eq => some (trimWs (upTo k eq), trimWs (eq.drop 1))

/-- The entries of the file in the order they are read. -/
def cfgEntries (content : List UInt8) : List (List UInt8 × List UInt8) :=
  (fgetsLines content.length content).filterMap cfgEntry

/-! ## The settings -/

/-- The variables `luma`, `sat`, `red`, `green` and `blue`. -/
inductive Pct
  | luma
  | sat
  | red
  | green
  | blue
  deriving DecidableEq, Repr

inductive CfgKey
  | pct (p : Pct)
  | raw (x : Coeff)
  | csc
  deriving DecidableEq, Repr

def CfgKey.text : CfgKey → List UInt8
  | .pct .luma => ascii "camera_pp_luma_pct"
  | .pct .sat => ascii "camera_pp_sat_pct"
  | .pct .red => ascii "camera_pp_red_pct"
  | .pct .green => ascii "camera_pp_green_pct"
  | .pct .blue => ascii "camera_pp_blue_pct"
  | .raw .c0 => ascii "camera_pp_c0"
  | .raw .c1 => ascii "camera_pp_c1"
  | .raw .c2 => ascii "camera_pp_c2"
  | .raw .c3 => ascii "camera_pp_c3"
  | .raw .c4 => ascii "camera_pp_c4"
  | .raw .x0 => ascii "camera_pp_x0"
  | .csc => ascii "camera_pp_csc"

/-- The comparisons of `load_pp_csc_config`, in its order. -/
def cfgKey (k : List UInt8) : Option CfgKey :=
  [.pct .luma, .pct .sat, .pct .red, .pct .green, .pct .blue, .raw .c0, .raw .c1, .raw .c2,
    .raw .c3, .raw .c4, .raw .x0, .csc].find? fun key => decide (k = key.text)

/-- The variables of `load_pp_csc_config`. -/
structure CscLoad where
  pct : Pct → ℤ
  raw : Coeff → ℤ
  csc : VpuPpCsc

/-- One round of the loop over the lines. -/
def readCscEntry (s : CscLoad) (e : List UInt8 × List UInt8) : CscLoad :=
  match cfgKey e.1 with
  | some (.pct p) => { s with pct := Function.update s.pct p (atoi e.2) }
  | some (.raw x) => { s with raw := Function.update s.raw x (strtoulInt e.2) }
  | some .csc => { s with csc := (parsePpCscCsv e.2).getD s.csc }
  | none => s

/-- The coefficients before the file is read. -/
def defaultCsc : VpuPpCsc := ⟨0x95, 0xcc, 0x32, 0x68, 0x104, 1⟩

def CscLoad.init : CscLoad := ⟨fun _ => 100, fun _ => -1, defaultCsc⟩

/-- The coefficients from the percentages; all six fields are set. -/
def scaleCsc (s : CscLoad) : VpuPpCsc :=
  let luma := clampInt (s.pct .luma) 0 200
  let sat := clampInt (s.pct .sat) 0 200
  let red := clampInt ((sat * clampInt (s.pct .red) 0 200 + 50).tdiv 100) 0 200
  let green := clampInt ((sat * clampInt (s.pct .green) 0 200 + 50).tdiv 100) 0 200
  let blue := clampInt ((sat * clampInt (s.pct .blue) 0 200 + 50).tdiv 100) 0 200
  { s.csc with
    c0 := scaleCoeff 0x95 luma 0xff
    c1 := scaleCoeff 0xcc red 0xff
    c2 := scaleCoeff 0x32 green 0xff
    c3 := scaleCoeff 0x68 green 0xff
    c4 := scaleCoeff 0x104 blue 0x1ff
    x0 := 1 }

def overrideCsc (raw : Coeff → ℤ) (csc : VpuPpCsc) : VpuPpCsc :=
  [Coeff.c0, .c1, .c2, .c3, .c4, .x0].foldl
    (fun csc x => if 0 ≤ raw x then csc.set x (raw x).toNat else csc) csc

/-- `load_pp_csc_config`; `none` is a file that cannot be opened. -/
def loadPpCscConfig (file : Option (List UInt8)) : VpuPpCsc :=
  match file with
  | none => defaultCsc
  | some content =>
    let s := (cfgEntries content).foldl readCscEntry .init
    overrideCsc s.raw (scaleCsc s)

/-! ## Lines -/

section Lines

variable {line rest : List UInt8}

/-- White space at the end goes. -/
theorem trimWs_concat {c : UInt8} (hc : isWs c = true) (s : List UInt8) :
    trimWs (s ++ [c]) = trimWs s := by
  have hfront : (s ++ [c]).dropWhile isWs =
      if (s.dropWhile isWs).isEmpty then [] else s.dropWhile isWs ++ [c] := by
    rw [List.dropWhile_append, List.dropWhile_cons_of_pos hc, List.dropWhile_nil]
  unfold trimWs
  rw [hfront]
  cases s.dropWhile isWs with
  | nil => rfl
  | cons x xs => exact List.rdropWhile_concat_pos isWs (x :: xs) c hc

/-- The newline of a line does not matter. -/
theorem cfgEntry_newline (line : List UInt8) : cfgEntry (line ++ [10]) = cfgEntry line := by
  have hnewline : isWs 10 = true := by decide
  have htrim : trimWs ((line ++ [10]).takeWhile (· ≠ 0)) = trimWs (line.takeWhile (· ≠ 0)) := by
    rw [List.takeWhile_append]
    split
    · rename_i hall
      have hself : line.takeWhile (· ≠ 0) = line :=
        (List.takeWhile_prefix _).eq_of_length hall
      rw [hself]
      exact trimWs_concat hnewline line
    · rfl
  unfold cfgEntry
  simp only [htrim]

/-- A line that fits is read as a whole. -/
theorem fgets_line {size : ℕ} (hsize : line.length + 1 < size) (hline : 10 ∉ line) :
    fgets size (line ++ 10 :: rest) = (line ++ [10], rest) := by
  induction line generalizing size with
  | nil =>
    obtain ⟨n, rfl⟩ : ∃ n, size = n + 2 := ⟨size - 2, by simp at hsize; omega⟩
    rfl
  | cons c line ih =>
    rw [List.length_cons] at hsize
    obtain ⟨n, rfl⟩ : ∃ n, size = n + 2 := ⟨size - 2, by omega⟩
    rw [List.mem_cons, not_or] at hline
    have hrest : fgets (n + 1) (line ++ 10 :: rest) = (line ++ [10], rest) :=
      ih (by omega) hline.2
    have hc : c ≠ 10 := fun h => hline.1 h.symm
    simp only [List.cons_append, fgets, if_neg hc, hrest]

/-- **Lines.** The entries of a file whose lines fit are those of its lines. -/
theorem cfgEntries_lines (lines : List (List UInt8))
    (hlines : ∀ line ∈ lines, 10 ∉ line ∧ line.length < 159) :
    cfgEntries (lines.flatMap (· ++ [10])) = lines.filterMap cfgEntry := by
  have hread : ∀ fuel, (lines.flatMap (· ++ [10])).length ≤ fuel →
      fgetsLines fuel (lines.flatMap (· ++ [10])) = lines.map (· ++ [10]) := by
    induction lines with
    | nil =>
      intro fuel _
      cases fuel <;> rfl
    | cons line lines ih =>
      intro fuel hfuel
      obtain ⟨hline, hlen⟩ := hlines line List.mem_cons_self
      have hsplit : (line :: lines).flatMap (· ++ [10]) =
          line ++ 10 :: lines.flatMap (· ++ [10]) := by
        simp
      rw [hsplit, List.length_append, List.length_cons] at hfuel
      obtain ⟨n, rfl⟩ : ∃ n, fuel = n + 1 := ⟨fuel - 1, by omega⟩
      have hfgets : fgets 160 (line ++ 10 :: lines.flatMap (· ++ [10])) =
          (line ++ [10], lines.flatMap (· ++ [10])) := fgets_line (by omega) hline
      have hrest := ih (fun line' hmem => hlines line' (List.mem_cons_of_mem _ hmem)) n (by omega)
      rw [hsplit, fgetsLines, hfgets]
      · simp only [hrest, List.map_cons]
      · simp
  unfold cfgEntries
  rw [hread _ (Nat.le_refl _), List.filterMap_map]
  exact congrArg (lines.filterMap ·) (funext cfgEntry_newline)

end Lines

/-! ## What the settings mean -/

abbrev Entries : Type := List (List UInt8 × List UInt8)

/-- The value of an entry with that key. -/
def valueFor (key : CfgKey) (e : List UInt8 × List UInt8) : Option (List UInt8) :=
  if e.1 = key.text then some e.2 else none

/-- A number that is not negative. -/
def unlessNegative (n : ℤ) : Option ℕ := if 0 ≤ n then some n.toNat else none

/-- The last override of a coefficient, unless it is negative. -/
def rawOverride (entries : Entries) (x : Coeff) : Option ℕ :=
  ((lastOf (valueFor (.raw x)) entries).map strtoulInt).bind unlessNegative

/-- The last line for all coefficients that is well-formed. -/
def cscLine (entries : Entries) : Option VpuPpCsc :=
  lastOf (fun e => (valueFor .csc e).bind parsePpCscCsv) entries

/-- A percentage between 0 and 200, from the last entry with its key. -/
def percentage (entries : Entries) (p : Pct) : ℤ :=
  max 0 (min (((lastOf (valueFor (.pct p)) entries).map atoi).getD 100) 200)

/-- A percentage of a number, rounded to the nearest integer. -/
def percentOf (pct x : ℤ) : ℤ := round ((pct * x : ℚ) / 100)

/-- The percentage of a colour: its own percentage of the saturation. -/
def colour (entries : Entries) (p : Pct) : ℤ :=
  min (percentOf (percentage entries p) (percentage entries .sat)) 200

/-- The coefficient that the percentages give. -/
def scaledCoeff (entries : Entries) : Coeff → ℤ
  | .c0 => min (percentOf (percentage entries .luma) 0x95) 0xff
  | .c1 => min (percentOf (colour entries .red) 0xcc) 0xff
  | .c2 => min (percentOf (colour entries .green) 0x32) 0xff
  | .c3 => min (percentOf (colour entries .green) 0x68) 0xff
  | .c4 => min (percentOf (colour entries .blue) 0x104) 0x1ff
  | .x0 => 1

/-- What the settings say of a coefficient. -/
def resolvedCoeff (entries : Entries) (x : Coeff) : ℤ :=
  match rawOverride entries x, cscLine entries with
  | some v, _ => v
  | none, some line => line.get x
  | none, none => scaledCoeff entries x

/-- The settings of a file; one that cannot be opened has none. -/
def fileEntries (file : Option (List UInt8)) : Entries := (file.map cfgEntries).getD []

/-- The line for all coefficients says nothing that the rest of the file does not say. -/
def CscLineIdle (entries : Entries) : Prop :=
  ∀ line, cscLine entries = some line → ∀ x, rawOverride entries x = none →
    (line.get x : ℤ) = scaledCoeff entries x

/-! ## Scaling -/

theorem round_div_hundred (x : ℤ) : round ((x : ℚ) / 100) = (x + 50) / 100 := by
  have hsum : (x : ℚ) / 100 + 1 / 2 = ((x + 50 : ℤ) : ℚ) / ((100 : ℕ) : ℚ) := by
    push_cast
    ring
  calc round ((x : ℚ) / 100) = ⌊(x : ℚ) / 100 + 1 / 2⌋ := round_eq _
    _ = ⌊((x + 50 : ℤ) : ℚ) / ((100 : ℕ) : ℚ)⌋ := by rw [hsum]
    _ = (x + 50) / 100 := Rat.floor_intCast_div_natCast _ _

theorem percentOf_eq (pct x : ℤ) : percentOf pct x = (pct * x + 50) / 100 := by
  have hcast : (pct * x : ℚ) = ((pct * x : ℤ) : ℚ) := (Int.cast_mul pct x).symm
  rw [percentOf, hcast, round_div_hundred]

theorem clampInt_eq (v : ℤ) : clampInt v 0 200 = max 0 (min v 200) := by
  unfold clampInt
  split_ifs <;> omega

/-- Nothing overflows. -/
theorem scaleCoeff_eq {base max : ℕ} {pct : ℤ} (hbase : base ≤ 1000) (hpos : 0 ≤ pct)
    (hle : pct ≤ 200) : (scaleCoeff base pct max : ℤ) = min (percentOf pct base) max := by
  obtain ⟨p, rfl⟩ := Int.eq_ofNat_of_zero_le hpos
  have hmul : base * p ≤ 1000 * 200 := Nat.mul_le_mul hbase (by omega)
  have hpct : u32 (p : ℤ) = p := u32_eq rfl (by omega)
  have hprod : u32 ((base : ℤ) * (p : ℕ)) = base * p := u32_eq (by push_cast; rfl) (by omega)
  have hsum : u32 (((base * p : ℕ) : ℤ) + 50) = base * p + 50 :=
    u32_eq (by push_cast; rfl) (by omega)
  have hclamp : clampInt (p : ℤ) 0 200 = p := by
    rw [clampInt_eq]
    omega
  have hswap : (p : ℤ) * base = ((base * p : ℕ) : ℤ) := by
    push_cast
    ring
  rw [percentOf_eq, hswap]
  unfold scaleCoeff
  simp only [hclamp, hpct, hprod, hsum]
  split <;> omega

/-! ## The loop -/

theorem cfgKey_text (key : CfgKey) : cfgKey key.text = some key := by
  cases key with
  | pct p => cases p <;> decide +kernel
  | raw x => cases x <;> decide +kernel
  | csc => decide +kernel

theorem cfgKey_eq_some_iff {k : List UInt8} {key : CfgKey} :
    cfgKey k = some key ↔ k = key.text := by
  constructor
  · intro h
    unfold cfgKey at h
    have hfound := List.find?_some h
    exact of_decide_eq_true hfound
  · rintro rfl
    exact cfgKey_text key

theorem valueFor_eq (key : CfgKey) (e : List UInt8 × List UInt8) :
    valueFor key e = if cfgKey e.1 = some key then some e.2 else none := by
  simp only [valueFor, cfgKey_eq_some_iff]

section Loop

variable (s : CscLoad) (e : List UInt8 × List UInt8)

theorem readCscEntry_pct (p : Pct) :
    (readCscEntry s e).pct p = ((valueFor (.pct p) e).map atoi).getD (s.pct p) := by
  rw [valueFor_eq, readCscEntry]
  generalize cfgKey e.1 = found
  cases found with
  | none => rfl
  | some key =>
    cases key with
    | pct p' =>
      by_cases hp : p = p'
      · simp [hp]
      · have hne : p' ≠ p := fun h => hp h.symm
        simp [hp, hne]
    | raw x => simp
    | csc => simp

theorem readCscEntry_raw (x : Coeff) : (readCscEntry s e).raw x =
    ((valueFor (.raw x) e).map strtoulInt).getD (s.raw x) := by
  rw [valueFor_eq, readCscEntry]
  generalize cfgKey e.1 = found
  cases found with
  | none => rfl
  | some key =>
    cases key with
    | pct p => rw [if_neg (by simp), Option.map_none, Option.getD_none]
    | raw x' =>
      -- every step is a rewriting: the number is never computed
      by_cases hx : x = x'
      · subst hx
        rw [if_pos rfl, Option.map_some, Option.getD_some]
        exact Function.update_self _ _ _
      · have hne : x' ≠ x := fun h => hx h.symm
        rw [if_neg (by simp [hne]), Option.map_none, Option.getD_none]
        exact Function.update_of_ne hx _ _
    | csc => rw [if_neg (by simp), Option.map_none, Option.getD_none]

end Loop

/-- The variables after the loop over the lines. -/
theorem read_pct (entries : Entries) (p : Pct) :
    (entries.foldl readCscEntry .init).pct p =
      ((lastOf (valueFor (.pct p)) entries).map atoi).getD 100 := by
  have hlast := foldl_eq_lastOf (fun s : CscLoad => s.pct p)
    (fun s e => readCscEntry_pct s e p) entries .init
  rw [lastOf_map] at hlast
  exact hlast

theorem read_raw (entries : Entries) (x : Coeff) :
    (entries.foldl readCscEntry .init).raw x =
      ((lastOf (valueFor (.raw x)) entries).map strtoulInt).getD (-1) := by
  have hlast := foldl_eq_lastOf (fun s : CscLoad => s.raw x)
    (fun s e => readCscEntry_raw s e x) entries .init
  rw [lastOf_map] at hlast
  exact hlast

/-! ## The result -/

theorem get_set (csc : VpuPpCsc) (x y : Coeff) (v : ℕ) :
    (csc.set y v).get x = if y = x then v else csc.get x := by
  cases y <;> cases x <;> rfl

theorem get_overrideCsc (raw : Coeff → ℤ) (csc : VpuPpCsc) (x : Coeff) :
    (overrideCsc raw csc).get x = if 0 ≤ raw x then (raw x).toNat else csc.get x := by
  -- a coefficient is set in its own round only
  have hround : ∀ (csc : VpuPpCsc) (y : Coeff),
      (if 0 ≤ raw y then csc.set y (raw y).toNat else csc).get x =
        if y = x then (if 0 ≤ raw x then (raw x).toNat else csc.get x) else csc.get x := by
    intro csc y
    by_cases hy : y = x
    · subst hy
      rw [if_pos rfl]
      split <;> simp only [get_set, if_true]
    · rw [if_neg hy]
      split <;> simp only [get_set, if_neg hy]
  unfold overrideCsc
  simp only [List.foldl_cons, List.foldl_nil, hround]
  cases x <;> simp

theorem get_scaleCsc (entries : Entries) (x : Coeff) :
    ((scaleCsc (entries.foldl readCscEntry .init)).get x : ℤ) = scaledCoeff entries x := by
  have hpct : ∀ p, clampInt ((entries.foldl readCscEntry .init).pct p) 0 200 =
      percentage entries p := by
    intro p
    rw [clampInt_eq, read_pct]
    rfl
  have hbound : ∀ p, 0 ≤ percentage entries p ∧ percentage entries p ≤ 200 := by
    intro p
    unfold percentage
    omega
  have hcolour : ∀ p, clampInt ((percentage entries .sat * percentage entries p + 50).tdiv 100)
      0 200 = colour entries p ∧ 0 ≤ colour entries p ∧ colour entries p ≤ 200 := by
    intro p
    have hprod : 0 ≤ percentage entries .sat * percentage entries p :=
      Int.mul_nonneg (hbound .sat).1 (hbound p).1
    rw [clampInt_eq, colour, percentOf_eq, Int.mul_comm (percentage entries p),
      Int.tdiv_eq_ediv_of_nonneg (by omega)]
    omega
  have hluma := hbound .luma
  unfold scaleCsc
  simp only [hpct, (hcolour _).1]
  cases x with
  | c0 => exact scaleCoeff_eq (by decide) hluma.1 hluma.2
  | c1 => exact scaleCoeff_eq (by decide) (hcolour .red).2.1 (hcolour .red).2.2
  | c2 => exact scaleCoeff_eq (by decide) (hcolour .green).2.1 (hcolour .green).2.2
  | c3 => exact scaleCoeff_eq (by decide) (hcolour .green).2.1 (hcolour .green).2.2
  | c4 => exact scaleCoeff_eq (by decide) (hcolour .blue).2.1 (hcolour .blue).2.2
  | x0 => rfl

/-- A file that cannot be opened is like an empty one. -/
theorem loadPpCscConfig_none : loadPpCscConfig none = loadPpCscConfig (some []) := by
  decide +kernel

/-- An override that was never read is negative. -/
theorem override_getD (n : Option ℤ) {v : ℕ} {scaled : ℤ} (hv : (v : ℤ) = scaled) :
    ((if 0 ≤ n.getD (-1) then (n.getD (-1)).toNat else v : ℕ) : ℤ) =
      ((n.bind unlessNegative).map Nat.cast).getD scaled := by
  cases n with
  | none => exact hv
  | some n =>
    by_cases hn : 0 ≤ n
    · simp [unlessNegative, hn]
    · simp [unlessNegative, hn, hv]

/-- The overrides count, and otherwise the percentages. -/
theorem get_loadPpCscConfig (file : Option (List UInt8)) (x : Coeff) :
    ((loadPpCscConfig file).get x : ℤ) =
      ((rawOverride (fileEntries file) x).map Nat.cast).getD
        (scaledCoeff (fileEntries file) x) := by
  have hsome : ∀ content, ((loadPpCscConfig (some content)).get x : ℤ) =
      ((rawOverride (cfgEntries content) x).map Nat.cast).getD
        (scaledCoeff (cfgEntries content) x) := by
    intro content
    rw [loadPpCscConfig, get_overrideCsc, read_raw, rawOverride]
    exact override_getD _ (get_scaleCsc _ x)
  cases file with
  | none =>
    rw [loadPpCscConfig_none]
    exact hsome []
  | some content => exact hsome content

/-- **The colour settings.** A file is resolved as its settings say exactly when its last line for
all coefficients changes nothing: the line is read and then overwritten. -/
theorem csc_resolution_iff (file : Option (List UInt8)) :
    (∀ x, ((loadPpCscConfig file).get x : ℤ) = resolvedCoeff (fileEntries file) x) ↔
      CscLineIdle (fileEntries file) := by
  have hfield : ∀ x, ((loadPpCscConfig file).get x : ℤ) = resolvedCoeff (fileEntries file) x ↔
      ∀ line, cscLine (fileEntries file) = some line → rawOverride (fileEntries file) x = none →
        (line.get x : ℤ) = scaledCoeff (fileEntries file) x := by
    intro x
    rw [get_loadPpCscConfig, resolvedCoeff]
    rcases rawOverride (fileEntries file) x with _ | v
    · rcases cscLine (fileEntries file) with _ | line
      · simp
      · simp [eq_comm]
    · simp
  simp only [hfield]
  exact ⟨fun h line hline x => h x line hline, fun h x line hline => h line hline x⟩

/-- A line for all coefficients; `c0` is not the default. -/
def lineConfig : List UInt8 := ascii "camera_pp_csc=0x94,0xcc,0x32,0x68,0x104,1\n"

theorem lineConfig_ignored :
    ¬ ∀ x, ((loadPpCscConfig (some lineConfig)).get x : ℤ) =
      resolvedCoeff (fileEntries (some lineConfig)) x := by
  intro h
  have hloaded : (loadPpCscConfig (some lineConfig)).get .c0 = 0x95 := by decide +kernel
  have hsaid : resolvedCoeff (fileEntries (some lineConfig)) .c0 = 0x94 := by decide +kernel
  have hsame := h .c0
  rw [hloaded, hsaid] at hsame
  exact absurd hsame (by decide)

end Stream
end ToonVpu
