import ToonVpu.Stream.SessionBuffers

/-!
# Placement — where the program writes the plane and reads the frame (`apps/vpu_stream.c`)

The plane is written in rows: by the blackfill of a clipped `--rect`, and by whatever renders a
frame into the output rectangle, which is the PP, the PrP, `render_frame_cpu` or the CPU blit.  Each
writer counts its bytes from the start of the mapping in `int`s.  `render_frame_cpu` reads the
planes of the decoded frame at the nearest sample.

The output rectangle is moved onto the plane and cut at its far edges; the blackfill goes by the
rectangle as it was requested.
-/

namespace ToonVpu
namespace Stream

open Foundation
open Lib

/-! ## The mapping -/

/-- The bytes of one row of the plane.  The graphic window of the overlay fetches 32 bits for each
of its 16-bit pixels. -/
def rowBytes (c : Config) : ℤ := if c.overlay then c.fb.w * 4 else c.fb.w * (c.fb.bpp / 8)

/-- `fb_stride`. -/
def fbStride (c : Config) : ℤ := i32 (rowBytes c)

/-- The plane has sides that are `int`s and a mapping whose length is one. -/
structure PlaneMapped (c : Config) : Prop where
  w : c.fb.w < 2147483648
  h : c.fb.h < 2147483648
  overlay : c.overlay = true → c.fb.bpp = 16
  length : rowBytes c * c.fb.h < 2147483648

/-- The arguments of `--rect` are `int`s. -/
structure RectIsInt (c : Config) : Prop where
  x : -2147483648 ≤ c.rectX ∧ c.rectX < 2147483648
  y : -2147483648 ≤ c.rectY ∧ c.rectY < 2147483648
  w : c.rectW < 2147483648
  h : c.rectH < 2147483648

/-- Bytes of one row of the plane, from the pixel `col` on. -/
structure Span where
  row : ℤ
  col : ℤ
  bytes : ℤ
  deriving DecidableEq, Repr

/-- `row * fb_stride + col * bpp`. -/
def Span.offset (c : Config) (s : Span) : ℤ :=
  i32 (i32 (s.row * fbStride c) + i32 (s.col * (c.fb.bpp / 8)))

/-- Writing the bytes stays inside the mapping, and inside the columns of the row. -/
def Span.Fits (c : Config) (s : Span) : Prop :=
  0 < s.bytes →
    (0 ≤ s.row ∧ s.row < c.fb.h) ∧
      (0 ≤ s.col ∧ s.col * (c.fb.bpp / 8) + s.bytes ≤ c.fb.w * (c.fb.bpp / 8)) ∧
      0 ≤ s.offset c ∧ s.offset c + s.bytes ≤ fbStride c * c.fb.h

/-! ## The writers -/

/-- The requested rectangle was cut, and what is left of it on the screen is to be cleared. -/
def blackfills (c : Config) (ii : DecInitialInfo) : Bool :=
  decide (c.overlay = false ∧ c.outputMode = .fb ∧ c.hasRect = true ∧
    ((outputRect c ii).outW < c.rectW ∨ (outputRect c ii).outH < c.rectH))

/-- `w_clip`. -/
def blackfillWidth (c : Config) : ℤ :=
  if c.fb.w < i32 (c.rectX + c.rectW) then i32 (c.fb.w - c.rectX) else c.rectW

/-- The bytes cleared in each row, a `size_t`. -/
def blackfillBytes (c : Config) : ℤ :=
  if 0 < blackfillWidth c then u32 (blackfillWidth c * (c.fb.bpp / 8)) else 0

/-- The rows the loop comes to before it leaves the plane at the bottom. -/
def blackfillRows (c : Config) : List ℤ :=
  ((List.range c.rectH.toNat).map fun yy : ℕ => i32 (c.rectY + yy)).takeWhile fun row =>
    decide (row < c.fb.h)

def blackfillSpans (c : Config) (ii : DecInitialInfo) : List Span :=
  if blackfills c ii then (blackfillRows c).map fun row => ⟨row, c.rectX, blackfillBytes c⟩ else []

/-- The rows of the output rectangle. -/
def outputSpans (c : Config) (out : OutputRect) : List Span :=
  (List.range out.outH.toNat).map fun row : ℕ =>
    ⟨i32 (out.offY + row), out.offX, out.outW * (c.fb.bpp / 8)⟩

/-! ## The reader -/

/-- The source position of the pixel `k`, in either direction of the picture. -/
def nearest (k src out : ℤ) : ℤ := (i32 (k * src)).tdiv out

/-- The index into the luma plane. -/
def lumaIndex (b : Buffers) (sy sx : ℤ) : ℤ := i32 (i32 (sy * b.stride) + sx)

/-- The index into each chroma plane. -/
def chromaIndex (b : Buffers) (sy sx : ℤ) : ℤ :=
  i32 (i32 (sy.tdiv 2 * b.stride.tdiv 2) + sx.tdiv 2)

/-- `render_frame_cpu` samples inside the planes of the frame. -/
def SamplesFit (c : Config) (ii : DecInitialInfo) (b : Buffers) : Prop :=
  let out := outputRect c ii
  ∀ row col : ℤ, 0 ≤ row → row < out.outH → 0 ≤ col → col < out.outW →
    let sy := nearest row (visibleSize c ii).2 out.outH
    let sx := nearest col (visibleSize c ii).1 out.outW
    (0 ≤ lumaIndex b sy sx ∧ lumaIndex b sy sx < b.ysize) ∧
      0 ≤ chromaIndex b sy sx ∧ chromaIndex b sy sx < b.csize

/-- Every access of a session that shows the picture `ii` with the frame buffers `b`. -/
structure AccessesFit (c : Config) (ii : DecInitialInfo) (b : Buffers) : Prop where
  blackfill : ∀ s ∈ blackfillSpans c ii, s.Fits c
  output : ∀ s ∈ outputSpans c (outputRect c ii), s.Fits c
  samples : c.cpuRender = true → c.fb.bpp = 16 → SamplesFit c ii b

/-! ## When the accesses fit -/

/-- The far edges of `--rect` fit an `int`; where the blackfill clears anything, the corner of the
rectangle is on the plane; and the sampling neither overflows nor comes below the frame. -/
structure WellPlaced (c : Config) (ii : DecInitialInfo) (b : Buffers) : Prop where
  edges : RectInRange c
  corner : blackfills c ii = true → blackfillBytes c ≠ 0 → 0 ≤ c.rectX ∧ 0 ≤ c.rectY
  samples : c.cpuRender = true → c.fb.bpp = 16 →
    let out := outputRect c ii
    (out.outW - 1) * (visibleSize c ii).1 < 2147483648 ∧
      (out.outH - 1) * (visibleSize c ii).2 < 2147483648 ∧
      (out.outH - 1) * (visibleSize c ii).2 / out.outH < b.ah

/-! ## The output rectangle -/

section Clipping

/-- One direction of the rectangle is on the plane exactly when its far edge fits an `int`. -/
theorem clipAxis_inside {off out len : ℤ} (hoff : off < 2147483648) (hlen : 0 ≤ len)
    (hlen' : len < 2147483648) (hout : 0 ≤ out) (hout' : out < 2147483648) :
    (0 ≤ (clipAxis off out len).1 ∧ (clipAxis off out len).1 < 2147483648) ∧
      (clipAxis off out len).2 < 2147483648 ∧
      ((clipAxis off out len).1 + (clipAxis off out len).2 ≤ len ↔
        max off 0 + out < 2147483648) := by
  simp only [clipAxis]
  generalize ho : (if off < 0 then 0 else off) = o
  have hmax : o = max off 0 := by
    rw [← ho]
    split <;> omega
  have hedge : i32 (len - o) = len - o := i32_eq (by omega) (by omega)
  by_cases hsum : o + out < 2147483648
  · have hfar : i32 (o + out) = o + out := i32_eq (by omega) hsum
    rw [hfar, hedge]
    split <;> omega
  · -- the sum wraps below zero, and nothing is cut
    have hwrap : i32 (o + out) < 0 := by
      unfold i32
      omega
    rw [if_neg (by omega)]
    omega

variable {c : Config} {ii : DecInitialInfo}

/-- The same for what `outputRect` asks of it. -/
theorem axis_inside (rect : Bool) {off out len : ℤ} {src : ℕ} {rectOff rectLen : ℤ}
    (hlen : 0 ≤ len) (hlen' : len < 2147483648) (hsrc : src < 1024)
    (hrect : rect = true → rectOff < 2147483648 ∧ 0 < rectLen ∧ rectLen < 2147483648)
    (hout : out = if rect then rectLen else (src : ℤ))
    (hoff : off = if rect then rectOff else (i32 (len - out)).tdiv 2) :
    (0 ≤ (clipAxis off out len).1 ∧ (clipAxis off out len).1 < 2147483648) ∧
      (clipAxis off out len).2 < 2147483648 ∧
      ((clipAxis off out len).1 + (clipAxis off out len).2 ≤ len ↔
        (rect = true → max rectOff 0 + rectLen < 2147483648)) := by
  cases rect with
  | true =>
    obtain ⟨hx, hpos, hl⟩ := hrect rfl
    rw [if_pos rfl] at hout hoff
    have hclip := @clipAxis_inside _ rectLen _ hx hlen hlen' hpos.le hl
    rw [hout, hoff]
    exact ⟨hclip.1, hclip.2.1, hclip.2.2.trans ⟨fun h _ => h, fun h => h rfl⟩⟩
  | false =>
    rw [if_neg Bool.false_ne_true] at hout hoff
    have hhalf : 2 * off ≤ len + 2 := by
      rw [hoff, hout, i32_eq (by omega) (by omega), Int.tdiv_eq_ediv]
      split
      · omega
      · rw [show Int.sign 2 = 1 from rfl]
        omega
    have hclip := @clipAxis_inside off src _ (by omega) hlen hlen' (by omega)
      (by omega)
    rw [hout]
    have hsum : max off 0 + src < 2147483648 := by omega
    exact ⟨hclip.1, hclip.2.1, hclip.2.2.trans ⟨fun _ h => by simp at h, fun _ => hsum⟩⟩

/-- The output rectangle, whose offsets are on the plane or beyond it, lies on the plane exactly
when the far edges of `--rect` fit an `int`. -/
structure OnPlane (c : Config) (out : OutputRect) : Prop where
  offX : 0 ≤ out.offX ∧ out.offX < 2147483648
  offY : 0 ≤ out.offY ∧ out.offY < 2147483648
  outW : out.outW < 2147483648
  outH : out.outH < 2147483648
  inside : out.offX + out.outW ≤ c.fb.w ∧ out.offY + out.outH ≤ c.fb.h ↔ RectInRange c

theorem outputRect_onPlane (hplane : PlaneMapped c) (hrect : RectIsInt c) (hii : PicSizeOk ii) :
    OnPlane c (outputRect c ii) := by
  have hsrc := visibleSize_lt (c := c) hii
  have hx : c.hasRect = true → c.rectX < 2147483648 ∧ 0 < c.rectW ∧ c.rectW < 2147483648 :=
    fun h => ⟨hrect.x.2, (of_decide_eq_true h).1, hrect.w⟩
  have hy : c.hasRect = true → c.rectY < 2147483648 ∧ 0 < c.rectH ∧ c.rectH < 2147483648 :=
    fun h => ⟨hrect.y.2, (of_decide_eq_true h).2, hrect.h⟩
  obtain ⟨hoffX, houtW, hinX⟩ :=
    axis_inside c.hasRect c.fb.w_nonneg hplane.w hsrc.1 hx rfl rfl
  obtain ⟨hoffY, houtH, hinY⟩ :=
    axis_inside c.hasRect c.fb.h_nonneg hplane.h hsrc.2 hy rfl rfl
  refine ⟨hoffX, hoffY, houtW, houtH, ?_⟩
  calc _ ↔ _ := and_congr hinX hinY
    _ ↔ RectInRange c := forall_and.symm

/-- Where there is a `--rect`, the offset is its corner moved onto the plane. -/
theorem outputRect_offY (hhas : c.hasRect = true) (ii : DecInitialInfo) :
    (outputRect c ii).offY = max c.rectY 0 := by
  simp only [outputRect, clipAxis, hhas, if_true]
  split <;> omega

end Clipping

/-! ## Writing a row -/

section Rows

variable {c : Config} {s : Span}

/-- The pixels of a row are no longer than the row. -/
theorem pixels_le_rowBytes (hplane : PlaneMapped c) :
    c.fb.w * (c.fb.bpp / 8) ≤ rowBytes c := by
  unfold rowBytes
  have hw := c.fb.w_nonneg
  split
  · rename_i hover
    rw [hplane.overlay hover, show (16 : ℤ) / 8 = 2 from rfl]
    omega
  · exact le_refl _

theorem bytesPerPixel (c : Config) : c.fb.bpp / 8 = 2 ∨ c.fb.bpp / 8 = 4 := by
  rcases c.fb.depth with h | h <;> rw [h] <;> decide

/-- A span whose row and columns are on the plane is written inside the mapping, since no step of
the offset overflows. -/
theorem Span.fits_of_onPlane (hplane : PlaneMapped c) (hrow : 0 ≤ s.row ∧ s.row < c.fb.h)
    (hcol : 0 ≤ s.col)
    (hend : s.col * (c.fb.bpp / 8) + s.bytes ≤ c.fb.w * (c.fb.bpp / 8)) : s.Fits c := by
  intro hbytes
  have hpix := pixels_le_rowBytes hplane
  have hlen := hplane.length
  have hstart : 0 ≤ s.col * (c.fb.bpp / 8) := by
    rcases bytesPerPixel c with h | h <;> rw [h] <;> omega
  have hpos : 0 ≤ rowBytes c := by omega
  -- the rows before this one, this one and all of them
  have hbefore : 0 ≤ s.row * rowBytes c := mul_nonneg hrow.1 hpos
  have hrows : s.row * rowBytes c + rowBytes c ≤ rowBytes c * c.fb.h := by
    calc s.row * rowBytes c + rowBytes c = rowBytes c * (s.row + 1) := by ring
      _ ≤ rowBytes c * c.fb.h := mul_le_mul_of_nonneg_left (by omega) hpos
  have hstride : fbStride c = rowBytes c := i32_eq (by omega) (by omega)
  have hoffset : s.offset c = s.row * rowBytes c + s.col * (c.fb.bpp / 8) := by
    unfold Span.offset
    rw [hstride, i32_eq (x := s.row * rowBytes c) (by omega) (by omega),
      i32_eq (x := s.col * (c.fb.bpp / 8)) (by omega) (by omega), i32_eq (by omega) (by omega)]
  rw [hoffset, hstride]
  exact ⟨hrow, ⟨hcol, hend⟩, by omega, by omega⟩

/-- A row of pixels fits exactly when it does on the plane. -/
theorem fits_pixels_iff (hplane : PlaneMapped c) {row col n : ℤ} (hn : 0 < n) :
    Span.Fits c ⟨row, col, n * (c.fb.bpp / 8)⟩ ↔
      (0 ≤ row ∧ row < c.fb.h) ∧ 0 ≤ col ∧ col + n ≤ c.fb.w := by
  have hcols : col * (c.fb.bpp / 8) + n * (c.fb.bpp / 8) ≤ c.fb.w * (c.fb.bpp / 8) ↔
      col + n ≤ c.fb.w := by
    rcases bytesPerPixel c with h | h <;> rw [h] <;> omega
  constructor
  · intro hfits
    have hpos : 0 < n * (c.fb.bpp / 8) := by
      rcases bytesPerPixel c with h | h <;> rw [h] <;> omega
    obtain ⟨hrow, ⟨hcol, hend⟩, -⟩ := hfits hpos
    exact ⟨hrow, hcol, hcols.mp hend⟩
  · rintro ⟨hrow, hcol, hend⟩
    exact Span.fits_of_onPlane hplane hrow hcol (hcols.mpr hend)

variable {ii : DecInitialInfo}

/-- The rows of the output rectangle. -/
theorem output_fits_iff (hplane : PlaneMapped c) (hrect : RectIsInt c) (hii : PicSizeOk ii)
    (hw : 2 ≤ (outputRect c ii).outW) (hh : 2 ≤ (outputRect c ii).outH) :
    (∀ s ∈ outputSpans c (outputRect c ii), s.Fits c) ↔ RectInRange c := by
  have hon := outputRect_onPlane hplane hrect hii
  rw [← hon.inside]
  generalize outputRect c ii = out at *
  have hx := hon.offX
  have hy := hon.offY
  have houtH := hon.outH
  have hfbh := hplane.h
  simp only [outputSpans, List.mem_map, List.mem_range, forall_exists_index, and_imp,
    forall_apply_eq_imp_iff₂, fits_pixels_iff hplane (show 0 < out.outW by omega)]
  constructor
  · -- the first row shows the columns, the last one the rows
    intro hall
    obtain ⟨-, -, hcols⟩ := hall 0 (by omega)
    obtain ⟨hlast, -⟩ := hall (out.outH.toNat - 1) (by omega)
    have hcast : ((out.outH.toNat - 1 : ℕ) : ℤ) = out.outH - 1 := by omega
    rw [hcast] at hlast
    refine ⟨hcols, ?_⟩
    unfold i32 at hlast
    omega
  · rintro ⟨hcols, hrows⟩ row hrow
    rw [i32_eq (by omega) (by omega)]
    exact ⟨by omega, hx.1, hcols⟩

/-- The loop of the blackfill begins with the first row of the rectangle. -/
theorem first_mem_blackfillRows (hrect : RectIsInt c) (hhas : c.hasRect = true)
    (hy : c.rectY < c.fb.h) : c.rectY ∈ blackfillRows c := by
  have hpos : 0 < c.rectH := (of_decide_eq_true hhas).2
  obtain ⟨n, hn⟩ : ∃ n, c.rectH.toNat = n + 1 := ⟨c.rectH.toNat - 1, by omega⟩
  have hzero : i32 (c.rectY + (0 : ℕ)) = c.rectY := by
    rw [Nat.cast_zero, add_zero]
    exact i32_eq hrect.y.1 hrect.y.2
  unfold blackfillRows
  rw [hn, List.range_succ_eq_map, List.map_cons, hzero, List.takeWhile_cons_of_pos (by simpa)]
  exact List.mem_cons_self

/-- Every row it clears is below the corner and above the bottom of the plane. -/
theorem blackfillRows_bounds (hrect : RectIsInt c) (hhas : c.hasRect = true)
    (hedges : RectInRange c) {row : ℤ} (hrow : row ∈ blackfillRows c) :
    c.rectY ≤ row ∧ row < c.fb.h := by
  obtain ⟨yy, hyy, rfl⟩ := List.mem_map.mp (List.takeWhile_subset _ hrow)
  have hfar := (hedges hhas).2
  have hmin := hrect.y.1
  have hlt : yy < c.rectH.toNat := List.mem_range.mp hyy
  have heq : i32 (c.rectY + yy) = c.rectY + yy := i32_eq (by omega) (by omega)
  refine ⟨by omega, ?_⟩
  simpa using List.all_eq_true.mp List.all_takeWhile _ hrow

/-- What is cleared in a row ends with the plane, when the row of the rectangle begins on it. -/
theorem blackfillBytes_le (hrect : RectIsInt c) (hplane : PlaneMapped c) (hhas : c.hasRect = true)
    (hedges : RectInRange c) (hx : 0 ≤ c.rectX) (hbytes : 0 < blackfillBytes c) :
    c.rectX * (c.fb.bpp / 8) + blackfillBytes c ≤ c.fb.w * (c.fb.bpp / 8) := by
  have hfar := (hedges hhas).1
  have hpos : 0 < c.rectW := (of_decide_eq_true hhas).1
  have hmax := hrect.x.2
  have hw := c.fb.w_nonneg
  have hw' := hplane.w
  unfold blackfillBytes at hbytes ⊢
  split at hbytes
  · rename_i hwidth
    rw [if_pos hwidth]
    have hclip : c.rectX + blackfillWidth c ≤ c.fb.w := by
      unfold blackfillWidth
      rw [i32_eq (by omega) (by omega), i32_eq (by omega) (by omega)]
      split <;> omega
    -- a `size_t` is no larger than the product it is made of
    unfold u32
    rcases bytesPerPixel c with h | h <;> rw [h] <;> omega
  · omega

theorem blackfill_fits_iff (hplane : PlaneMapped c) (hrect : RectIsInt c) (hii : PicSizeOk ii)
    (hh : 2 ≤ (outputRect c ii).outH) (hedges : RectInRange c) :
    (∀ s ∈ blackfillSpans c ii, s.Fits c) ↔
      (blackfills c ii = true → blackfillBytes c ≠ 0 → 0 ≤ c.rectX ∧ 0 ≤ c.rectY) := by
  unfold blackfillSpans
  by_cases hruns : blackfills c ii = true
  · have hhas : c.hasRect = true := (of_decide_eq_true hruns).2.2.1
    rw [if_pos hruns]
    simp only [List.mem_map, forall_exists_index, and_imp, forall_apply_eq_imp_iff₂, hruns,
      forall_const]
    have hnonneg : 0 ≤ blackfillBytes c := by
      unfold blackfillBytes
      split <;> omega
    constructor
    · intro hall hne
      have hinside := ((outputRect_onPlane hplane hrect hii).inside.mpr hedges).2
      rw [outputRect_offY hhas] at hinside
      have hfirst := first_mem_blackfillRows hrect hhas (show c.rectY < c.fb.h by omega)
      obtain ⟨⟨hrow, -⟩, ⟨hcol, -⟩, -⟩ :=
        hall c.rectY hfirst (show 0 < blackfillBytes c by omega)
      exact ⟨hcol, hrow⟩
    · intro hcorner row hrow hbytes
      obtain ⟨hx, hy⟩ := hcorner (ne_of_gt hbytes)
      obtain ⟨hlow, hhigh⟩ := blackfillRows_bounds hrect hhas hedges hrow
      exact Span.fits_of_onPlane hplane ⟨hy.trans hlow, hhigh⟩ hx
        (blackfillBytes_le hrect hplane hhas hedges hx hbytes) hbytes
  · rw [if_neg hruns]
    exact ⟨fun _ h => absurd h hruns, fun _ s hs => absurd hs List.not_mem_nil⟩

end Rows

/-! ## Sampling -/

section Sampling

/-- Without overflow the samples of one direction run from the first source position to the one of
the last pixel. -/
theorem nearest_bounds {k src out : ℤ} (hk : 0 ≤ k) (hk' : k < out) (hsrc : 0 ≤ src)
    (hlast : (out - 1) * src < 2147483648) :
    0 ≤ nearest k src out ∧ nearest k src out ≤ (out - 1) * src / out := by
  have hle : k * src ≤ (out - 1) * src := mul_le_mul_of_nonneg_right (by omega) hsrc
  have hpos : 0 ≤ k * src := mul_nonneg hk hsrc
  unfold nearest
  rw [i32_eq (by omega) (by omega), Int.tdiv_eq_ediv_of_nonneg hpos]
  exact ⟨Int.ediv_nonneg hpos (by omega), Int.ediv_le_ediv (by omega) hle⟩

/-- The sample of the last pixel is the furthest. -/
theorem nearest_last {src out : ℤ} (hout : 1 ≤ out) (hsrc : 0 ≤ src)
    (hlast : (out - 1) * src < 2147483648) : nearest (out - 1) src out = (out - 1) * src / out := by
  have hpos : 0 ≤ (out - 1) * src := mul_nonneg (by omega) hsrc
  unfold nearest
  rw [i32_eq (by omega) hlast, Int.tdiv_eq_ediv_of_nonneg hpos]

/-- It is inside the picture. -/
theorem last_lt {src out : ℤ} (hout : 1 ≤ out) (hsrc : 0 < src) : (out - 1) * src / out < src := by
  apply Int.ediv_lt_of_lt_mul (by omega)
  have hsplit : (out - 1) * src = src * out - src := by ring
  omega

/-- With an overflow some sample is before the first source position. -/
theorem exists_nearest_neg {src out : ℤ} (hsrc : 0 < src) (hsrc' : src < 1024)
    (hout : out < 536870912) (hlast : 2147483648 ≤ (out - 1) * src) :
    ∃ k, 0 ≤ k ∧ k < out ∧ -1024 ≤ nearest k src out ∧ nearest k src out < 0 := by
  -- the first product that is too large for an `int` is the least one by less than `src`
  have hdiv := Int.mul_ediv_add_emod 2147483647 src
  have hmod := Int.emod_lt_of_pos 2147483647 hsrc
  have hmod' := Int.emod_nonneg 2147483647 hsrc.ne'
  have hk0 : 0 ≤ (2147483647 : ℤ) / src := Int.ediv_nonneg (by omega) hsrc.le
  generalize (2147483647 : ℤ) / src = k at *
  have hprod : (k + 1) * src = src * k + src := by ring
  have hlt : k + 1 < out := by
    by_contra hge
    have := mul_le_mul_of_nonneg_right (show out - 1 ≤ k by omega) hsrc.le
    have hcomm : k * src = src * k := mul_comm k src
    omega
  have hlarge : 2097152 < out := by
    by_contra hsmall
    have := mul_le_mul_of_nonneg_left (show src ≤ 1023 by omega) (show 0 ≤ out - 1 by omega)
    omega
  refine ⟨k + 1, by omega, hlt, ?_⟩
  have hwrap : i32 ((k + 1) * src) = (k + 1) * src - 4294967296 := by
    unfold i32
    omega
  have hneg : nearest (k + 1) src out = -((4294967296 - (k + 1) * src) / out) := by
    unfold nearest
    rw [hwrap, ← neg_sub, Int.neg_tdiv, Int.tdiv_eq_ediv_of_nonneg (by omega)]
  have hup : (4294967296 - (k + 1) * src) / out < 1025 :=
    Int.ediv_lt_of_lt_mul (by omega) (by omega)
  have hlow : 1 ≤ (4294967296 - (k + 1) * src) / out := Int.le_ediv_of_mul_le (by omega) (by omega)
  omega

variable {c : Config} {ii ii₀ : DecInitialInfo} {out₀ : OutputRect} {env : AllocEnv} {b : Buffers}

/-- The planes of buffers that were allocated, in macroblocks of 16 by 16 pixels. -/
structure Planes (b : Buffers) (p q : ℕ) : Prop where
  wide : p ≤ 64
  high : q ≤ 64
  stride : b.stride = 16 * p
  ah : b.ah = 16 * q
  ysize : b.ysize = 256 * (p * q)
  csize : b.csize = 64 * (p * q)

theorem allocBuffers_planes (h : allocBuffers c ii₀ out₀ env = some b) (hii₀ : PicSizeOk ii₀) :
    ∃ p q, Planes b p q := by
  simp only [allocBuffers, bind, Option.bind_eq_some_iff, pure, Option.some.injEq] at h
  obtain ⟨fbmem, -, -, -, -, -, rfl⟩ := h
  obtain ⟨-, hw, -, hh⟩ := hii₀
  obtain ⟨p, hp, -, hp'⟩ := align16_eq ii₀.picWidth
  obtain ⟨q, hq, -, hq'⟩ := align16_eq ii₀.picHeight
  have hpq : p * q ≤ 64 * 64 := Nat.mul_le_mul (by omega) (by omega)
  have hy : ((16 * p : ℕ) : ℤ) * (16 * q : ℕ) = 256 * (p * q : ℕ) := by
    push_cast
    ring
  have hc : ((16 * p : ℕ) : ℤ) / 2 * (((16 * q : ℕ) : ℤ) / 2) = 64 * (p * q : ℕ) := by
    rw [show ((16 * p : ℕ) : ℤ) / 2 = 8 * p by omega, show ((16 * q : ℕ) : ℤ) / 2 = 8 * q by omega]
    push_cast
    ring
  refine ⟨p, q, by omega, by omega, ?_, ?_, ?_, ?_⟩
  · simp [hp]
  · simp [hq]
  · simp only [hp, hq, hy]
    rw [i32_eq (by omega) (by omega), Nat.cast_mul]
  · simp only [hp, hq, hc]
    rw [i32_eq (by omega) (by omega), Nat.cast_mul]

/-- A sample of a row inside the planes: its line has to be one of the frame. -/
theorem index_fits_iff {p q : ℕ} (hb : Planes b p q) {sy sx : ℤ} (hsy : -1024 ≤ sy)
    (hsy' : sy < 1024) (hsx : 0 ≤ sx) (hsx' : sx < b.stride) :
    ((0 ≤ lumaIndex b sy sx ∧ lumaIndex b sy sx < b.ysize) ∧
      0 ≤ chromaIndex b sy sx ∧ chromaIndex b sy sx < b.csize) ↔ 0 ≤ sy ∧ sy < b.ah := by
  have hp := hb.wide
  have hstride : b.stride.tdiv 2 = 8 * p := by
    rw [hb.stride, Int.tdiv_eq_ediv_of_nonneg (by omega)]
    omega
  have hluma : lumaIndex b sy sx = 16 * (sy * p) + sx := by
    have hlow : -1024 * (p : ℤ) ≤ sy * p := mul_le_mul_of_nonneg_right hsy (by omega)
    have hhigh : sy * p ≤ 1023 * (p : ℤ) := mul_le_mul_of_nonneg_right (by omega) (by omega)
    have hprod : sy * (16 * (p : ℤ)) = 16 * (sy * p) := by ring
    rw [hb.stride] at hsx'
    unfold lumaIndex
    rw [hb.stride, hprod, i32_eq (x := 16 * (sy * p)) (by omega) (by omega),
      i32_eq (by omega) (by omega)]
  rw [hluma, hb.ysize, hb.ah]
  rw [hb.stride] at hsx'
  constructor
  · rintro ⟨⟨hlow, hhigh⟩, -⟩
    constructor
    · by_contra hneg
      have := mul_le_mul_of_nonneg_right (show sy ≤ -1 by omega) (show (0 : ℤ) ≤ p by omega)
      omega
    · by_contra hbelow
      have := mul_le_mul_of_nonneg_right (show 16 * (q : ℤ) ≤ sy by omega)
        (show (0 : ℤ) ≤ p by omega)
      have hcomm : 16 * (q : ℤ) * p = 16 * (p * q) := by ring
      omega
  · rintro ⟨hlow, hhigh⟩
    -- the line before the last of the plane, and half of it for the chroma
    have hpos : 0 ≤ sy * (p : ℤ) := mul_nonneg hlow (by omega)
    have hrow := mul_le_mul_of_nonneg_right (show sy + 1 ≤ 16 * q by omega)
      (show (0 : ℤ) ≤ p by omega)
    have hrow' : (sy + 1) * (p : ℤ) = sy * p + p := by ring
    have hcomm : 16 * (q : ℤ) * p = 16 * (p * q) := by ring
    have hcpos : 0 ≤ sy / 2 * (p : ℤ) := mul_nonneg (by omega) (by omega)
    have hcrow := mul_le_mul_of_nonneg_right (show sy / 2 + 1 ≤ 8 * q by omega)
      (show (0 : ℤ) ≤ p by omega)
    have hcrow' : (sy / 2 + 1) * (p : ℤ) = sy / 2 * p + p := by ring
    have hccomm : 8 * (q : ℤ) * p = 8 * (p * q) := by ring
    have hpq : (p : ℤ) * q ≤ 64 * 64 := mul_le_mul (by omega) (by have := hb.high; omega)
      (by omega) (by omega)
    have hcprod : sy / 2 * (8 * (p : ℤ)) = 8 * (sy / 2 * p) := by ring
    have hchroma : chromaIndex b sy sx = 8 * (sy / 2 * p) + sx / 2 := by
      unfold chromaIndex
      rw [hstride, Int.tdiv_eq_ediv_of_nonneg hlow, Int.tdiv_eq_ediv_of_nonneg hsx, hcprod,
        i32_eq (x := 8 * (sy / 2 * p)) (by omega) (by omega), i32_eq (by omega) (by omega)]
    rw [hchroma, hb.csize]
    omega

/-- The visible picture has pixels, and is no wider than the picture. -/
theorem visibleSize_bounds (hii : PicSizeOk ii) :
    0 < (visibleSize c ii).1 ∧ 0 < (visibleSize c ii).2 ∧ (visibleSize c ii).1 ≤ ii.picWidth := by
  obtain ⟨hw, -, hh, -⟩ := hii
  unfold visibleSize
  simp only
  split
  · rename_i hcrop
    obtain ⟨-, -, -, hr, hb, hr', -⟩ := hcrop
    exact ⟨hr, hb, hr'⟩
  · exact ⟨by omega, by omega, le_refl _⟩

theorem samples_fit_iff {p q : ℕ} (hb : Planes b p q) (hii : PicSizeOk ii)
    (hstride : ii.picWidth ≤ b.stride) (hw : 2 ≤ (outputRect c ii).outW)
    (hw' : (outputRect c ii).outW < 536870912) (hh : 2 ≤ (outputRect c ii).outH)
    (hh' : (outputRect c ii).outH < 536870912) :
    SamplesFit c ii b ↔
      ((outputRect c ii).outW - 1) * (visibleSize c ii).1 < 2147483648 ∧
        ((outputRect c ii).outH - 1) * (visibleSize c ii).2 < 2147483648 ∧
        ((outputRect c ii).outH - 1) * (visibleSize c ii).2 / (outputRect c ii).outH < b.ah := by
  obtain ⟨hsw, hsh, hswide⟩ := visibleSize_bounds (c := c) hii
  obtain ⟨hsw', hsh'⟩ := visibleSize_lt (c := c) hii
  simp only [SamplesFit]
  generalize outputRect c ii = out at *
  generalize (visibleSize c ii).1 = srcW at *
  generalize (visibleSize c ii).2 = srcH at *
  have hzero : ∀ src len : ℤ, nearest 0 src len = 0 := by
    intro src len
    simp [nearest, i32]
  constructor
  · intro hall
    -- the columns of the first row, the rows of the first column
    have hcols : (out.outW - 1) * srcW < 2147483648 := by
      by_contra hover
      obtain ⟨k, hk, hk', hlow, hneg⟩ :=
        exists_nearest_neg (show (0 : ℤ) < srcW by omega) (by omega) hw' (by omega)
      have hluma := (hall 0 k (le_refl 0) (by omega) hk hk').1.1
      rw [hzero, lumaIndex, zero_mul, i32_eq (x := 0) (by decide) (by decide), zero_add,
        i32_eq (by omega) (by omega)] at hluma
      omega
    have hrow : ∀ k, 0 ≤ k → k < out.outH → -1024 ≤ nearest k srcH out.outH →
        nearest k srcH out.outH < 1024 → 0 ≤ nearest k srcH out.outH ∧
          nearest k srcH out.outH < b.ah := by
      intro k hk hk' hlow hhigh
      have hfits := hall k 0 hk hk' (le_refl 0) (by omega)
      rw [hzero] at hfits
      exact (index_fits_iff hb hlow hhigh (le_refl 0) (by omega)).mp hfits
    have hrows : (out.outH - 1) * srcH < 2147483648 := by
      by_contra hover
      obtain ⟨k, hk, hk', hlow, hneg⟩ :=
        exists_nearest_neg (show (0 : ℤ) < srcH by omega) (by omega) hh' (by omega)
      have := (hrow k hk hk' hlow (by omega)).1
      omega
    refine ⟨hcols, hrows, ?_⟩
    obtain ⟨hlow, hle⟩ :=
      nearest_bounds (k := out.outH - 1) (by omega) (by omega) (by omega) hrows
    have hlt := last_lt (show 1 ≤ out.outH by omega) (show (0 : ℤ) < srcH by omega)
    rw [← nearest_last (by omega) (by omega) hrows]
    exact (hrow (out.outH - 1) (by omega) (by omega) (by omega) (by omega)).2
  · rintro ⟨hcols, hrows, hlast⟩ row col hrow hrow' hcol hcol'
    obtain ⟨hsy, hsy'⟩ := nearest_bounds hrow hrow' (by omega) hrows
    obtain ⟨hsx, hsx'⟩ := nearest_bounds hcol hcol' (by omega) hcols
    have hright := last_lt (show 1 ≤ out.outW by omega) (show (0 : ℤ) < srcW by omega)
    have hbottom := last_lt (show 1 ≤ out.outH by omega) (show (0 : ℤ) < srcH by omega)
    exact (index_fits_iff hb (by omega) (by omega) hsx (by omega)).mpr ⟨hsy, by omega⟩

end Sampling

/-- **Accesses inside the mapping.** A session that is shown, with frame buffers that some session
allocated and whose rows the library has found long enough, writes only inside the mapping of the
plane and its columns and reads only inside the planes of the frame, exactly when it is well
placed. -/
theorem accesses_fit_iff (c : Config) (hplane : PlaneMapped c) (hrect : RectIsInt c)
    (ii ii₀ : DecInitialInfo) (out₀ : OutputRect) (env : AllocEnv) (b : Buffers)
    (hb : allocBuffers c ii₀ out₀ env = some b) (hii₀ : PicSizeOk ii₀) (hii : PicSizeOk ii)
    (hstride : ii.picWidth ≤ b.stride) (hw : 2 ≤ (outputRect c ii).outW)
    (hh : 2 ≤ (outputRect c ii).outH) : AccessesFit c ii b ↔ WellPlaced c ii b := by
  obtain ⟨p, q, hplanes⟩ := allocBuffers_planes hb hii₀
  have houtput := output_fits_iff hplane hrect hii hw hh
  have hblack := blackfill_fits_iff hplane hrect hii hh
  -- a plane that shows something is not too large in either direction
  have hsmall : RectInRange c →
      (outputRect c ii).outW < 536870912 ∧ (outputRect c ii).outH < 536870912 := by
    intro hedges
    have hon := outputRect_onPlane hplane hrect hii
    obtain ⟨hx, hy⟩ := hon.inside.mpr hedges
    have hoffX := hon.offX.1
    have hoffY := hon.offY.1
    have hmapped := c.fb.mapped
    constructor <;> nlinarith
  constructor
  · intro h
    have hedges := houtput.mp h.output
    obtain ⟨hw', hh'⟩ := hsmall hedges
    refine ⟨hedges, (hblack hedges).mp h.blackfill, ?_⟩
    intro hcpu hbpp
    exact (samples_fit_iff hplanes hii hstride hw hw' hh hh').mp (h.samples hcpu hbpp)
  · intro h
    obtain ⟨hw', hh'⟩ := hsmall h.edges
    refine ⟨(hblack h.edges).mpr h.corner, houtput.mpr h.edges, ?_⟩
    intro hcpu hbpp
    exact (samples_fit_iff hplanes hii hstride hw hw' hh hh').mpr (h.samples hcpu hbpp)

/-- `--rect -10 0 900 480` on a plane of 800 by 480 pixels. -/
def clippedRect : Config :=
  { tcpConfig with rectX := -10, rectY := 0, rectW := 900, rectH := 480 }

def vgaInfo : DecInitialInfo := ⟨640, 480, 3, ⟨0, 0, 0, 0⟩⟩

/-- The buffers of its first session. -/
def clippedBuffers : Buffers :=
  { stride := 640
    ah := 480
    ysize := 307200
    csize := 76800
    fbcount := 7
    blitBytes := 1600
    fbmem := List.replicate 7 ⟨473088, 0⟩
    rgbmem := none
    rowScratch := none
    allocedFor := (vgaInfo, ⟨0, 0, 800, 480⟩) }

theorem clippedRect_int : PlaneMapped clippedRect ∧ RectIsInt clippedRect :=
  ⟨⟨by decide, by decide, by decide, by decide⟩, ⟨by decide, by decide, by decide, by decide⟩⟩

theorem vgaInfo_size : PicSizeOk vgaInfo := by
  unfold PicSizeOk
  decide

theorem accesses_fit_iff_clippedRect :
    AccessesFit clippedRect vgaInfo clippedBuffers ↔
      WellPlaced clippedRect vgaInfo clippedBuffers :=
  accesses_fit_iff clippedRect clippedRect_int.1 clippedRect_int.2 vgaInfo vgaInfo
    ⟨0, 0, 800, 480⟩ ⟨4, List.replicate 7 (some 0), true, true, true⟩ clippedBuffers
    (by decide +kernel) vgaInfo_size vgaInfo_size (by decide) (by decide) (by decide)

/-- Its blackfill starts 20 bytes before the mapping. -/
theorem clippedRect_blackfill_outside : ¬ AccessesFit clippedRect vgaInfo clippedBuffers := by
  intro h
  have hfits := h.blackfill ⟨0, -10, 1620⟩ (by decide +kernel) (by decide)
  revert hfits
  decide

end Stream
end ToonVpu
